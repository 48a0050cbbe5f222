import Mathlib.Data.List.Induction
import Mathlib.Data.List.Forall2

/-! # Hash chains

A list of entries, each carrying the hash of the one before it and its own hash.
A chain is *linked* when every entry names its predecessor and its stored hash is
the digest of its content. Two linked chains with one head are the same chain,
entry for entry, as far as the digest tells entries apart. -/

namespace Encoding

/-- What a chain's entries carry: the predecessor's hash, the stored hash, and the
    digest of the content. -/
structure HashChain (ε τ : Type) where
  prev : ε → Option τ
  hash : ε → τ
  digest : ε → τ

namespace HashChain

variable {ε τ : Type} (C : HashChain ε τ)

/-- The hash the next entry has to name, after these entries. -/
def headFrom (p : Option τ) (entries : List ε) : Option τ :=
  (entries.getLast?.map C.hash).or p

/-- The entries continue a chain whose last hash is `p`. -/
def Linked (p : Option τ) : List ε → Prop
  | [] => True
  | e :: rest => C.prev e = p ∧ C.digest e = C.hash e ∧ Linked (some (C.hash e)) rest

variable {C} {p : Option τ}

@[simp] theorem headFrom_nil : C.headFrom p [] = p := rfl

@[simp] theorem headFrom_append (entries : List ε) (e : ε) :
    C.headFrom p (entries ++ [e]) = some (C.hash e) := by
  simp [headFrom]

theorem headFrom_cons (e : ε) (rest : List ε) :
    C.headFrom p (e :: rest) = C.headFrom (some (C.hash e)) rest := by
  cases rest with
  | nil => rfl
  | cons e' rest =>
    have hlast : ∃ l, (e' :: rest).getLast? = some l := by
      rw [← Option.isSome_iff_exists, List.getLast?_isSome]
      exact List.cons_ne_nil _ _
    obtain ⟨l, hl⟩ := hlast
    simp [headFrom, List.getLast?_cons_cons, hl]

theorem linked_append {entries : List ε} {e : ε} : C.Linked p (entries ++ [e]) ↔
      C.Linked p entries ∧ C.prev e = C.headFrom p entries ∧ C.digest e = C.hash e := by
  induction entries generalizing p with
  | nil => simp [Linked]
  | cons d rest ih =>
    rw [List.cons_append]
    simp only [Linked, ih, headFrom_cons, and_assoc]

/-- **A head commits to the whole chain.** `R` is what equal digests and equal
    hashes say about two entries; the predecessor's hash is part of it. -/
theorem forall₂_of_head {R : ε → ε → Prop}
    (hdigest : ∀ e e', C.digest e = C.digest e' → C.hash e = C.hash e' → R e e')
    (hprev : ∀ e e', R e e' → C.prev e = C.prev e') {a b : List ε} (ha : C.Linked none a)
    (hb : C.Linked none b) (hhead : C.headFrom none a = C.headFrom none b) : List.Forall₂ R a b := by
  induction a using List.reverseRecOn generalizing b with
  | nil =>
    rcases List.eq_nil_or_concat b with rfl | ⟨b, e', rfl⟩
    · exact .nil
    · rw [List.concat_eq_append, headFrom_append] at hhead
      cases hhead
  | append_singleton a e ih =>
    rcases List.eq_nil_or_concat b with rfl | ⟨b, e', rfl⟩
    · rw [headFrom_append] at hhead
      cases hhead
    · rw [List.concat_eq_append] at hb hhead ⊢
      obtain ⟨ha, hpa, hda⟩ := linked_append.mp ha
      obtain ⟨hb, hpb, hdb⟩ := linked_append.mp hb
      simp only [headFrom_append, Option.some.injEq] at hhead
      have hR : R e e' := hdigest e e' (hda.trans (hhead.trans hdb.symm)) hhead
      have hrest : C.headFrom none a = C.headFrom none b := by
        rw [← hpa, ← hpb]
        exact hprev e e' hR
      exact List.rel_append (ih ha hb hrest) (.cons hR .nil)

/-- **A head commits to a chain of known length**, whatever it starts from. -/
theorem forall₂_of_length {R : ε → ε → Prop}
    (hdigest : ∀ e e', C.digest e = C.digest e' → C.hash e = C.hash e' → R e e')
    (hprev : ∀ e e', R e e' → C.prev e = C.prev e') {a b : List ε} (ha : C.Linked p a) (hb : C.Linked p b)
    (hlength : a.length = b.length) (hhead : C.headFrom p a = C.headFrom p b) : List.Forall₂ R a b := by
  induction a using List.reverseRecOn generalizing b with
  | nil =>
    rw [List.length_eq_zero_iff.mp hlength.symm]
    exact .nil
  | append_singleton a e ih =>
    rcases List.eq_nil_or_concat b with rfl | ⟨b, e', rfl⟩
    · simp at hlength
    · rw [List.concat_eq_append] at hb hhead hlength ⊢
      obtain ⟨ha, hpa, hda⟩ := linked_append.mp ha
      obtain ⟨hb, hpb, hdb⟩ := linked_append.mp hb
      simp only [headFrom_append, Option.some.injEq] at hhead
      have hR : R e e' := hdigest e e' (hda.trans (hhead.trans hdb.symm)) hhead
      have hrest : C.headFrom p a = C.headFrom p b := by
        rw [← hpa, ← hpb]
        exact hprev e e' hR
      exact List.rel_append (ih ha hb (by simpa using hlength) hrest) (.cons hR .nil)

end HashChain

end Encoding
