import MissionControl.Canonical.Bytes

/-! # The canonical encoding is injective

Every encoded value starts with a tag no other kind of value has, and says where
it ends: a number by its `;`, a string, a byte string, a list or a mapping by its
length. So the bytes determine the value up to `Value.Same`: the order in which a
mapping was filled and the sign of a zero. -/

namespace Canonical

open Encoding

variable {α : Type}

theorem length_sortItems (items : List (String × α)) : (Value.sortItems items).length = items.length :=
  List.length_insertionSort _ _

theorem mem_sortItems {items : List (String × α)} {kv : String × α} : kv ∈ Value.sortItems items ↔ kv ∈ items :=
  List.mem_insertionSort _

variable {y x : List UInt8}

theorem raw_inj {a b : List UInt8} (h : lengthPrefix a.length ++ (a ++ x) = lengthPrefix b.length ++ (b ++ y)) :
    a = b ∧ x = y := by
  simp only [lengthPrefix, List.append_assoc, List.singleton_append] at h
  obtain ⟨hlen, hrest⟩ := digits_terminated (t := ':') (by decide) (by decide) h
  exact List.append_inj hrest hlen

theorem lengthPrefix_inj {n m : Nat} (h : lengthPrefix n ++ x = lengthPrefix m ++ y) : n = m ∧ x = y := by
  simp only [lengthPrefix, List.append_assoc, List.singleton_append] at h
  exact digits_terminated (t := ':') (by decide) (by decide) h

theorem encStr_delimited (s : String) : DelimitedAt encStr id s := by
  intro t x y h
  simp only [encStr, List.cons_append, List.append_assoc, List.cons.injEq, true_and] at h
  obtain ⟨hraw, hxy⟩ := raw_inj h
  exact ⟨utf8_inj hraw, hxy⟩

theorem text_inj {a b : List Char} (ha : ∀ c ∈ a, c.isDigit = true ∨ c = '.' ∨ c = '-')
    (hb : ∀ c ∈ b, c.isDigit = true ∨ c = '.' ∨ c = '-')
    (h : ascii a ++ ';'.toUInt8 :: x = ascii b ++ ';'.toUInt8 :: y) : a = b ∧ x = y := by
  have hascii : ∀ {cs : List Char}, (∀ c ∈ cs, c.isDigit = true ∨ c = '.' ∨ c = '-') → ∀ c ∈ cs, IsAscii c := by
    intro cs hcs c hc
    rcases hcs c hc with h | rfl | rfl
    · exact isAscii_of_isDigit h
    · decide
    · decide
  have hfree : ∀ {cs : List Char}, (∀ c ∈ cs, c.isDigit = true ∨ c = '.' ∨ c = '-') → ';' ∉ cs := by
    intro cs hcs hm
    rcases hcs _ hm with h | h | h <;> revert h <;> decide
  obtain ⟨hab, hxy⟩ := terminated_inj (not_mem_ascii (hascii ha) (by decide) (hfree ha))
    (not_mem_ascii (hascii hb) (by decide) (hfree hb)) h
  exact ⟨ascii_inj (hascii ha) (hascii hb) hab, hxy⟩

/-- The tag a value's encoding starts with. -/
def tag : Value → Char
  | .none => 'N'
  | .bool _ => 'B'
  | .int _ => 'I'
  | .float _ => 'F'
  | .str _ => 'S'
  | .bytes _ => 'Y'
  | .list _ => 'L'
  | .dict _ => 'D'

theorem tag_isAscii (v : Value) : IsAscii (tag v) := by
  cases v <;> (simp only [tag]; decide)

theorem enc_head (v : Value) : ∃ rest, enc v = (tag v).toUInt8 :: rest := by
  cases v <;> exact ⟨_, rfl⟩

theorem tag_eq {a b : Value} (h : enc a ++ x = enc b ++ y) : tag a = tag b := by
  obtain ⟨ra, ha⟩ := enc_head a
  obtain ⟨rb, hb⟩ := enc_head b
  rw [ha, hb] at h
  exact toUInt8_inj (tag_isAscii a) (tag_isAscii b) (List.cons.inj h).1

theorem enc_dict (items : List (String × Value)) :
    enc (.dict items) = 'D'.toUInt8 :: (lengthPrefix items.length ++
      (Value.sortItems items).flatMap fun kv => encStr kv.1 ++ enc kv.2) := by
  rw [enc, encItems_eq, Value.sortItems_map, List.flatMap_map]

theorem normal_dict (items : List (String × Value)) : (Value.dict items).normal =
      .dict ((Value.sortItems items).map fun kv => (id kv.1, kv.2.normal)) := by
  rw [Value.normal, Value.normalItems_eq, Value.sortItems_map]
  rfl

theorem same_dict_iff {l l' : List (String × Value)} (hkeys : l.map Prod.fst = l'.map Prod.fst)
    (hnodup : (l.map Prod.fst).Nodup) : (Value.dict l).Same (.dict l') ↔
      l.map (fun kv => kv.2.normal) = l'.map fun kv => kv.2.normal := by
  let seen : List (String × Value) → List (String × Value) :=
    List.map fun kv => (kv.1, kv.2.normal)
  have hfst : ∀ l, (seen l).map Prod.fst = l.map Prod.fst := fun l => by
    simp [seen, Function.comp_def]
  have hsnd : ∀ l, (seen l).map Prod.snd = l.map fun kv => kv.2.normal := fun l => by
    simp [seen, Function.comp_def]
  have hsame : (Value.dict l).Same (.dict l') ↔ Value.sortItems (seen l) = Value.sortItems (seen l') := by
    simp [Value.Same, Value.normal, seen]
  rw [hsame, ← hsnd, ← hsnd]
  constructor
  · intro h
    have hmem : ∀ kv ∈ seen l, kv ∈ seen l' := fun kv hkv => by
      rw [← mem_sortItems, ← h]
      exact mem_sortItems.mpr hkv
    have hlen : (seen l).length = (seen l').length := by
      simpa [seen] using congrArg List.length hkeys
    have hnodup' : ((seen l').map Prod.fst).Nodup := by
      rw [hfst, ← hkeys]
      exact hnodup
    have hmaps : (seen l).map Prod.fst = (seen l').map Prod.fst := by
      rw [hfst, hfst, hkeys]
    -- the entry at one place has its key, hence its value, at the same place
    have heq : seen l = seen l' := by
      refine List.ext_getElem hlen fun i hi hi' => ?_
      have hkey := List.getElem_of_eq hmaps (i := i) (by simpa using hi)
      simp only [List.getElem_map] at hkey
      exact List.inj_on_of_nodup_map hnodup' (hmem _ (List.getElem_mem hi))
        (List.getElem_mem hi') hkey
    rw [heq]
  · intro h
    have heq : seen l = seen l' := by
      rw [← List.zip_unzip (seen l), ← List.zip_unzip (seen l')]
      simp only [List.unzip_eq_map, hfst, hkeys, h]
    rw [heq]

/-- **Values are delimited**: from an encoding and whatever follows it one reads
    back the value. -/
theorem enc_delimited (a : Value) : DelimitedAt enc Value.normal a := by
  induction a with
  | none =>
    intro b x y h
    have htag := tag_eq h
    cases b <;> simp only [tag, Char.reduceEq] at htag
    exact ⟨rfl, (List.cons.inj h).2⟩
  | bool p =>
    intro b x y h
    have htag := tag_eq h
    cases b <;> simp only [tag, Char.reduceEq] at htag
    rename_i q
    cases p <;> cases q
    · exact ⟨rfl, (List.cons.inj (List.cons.inj h).2).2⟩
    · exact absurd (List.cons.inj (List.cons.inj h).2).1 (by decide)
    · exact absurd (List.cons.inj (List.cons.inj h).2).1 (by decide)
    · exact ⟨rfl, (List.cons.inj (List.cons.inj h).2).2⟩
  | int n =>
    intro b x y h
    have htag := tag_eq h
    cases b <;> simp only [tag, Char.reduceEq] at htag
    simp only [enc, List.cons_append, List.append_assoc, List.nil_append, List.cons.injEq, true_and] at h
    obtain ⟨htext, hxy⟩ := text_inj
      (fun c hc => (mem_intText hc).imp_right .inr) (fun c hc => (mem_intText hc).imp_right .inr) h
    exact ⟨by rw [intText_inj htext], hxy⟩
  | float f =>
    intro b x y h
    have htag := tag_eq h
    cases b <;> simp only [tag, Char.reduceEq] at htag
    simp only [enc, List.cons_append, List.append_assoc, List.nil_append, List.cons.injEq, true_and] at h
    obtain ⟨htext, hxy⟩ := text_inj (fun c hc => mem_decimal_text hc)
      (fun c hc => mem_decimal_text hc) h
    exact ⟨by rw [Value.normal, Value.normal, _decimal_text_inj htext], hxy⟩
  | str s =>
    intro b x y h
    have htag := tag_eq h
    cases b <;> simp only [tag, Char.reduceEq] at htag
    obtain ⟨hs, hxy⟩ := encStr_delimited s _ _ _ h
    exact ⟨congrArg Value.str hs, hxy⟩
  | bytes raw =>
    intro b x y h
    have htag := tag_eq h
    cases b <;> simp only [tag, Char.reduceEq] at htag
    simp only [enc, List.cons_append, List.append_assoc, List.cons.injEq, true_and] at h
    obtain ⟨hraw, hxy⟩ := raw_inj h
    exact ⟨by rw [hraw], hxy⟩
  | list items ih =>
    intro b x y h
    have htag := tag_eq h
    cases b <;> simp only [tag, Char.reduceEq] at htag
    simp only [enc, encList_eq, List.cons_append, List.append_assoc, List.cons.injEq, true_and] at h
    obtain ⟨hlen, hrest⟩ := lengthPrefix_inj h
    obtain ⟨hitems, hxy⟩ := flatMap_inj ih hlen hrest
    exact ⟨by simp only [Value.normal, Value.normalList_eq, hitems], hxy⟩
  | dict items ih =>
    intro b x y h
    have htag := tag_eq h
    cases b <;> simp only [tag, Char.reduceEq] at htag
    rw [enc_dict, enc_dict] at h
    simp only [List.cons_append, List.append_assoc, List.cons.injEq, true_and] at h
    obtain ⟨hlen, hrest⟩ := lengthPrefix_inj h
    obtain ⟨hitems, hxy⟩ := flatMap_inj
      (fun kv hkv => (encStr_delimited kv.1).pair (ih kv (mem_sortItems.mp hkv)))
      (by rw [length_sortItems, length_sortItems, hlen]) hrest
    exact ⟨by rw [normal_dict, normal_dict, hitems], hxy⟩

theorem enc_normal (v : Value) : enc v.normal = enc v := by
  induction v with
  | float f =>
    simp only [Value.normal, enc, PyFloat.unsignZero]
    split
    · rename_i h
      simp [_decimal_text, h]
    · rfl
  | list items ih =>
    simp only [Value.normal, Value.normalList_eq, enc, encList_eq, List.length_map, List.flatMap_map]
    rw [List.flatMap_congr fun v hv => ih v hv]
  | dict items ih =>
    rw [normal_dict, enc_dict, enc_dict, List.length_map, length_sortItems]
    have hsorted : Value.sortItems ((Value.sortItems items).map fun kv => (id kv.1, kv.2.normal)) =
        (Value.sortItems items).map fun kv => (kv.1, kv.2.normal) := by
      show Value.sortItems ((Value.sortItems items).map fun kv => (kv.1, kv.2.normal)) = _
      rw [Value.sortItems_map, Value.sortItems_idem]
    rw [hsorted, List.flatMap_map]
    rw [List.flatMap_congr fun kv hkv => by rw [ih kv (mem_sortItems.mp hkv)]]
  | _ => rfl

/-- **Injectivity of the canonical encoding.** Two values have the same bytes
    exactly when they are the same up to key order and the sign of zero. -/
theorem canonical_bytes_eq_iff {a b : Value} : canonical_bytes a = canonical_bytes b ↔ a.Same b := by
  constructor
  · intro h
    have henc : enc a = enc b := (List.cons.inj (List.append_cancel_left h)).2
    exact (enc_delimited a b [] [] (by rw [List.append_nil, List.append_nil, henc])).1
  · intro h
    rw [canonical_bytes, canonical_bytes, ← enc_normal a, ← enc_normal b, h]

theorem sortItems_perm {l l' : List (String × α)} (h : l.Perm l') (hnodup : (l.map Prod.fst).Nodup) :
    Value.sortItems l = Value.sortItems l' := by
  have hl : (Value.sortItems l).Perm l := List.perm_insertionSort _ _
  have hl' : (Value.sortItems l').Perm l' := List.perm_insertionSort _ _
  have hsorted : ∀ l : List (String × α), (Value.sortItems l).Pairwise Value.keyLE :=
    List.pairwise_insertionSort _
  refine List.Perm.eq_of_pairwise ?_ (hsorted l) (hsorted l') (hl.trans (h.trans hl'.symm))
  intro a b ha hb hab hba
  have hbytes : (utf8 a.1).map UInt8.toNat = (utf8 b.1).map UInt8.toNat :=
    le_antisymm (α := List Nat) hab hba
  have hkey : a.1 = b.1 :=
    utf8_inj (List.map_injective_iff.mpr (fun _ _ => UInt8.toNat_inj.mp) hbytes)
  exact List.inj_on_of_nodup_map hnodup (hl.subset ha) (h.symm.subset (hl'.subset hb)) hkey

end Canonical
