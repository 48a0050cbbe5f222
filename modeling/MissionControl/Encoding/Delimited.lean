import Mathlib.Data.List.Basic
import Mathlib.Data.List.Nodup

/-! # Delimited encodings

An encoding is *delimited* when the end of an encoded value can be found without
looking past it: from `enc a` followed by anything one reads back both the value
and the rest. Encodings that are delimited can be written one after the other
without a separator, and the result determines every part.

What is read back is `val a`, which may forget something the encoding does not
keep. The notion is stated for one value at a time, so that a proof about a
recursive encoding can use it for the parts only. -/

namespace Encoding

variable {α β γ : Type}

/-- Whatever follows, the encodings that start the way `enc a` does are of `val a`. -/
def DelimitedAt (enc : α → List β) (val : α → γ) (a : α) : Prop :=
  ∀ b x y, enc a ++ x = enc b ++ y → val a = val b ∧ x = y

variable {val : α → γ} {y x : List β} {enc : α → List β}

theorem flatMap_inj {l l' : List α} (h : ∀ a ∈ l, DelimitedAt enc val a) (hlen : l.length = l'.length)
    (heq : l.flatMap enc ++ x = l'.flatMap enc ++ y) : l.map val = l'.map val ∧ x = y := by
  induction l generalizing l' with
  | nil =>
    cases l' with
    | nil => exact ⟨rfl, heq⟩
    | cons b l' => simp at hlen
  | cons a l ih =>
    cases l' with
    | nil => simp at hlen
    | cons b l' =>
      simp only [List.flatMap_cons, List.append_assoc] at heq
      obtain ⟨hab, hrest⟩ := h a List.mem_cons_self b _ _ heq
      obtain ⟨hl, hxy⟩ := ih (fun a ha => h a (List.mem_cons_of_mem _ ha)) (by simpa using hlen) hrest
      exact ⟨by rw [List.map_cons, List.map_cons, hab, hl], hxy⟩

theorem DelimitedAt.pair {α' γ' : Type} {enc' : α' → List β} {val' : α' → γ'} {a : α × α'}
    (h : DelimitedAt enc val a.1) (h' : DelimitedAt enc' val' a.2) :
    DelimitedAt (fun p : α × α' => enc p.1 ++ enc' p.2) (fun p => (val p.1, val' p.2)) a := by
  intro b x y heq
  simp only [List.append_assoc] at heq
  obtain ⟨h₁, hrest⟩ := h _ _ _ heq
  obtain ⟨h₂, hxy⟩ := h' _ _ _ hrest
  exact ⟨Prod.ext h₁ h₂, hxy⟩

theorem terminated_inj {a b : List β} {t : β} (ha : t ∉ a) (hb : t ∉ b) (h : a ++ t :: x = b ++ t :: y) :
    a = b ∧ x = y := by
  induction a generalizing b with
  | nil =>
    cases b with
    | nil => exact ⟨rfl, by simpa using h⟩
    | cons c b =>
      obtain ⟨rfl, -⟩ : t = c ∧ _ := by simpa using h
      exact absurd List.mem_cons_self hb
  | cons c a ih =>
    cases b with
    | nil =>
      obtain ⟨rfl, -⟩ : c = t ∧ _ := by simpa using h
      exact absurd List.mem_cons_self ha
    | cons d b =>
      obtain ⟨rfl, hab⟩ : c = d ∧ a ++ t :: x = b ++ t :: y := by simpa using h
      obtain ⟨rfl, hxy⟩ := ih (fun hm => ha (List.mem_cons_of_mem _ hm))
        (fun hm => hb (List.mem_cons_of_mem _ hm)) hab
      exact ⟨rfl, hxy⟩

/-! ## ASCII texts -/

/-- A text as bytes, one byte a character. -/
def ascii (cs : List Char) : List UInt8 := cs.map Char.toUInt8

/-- The characters ASCII has. -/
def IsAscii (c : Char) : Prop := c.toNat < 128

instance : DecidablePred IsAscii := fun _ => inferInstanceAs (Decidable (_ < _))

variable {c : Char}

theorem toUInt8_inj {d : Char} (hc : IsAscii c) (hd : IsAscii d) (h : c.toUInt8 = d.toUInt8) : c = d := by
  have hn : c.toUInt8.toNat = d.toUInt8.toNat := congrArg UInt8.toNat h
  simp only [Char.toUInt8, UInt32.toNat_toUInt8] at hn
  simp only [IsAscii, Char.toNat] at hc hd
  apply Char.ext
  apply UInt32.toNat_inj.mp
  omega

theorem ascii_inj {a b : List Char} (ha : ∀ c ∈ a, IsAscii c) (hb : ∀ c ∈ b, IsAscii c)
    (h : ascii a = ascii b) : a = b := by
  induction a generalizing b with
  | nil =>
    cases b with
    | nil => rfl
    | cons d b => simp [ascii] at h
  | cons c a ih =>
    cases b with
    | nil => simp [ascii] at h
    | cons d b =>
      obtain ⟨hcd, hrest⟩ : c.toUInt8 = d.toUInt8 ∧ ascii a = ascii b := by simpa [ascii] using h
      have hc := toUInt8_inj (ha c List.mem_cons_self) (hb d List.mem_cons_self) hcd
      have hr := ih (fun x hx => ha x (List.mem_cons_of_mem _ hx))
        (fun x hx => hb x (List.mem_cons_of_mem _ hx)) hrest
      rw [hc, hr]

theorem not_mem_ascii {cs : List Char} (hcs : ∀ d ∈ cs, IsAscii d) (hc : IsAscii c) (h : c ∉ cs) :
    c.toUInt8 ∉ ascii cs := by
  intro hm
  obtain ⟨d, hd, hdc⟩ := List.mem_map.mp hm
  exact h (toUInt8_inj (hcs d hd) hc hdc ▸ hd)

/-! ## Decimal numbers -/

theorem isAscii_of_isDigit (h : c.isDigit = true) : IsAscii c := by
  simp only [Char.isDigit, Bool.and_eq_true, decide_eq_true_eq] at h
  obtain ⟨-, h⟩ := h
  simp only [IsAscii, Char.toNat]
  have : c.val.toNat ≤ '9'.val.toNat := UInt32.le_iff_toNat_le.mp h
  have h9 : '9'.val.toNat = 57 := rfl
  omega

/-- The decimal digits of a number. -/
def digits (n : Nat) : List Char := Nat.toDigits 10 n

variable {n : Nat}

theorem isDigit_of_mem_digits (h : c ∈ digits n) : c.isDigit = true :=
  Nat.isDigit_of_mem_toDigits (by decide) (by decide) h

theorem digits_inj {m : Nat} (h : digits n = digits m) : n = m := by
  have := congrArg (fun cs => Nat.ofDigitChars 10 cs 0) h
  simpa [digits] using this

theorem digits_terminated {m : Nat} {t : Char} {x y : List UInt8} (ht : IsAscii t) (hd : t.isDigit = false)
    (h : ascii (digits n) ++ t.toUInt8 :: x = ascii (digits m) ++ t.toUInt8 :: y) : n = m ∧ x = y := by
  have hfree : ∀ k, t.toUInt8 ∉ ascii (digits k) := by
    intro k
    refine not_mem_ascii (fun d hd => isAscii_of_isDigit (isDigit_of_mem_digits hd)) ht ?_
    intro hm
    rw [isDigit_of_mem_digits hm] at hd
    cases hd
  obtain ⟨hdig, hxy⟩ := terminated_inj (hfree n) (hfree m) h
  have := ascii_inj (fun d hd => isAscii_of_isDigit (isDigit_of_mem_digits hd))
    (fun d hd => isAscii_of_isDigit (isDigit_of_mem_digits hd)) hdig
  exact ⟨digits_inj this, hxy⟩

/-! ## UTF-8 texts -/

/-- A text as UTF-8. -/
def utf8 (s : String) : List UInt8 := s.toUTF8.data.toList

theorem utf8_inj {s t : String} (h : utf8 s = utf8 t) : s = t := by
  apply String.toByteArray_inj.mp
  apply ByteArray.ext
  exact Array.toList_inj.mp h

end Encoding

/-! # UTF-16

A text as code units, as a runtime keeps it whose strings are arrays of 16-bit
units. Every text of scalar values has one form (`utf16`), and the lists of units
that are no such form are those with a surrogate outside a pair. -/

namespace Encoding

/-- The first unit of a pair. -/
def isHigh (u : UInt16) : Bool := decide (0xD800 ≤ u.toNat ∧ u.toNat ≤ 0xDBFF)

/-- The second unit of a pair. -/
def isLow (u : UInt16) : Bool := decide (0xDC00 ≤ u.toNat ∧ u.toNat ≤ 0xDFFF)

/-- One unit for a character of the basic plane, a pair for any other. -/
def charUnits (c : Char) : List UInt16 :=
  if c.toNat < 0x10000 then
    [UInt16.ofNat c.toNat]
  else
    [UInt16.ofNat (0xD800 + (c.toNat - 0x10000) / 0x400),
      UInt16.ofNat (0xDC00 + (c.toNat - 0x10000) % 0x400)]

def utf16 (s : String) : List UInt16 := s.toList.flatMap charUnits

/-- The character a unit stands for by itself. A lone surrogate is read as the
    replacement character. -/
def unitChar (u : UInt16) : Char :=
  if isHigh u || isLow u then Char.ofNat 0xFFFD else Char.ofNat u.toNat

/-- The character of a pair. -/
def pairChar (hi lo : UInt16) : Char :=
  Char.ofNat (0x10000 + (hi.toNat - 0xD800) * 0x400 + (lo.toNat - 0xDC00))

/-- The characters a list of units is read as, whether it is well formed or not. -/
def scalars : List UInt16 → List Char
  | [] => []
  | [u] => [unitChar u]
  | hi :: lo :: us =>
    if isHigh hi && isLow lo then pairChar hi lo :: scalars us
    else unitChar hi :: scalars (lo :: us)

/-- A surrogate outside a pair, in units that stand after `before`. -/
def loneAfter (before : Option UInt16) : List UInt16 → Bool
  | [] => false
  | u :: us =>
    (isHigh u && !us.head?.any isLow) || (isLow u && !before.any isHigh) || loneAfter (some u) us

/-! ## One character -/

variable {u : UInt16}

theorem isLow_of_isHigh (h : isHigh u = true) : isLow u = false := by
  simp only [isHigh, isLow, decide_eq_true_eq, decide_eq_false_iff_not] at *
  omega

variable {n : Nat}

theorem toNat_ofNat (h : n < 0x10000) : (UInt16.ofNat n).toNat = n := by
  simp only [UInt16.toNat_ofNat']
  omega

theorem toNat_charOfNat (h : n < 0xD800 ∨ 0xDFFF < n ∧ n < 0x110000) : (Char.ofNat n).toNat = n := by
  have hv : n.isValidChar := h
  unfold Char.ofNat
  rw [dif_pos hv]
  rfl

theorem toNat_bounds (c : Char) : c.toNat < 0xD800 ∨ 0xDFFF < c.toNat ∧ c.toNat < 0x110000 := by
  have h := c.valid
  simp only [UInt32.isValidChar, Nat.isValidChar] at h
  exact h

theorem charOfNat_toNat {c : Char} (h : c.toNat = n) : Char.ofNat n = c := by
  apply Char.toNat_inj.mp
  rw [toNat_charOfNat (h ▸ toNat_bounds c), h]

theorem charUnits_unitChar (hh : isHigh u = false) (hl : isLow u = false) : charUnits (unitChar u) = [u] := by
  have hlt : u.toNat < 0x10000 := u.toNat_lt
  have hval : (unitChar u).toNat = u.toNat := by
    simp only [unitChar, hh, hl, Bool.or_self, Bool.false_eq_true, if_false]
    apply toNat_charOfNat
    simp only [isHigh, isLow, decide_eq_false_iff_not] at hh hl
    omega
  rw [charUnits, if_pos (by omega), hval, UInt16.ofNat_toNat]

variable {lo hi : UInt16}

theorem charUnits_pairChar (hh : isHigh hi = true) (hl : isLow lo = true) :
    charUnits (pairChar hi lo) = [hi, lo] := by
  simp only [isHigh, isLow, decide_eq_true_eq] at hh hl
  have hval : (pairChar hi lo).toNat = 0x10000 + (hi.toNat - 0xD800) * 0x400 + (lo.toNat - 0xDC00) :=
    toNat_charOfNat (by omega)
  have hhi : 0xD800 + ((pairChar hi lo).toNat - 0x10000) / 0x400 = hi.toNat := by
    rw [hval]
    omega
  have hlo : 0xDC00 + ((pairChar hi lo).toNat - 0x10000) % 0x400 = lo.toNat := by
    rw [hval]
    omega
  rw [charUnits, if_neg (by omega), hhi, hlo, UInt16.ofNat_toNat, UInt16.ofNat_toNat]

theorem charUnits_cases (c : Char) :
    (∃ u, charUnits c = [u] ∧ isHigh u = false ∧ isLow u = false ∧ unitChar u = c) ∨
      ∃ hi lo, charUnits c = [hi, lo] ∧ isHigh hi = true ∧ isLow lo = true ∧ pairChar hi lo = c := by
  have hc := toNat_bounds c
  by_cases h : c.toNat < 0x10000
  · have hval : (UInt16.ofNat c.toNat).toNat = c.toNat := toNat_ofNat h
    have hh : isHigh (UInt16.ofNat c.toNat) = false := by
      simp only [isHigh, hval, decide_eq_false_iff_not]
      omega
    have hl : isLow (UInt16.ofNat c.toNat) = false := by
      simp only [isLow, hval, decide_eq_false_iff_not]
      omega
    refine .inl ⟨UInt16.ofNat c.toNat, if_pos h, hh, hl, ?_⟩
    simp only [unitChar, hh, hl, Bool.or_self, Bool.false_eq_true, if_false, hval]
    exact charOfNat_toNat rfl
  · have hhi : (UInt16.ofNat (0xD800 + (c.toNat - 0x10000) / 0x400)).toNat =
        0xD800 + (c.toNat - 0x10000) / 0x400 := toNat_ofNat (by omega)
    have hlo : (UInt16.ofNat (0xDC00 + (c.toNat - 0x10000) % 0x400)).toNat =
        0xDC00 + (c.toNat - 0x10000) % 0x400 := toNat_ofNat (by omega)
    refine .inr ⟨_, _, if_neg h, ?_, ?_, ?_⟩
    · simp only [isHigh, hhi, decide_eq_true_eq]
      omega
    · simp only [isLow, hlo, decide_eq_true_eq]
      omega
    · simp only [pairChar, hhi, hlo]
      exact charOfNat_toNat (by omega)

/-! ## Whole texts -/

theorem scalars_unit (us : List UInt16) (h : isHigh u = false) :
    scalars (u :: us) = unitChar u :: scalars us := by
  cases us with
  | nil => rfl
  | cons v us => simp [scalars, h]

theorem scalars_pair (us : List UInt16) (hh : isHigh hi = true) (hl : isLow lo = true) :
    scalars (hi :: lo :: us) = pairChar hi lo :: scalars us := by
  simp [scalars, hh, hl]

theorem scalars_charUnits (c : Char) (us : List UInt16) : scalars (charUnits c ++ us) = c :: scalars us := by
  rcases charUnits_cases c with ⟨u, hu, hh, -, hc⟩ | ⟨hi, lo, hu, hh, hl, hc⟩
  · rw [hu, List.singleton_append, scalars_unit us hh, hc]
  · rw [hu, List.cons_append, List.singleton_append, scalars_pair us hh hl, hc]

/-- **A text is read back from its units.** -/
theorem scalars_utf16 (s : String) : scalars (utf16 s) = s.toList := by
  unfold utf16
  induction s.toList with
  | nil => rfl
  | cons c cs ih => rw [List.flatMap_cons, scalars_charUnits, ih]

variable {us : List UInt16}

theorem loneAfter_charUnits (c : Char) (h : ∀ before, loneAfter before us = false) (before : Option UInt16) :
    loneAfter before (charUnits c ++ us) = false := by
  rcases charUnits_cases c with ⟨u, hu, hh, hl, -⟩ | ⟨hi, lo, hu, hh, hl, -⟩
  · simp [hu, loneAfter, hh, hl, h]
  · have hhl := isLow_of_isHigh hh
    have hlh : isHigh lo = false := by
      cases hlo : isHigh lo with
      | false => rfl
      | true => rw [isLow_of_isHigh hlo] at hl; cases hl
    simp [hu, loneAfter, hh, hl, hhl, hlh, h]

theorem loneAfter_utf16 (s : String) : loneAfter none (utf16 s) = false := by
  suffices h : ∀ before, loneAfter before (utf16 s) = false from h none
  unfold utf16
  induction s.toList with
  | nil => exact fun _ => rfl
  | cons c cs ih =>
    rw [List.flatMap_cons]
    exact loneAfter_charUnits c ih

theorem utf16_scalars : ∀ {before : Option UInt16}, before.any isHigh = false → loneAfter before us = false →
      (scalars us).flatMap charUnits = us := by
  induction us using scalars.induct with
  | case1 => exact fun _ _ => rfl
  | case2 u =>
    intro before hb h
    simp only [loneAfter, List.head?_nil, Option.any_none, Bool.not_false, Bool.and_true, hb,
      Bool.or_eq_false_iff] at h
    simp [scalars, charUnits_unitChar h.1.1 h.1.2]
  | case3 hi lo us hpair ih =>
    intro before hb h
    obtain ⟨hh, hl⟩ := Bool.and_eq_true_iff.mp hpair
    have hlo : isHigh lo = false := by
      cases hlo : isHigh lo with
      | false => rfl
      | true => rw [isLow_of_isHigh hlo] at hl; cases hl
    have hrest : loneAfter (some lo) us = false := by
      simp only [loneAfter, Bool.or_eq_false_iff] at h
      exact h.2.2
    rw [scalars_pair us hh hl, List.flatMap_cons, charUnits_pairChar hh hl, ih (by simpa) hrest]
    rfl
  | case4 hi lo us hpair ih =>
    intro before hb h
    have hparts := h
    rw [loneAfter] at hparts
    simp only [List.head?_cons, Option.any_some, hb, Bool.not_false, Bool.and_true,
      Bool.or_eq_false_iff] at hparts
    obtain ⟨⟨hhi, hlo⟩, hrest⟩ := hparts
    have hh : isHigh hi = false := by
      cases hh : isHigh hi with
      | false => rfl
      | true =>
        rw [hh] at hhi hpair
        rw [Bool.true_and, Bool.not_eq_false'] at hhi
        exact absurd hhi hpair
    rw [scalars_unit _ hh, List.flatMap_cons, charUnits_unitChar hh hlo, ih (by simpa) hrest]
    rfl

/-- The text whose units these are. -/
def ofUtf16? (us : List UInt16) : Option String :=
  let s := String.ofList (scalars us)
  if utf16 s = us then some s else none

theorem ofUtf16?_utf16 (s : String) : ofUtf16? (utf16 s) = some s := by
  simp [ofUtf16?, scalars_utf16]

/-- **Units are a text exactly when no surrogate among them stands alone.** -/
theorem ofUtf16?_eq (us : List UInt16) :
    ofUtf16? us = if loneAfter none us then none else some (String.ofList (scalars us)) := by
  cases h : loneAfter none us with
  | false =>
    have : utf16 (String.ofList (scalars us)) = us := by
      simpa [utf16] using utf16_scalars rfl h
    simp [ofUtf16?, this]
  | true =>
    have : utf16 (String.ofList (scalars us)) ≠ us := by
      intro heq
      rw [← heq, loneAfter_utf16] at h
      cases h
    simp [ofUtf16?, this]

end Encoding
