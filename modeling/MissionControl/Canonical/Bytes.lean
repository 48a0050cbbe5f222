import MissionControl.Canonical.Value
import Mathlib.Data.List.DropRight

/-! # AMC-CANON-1

`canonical_bytes` writes a value with explicit type tags and length prefixes. The
main result is that the encoding is injective up to the identifications the
protocol makes on purpose (`Value.Same`). -/

namespace Canonical

open Encoding

/-! ## Numbers as text -/

/-- `str(n)` of an integer. -/
def intText : Int → List Char
  | .ofNat n => digits n
  | .negSucc n => '-' :: digits (n + 1)

/-- `str.rstrip(c)` for one character. -/
def rstrip (c : Char) (text : List Char) : List Char := text.rdropWhile (· = c)

/-- `format(d, "f")` of the absolute value of a decimal. -/
def fixedPoint (coefficient : Nat) : Int → List Char
  | .ofNat e => digits coefficient ++ List.replicate e '0'
  | .negSucc k =>
    let ds := digits coefficient
    if k + 1 < ds.length then
      ds.take (ds.length - (k + 1)) ++ '.' :: ds.drop (ds.length - (k + 1))
    else
      '0' :: '.' :: (List.replicate (k + 1 - ds.length) '0' ++ ds)

def _decimal_text (f : PyFloat) : List Char :=
  if f.coefficient = 0 then ['0']
  else
    let text := (if f.negative then ['-'] else []) ++ fixedPoint f.coefficient f.exponent
    if '.' ∈ text then rstrip '.' (rstrip '0' text) else text

/-! ## Values as bytes -/

/-- A byte count and a colon, before raw bytes or a number of parts. -/
def lengthPrefix (n : Nat) : List UInt8 := ascii (digits n) ++ [':'.toUInt8]

def encStr (s : String) : List UInt8 :=
  let raw := utf8 s
  'S'.toUInt8 :: (lengthPrefix raw.length ++ raw)

mutual

def enc : Value → List UInt8
  | .none => ['N'.toUInt8]
  | .bool b => ['B'.toUInt8, if b then '1'.toUInt8 else '0'.toUInt8]
  | .int n => 'I'.toUInt8 :: (ascii (intText n) ++ [';'.toUInt8])
  | .float f => 'F'.toUInt8 :: (ascii (_decimal_text f) ++ [';'.toUInt8])
  | .str s => encStr s
  | .bytes b => 'Y'.toUInt8 :: (lengthPrefix b.length ++ b)
  | .list items => 'L'.toUInt8 :: (lengthPrefix items.length ++ encList items)
  | .dict items =>
    'D'.toUInt8 :: (lengthPrefix items.length ++
      (Value.sortItems (encItems items)).flatMap fun kv => encStr kv.1 ++ kv.2)

def encList : List Value → List UInt8
  | [] => []
  | v :: items => enc v ++ encList items

def encItems : List (String × Value) → List (String × List UInt8)
  | [] => []
  | (k, v) :: items => (k, enc v) :: encItems items

end

def HASH_PROTOCOL : String := "AMC-CANON-1"

def canonical_bytes (v : Value) : List UInt8 := utf8 HASH_PROTOCOL ++ 0 :: enc v

@[simp] theorem encList_eq (items : List Value) : encList items = items.flatMap enc := by
  induction items with
  | nil => rfl
  | cons v items ih => simp [encList, ih]

@[simp] theorem encItems_eq (items : List (String × Value)) :
    encItems items = items.map fun kv => (kv.1, enc kv.2) := by
  induction items with
  | nil => rfl
  | cons kv items ih => simp [encItems, ih]

/-! ## The texts of numbers determine the numbers -/

variable {n : Nat}

theorem not_mem_digits {c : Char} (hc : c.isDigit = false) : c ∉ digits n := by
  intro h
  rw [isDigit_of_mem_digits h] at hc
  cases hc

theorem mem_intText {n : Int} {c : Char} (h : c ∈ intText n) : c.isDigit = true ∨ c = '-' := by
  cases n with
  | ofNat n => exact .inl (isDigit_of_mem_digits h)
  | negSucc n =>
    rcases List.mem_cons.mp h with rfl | h
    · exact .inr rfl
    · exact .inl (isDigit_of_mem_digits h)

theorem intText_inj {n m : Int} (h : intText n = intText m) : n = m := by
  have hne : ∀ (a b : Nat), digits a ≠ '-' :: digits b := by
    intro a b hab
    have : '-' ∈ digits a := hab ▸ List.mem_cons_self
    exact not_mem_digits (by decide) this
  cases n with
  | ofNat n =>
    cases m with
    | ofNat m => rw [digits_inj h]
    | negSucc m => exact absurd h (hne _ _)
  | negSucc n =>
    cases m with
    | ofNat m => exact absurd h.symm (hne _ _)
    | negSucc m =>
      have := digits_inj (List.cons.inj h).2
      rw [Nat.succ.inj this]

/-- How many characters follow the decimal point. -/
def fractionLength (text : List Char) : Nat := (text.dropWhile (· ≠ '.')).length - 1

/-- The digits of a text read as one number, the point left out. -/
def significand (text : List Char) : Nat := Nat.ofDigitChars 10 (text.filter (· ≠ '.')) 0

variable {text : List Char}

theorem filter_ne_of_notMem {c : Char} (h : c ∉ text) : text.filter (· ≠ c) = text := by
  rw [List.filter_eq_self]
  intro d hd
  simp only [decide_eq_true_eq]
  rintro rfl
  exact h hd

variable {a : List Char}

variable {b : List Char}

theorem fractionLength_point (ha : '.' ∉ a) : fractionLength (a ++ '.' :: b) = b.length := by
  have hall : ∀ c ∈ a, decide (c ≠ '.') = true := by
    intro c hc
    simp only [decide_eq_true_eq]
    rintro rfl
    exact ha hc
  unfold fractionLength
  rw [List.dropWhile_append_of_pos hall]
  simp

theorem fractionLength_whole (ha : '.' ∉ a) : fractionLength a = 0 := by
  have hall : ∀ c ∈ a, decide (c ≠ '.') = true := by
    intro c hc
    simp only [decide_eq_true_eq]
    rintro rfl
    exact ha hc
  unfold fractionLength
  rw [List.dropWhile_eq_nil_iff.mpr hall]
  rfl

theorem significand_point (ha : '.' ∉ a) (hb : '.' ∉ b) :
    significand (a ++ '.' :: b) = Nat.ofDigitChars 10 (a ++ b) 0 := by
  unfold significand
  rw [List.filter_append, filter_ne_of_notMem ha, List.filter_cons_of_neg (by simp), filter_ne_of_notMem hb]

theorem significand_whole (ha : '.' ∉ a) : significand a = Nat.ofDigitChars 10 a 0 := by
  unfold significand
  rw [filter_ne_of_notMem ha]

theorem not_mem_replicate_zero : '.' ∉ List.replicate n '0' := by
  intro h
  exact absurd (List.eq_of_mem_replicate h) (by decide)

theorem fixedPoint_ofNat (c e : Nat) : fractionLength (fixedPoint c (.ofNat e)) = 0 ∧
      significand (fixedPoint c (.ofNat e)) = c * 10 ^ e := by
  have hfree : '.' ∉ digits c ++ List.replicate e '0' := by
    rw [List.mem_append]
    rintro (h | h)
    · exact not_mem_digits (by decide) h
    · exact not_mem_replicate_zero h
  refine ⟨fractionLength_whole hfree, ?_⟩
  show significand (digits c ++ List.replicate e '0') = _
  rw [significand_whole hfree, Nat.ofDigitChars_append, Nat.ofDigitChars_replicate_zero, digits,
    Nat.ofDigitChars_ten_toDigits, Nat.mul_comm]

theorem fixedPoint_negSucc (c k : Nat) : fractionLength (fixedPoint c (.negSucc k)) = k + 1 ∧
      significand (fixedPoint c (.negSucc k)) = c := by
  have hds : '.' ∉ digits c := not_mem_digits (by decide)
  simp only [fixedPoint]
  split
  · rename_i hlt
    have htake : '.' ∉ (digits c).take ((digits c).length - (k + 1)) :=
      fun h => hds (List.mem_of_mem_take h)
    have hdrop : '.' ∉ (digits c).drop ((digits c).length - (k + 1)) :=
      fun h => hds (List.mem_of_mem_drop h)
    constructor
    · rw [fractionLength_point htake, List.length_drop]
      omega
    · rw [significand_point htake hdrop, List.take_append_drop]
      exact Nat.ofDigitChars_ten_toDigits
  · rename_i hge
    have hzero : '.' ∉ ['0'] := by decide
    have htail : '.' ∉ List.replicate (k + 1 - (digits c).length) '0' ++ digits c := by
      rw [List.mem_append]
      rintro (h | h)
      · exact not_mem_replicate_zero h
      · exact hds h
    constructor
    · rw [← List.singleton_append, fractionLength_point hzero, List.length_append, List.length_replicate]
      omega
    · rw [← List.singleton_append, significand_point hzero htail, List.singleton_append,
        Nat.ofDigitChars_cons, Nat.ofDigitChars_append, Nat.ofDigitChars_replicate_zero]
      simp [digits]

variable {c : Nat}

theorem scaled_inj {d e f : Nat} (hc : c % 10 ≠ 0) (hd : d % 10 ≠ 0) (h : c * 10 ^ e = d * 10 ^ f) : c = d ∧ e = f := by
  wlog hef : e ≤ f generalizing c d e f
  · obtain ⟨h₁, h₂⟩ := this hd hc h.symm (by omega)
    exact ⟨h₁.symm, h₂.symm⟩
  obtain ⟨n, rfl⟩ := Nat.exists_eq_add_of_le hef
  rw [Nat.pow_add, Nat.mul_comm (10 ^ e), ← Nat.mul_assoc] at h
  have hcd : c = d * 10 ^ n := Nat.eq_of_mul_eq_mul_right (Nat.pow_pos (by decide)) h
  cases n with
  | zero => simpa using hcd
  | succ n =>
    exfalso
    apply hc
    rw [hcd, Nat.pow_succ, ← Nat.mul_assoc]
    exact Nat.mul_mod_left _ _

variable {e : Int}

theorem fixedPoint_inj {d : Nat} {f : Int} (hc : c % 10 ≠ 0) (hd : d % 10 ≠ 0)
    (h : fixedPoint c e = fixedPoint d f) : c = d ∧ e = f := by
  cases e with
  | ofNat e =>
    obtain ⟨hlen, hsig⟩ := fixedPoint_ofNat c e
    cases f with
    | ofNat f =>
      obtain ⟨-, hsig'⟩ := fixedPoint_ofNat d f
      rw [h, hsig'] at hsig
      obtain ⟨h₁, h₂⟩ := scaled_inj hc hd hsig.symm
      exact ⟨h₁, by rw [h₂]⟩
    | negSucc k =>
      obtain ⟨hlen', -⟩ := fixedPoint_negSucc d k
      rw [h, hlen'] at hlen
      omega
  | negSucc k =>
    obtain ⟨hlen, hsig⟩ := fixedPoint_negSucc c k
    cases f with
    | ofNat f =>
      obtain ⟨hlen', -⟩ := fixedPoint_ofNat d f
      rw [h, hlen'] at hlen
      omega
    | negSucc l =>
      obtain ⟨hlen', hsig'⟩ := fixedPoint_negSucc d l
      rw [h, hlen'] at hlen
      rw [h, hsig'] at hsig
      refine ⟨hsig.symm, ?_⟩
      have : k = l := by omega
      rw [this]

/-! ## The text of a float -/

theorem digits_snoc (c : Nat) : ∃ ds, digits c = ds ++ [Nat.digitChar (c % 10)] := by
  by_cases h : c < 10
  · exact ⟨[], by rw [digits, Nat.toDigits_of_lt_base h, Nat.mod_eq_of_lt h]; rfl⟩
  · exact ⟨_, Nat.toDigits_of_base_le (by decide) (by omega)⟩

theorem digitChar_ne (h : n < 10) (h0 : n ≠ 0) : Nat.digitChar n ≠ '0' ∧ Nat.digitChar n ≠ '.' := by
  revert h0
  revert n
  decide

theorem fixedPoint_snoc {k : Nat} : ∃ text, fixedPoint c (.negSucc k) = text ++ [Nat.digitChar (c % 10)] := by
  obtain ⟨ds, hds⟩ := digits_snoc c
  simp only [fixedPoint, hds]
  split
  · rename_i hlt
    have hle : (ds ++ [Nat.digitChar (c % 10)]).length - (k + 1) ≤ ds.length := by
      rw [List.length_append, List.length_singleton]
      omega
    rw [List.drop_append_of_le_length hle]
    exact ⟨_, (List.append_assoc _ ('.' :: _) [_]).symm⟩
  · exact ⟨_, (List.append_assoc ('0' :: '.' :: _) ds [_]).symm⟩

variable {d : Char}

theorem rstrip_snoc {c : Char} (h : d ≠ c) : rstrip c (text ++ [d]) = text ++ [d] := by
  unfold rstrip
  rw [List.rdropWhile_concat_neg]
  simpa using h

variable {f : PyFloat}

theorem _decimal_text_eq (h : f.coefficient ≠ 0) : _decimal_text f =
      (if f.negative then ['-'] else []) ++ fixedPoint f.coefficient f.exponent := by
  have h10 : f.coefficient % 10 ≠ 0 := f.normal.resolve_right fun hz => h hz.1
  simp only [_decimal_text, h, if_false]
  generalize hsign : (if f.negative then ['-'] else []) = sign
  rw [ite_eq_right_iff]
  intro hdot
  cases he : f.exponent with
  | ofNat e =>
    exfalso
    rw [he, fixedPoint] at hdot
    rcases List.mem_append.mp hdot with hdot | hdot
    · rw [← hsign] at hdot
      split at hdot <;> simp at hdot
    · rcases List.mem_append.mp hdot with hdot | hdot
      · exact not_mem_digits (by decide) hdot
      · exact not_mem_replicate_zero hdot
  | negSucc k =>
    obtain ⟨text, htext⟩ := fixedPoint_snoc (c := f.coefficient) (k := k)
    obtain ⟨hzero, hpoint⟩ := digitChar_ne (Nat.mod_lt _ (by decide)) h10
    rw [htext, ← List.append_assoc, rstrip_snoc hzero, rstrip_snoc hpoint]

theorem mem_fixedPoint (h : d ∈ fixedPoint c e) : d.isDigit = true ∨ d = '.' := by
  have hzeros : ∀ {n : Nat}, d ∈ List.replicate n '0' → d.isDigit = true := by
    intro n hd
    rw [List.eq_of_mem_replicate hd]
    decide
  cases e with
  | ofNat e =>
    rcases List.mem_append.mp h with h | h
    · exact .inl (isDigit_of_mem_digits h)
    · exact .inl (hzeros h)
  | negSucc k =>
    simp only [fixedPoint] at h
    split at h
    · rcases List.mem_append.mp h with h | h
      · exact .inl (isDigit_of_mem_digits (List.mem_of_mem_take h))
      · rcases List.mem_cons.mp h with h | h
        · exact .inr h
        · exact .inl (isDigit_of_mem_digits (List.mem_of_mem_drop h))
    · rcases List.mem_cons.mp h with rfl | h
      · exact .inl (by decide)
      · rcases List.mem_cons.mp h with h | h
        · exact .inr h
        · rcases List.mem_append.mp h with h | h
          · exact .inl (hzeros h)
          · exact .inl (isDigit_of_mem_digits h)

theorem mem_decimal_text (h : d ∈ _decimal_text f) : d.isDigit = true ∨ d = '.' ∨ d = '-' := by
  by_cases h0 : f.coefficient = 0
  · simp only [_decimal_text, h0, if_true, List.mem_singleton] at h
    exact .inl (by rw [h]; decide)
  · rw [_decimal_text_eq h0] at h
    rcases List.mem_append.mp h with h | h
    · split at h
      · exact .inr (.inr (by simpa using h))
      · simp at h
    · rcases mem_fixedPoint h with h | h
      · exact .inl h
      · exact .inr (.inl h)

theorem fixedPoint_ne_zero (h : c ≠ 0) : fixedPoint c e ≠ ['0'] := by
  intro heq
  have hz : significand ['0'] = 0 := by decide
  cases e with
  | ofNat e =>
    have := (fixedPoint_ofNat c e).2
    rw [heq, hz] at this
    rcases Nat.mul_eq_zero.mp this.symm with hc | hp
    · exact h hc
    · exact absurd hp (Nat.pos_iff_ne_zero.mp (Nat.pow_pos (by decide)))
  | negSucc k =>
    have := (fixedPoint_negSucc c k).2
    rw [heq, hz] at this
    exact h this.symm

/-- **The text of a float determines it**, up to the sign of zero. -/
theorem _decimal_text_inj {g : PyFloat} (h : _decimal_text f = _decimal_text g) :
    f.unsignZero = g.unsignZero := by
  have hminus : ∀ {c : Nat} {e : Int} {t : List Char}, fixedPoint c e ≠ '-' :: t := by
    intro c e t heq
    have : '-' ∈ fixedPoint c e := heq ▸ List.mem_cons_self
    rcases mem_fixedPoint this with hd | hd <;> revert hd <;> decide
  have hzero : ∀ {f : PyFloat}, f.coefficient ≠ 0 → _decimal_text f ≠ ['0'] := by
    intro f hf heq
    rw [_decimal_text_eq hf] at heq
    cases hn : f.negative with
    | true => simp [hn] at heq
    | false =>
      rw [hn] at heq
      exact fixedPoint_ne_zero hf heq
  by_cases hf : f.coefficient = 0
  · by_cases hg : g.coefficient = 0
    · have hfe : f.exponent = 0 := (f.normal.resolve_left (by simp [hf])).2
      have hge : g.exponent = 0 := (g.normal.resolve_left (by simp [hg])).2
      simp [PyFloat.unsignZero, hf, hg, hfe, hge]
    · rw [show _decimal_text f = ['0'] by simp [_decimal_text, hf]] at h
      exact absurd h.symm (hzero hg)
  · by_cases hg : g.coefficient = 0
    · rw [show _decimal_text g = ['0'] by simp [_decimal_text, hg]] at h
      exact absurd h (hzero hf)
    · rw [_decimal_text_eq hf, _decimal_text_eq hg] at h
      have hf10 := f.normal.resolve_right fun hz => hf hz.1
      have hg10 := g.normal.resolve_right fun hz => hg hz.1
      obtain ⟨hn, hfix⟩ : f.negative = g.negative ∧
          fixedPoint f.coefficient f.exponent = fixedPoint g.coefficient g.exponent := by
        cases hfn : f.negative <;> cases hgn : g.negative <;> simp only [hfn, hgn] at h
        · exact ⟨rfl, h⟩
        · exact absurd h hminus
        · exact absurd h.symm hminus
        · exact ⟨rfl, (List.cons.inj h).2⟩
      obtain ⟨hc, he⟩ := fixedPoint_inj hf10 hg10 hfix
      cases f
      cases g
      simp only at hn hc he hf
      subst hn hc he
      rfl

end Canonical
