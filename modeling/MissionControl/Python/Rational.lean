import Mathlib.Data.Rat.Lemmas
import Mathlib.Tactic.FieldSimp
import Mathlib.Tactic.Ring
import MissionControl.Python.Text
import MissionControl.Encoding.Delimited

/-! # Fractions as text

`fractions.Fraction` reads a text (`parseFraction`) in one of three forms: a whole number, a numerator and a denominator
with a slash between them, or a decimal with an exponent. Integers have as many digits as they need; the interpreter's
limit on the digits of an integer in a text is a setting of it and stands for nothing here.

A printed fraction (`fractionText`) is read back as it was (`parseFraction_fractionText`). -/

namespace Python

open Encoding (digits)

/-! ## Digits -/

/-- Where a run of ten decimal digits starts, for each script that has its own. -/
def digitZeros : List ℕ :=
  [0x30, 0x660, 0x6f0, 0x7c0, 0x966, 0x9e6, 0xa66, 0xae6, 0xb66, 0xbe6, 0xc66, 0xce6, 0xd66, 0xde6, 0xe50, 0xed0, 0xf20,
    0x1040, 0x1090, 0x17e0, 0x1810, 0x1946, 0x19d0, 0x1a80, 0x1a90, 0x1b50, 0x1bb0, 0x1c40, 0x1c50, 0xa620, 0xa8d0,
    0xa900, 0xa9d0, 0xa9f0, 0xaa50, 0xabf0, 0xff10, 0x104a0, 0x10d30, 0x11066, 0x110f0, 0x11136, 0x111d0, 0x112f0,
    0x11450, 0x114d0, 0x11650, 0x116c0, 0x11730, 0x118e0, 0x11950, 0x11c50, 0x11d50, 0x11da0, 0x16a60, 0x16ac0,
    0x16b50, 0x1d7ce, 0x1d7d8, 0x1d7e2, 0x1d7ec, 0x1d7f6, 0x1e140, 0x1e2f0, 0x1e950, 0x1fbf0]

/-- The value of a character `\d` matches. -/
def digit? (c : Char) : Option ℕ :=
  (digitZeros.find? fun start => decide (start ≤ c.toNat ∧ c.toNat < start + 10)).map (c.toNat - ·)

/-- `int(text)` for the values of the digits. -/
def ofDigits (values : List ℕ) : ℕ := values.foldl (fun n d => 10 * n + d) 0

/-- The digits a text starts with, single underscores between them allowed (`\d*|\d+(_\d+)*`), and what follows. An
    underscore elsewhere matches nothing, and neither does what could follow. -/
def takeDigits (text : List Char) : Option (List ℕ × List Char) :=
  let isRun (c : Char) := (digit? c).isSome || c == '_'
  let run := text.takeWhile isRun
  if run.isEmpty || (split '_' run).all (!·.isEmpty) then some (run.filterMap digit?, text.dropWhile isRun) else none

/-- `([-+]?)`, and what follows. -/
def takeSign : List Char → Int × List Char
  | '-' :: text => (-1, text)
  | '+' :: text => (1, text)
  | text => (1, text)

/-! ## Reading -/

def startsWithDigit (text : List Char) : Bool := text.head?.any fun c => (digit? c).isSome

/-- `(?=\d|\.\d)` -/
def startsNumber (text : List Char) : Bool :=
  startsWithDigit text || (text.head? == some '.' && startsWithDigit text.tail)

/-- `(?:\.(?P<decimal>\d*|\d+(_\d+)*))?` -/
def takeDecimal : List Char → Option (List ℕ × List Char)
  | '.' :: text => takeDigits text
  | text => some ([], text)

/-- `(?:E(?P<exp>[-+]?\d+(_\d+)*))?`, in either case. -/
def takeExponent : List Char → Option (Int × List Char)
  | c :: text =>
    if c = 'e' ∨ c = 'E' then do
      let (sign, text) := takeSign text
      let (exp, text) ← takeDigits text
      if exp.isEmpty then none else some (sign * ofDigits exp, text)
    else some (0, c :: text)
  | [] => some (0, [])

/-- A numerator over the denominator that follows: nothing where there is none, or it is zero (`ZeroDivisionError`). -/
def overDenominator (num : List ℕ) (text : List Char) : Option ℚ := do
  let (denom, text) ← takeDigits text
  if denom.isEmpty || !text.all isSpace || ofDigits denom == 0 then none
  else some (ofDigits num / ofDigits denom)

/-- A whole number with the decimals and the exponent that follow. -/
def withDecimals (num : List ℕ) (text : List Char) : Option ℚ := do
  let (decimal, text) ← takeDecimal text
  let (exp, text) ← takeExponent text
  if text.all isSpace then some (ofDigits (num ++ decimal) / 10 ^ decimal.length * 10 ^ exp) else none

/-- What follows the numerator: a denominator, or decimals and an exponent. -/
def afterNumerator (num : List ℕ) : List Char → Option ℚ
  | '/' :: text => overDenominator num text
  | text => withDecimals num text

/-- `Fraction(text)`, nothing where it raises (`ValueError`, `ZeroDivisionError`). -/
def parseFraction (text : List Char) : Option ℚ := do
  let (sign, text) := takeSign (text.dropWhile isSpace)
  if startsNumber text then
    let (num, text) ← takeDigits text
    let value ← afterNumerator num text
    some (sign * value)
  else none

/-! ## Printing -/

/-- `str(q.numerator)` where the denominator is one, else `f"\x7bq.numerator}/\x7bq.denominator}"`. -/
def fractionText (q : ℚ) : List Char :=
  (if q.num < 0 then ['-'] else []) ++ digits q.num.natAbs ++ if q.den = 1 then [] else '/' :: digits q.den

/-! ## Reading what was printed -/

variable {c : Char} {n : ℕ} {rest : List Char}

theorem digit?_of_isDigit (h : c.isDigit = true) : digit? c = some (c.toNat - '0'.toNat) := by
  have hlo : 48 ≤ c.toNat := by
    simp only [Char.isDigit, Bool.and_eq_true, decide_eq_true_eq] at h
    exact UInt32.le_iff_toNat_le.mp h.1
  have hhi : c.toNat ≤ 57 := by
    simp only [Char.isDigit, Bool.and_eq_true, decide_eq_true_eq] at h
    exact UInt32.le_iff_toNat_le.mp h.2
  -- the ASCII digits are the first run
  have hzeros : digitZeros = 0x30 :: digitZeros.tail := rfl
  unfold digit?
  rw [hzeros, List.find?_cons_of_pos]
  · rfl
  · simp only [decide_eq_true_eq]
    omega

theorem not_isSpace_of_isDigit (h : c.isDigit = true) : isSpace c = false := by
  have hlo : 48 ≤ c.toNat := by
    simp only [Char.isDigit, Bool.and_eq_true, decide_eq_true_eq] at h
    exact UInt32.le_iff_toNat_le.mp h.1
  have hhi : c.toNat ≤ 57 := by
    simp only [Char.isDigit, Bool.and_eq_true, decide_eq_true_eq] at h
    exact UInt32.le_iff_toNat_le.mp h.2
  unfold isSpace
  simp
  omega

variable {text : List Char}

theorem split_eq_singleton {sep : Char} (h : sep ∉ text) : split sep text = [text] := by
  induction text with
  | nil => rfl
  | cons c text ih =>
    rw [List.mem_cons, not_or] at h
    unfold split
    rw [if_neg (Ne.symm h.1), ih h.2]

theorem ofDigits_digits (n : ℕ) : ofDigits ((digits n).filterMap digit?) = n := by
  have hmap : (digits n).filterMap digit? = (digits n).map fun c => c.toNat - '0'.toNat := by
    rw [← List.filterMap_eq_map]
    apply List.filterMap_congr
    intro c hc
    exact digit?_of_isDigit (Encoding.isDigit_of_mem_digits hc)
  have hvalue : Nat.ofDigitChars 10 (digits n) 0 = n := by simp [digits]
  rw [hmap]
  unfold ofDigits
  rw [List.foldl_map]
  exact hvalue

variable {ds : List Char}

/-- **Digits are taken whole**, up to what is neither a digit nor an underscore. -/
theorem takeDigits_append (hds : ∀ c ∈ ds, c.isDigit = true)
    (hrest : ∀ c, rest.head? = some c → digit? c = none ∧ c ≠ '_') :
    takeDigits (ds ++ rest) = some (ds.filterMap digit?, rest) := by
  have hrun : ∀ c ∈ ds, ((digit? c).isSome || c == '_') = true := by
    intro c hc
    rw [digit?_of_isDigit (hds c hc)]
    rfl
  have hstop : ∀ c, rest.head? = some c → ((digit? c).isSome || c == '_') = false := by
    intro c hc
    obtain ⟨hdigit, hmark⟩ := hrest c hc
    simp [hdigit, hmark]
  have hmark : '_' ∉ ds := by
    intro hmem
    have := hds _ hmem
    simp at this
  have htake : (ds ++ rest).takeWhile (fun c => (digit? c).isSome || c == '_') = ds := by
    rw [List.takeWhile_append_of_pos hrun]
    cases rest with
    | nil => simp
    | cons c rest => rw [List.takeWhile_cons_of_neg (by simp [hstop c rfl]), List.append_nil]
  have hdrop : (ds ++ rest).dropWhile (fun c => (digit? c).isSome || c == '_') = rest := by
    rw [List.dropWhile_append_of_pos hrun]
    cases rest with
    | nil => simp
    | cons c rest => rw [List.dropWhile_cons_of_neg (by simp [hstop c rfl])]
  unfold takeDigits
  simp only [htake, hdrop, split_eq_singleton hmark]
  rw [if_pos]
  simp

theorem digits_ne_nil (n : ℕ) : digits n ≠ [] := by
  have hpos : 0 < (digits n).length := Nat.length_toDigits_pos
  exact List.ne_nil_of_length_pos hpos

theorem takeSign_of_isDigit (h : text.head?.any Char.isDigit = true) : takeSign text = (1, text) := by
  unfold takeSign
  split
  · simp at h
  · simp at h
  · rfl

theorem startsNumber_of_isDigit (h : text.head?.any Char.isDigit = true) : startsNumber text = true := by
  cases text with
  | nil => simp at h
  | cons c text => simp [startsNumber, startsWithDigit, digit?_of_isDigit (by simpa using h)]

theorem dropWhile_isSpace_of_isDigit (h : text.head?.any Char.isDigit = true) :
    text.dropWhile isSpace = text := by
  cases text with
  | nil => simp at h
  | cons c text => rw [List.dropWhile_cons_of_neg (by simp [not_isSpace_of_isDigit (by simpa using h)])]

/-- A number with its sign before it. -/
def signed (negative : Bool) (text : List Char) : List Char := if negative then '-' :: text else text

/-- `-1` or `1` -/
def signOf (negative : Bool) : ℤ := if negative then -1 else 1

theorem takeSign_signed (negative : Bool) (h : text.head?.any Char.isDigit = true) :
    takeSign ((signed negative text).dropWhile isSpace) = (signOf negative, text) := by
  cases negative with
  | true => simp [signed, isSpace, takeSign, signOf]
  | false =>
    simp only [signed, Bool.false_eq_true, ↓reduceIte, dropWhile_isSpace_of_isDigit h]
    exact takeSign_of_isDigit h

/-- **Reading a number** that starts with digits is reading what follows them. -/
theorem parseFraction_signed (negative : Bool) (hds : ∀ c ∈ ds, c.isDigit = true) (hne : ds ≠ [])
    (hrest : ∀ c, rest.head? = some c → digit? c = none ∧ c ≠ '_') :
    parseFraction (signed negative (ds ++ rest)) =
      (afterNumerator (ds.filterMap digit?) rest).map fun value => (signOf negative : ℚ) * value := by
  have hhead : (ds ++ rest).head?.any Char.isDigit = true := by
    cases ds with
    | nil => exact absurd rfl hne
    | cons d ds => simpa using hds d List.mem_cons_self
  unfold parseFraction
  simp only [takeSign_signed negative hhead, startsNumber_of_isDigit hhead, takeDigits_append hds hrest, ↓reduceIte,
    Option.bind_eq_bind, Option.bind_some]
  cases afterNumerator (ds.filterMap digit?) rest <;> rfl

theorem afterNumerator_spaces (num : List ℕ) (h : ∀ c ∈ rest, isSpace c = true) :
    afterNumerator num rest = some (ofDigits num : ℚ) := by
  have hvalue : withDecimals num rest = some (ofDigits num : ℚ) := by
    have hall : rest.all isSpace = true := List.all_eq_true.mpr h
    have hdecimal : takeDecimal rest = some ([], rest) := by
      unfold takeDecimal
      split
      · exact absurd (h '.' List.mem_cons_self) (by decide)
      · rfl
    have hexp : takeExponent rest = some (0, rest) := by
      unfold takeExponent
      split
      · rename_i c text
        rw [if_neg]
        rintro (rfl | rfl)
        · exact absurd (h 'e' List.mem_cons_self) (by decide)
        · exact absurd (h 'E' List.mem_cons_self) (by decide)
      · rfl
    unfold withDecimals
    rw [hdecimal, Option.bind_eq_bind, Option.bind_some]
    simp only [hexp, Option.bind_eq_bind, Option.bind_some, hall, ↓reduceIte]
    simp
  unfold afterNumerator
  split
  · exact absurd (h '/' List.mem_cons_self) (by decide)
  · exact hvalue

theorem overDenominator_digits (num : List ℕ) (hds : ∀ c ∈ ds, c.isDigit = true) (hne : ds ≠ [])
    (hpos : ofDigits (ds.filterMap digit?) ≠ 0) (h : ∀ c ∈ rest, isSpace c = true)
    (hrest : ∀ c, rest.head? = some c → digit? c = none ∧ c ≠ '_') :
    overDenominator num (ds ++ rest) = some (ofDigits num / ofDigits (ds.filterMap digit?) : ℚ) := by
  have hempty : (ds.filterMap digit?).isEmpty = false := by
    cases ds with
    | nil => exact absurd rfl hne
    | cons d ds =>
      rw [List.filterMap_cons_some (digit?_of_isDigit (hds d List.mem_cons_self))]
      rfl
  have hzero : (ofDigits (ds.filterMap digit?) == 0) = false := beq_false_of_ne hpos
  have hspaces : rest.all isSpace = true := List.all_eq_true.mpr h
  unfold overDenominator
  rw [takeDigits_append hds hrest, Option.bind_eq_bind, Option.bind_some]
  simp only [hempty, hzero, hspaces]
  rfl

theorem parseFraction_whole (negative : Bool) (n : ℕ) :
    parseFraction (signed negative (digits n)) = some ((signOf negative : ℚ) * n) := by
  have h : parseFraction (signed negative (digits n ++ [])) = _ :=
    parseFraction_signed negative (fun c => Encoding.isDigit_of_mem_digits) (digits_ne_nil n) (by simp)
  rw [List.append_nil] at h
  rw [h, afterNumerator_spaces _ (by simp), ofDigits_digits]
  rfl

theorem parseFraction_over (negative : Bool) (n : ℕ) {m : ℕ} (hm : m ≠ 0) :
    parseFraction (signed negative (digits n ++ '/' :: digits m)) = some ((signOf negative : ℚ) * (n / m)) := by
  have hslash : ∀ c, ('/' :: digits m).head? = some c → digit? c = none ∧ c ≠ '_' := by
    intro c hc
    obtain rfl : '/' = c := by simpa using hc
    exact ⟨by decide, by decide⟩
  rw [parseFraction_signed negative (fun c => Encoding.isDigit_of_mem_digits) (digits_ne_nil n) hslash]
  show (overDenominator _ (digits m)).map _ = _
  have hdenom : overDenominator ((digits n).filterMap digit?) (digits m ++ []) = _ :=
    overDenominator_digits _ (fun c => Encoding.isDigit_of_mem_digits) (digits_ne_nil m) (by rwa [ofDigits_digits])
      (by simp) (by simp)
  rw [List.append_nil, ofDigits_digits, ofDigits_digits] at hdenom
  rw [hdenom]
  rfl

/-- **A printed fraction is read back as it was.** -/
theorem parseFraction_fractionText (q : ℚ) : parseFraction (fractionText q) = some q := by
  have hnum : (signOf (decide (q.num < 0)) : ℚ) * (q.num.natAbs : ℚ) = q.num := by
    have habs : signOf (decide (q.num < 0)) * (q.num.natAbs : ℤ) = q.num := by
      by_cases h : q.num < 0
      · simp only [signOf, h, decide_true, ↓reduceIte]
        omega
      · simp only [signOf, h, decide_false, Bool.false_eq_true, ↓reduceIte]
        omega
    have hcast := congrArg (Int.cast : ℤ → ℚ) habs
    rwa [Int.cast_mul, Int.cast_natCast] at hcast
  have hq : (q.num : ℚ) / q.den = q := q.num_div_den
  by_cases hden : q.den = 1
  · have htext : fractionText q = signed (decide (q.num < 0)) (digits q.num.natAbs) := by
      by_cases h : q.num < 0 <;> simp [fractionText, signed, h, hden]
    rw [htext, parseFraction_whole]
    rw [hnum, ← hq, hden, Nat.cast_one, div_one]
    simp
  · have htext : fractionText q = signed (decide (q.num < 0)) (digits q.num.natAbs ++ '/' :: digits q.den) := by
      by_cases h : q.num < 0 <;> simp [fractionText, signed, h, hden]
    rw [htext, parseFraction_over _ _ q.den_nz, ← mul_div_assoc, hnum, hq]

end Python
