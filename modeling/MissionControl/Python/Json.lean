import Mathlib.Algebra.Order.Field.Rat

/-! # Values and their equality

What a JSON text is read as, and how the language compares it: booleans, integers and floats are equal where their
values are, so that `1`, `1.0` and `True` are one key and one member, though they are three values. A NaN is equal to
nothing; where a container holds the very object it is compared with, the language looks no further, and two values of
the model are two objects. -/

namespace Python

/-- A float: what it is worth, or that it is the other zero, an infinity or not a number. -/
inductive Double where
  | finite (q : ℚ)
  | negZero
  | infinity (negative : Bool)
  | nan
deriving DecidableEq

/-- What a number is worth. -/
inductive Magnitude where
  | low
  | finite (q : ℚ)
  | high
deriving DecidableEq

def Magnitude.le : Magnitude → Magnitude → Bool
  | .low, _ => true
  | .finite _, .low => false
  | .finite q, .finite r => decide (q ≤ r)
  | .finite _, .high => true
  | .high, .high => true
  | .high, _ => false

def Double.magnitude? : Double → Option Magnitude
  | .finite q => some (.finite q)
  | .negZero => some (.finite 0)
  | .infinity negative => some (if negative then .low else .high)
  | .nan => none

inductive Json where
  | null
  | bool (b : Bool)
  | int (i : ℤ)
  | float (x : Double)
  | str (s : String)
  | list (items : List Json)
  | dict (entries : List (String × Json))

namespace Json

/-- What a value counts as among numbers. A boolean is a number. -/
def magnitude? : Json → Option Magnitude
  | .bool b => some (.finite (if b then 1 else 0))
  | .int i => some (.finite i)
  | .float x => x.magnitude?
  | _ => none

/-- Numbers that are worth the same. -/
def sameNumber (a b : Json) : Bool :=
  match a.magnitude?, b.magnitude? with
  | some x, some y => decide (x = y)
  | _, _ => false

/-- `a <= b`, for numbers -/
def le (a b : Json) : Bool :=
  match a.magnitude?, b.magnitude? with
  | some x, some y => x.le y
  | _, _ => false

/-- `a < b`, for numbers -/
def lt (a b : Json) : Bool := le a b && !sameNumber a b

/-- `isinstance(value, (int, float)) and not isinstance(value, bool)` -/
def isNumeric : Json → Bool
  | .int _ => true
  | .float _ => true
  | _ => false

mutual

/-- `a == b` -/
def eq : Json → Json → Bool
  | .null, .null => true
  | .str s, .str t => s == t
  | .list xs, .list ys => eqItems xs ys
  | .dict xs, .dict ys => xs.length == ys.length && eqEntries xs ys
  | a, b => sameNumber a b

def eqItems : List Json → List Json → Bool
  | [], [] => true
  | x :: xs, y :: ys => eq x y && eqItems xs ys
  | _, _ => false

/-- Each entry of the first has its equal in the second. -/
def eqEntries : List (String × Json) → List (String × Json) → Bool
  | [], _ => true
  | (k, x) :: xs, ys =>
    (match ys.lookup k with
      | some y => eq x y
      | none => false) && eqEntries xs ys

end

/-- `value in items` -/
def elem (value : Json) (items : List Json) : Bool := items.any fun item => eq item value

end Json

end Python
