import MissionControl.Encoding.Delimited
import Mathlib.Data.List.Lex
import Mathlib.Data.List.Sort
import Mathlib.Data.Nat.Digits.Defs

/-! # JSON-like values

The values `canonical_bytes` accepts: `None`, booleans, unbounded integers,
finite floats, strings, byte strings, sequences and mappings with string keys.
Lists and tuples are one constructor, as in the source both are a `Sequence`.
Strings are sequences of Unicode scalar values: a Python string with a lone
surrogate has no UTF-8 form and is refused by the source before anything is
hashed. -/

namespace Canonical

open Encoding

/-- A finite float, as the shortest decimal that reads back as it:
    `± coefficient · 10 ^ exponent` with no trailing zero in the coefficient.
    That is `Decimal(str(value)).normalize()`, which is all the source uses of a
    float. A shortest decimal has at most 17 digits. -/
structure PyFloat where
  negative : Bool
  coefficient : Nat
  exponent : Int
  short : coefficient < 10 ^ 17
  normal : coefficient % 10 ≠ 0 ∨ coefficient = 0 ∧ exponent = 0
  deriving DecidableEq

namespace PyFloat

/-- Both zeros are written `0`. -/
def unsignZero (f : PyFloat) : PyFloat :=
  if f.coefficient = 0 then { f with negative := false } else f

/-- `repr` writes the float with a positive exponent, as `1e+16`: the decimal
    point would stand after the sixteenth digit. -/
def bigExponent (f : PyFloat) : Bool :=
  decide (16 < (digits f.coefficient).length + f.exponent)

end PyFloat

inductive Value where
  | none
  | bool (b : Bool)
  | int (n : Int)
  | float (f : PyFloat)
  | str (s : String)
  | bytes (b : List UInt8)
  | list (items : List Value)
  | dict (items : List (String × Value))

namespace Value

@[induction_eliminator]
theorem induct {motive : Value → Prop} (none : motive .none) (bool : ∀ b, motive (.bool b))
    (int : ∀ n, motive (.int n)) (float : ∀ f, motive (.float f)) (str : ∀ s, motive (.str s))
    (bytes : ∀ b, motive (.bytes b)) (list : ∀ items, (∀ v ∈ items, motive v) → motive (.list items))
    (dict : ∀ items, (∀ kv ∈ items, motive kv.2) → motive (.dict items)) : ∀ v, motive v :=
  @Value.rec motive (fun items => ∀ v ∈ items, motive v)
    (fun items => ∀ kv ∈ items, motive kv.2) (fun kv => motive kv.2)
    none bool int float str bytes (fun items h => list items h) (fun items h => dict items h)
    (by simp)
    (fun v items hv h w hw => by
      rcases List.mem_cons.mp hw with rfl | hw
      · exact hv
      · exact h w hw)
    (by simp)
    (fun kv items hkv h w hw => by
      rcases List.mem_cons.mp hw with rfl | hw
      · exact hkv
      · exact h w hw)
    (fun _ _ h => h)

/-- The order of a mapping's keys in the encoding: by their UTF-8 bytes. -/
def keyLE {α : Type} (a b : String × α) : Prop :=
  (utf8 a.1).map UInt8.toNat ≤ (utf8 b.1).map UInt8.toNat

instance {α : Type} : DecidableRel (keyLE (α := α)) := fun _ _ =>
  inferInstanceAs (Decidable (_ ≤ _))

instance {α : Type} : Std.Total (keyLE (α := α)) := 
  ⟨fun a b => le_total ((utf8 a.1).map UInt8.toNat) ((utf8 b.1).map UInt8.toNat)⟩

instance {α : Type} : IsTrans (String × α) keyLE := ⟨fun _ _ _ hab hbc =>
  le_trans (α := List Nat) hab hbc⟩

/-- A mapping's items, sorted by key. -/
def sortItems {α : Type} (items : List (String × α)) : List (String × α) :=
  items.insertionSort keyLE

theorem sortItems_map {α β : Type} (f : α → β) (items : List (String × α)) :
    sortItems (items.map fun kv => (kv.1, f kv.2)) = (sortItems items).map fun kv => (kv.1, f kv.2) :=
  (List.map_insertionSort keyLE keyLE (fun kv : String × α => (kv.1, f kv.2)) items
    fun _ _ _ _ => Iff.rfl).symm

theorem sortItems_idem {α : Type} (items : List (String × α)) : sortItems (sortItems items) = sortItems items :=
  (List.pairwise_insertionSort keyLE items).insertionSort_eq

/-! ## The value an encoding stands for

`normal` forgets what the encoding does not keep: the order in which a mapping
was filled and the sign of a zero. -/

mutual

def normal : Value → Value
  | .none => .none
  | .bool b => .bool b
  | .int n => .int n
  | .float f => .float f.unsignZero
  | .str s => .str s
  | .bytes b => .bytes b
  | .list items => .list (normalList items)
  | .dict items => .dict (sortItems (normalItems items))

def normalList : List Value → List Value
  | [] => []
  | v :: items => normal v :: normalList items

def normalItems : List (String × Value) → List (String × Value)
  | [] => []
  | (k, v) :: items => (k, normal v) :: normalItems items

end

@[simp] theorem normalList_eq (items : List Value) : normalList items = items.map normal := by
  induction items with
  | nil => rfl
  | cons v items ih => simp [normalList, ih]

@[simp] theorem normalItems_eq (items : List (String × Value)) :
    normalItems items = items.map fun kv => (kv.1, normal kv.2) := by
  induction items with
  | nil => rfl
  | cons kv items ih => simp [normalItems, ih]

/-- Two values with the same encoding. -/
def Same (a b : Value) : Prop := a.normal = b.normal

/-! ## Well-formed mappings -/

mutual

/-- In every mapping inside the value the keys are distinct, as in a `dict`. -/
def Distinct : Value → Prop
  | .list items => DistinctList items
  | .dict items => (items.map Prod.fst).Nodup ∧ DistinctItems items
  | _ => True

def DistinctList : List Value → Prop
  | [] => True
  | v :: items => Distinct v ∧ DistinctList items

def DistinctItems : List (String × Value) → Prop
  | [] => True
  | (_, v) :: items => Distinct v ∧ DistinctItems items

end

theorem distinctList_iff {items : List Value} : DistinctList items ↔ ∀ v ∈ items, v.Distinct := by
  induction items with
  | nil => simp [DistinctList]
  | cons v items ih => simp [DistinctList, ih]

theorem distinctItems_iff {items : List (String × Value)} :
    DistinctItems items ↔ ∀ kv ∈ items, kv.2.Distinct := by
  induction items with
  | nil => simp [DistinctItems]
  | cons kv items ih => simp [DistinctItems, ih]

end Value

end Canonical
