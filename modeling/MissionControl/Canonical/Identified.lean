import MissionControl.Canonical.Injectivity

/-! # What the canonical encoding identifies

Python has two kinds of sequence and two kinds of byte string, a mapping is
filled in some order, and a float zero has a sign. `canonical_bytes` forgets
exactly these: values have the same bytes when, and only when, they are equal up
to the four identifications. -/

namespace Canonical

/-- A JSON-like value as Python has it. -/
inductive PyValue where
  | none
  | bool (b : Bool)
  | int (n : Int)
  | float (f : PyFloat)
  | str (s : String)
  | bytes (b : List UInt8)
  | bytearray (b : List UInt8)
  | list (items : List PyValue)
  | tuple (items : List PyValue)
  | dict (items : List (String × PyValue))

namespace PyValue

@[induction_eliminator]
theorem induct {motive : PyValue → Prop} (none : motive .none) (bool : ∀ b, motive (.bool b))
    (int : ∀ n, motive (.int n)) (float : ∀ f, motive (.float f)) (str : ∀ s, motive (.str s))
    (bytes : ∀ b, motive (.bytes b)) (bytearray : ∀ b, motive (.bytearray b))
    (list : ∀ items, (∀ v ∈ items, motive v) → motive (.list items))
    (tuple : ∀ items, (∀ v ∈ items, motive v) → motive (.tuple items))
    (dict : ∀ items, (∀ kv ∈ items, motive kv.2) → motive (.dict items)) : ∀ v, motive v :=
  @PyValue.rec motive (fun items => ∀ v ∈ items, motive v)
    (fun items => ∀ kv ∈ items, motive kv.2) (fun kv => motive kv.2)
    none bool int float str bytes bytearray (fun items h => list items h)
    (fun items h => tuple items h) (fun items h => dict items h)
    (by simp)
    (fun v items hv h w hw => by
      rcases List.mem_cons.mp hw with rfl | hw
      · exact hv
      · exact h w hw)
    (by simp)
    (fun kv items hkv h w hw => by
      rcases List.mem_cons.mp hw with rfl | hw
      · exact hkv
      · exact h w hw)
    (fun _ _ h => h)

mutual

/-- The value the branches of `enc` see: one branch takes every byte string, one
    every sequence. -/
def value : PyValue → Value
  | .none => .none
  | .bool b => .bool b
  | .int n => .int n
  | .float f => .float f
  | .str s => .str s
  | .bytes b | .bytearray b => .bytes b
  | .list items | .tuple items => .list (valueList items)
  | .dict items => .dict (valueItems items)

def valueList : List PyValue → List Value
  | [] => []
  | v :: items => value v :: valueList items

def valueItems : List (String × PyValue) → List (String × Value)
  | [] => []
  | (k, v) :: items => (k, value v) :: valueItems items

end

@[simp] theorem valueList_eq (items : List PyValue) : valueList items = items.map value := by
  induction items with
  | nil => rfl
  | cons v items ih => simp [valueList, ih]

@[simp] theorem valueItems_eq (items : List (String × PyValue)) :
    valueItems items = items.map fun kv => (kv.1, value kv.2) := by
  induction items with
  | nil => rfl
  | cons kv items ih => simp [valueItems, ih]

def canonical_bytes (v : PyValue) : List UInt8 := Canonical.canonical_bytes v.value

/-- The keys of every mapping inside the value are distinct. -/
def Distinct (v : PyValue) : Prop := v.value.Distinct

variable {items : List PyValue}

theorem distinct_list : (PyValue.list items).Distinct ↔ ∀ v ∈ items, v.Distinct := by
  simp [Distinct, value, Value.Distinct, Value.distinctList_iff]

theorem distinct_tuple : (PyValue.tuple items).Distinct ↔ ∀ v ∈ items, v.Distinct := by
  simp [Distinct, value, Value.Distinct, Value.distinctList_iff]

theorem distinct_dict {items : List (String × PyValue)} : (PyValue.dict items).Distinct ↔
      (items.map Prod.fst).Nodup ∧ ∀ kv ∈ items, kv.2.Distinct := by
  simp only [Distinct, value, valueItems_eq, Value.Distinct, Value.distinctItems_iff,
    List.map_map, List.forall_mem_map]
  exact Iff.rfl

end PyValue

/-- A Python value: no mapping has a key twice. -/
abbrev JsonLike : Type := { v : PyValue // v.Distinct }

open PyValue

/-! ## The identifications -/

/-- **Equal up to the identifications the code makes**: the least congruence that
    takes a tuple for a list, a byte array for a byte string, one zero for the
    other, and one order of a mapping's keys for another. -/
inductive Identified : PyValue → PyValue → Prop
  | refl (a : PyValue) : Identified a a
  | symm {a b : PyValue} : Identified a b → Identified b a
  | trans {a b c : PyValue} : Identified a b → Identified b c → Identified a c
  | tuple (items : List PyValue) : Identified (.tuple items) (.list items)
  | bytearray (b : List UInt8) : Identified (.bytearray b) (.bytes b)
  | zero {f g : PyFloat} (hf : f.coefficient = 0) (hg : g.coefficient = 0) :
      Identified (.float f) (.float g)
  | order {items items' : List (String × PyValue)} (hkeys : (items.map Prod.fst).Nodup)
      (hperm : items.Perm items') : Identified (.dict items) (.dict items')
  | item {a b : PyValue} (before after : List PyValue) :
      Identified a b → Identified (.list (before ++ a :: after)) (.list (before ++ b :: after))
  | entry {a b : PyValue} (key : String) (before after : List (String × PyValue)) :
      Identified a b →
      Identified (.dict (before ++ (key, a) :: after)) (.dict (before ++ (key, b) :: after))

namespace Identified

variable {f : PyValue → PyValue}

theorem list_map {items : List PyValue} (h : ∀ v ∈ items, Identified v (f v)) (before : List PyValue) :
    Identified (.list (before ++ items)) (.list (before ++ items.map f)) := by
  induction items generalizing before with
  | nil => exact .refl _
  | cons v items ih =>
    refine .trans (.item before items (h v List.mem_cons_self)) ?_
    have hrest := ih (fun w hw => h w (List.mem_cons_of_mem _ hw)) (before ++ [f v])
    rwa [List.append_assoc, List.append_assoc] at hrest

theorem dict_map {items : List (String × PyValue)} (h : ∀ kv ∈ items, Identified kv.2 (f kv.2))
    (before : List (String × PyValue)) :
    Identified (.dict (before ++ items)) (.dict (before ++ items.map fun kv => (kv.1, f kv.2))) := by
  induction items generalizing before with
  | nil => exact .refl _
  | cons kv items ih =>
    refine .trans (.entry kv.1 before items (h kv List.mem_cons_self)) ?_
    have hrest := ih (fun w hw => h w (List.mem_cons_of_mem _ hw)) (before ++ [(kv.1, f kv.2)])
    rwa [List.append_assoc, List.append_assoc] at hrest

end Identified

/-! ## Identified values have the same bytes -/

theorem Identified.same {a b : PyValue} (h : Identified a b) : a.value.Same b.value := by
  induction h with
  | refl a => rfl
  | symm _ ih => exact ih.symm
  | trans _ _ ih₁ ih₂ => exact ih₁.trans ih₂
  | tuple items => rfl
  | bytearray b => rfl
  | @zero f g hf hg =>
    have hzero : ∀ f : PyFloat, f.coefficient = 0 →
        f.unsignZero = ⟨false, 0, 0, by decide, .inr ⟨rfl, rfl⟩⟩ := by
      rintro ⟨n, c, e, hs, hn⟩ hc
      obtain rfl : c = 0 := hc
      obtain ⟨-, rfl⟩ := hn.resolve_left (by simp)
      rfl
    show Value.float f.unsignZero = Value.float g.unsignZero
    rw [hzero f hf, hzero g hg]
  | @order items items' hkeys hperm =>
    simp only [Value.Same, value, Value.normal, valueItems_eq, Value.normalItems_eq, List.map_map]
    refine congrArg Value.dict (sortItems_perm (hperm.map _) ?_)
    simpa [Function.comp_def] using hkeys
  | item before after _ ih =>
    simp only [Value.Same, value, Value.normal, valueList_eq, Value.normalList_eq, List.map_append,
      List.map_cons] at ih ⊢
    rw [ih]
  | entry key before after _ ih =>
    simp only [Value.Same, value, Value.normal, valueItems_eq, Value.normalItems_eq,
      List.map_append, List.map_cons] at ih ⊢
    rw [ih]

/-! ## Values with the same bytes are identified -/

mutual

/-- A value, with its sequences as lists and its byte strings as `bytes`. -/
def ofValue : Value → PyValue
  | .none => .none
  | .bool b => .bool b
  | .int n => .int n
  | .float f => .float f
  | .str s => .str s
  | .bytes b => .bytes b
  | .list items => .list (ofValueList items)
  | .dict items => .dict (ofValueItems items)

def ofValueList : List Value → List PyValue
  | [] => []
  | v :: items => ofValue v :: ofValueList items

def ofValueItems : List (String × Value) → List (String × PyValue)
  | [] => []
  | (k, v) :: items => (k, ofValue v) :: ofValueItems items

end

@[simp] theorem ofValueList_eq (items : List Value) : ofValueList items = items.map ofValue := by
  induction items with
  | nil => rfl
  | cons v items ih => simp [ofValueList, ih]

@[simp] theorem ofValueItems_eq (items : List (String × Value)) :
    ofValueItems items = items.map fun kv => (kv.1, ofValue kv.2) := by
  induction items with
  | nil => rfl
  | cons kv items ih => simp [ofValueItems, ih]

/-- The value its bytes stand for. -/
def reading (v : PyValue) : PyValue := ofValue v.value.normal

theorem reading_list (items : List PyValue) : reading (.list items) = .list (items.map reading) := by
  simp only [reading, value, valueList_eq, Value.normal, Value.normalList_eq, ofValue,
    ofValueList_eq, List.map_map]
  rfl

theorem identified_reading {v : PyValue} (hv : v.Distinct) : Identified v (reading v) := by
  induction v with
  | float f =>
    show Identified (.float f) (.float f.unsignZero)
    unfold PyFloat.unsignZero
    split
    · rename_i h
      exact .zero h h
    · exact .refl _
  | bytearray b => exact .bytearray b
  | list items ih =>
    rw [reading_list]
    exact Identified.list_map (fun v hmem => ih v hmem (distinct_list.mp hv v hmem)) []
  | tuple items ih =>
    refine .trans (.tuple items) ?_
    have hread : reading (.tuple items) = .list (items.map reading) := reading_list items
    rw [hread]
    exact Identified.list_map (fun v hmem => ih v hmem (distinct_tuple.mp hv v hmem)) []
  | dict items ih =>
    obtain ⟨hkeys, hvals⟩ := distinct_dict.mp hv
    have hitems := Identified.dict_map (f := reading) (fun kv hmem => ih kv hmem (hvals kv hmem)) []
    refine .trans hitems ?_
    have hread : reading (.dict items) =
        .dict (Value.sortItems (items.map fun kv => (kv.1, reading kv.2))) := by
      simp only [reading, value, Value.normal, ofValue, valueItems_eq, Value.normalItems_eq,
        ofValueItems_eq, List.map_map]
      rw [← Value.sortItems_map, List.map_map]
      rfl
    rw [hread, List.nil_append]
    refine .order ?_ (List.perm_insertionSort _ _).symm
    simpa [Function.comp_def] using hkeys
  | _ => exact .refl _

/-- **The canonical encoding is injective** up to the identifications the code
    makes: two values have the same bytes exactly when they are identified. -/
theorem identified_of_bytes (a b : JsonLike) :
    a.1.canonical_bytes = b.1.canonical_bytes ↔ Identified a.1 b.1 := by
  constructor
  · intro h
    have hsame : a.1.value.Same b.1.value := canonical_bytes_eq_iff.mp h
    have hread : reading a.1 = reading b.1 := congrArg ofValue hsame
    exact (identified_reading a.2).trans (hread ▸ (identified_reading b.2).symm)
  · intro h
    exact canonical_bytes_eq_iff.mpr h.same

end Canonical
