import MissionControl.Canonical.Value
import MissionControl.Python.Text

/-! # Objects

What a Python function returns, as far as JSON can write it: a tuple is not a list, and a key need
not be a string. JSON keeps neither difference. -/

namespace Python

open Canonical (PyFloat)

/-- A key of a `dict`: a string, or another key with the text that JSON writes for it. -/
inductive Key where
  | str (s : String)
  | other (text : String)
  deriving DecidableEq

def Key.text : Key → String
  | str s | other s => s

inductive Object where
  | none
  | bool (b : Bool)
  | int (n : Int)
  | float (f : PyFloat)
  | str (s : String)
  | list (items : List Object)
  | tuple (items : List Object)
  | dict (items : List (Key × Object))

namespace Object

@[induction_eliminator]
theorem induct {motive : Object → Prop} (none : motive .none) (bool : ∀ b, motive (.bool b))
    (int : ∀ n, motive (.int n)) (float : ∀ f, motive (.float f)) (str : ∀ s, motive (.str s))
    (list : ∀ items, (∀ o ∈ items, motive o) → motive (.list items))
    (tuple : ∀ items, (∀ o ∈ items, motive o) → motive (.tuple items))
    (dict : ∀ items, (∀ kv ∈ items, motive kv.2) → motive (.dict items)) : ∀ o, motive o :=
  @Object.rec motive (fun items => ∀ o ∈ items, motive o)
    (fun items => ∀ kv ∈ items, motive kv.2) (fun kv => motive kv.2)
    none bool int float str (fun items h => list items h) (fun items h => tuple items h)
    (fun items h => dict items h)
    (by simp)
    (fun o items ho h => List.forall_mem_cons.mpr ⟨ho, h⟩)
    (by simp)
    (fun kv items hkv h => List.forall_mem_cons.mpr ⟨hkv, h⟩)
    (fun _ _ h => h)

/-! ## Fields -/

/-- `o.get(key)`; `none` where there is no such key, or `o` is no `dict`. -/
def get (o : Object) (key : String) : Option Object :=
  match o with
  | .dict items => (items.find? (·.1 = .str key)).map Prod.snd
  | _ => Option.none

def text? : Object → Option String
  | .str s => some s
  | _ => Option.none

/-- The strings in `o.get(key) or []`. -/
def texts (o : Object) (key : String) : List String :=
  match o.get key with
  | some (.list items) => items.filterMap text?
  | _ => []

/-- `o.get(key) == text` -/
def hasText (o : Object) (key text : String) : Bool := (o.get key).bind text? = some text

/-! ## JSON -/

/-- Put a key into a `dict`. A key that is there keeps its place. -/
def putItem (items : List (Key × Object)) (kv : Key × Object) : List (Key × Object) :=
  if kv.1 ∈ items.map Prod.fst then items.map fun x => if x.1 = kv.1 then kv else x
  else items ++ [kv]

/-- The `dict` of these items. -/
def dictOf (items : List (Key × Object)) : List (Key × Object) := items.foldl putItem []

mutual

/-- `json.loads(json.dumps(o))` -/
def json : Object → Object
  | .none => .none
  | .bool b => .bool b
  | .int n => .int n
  | .float f => .float f
  | .str s => .str s
  | .list items => .list (jsonList items)
  | .tuple items => .list (jsonList items)
  | .dict items => .dict (dictOf (jsonItems items))

def jsonList : List Object → List Object
  | [] => []
  | o :: items => json o :: jsonList items

def jsonItems : List (Key × Object) → List (Key × Object)
  | [] => []
  | (k, o) :: items => (.str k.text, json o) :: jsonItems items

end

theorem jsonList_eq (items : List Object) : jsonList items = items.map json := by
  induction items with
  | nil => rfl
  | cons o items ih => rw [jsonList, ih, List.map_cons]

theorem jsonItems_eq (items : List (Key × Object)) :
    jsonItems items = items.map fun kv => (.str kv.1.text, json kv.2) := by
  induction items with
  | nil => rfl
  | cons kv items ih => rw [jsonItems, ih, List.map_cons]

/-! ## Dicts -/

theorem keys_putItem (items : List (Key × Object)) (kv : Key × Object) : (putItem items kv).map Prod.fst =
      if kv.1 ∈ items.map Prod.fst then items.map Prod.fst else items.map Prod.fst ++ [kv.1] := by
  unfold putItem
  split
  · rw [List.map_map]
    apply List.map_congr_left
    intro x hx
    show (if x.1 = kv.1 then kv else x).1 = x.1
    split
    · rename_i h
      exact h.symm
    · rfl
  · rw [List.map_append, List.map_singleton]

variable {items acc : List (Key × Object)}

theorem nodup_foldl_putItem (h : (acc.map Prod.fst).Nodup) :
    ((items.foldl putItem acc).map Prod.fst).Nodup := by
  induction items generalizing acc with
  | nil => exact h
  | cons kv items ih =>
    apply ih
    rw [keys_putItem]
    split
    · exact h
    · rename_i hnew
      exact List.nodup_append.mpr ⟨h, List.nodup_singleton _, fun a ha b hb hab =>
        hnew (List.mem_singleton.mp hb ▸ hab ▸ ha)⟩

theorem nodup_dictOf (items : List (Key × Object)) : ((dictOf items).map Prod.fst).Nodup :=
  nodup_foldl_putItem List.nodup_nil

theorem mem_keys_foldl_putItem {k : Key} (h : k ∈ (items.foldl putItem acc).map Prod.fst) :
    k ∈ acc.map Prod.fst ∨ k ∈ items.map Prod.fst := by
  induction items generalizing acc with
  | nil => exact .inl h
  | cons kv items ih =>
    rw [List.map_cons, List.mem_cons]
    rcases ih h with h | h
    · rw [keys_putItem] at h
      split at h
      · exact .inl h
      · rcases List.mem_append.mp h with h | h
        · exact .inl h
        · exact .inr (.inl (List.mem_singleton.mp h))
    · exact .inr (.inr h)

theorem mem_keys_dictOf {k : Key} (h : k ∈ (dictOf items).map Prod.fst) : k ∈ items.map Prod.fst :=
  (mem_keys_foldl_putItem h).resolve_left List.not_mem_nil

theorem foldl_putItem_of_nodup (h : ((acc ++ items).map Prod.fst).Nodup) : items.foldl putItem acc = acc ++ items := by
  induction items generalizing acc with
  | nil => exact (List.append_nil acc).symm
  | cons kv items ih =>
    have hnew : kv.1 ∉ acc.map Prod.fst := by
      intro hmem
      rw [List.map_append, List.nodup_append] at h
      exact h.2.2 _ hmem kv.1 List.mem_cons_self rfl
    have hput : putItem acc kv = acc ++ [kv] := if_neg hnew
    rw [List.foldl_cons, hput, ih, List.append_assoc, List.singleton_append]
    rwa [List.append_assoc, List.singleton_append]

theorem dictOf_of_nodup (h : (items.map Prod.fst).Nodup) : dictOf items = items :=
  foldl_putItem_of_nodup (by rwa [List.nil_append])

end Object

end Python
