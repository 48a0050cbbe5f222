import MissionControl.Canonical.Injectivity

/-! # Canonical hashes and the JSON columns

`canonical_hash` is SHA-256 over the canonical bytes. SHA-256 itself is a
parameter; that no two byte strings share a digest is a hypothesis of the results
that need it (`CollisionFree`), never part of a definition.

A JSON column does not always return what was written to it. `Backend.stored` is
what the two supported databases return. -/

namespace Canonical

open Encoding

/-- `hashlib.sha256(data).hexdigest()`. -/
class Sha256 where
  hexdigest : List UInt8 → String

/-- The hash has no collisions. -/
def CollisionFree [Sha256] : Prop := Function.Injective Sha256.hexdigest

def canonical_hash [Sha256] (v : Value) : String := Sha256.hexdigest (canonical_bytes v)

theorem canonical_hash_eq_iff [Sha256] (h : CollisionFree) {a b : Value} :
    canonical_hash a = canonical_hash b ↔ a.Same b := by
  rw [← canonical_bytes_eq_iff]
  exact h.eq_iff

/-- A collision-free hash to compute with: the bytes themselves, as text. -/
@[reducible] def plainHash : Sha256 where
  hexdigest bytes := String.ofList (bytes.map Char.ofUInt8)

theorem plainHash_collisionFree : @CollisionFree plainHash := by
  intro a b h
  refine List.map_injective_iff.mpr (fun x y hxy => ?_) (String.ofList_injective h)
  exact UInt8.toUInt32_inj.mp (congrArg Char.val hxy)

/-- A digest of 64 hexadecimal digits to compute with. It mixes every byte into all of
    them, as SHA-256 does, so that texts with a common beginning differ early. -/
@[reducible] def mixHash : Sha256 where
  hexdigest bytes :=
    let h := bytes.foldl (fun h b => (h * 16777619 + b.toNat) % 2 ^ 256) 1
    String.ofList ((List.range 64).map fun i => Nat.digitChar (h / 16 ^ (63 - i) % 16))

/-! ## JSON columns -/

/-- The database behind the persistence layer. -/
inductive Backend where
  | sqlite
  | postgres
  deriving DecidableEq

/-- A float as `jsonb` returns it. `jsonb` keeps a number as a decimal and
    prints it without an exponent. A float `repr` writes as `1e+16` comes back as
    the digits `10000000000000000`, which JSON reads as an integer; every other
    float has a decimal point in its `repr` or gets one (`1e-07`). -/
def jsonbNumber (f : PyFloat) : Value :=
  if f.bigExponent then
    .int ((if f.negative then -1 else 1) * (f.coefficient * 10 ^ f.exponent.toNat : Nat))
  else .float f.unsignZero

/-- The order in which `jsonb` keeps an object's keys: by length, then by bytes. -/
def jsonbKeyLE {α : Type} (a b : String × α) : Prop :=
  (utf8 a.1).length < (utf8 b.1).length ∨
    (utf8 a.1).length = (utf8 b.1).length ∧ Value.keyLE a b

instance {α : Type} : DecidableRel (jsonbKeyLE (α := α)) := fun _ _ =>
  inferInstanceAs (Decidable (_ ∨ _ ∧ _))

mutual

/-- What a `jsonb` column returns for a value written to it. -/
def jsonb : Value → Value
  | .float f => jsonbNumber f
  | .list items => .list (jsonbList items)
  | .dict items => .dict ((jsonbItems items).insertionSort jsonbKeyLE)
  | v => v

def jsonbList : List Value → List Value
  | [] => []
  | v :: items => jsonb v :: jsonbList items

def jsonbItems : List (String × Value) → List (String × Value)
  | [] => []
  | (k, v) :: items => (k, jsonb v) :: jsonbItems items

end

@[simp] theorem jsonbList_eq (items : List Value) : jsonbList items = items.map jsonb := by
  induction items with
  | nil => rfl
  | cons v items ih => simp [jsonbList, ih]

@[simp] theorem jsonbItems_eq (items : List (String × Value)) :
    jsonbItems items = items.map fun kv => (kv.1, jsonb kv.2) := by
  induction items with
  | nil => rfl
  | cons kv items ih => simp [jsonbItems, ih]

mutual

/-- `p` holds of every float inside the value, `q` of every string and key, and
    `r` of every byte string. -/
def Every (p : PyFloat → Bool) (q : String → Bool) (r : Bool) : Value → Bool
  | .float f => p f
  | .str s => q s
  | .bytes _ => r
  | .list items => EveryList p q r items
  | .dict items => EveryItems p q r items
  | _ => true

def EveryList (p : PyFloat → Bool) (q : String → Bool) (r : Bool) : List Value → Bool
  | [] => true
  | v :: items => Every p q r v && EveryList p q r items

def EveryItems (p : PyFloat → Bool) (q : String → Bool) (r : Bool) : List (String × Value) → Bool
  | [] => true
  | (k, v) :: items => q k && Every p q r v && EveryItems p q r items

end

/-- `json.dumps` writes the value: it raises on byte strings. -/
def IsJson (v : Value) : Bool := Every (fun _ => true) (fun _ => true) false v

/-- `jsonb` takes no string with a NUL character. -/
def NulFree (v : Value) : Bool :=
  Every (fun _ => true) (fun s => !s.toList.contains (Char.ofNat 0)) true v

/-- No float inside the value is written with an exponent such as `1e+16`. -/
def PlainFloats (v : Value) : Bool := Every (fun f => !f.bigExponent) (fun _ => true) true v

/-- `decode_json` of what the column holds after `json_param` was written to it,
    or nothing when the write raises. -/
def Backend.stored (b : Backend) (v : Value) : Option Value :=
  match b with
  | .sqlite => if IsJson v then some v else none
  | .postgres => if IsJson v && NulFree v then some (jsonb v) else none

end Canonical

/-! # What a stored value hashes to

A value written to a JSON column and read back has the hash it was written with
on SQLite. On PostgreSQL it has that hash exactly when no float inside it is
written with a positive exponent (`stored_same_iff`). -/

namespace Canonical

open Encoding

theorem unsignZero_idem (f : PyFloat) : f.unsignZero.unsignZero = f.unsignZero := by
  simp only [PyFloat.unsignZero]
  split
  · simp_all
  · simp_all

theorem jsonbNumber_same_iff (f : PyFloat) : (jsonbNumber f).Same (.float f) ↔ (!f.bigExponent) = true := by
  unfold jsonbNumber Value.Same
  split
  · simp_all [Value.normal]
  · simp_all [Value.normal, unsignZero_idem]

variable {p : PyFloat → Bool} {q : String → Bool}

theorem everyList_eq {r : Bool} (items : List Value) : EveryList p q r items = items.all (Every p q r) := by
  induction items with
  | nil => rfl
  | cons v items ih => simp [EveryList, ih]

theorem everyItems_eq {r : Bool} (items : List (String × Value)) :
    EveryItems p q r items = items.all fun kv => q kv.1 && Every p q r kv.2 := by
  induction items with
  | nil => rfl
  | cons kv items ih => simp [EveryItems, ih]

theorem normal_jsonb_dict {items : List (String × Value)} (h : (items.map Prod.fst).Nodup) :
    (jsonb (.dict items)).normal =
      .dict ((Value.sortItems items).map fun kv => (kv.1, (jsonb kv.2).normal)) := by
  simp only [jsonb, jsonbItems_eq, Value.normal, Value.normalItems_eq]
  have hperm := (List.perm_insertionSort jsonbKeyLE
    (items.map fun kv => (kv.1, jsonb kv.2))).map fun kv => (kv.1, kv.2.normal)
  rw [List.map_map] at hperm
  rw [sortItems_perm hperm]
  · exact congrArg Value.dict (Value.sortItems_map (fun v => (jsonb v).normal) items)
  · have hkeys := hperm.map Prod.fst
    refine hkeys.nodup_iff.mpr ?_
    rw [List.map_map]
    exact h

/-- **The hash survives `jsonb` exactly for values with plain floats.** -/
theorem jsonb_same_iff {v : Value} (h : v.Distinct) : (jsonb v).Same v ↔ PlainFloats v = true := by
  induction v with
  | float f => exact jsonbNumber_same_iff f
  | list items ih =>
    have hitems := Value.distinctList_iff.mp h
    simp only [Value.Same, jsonb, jsonbList_eq, Value.normal, Value.normalList_eq, List.map_map,
      Value.list.injEq, List.map_inj_left, PlainFloats, Every, everyList_eq, List.all_eq_true, Function.comp]
    exact forall₂_congr fun v hv => ih v hv (hitems v hv)
  | dict items ih =>
    obtain ⟨hkeys, hitems⟩ := h
    have hitems := Value.distinctItems_iff.mp hitems
    simp only [Value.Same, normal_jsonb_dict hkeys, normal_dict, Value.dict.injEq,
      List.map_inj_left, PlainFloats, Every, everyItems_eq, List.all_eq_true, Bool.true_and,
      mem_sortItems, Prod.mk.injEq, id, true_and]
    exact forall₂_congr fun kv hkv => ih kv hkv (hitems kv hkv)
  | _ => simp [jsonb, Value.Same, PlainFloats, Every]

/-- The values a backend returns with the hash they were written with. -/
def Backend.Faithful (b : Backend) (v : Value) : Prop := b = .sqlite ∨ PlainFloats v = true

theorem stored_same_iff {b : Backend} {v v' : Value} (hv : v.Distinct) (h : b.stored v = some v') :
    v'.Same v ↔ b.Faithful v := by
  cases b with
  | sqlite =>
    obtain ⟨-, rfl⟩ : _ ∧ v = v' := by simpa [Backend.stored] using h
    simp [Backend.Faithful, Value.Same]
  | postgres =>
    obtain ⟨-, rfl⟩ : _ ∧ jsonb v = v' := by simpa [Backend.stored] using h
    simpa [Backend.Faithful] using jsonb_same_iff hv

end Canonical
