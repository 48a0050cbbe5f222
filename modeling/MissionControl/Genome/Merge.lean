import MissionControl.Genome.Changes

/-! # Merging branches

Two branches from one base are compared key by key and constraint by constraint (`compare_branches`), and merged where
nothing conflicts (`merge_change_sets`). What counts as a conflict is decided with the language's equality, and the
second branch's value is written over the first's.

**A merge never picks a side** exactly where that equality tells values apart as their contents do, and, where the
branches agree, the two together fit into a change set and into a document (`merge_exact_iff`). -/

namespace Genome

open Python (Dict mem_sorted mem_sortedSet sorted sortedSet)

/-! ## Comparing -/

/-- What a branch does to a key: `("SET", value)` or `("UNSET", None)`. -/
inductive Effect where
  | SET (v : Value)
  | UNSET
deriving DecidableEq

/-- `a == b` -/
def Effect.eq : Effect → Effect → Bool
  | SET v, SET w => v.eq w
  | UNSET, UNSET => true
  | _, _ => false

/-- `effect(cs)` -/
def effect (cs : ChangeSet) : Dict String Effect :=
  (Dict.ofList (cs.set.entries.map fun entry => (entry.1, Effect.SET entry.2))).updateList
    (cs.unset.map fun k => (k, Effect.UNSET))

structure BranchComparison where
  only_a : List String
  only_b : List String
  agree : List String
  conflicts : List (String × Effect × Effect)
  constraint_conflicts : List String
  mergeable : Bool

/-- The key and what both do to it, where both do something and `p` holds of it. -/
def bothDo (a b : ChangeSet) (p : Effect → Effect → Bool) (k : String) : Option (String × Effect × Effect) :=
  match (effect a).get? k, (effect b).get? k with
  | some e, some f => if p e f then some (k, e, f) else none
  | _, _ => none

/-- Constraints that both add, and are not the same. -/
def constraintsDiffer (a b : ChangeSet) (id : String) : Bool :=
  match (byId a.add_constraints).get? id, (byId b.add_constraints).get? id with
  | some c, some c' => !c.eq c'
  | _, _ => false

def compare_branches (a b : ChangeSet) : BranchComparison :=
  let keys := sortedSet ((effect a).keys ++ (effect b).keys)
  let conflicts := keys.filterMap (bothDo a b fun e f => !e.eq f)
  let constraint_conflicts := sortedSet ((byId a.add_constraints).keys.filter (constraintsDiffer a b)) ++
    sortedSet (a.remove_constraints.filter (· ∈ b.added) ++ b.remove_constraints.filter (· ∈ a.added))
  { only_a := keys.filter fun k => k ∈ (effect a).keys && k ∉ (effect b).keys
    only_b := keys.filter fun k => k ∈ (effect b).keys && k ∉ (effect a).keys
    agree := (keys.filterMap (bothDo a b Effect.eq)).map Prod.fst
    conflicts
    constraint_conflicts
    mergeable := conflicts.isEmpty && constraint_conflicts.isEmpty }

/-! ## Merging -/

/-- What `merge_change_sets` makes a change set of. -/
def mergeFields (a b : ChangeSet) : ChangeFields :=
  let adds := byId (a.add_constraints ++ b.add_constraints)
  { set := a.set.update b.set
    unset := sortedSet (a.unset ++ b.unset)
    add_constraints := (sorted adds.keys).filterMap adds.get?
    remove_constraints := sortedSet (a.remove_constraints ++ b.remove_constraints) }

def merge_change_sets (a b : ChangeSet) : Except GenomeError (Option ChangeSet × BranchComparison) :=
  let report := compare_branches a b
  if !report.mergeable then .ok (none, report)
  else do
    let merged ← ChangeSet.of (mergeFields a b)
    .ok (some merged, report)

/-! ## Agreeing -/

/-- What two branches do to a key or a constraint that both touch is the same, as `same` and `sameConstraint` see it. -/
structure Agree (same : Effect → Effect → Prop) (sameConstraint : GenomeConstraint → GenomeConstraint → Prop)
    (a b : ChangeSet) : Prop where
  keys : ∀ k e f, (effect a).get? k = some e → (effect b).get? k = some f → same e f
  constraints : ∀ c ∈ a.add_constraints, ∀ c' ∈ b.add_constraints, c.constraint_id = c'.constraint_id →
    sameConstraint c c'
  kept : ∀ id ∈ a.added, id ∉ b.remove_constraints
  kept' : ∀ id ∈ b.added, id ∉ a.remove_constraints

/-- They do the very same. -/
def Agrees (a b : ChangeSet) : Prop := Agree (· = ·) (· = ·) a b

/-- They do what the language calls the same. -/
def SeemsToAgree (a b : ChangeSet) : Prop := Agree (fun e f => e.eq f = true) (fun c c' => c.eq c' = true) a b

variable {a b : ChangeSet} {k id : String} {c : GenomeConstraint} {base : GenomeDocument}

theorem get?_effect (cs : ChangeSet) (k : String) :
    (effect cs).get? k = if k ∈ cs.unset then some .UNSET else (cs.set.get? k).map .SET := by
  unfold effect
  rw [Dict.get?_updateList_map]
  split
  · rfl
  · apply Option.ext
    intro e
    have hnodup : ((cs.set.entries.map fun entry => (entry.1, Effect.SET entry.2)).map Prod.fst).Nodup := by
      rw [List.map_map]
      exact cs.set.nodup
    rw [Dict.get?_ofList hnodup, List.mem_map, Option.map_eq_some_iff]
    constructor
    · rintro ⟨⟨k', v⟩, hmem, heq⟩
      obtain ⟨rfl, rfl⟩ := Prod.mk.inj heq
      exact ⟨v, Dict.get?_eq_some.mpr hmem, rfl⟩
    · rintro ⟨v, hv, rfl⟩
      exact ⟨(k, v), Dict.get?_eq_some.mp hv, rfl⟩

theorem conflicts_eq_nil : (compare_branches a b).conflicts = [] ↔
    ∀ k e f, (effect a).get? k = some e → (effect b).get? k = some f → e.eq f = true := by
  show (sortedSet _).filterMap _ = [] ↔ _
  rw [List.filterMap_eq_nil_iff]
  constructor
  · intro h k e f he hf
    have hmem : k ∈ sortedSet ((effect a).keys ++ (effect b).keys) := by
      rw [mem_sortedSet, List.mem_append]
      exact .inl (Dict.mem_keys.mpr ⟨e, he⟩)
    have hnone := h k hmem
    unfold bothDo at hnone
    simpa [he, hf] using hnone
  · intro h k _
    unfold bothDo
    split
    · rename_i e f he hf
      simp [h k e f he hf]
    · rfl

theorem constraintsDiffer_eq_false (ha : a.added.Nodup) (hb : b.added.Nodup) :
    (∀ id ∈ (byId a.add_constraints).keys, constraintsDiffer a b id = false) ↔
      ∀ c ∈ a.add_constraints, ∀ c' ∈ b.add_constraints, c.constraint_id = c'.constraint_id → c.eq c' = true := by
  constructor
  · intro h c hc c' hc' hid
    have hget : (byId a.add_constraints).get? c.constraint_id = some c := (get?_byId ha).mpr ⟨hc, rfl⟩
    have hget' : (byId b.add_constraints).get? c.constraint_id = some c' := (get?_byId hb).mpr ⟨hc', hid.symm⟩
    have hdiffer := h c.constraint_id (Dict.mem_keys.mpr ⟨c, hget⟩)
    unfold constraintsDiffer at hdiffer
    simpa [hget, hget'] using hdiffer
  · intro h id _
    unfold constraintsDiffer
    split
    · rename_i c c' hc hc'
      obtain ⟨hmem, rfl⟩ := (get?_byId ha).mp hc
      obtain ⟨hmem', hid⟩ := (get?_byId hb).mp hc'
      simp [h c hmem c' hmem' hid.symm]
    · rfl

theorem constraint_conflicts_eq_nil (ha : a.added.Nodup) (hb : b.added.Nodup) :
    (compare_branches a b).constraint_conflicts = [] ↔
      (∀ c ∈ a.add_constraints, ∀ c' ∈ b.add_constraints, c.constraint_id = c'.constraint_id → c.eq c' = true) ∧
        (∀ id ∈ a.added, id ∉ b.remove_constraints) ∧ ∀ id ∈ b.added, id ∉ a.remove_constraints := by
  show sortedSet _ ++ sortedSet _ = [] ↔ _
  rw [List.append_eq_nil_iff, sortedSet_filter_eq_nil, constraintsDiffer_eq_false ha hb, Python.sortedSet_eq_nil,
    List.append_eq_nil_iff, List.filter_eq_nil_iff, List.filter_eq_nil_iff]
  simp only [decide_eq_true_eq]
  constructor
  · rintro ⟨hconstraints, hkept', hkept⟩
    exact ⟨hconstraints, fun id hid hremoved => hkept id hremoved hid, fun id hid hremoved => hkept' id hremoved hid⟩
  · rintro ⟨hconstraints, hkept, hkept'⟩
    exact ⟨hconstraints, fun id hremoved hid => hkept' id hid hremoved, fun id hremoved hid => hkept id hid hremoved⟩

theorem mergeable_iff (ha : a.added.Nodup) (hb : b.added.Nodup) :
    (compare_branches a b).mergeable = true ↔ SeemsToAgree a b := by
  show (_ && _) = true ↔ _
  rw [Bool.and_eq_true, List.isEmpty_iff, List.isEmpty_iff]
  show (compare_branches a b).conflicts = [] ∧ (compare_branches a b).constraint_conflicts = [] ↔ _
  rw [conflicts_eq_nil, constraint_conflicts_eq_nil ha hb]
  constructor
  · rintro ⟨hkeys, hconstraints, hkept, hkept'⟩
    exact ⟨hkeys, hconstraints, hkept, hkept'⟩
  · rintro ⟨hkeys, hconstraints, hkept, hkept'⟩
    exact ⟨hkeys, hconstraints, hkept, hkept'⟩

theorem Agrees.symm (h : Agrees a b) : Agrees b a where
  keys k e f he hf := (h.keys k f e hf he).symm
  constraints c hc c' hc' hid := (h.constraints c' hc' c hc hid.symm).symm
  kept := h.kept'
  kept' := h.kept

variable {v : Value}

variable {cs : ChangeSet}

theorem effect_of_set (h : cs.set.get? k = some v) : (effect cs).get? k = some (.SET v) := by
  have hnot : k ∉ cs.unset := cs.disjoint.keys k (Dict.mem_keys.mpr ⟨v, h⟩)
  rw [get?_effect, if_neg hnot, h]
  rfl

theorem effect_of_unset (h : k ∈ cs.unset) : (effect cs).get? k = some .UNSET := by
  rw [get?_effect, if_pos h]

theorem Agrees.not_unset (h : Agrees a b) (hset : k ∈ a.set.keys) : k ∉ b.unset := by
  intro hunset
  obtain ⟨v, hv⟩ := Dict.mem_keys.mp hset
  cases h.keys k _ _ (effect_of_set hv) (effect_of_unset hunset)

/-! ## What a merge is made of -/

theorem keyed_merged (a b : ChangeSet) : Keyed (byId (a.add_constraints ++ b.add_constraints)) := keyed_byId _

theorem ids_filterMap_get? {d : Dict String GenomeConstraint} (hd : Keyed d) {l : List String}
    (h : ∀ id ∈ l, id ∈ d.keys) : ids (l.filterMap d.get?) = l := by
  induction l with
  | nil => rfl
  | cons id l ih =>
    rw [List.forall_mem_cons] at h
    obtain ⟨c, hc⟩ := Dict.mem_keys.mp h.1
    rw [List.filterMap_cons_some hc]
    show c.constraint_id :: ids (l.filterMap d.get?) = id :: l
    rw [hd id c hc, ih h.2]

theorem added_merged (a b : ChangeSet) :
    (mergeFields a b).added = sorted (byId (a.add_constraints ++ b.add_constraints)).keys :=
  ids_filterMap_get? (keyed_merged a b) fun _ hid => mem_sorted.mp hid

theorem nodup_added_merged (a b : ChangeSet) : (mergeFields a b).added.Nodup := by
  rw [added_merged]
  exact (List.perm_insertionSort _ _).nodup_iff.mpr (Dict.nodup_keys _)

theorem get?_byId_append (h : Agrees a b) (ha : a.added.Nodup) (hb : b.added.Nodup) :
    (byId (a.add_constraints ++ b.add_constraints)).get? id = some c ↔
      (c ∈ a.add_constraints ∨ c ∈ b.add_constraints) ∧ c.constraint_id = id := by
  have hsplit : byId (a.add_constraints ++ b.add_constraints) = addById (byId a.add_constraints) b.add_constraints := by
    unfold byId addById Dict.updateList
    rw [List.map_append, List.foldl_append]
  rw [hsplit, get?_addById hb, get?_byId ha]
  constructor
  · rintro (⟨hmem, hid⟩ | ⟨-, hmem, hid⟩)
    · exact ⟨.inr hmem, hid⟩
    · exact ⟨.inl hmem, hid⟩
  · rintro ⟨hmem | hmem, rfl⟩
    · by_cases hid : c.constraint_id ∈ b.added
      · -- both add it, and it is the same
        obtain ⟨c', hmem', heq⟩ := List.mem_map.mp hid
        rw [h.constraints c hmem c' hmem' heq.symm]
        exact .inl ⟨hmem', rfl⟩
      · exact .inr ⟨hid, hmem, rfl⟩
    · exact .inl ⟨hmem, rfl⟩

theorem mem_merged_adds (h : Agrees a b) (ha : a.added.Nodup) (hb : b.added.Nodup) :
    c ∈ (mergeFields a b).add_constraints ↔ c ∈ a.add_constraints ∨ c ∈ b.add_constraints := by
  show c ∈ (sorted _).filterMap _ ↔ _
  rw [List.mem_filterMap]
  constructor
  · rintro ⟨id, -, hc⟩
    exact ((get?_byId_append h ha hb).mp hc).1
  · intro hmem
    have hc := (get?_byId_append h ha hb).mpr ⟨hmem, rfl⟩
    exact ⟨c.constraint_id, mem_sorted.mpr (Dict.mem_keys.mpr ⟨c, hc⟩), hc⟩

theorem mem_added_merged (h : Agrees a b) (ha : a.added.Nodup) (hb : b.added.Nodup) :
    id ∈ (mergeFields a b).added ↔ id ∈ a.added ∨ id ∈ b.added := by
  constructor
  · intro hid
    obtain ⟨c, hc, rfl⟩ := List.mem_map.mp hid
    exact ((mem_merged_adds h ha hb).mp hc).imp mem_added mem_added
  · rintro (hid | hid)
    · obtain ⟨c, hc, rfl⟩ := List.mem_map.mp hid
      exact List.mem_map_of_mem ((mem_merged_adds h ha hb).mpr (.inl hc))
    · obtain ⟨c, hc, rfl⟩ := List.mem_map.mp hid
      exact List.mem_map_of_mem ((mem_merged_adds h ha hb).mpr (.inr hc))

theorem mem_merged_unset : k ∈ (mergeFields a b).unset ↔ k ∈ a.unset ∨ k ∈ b.unset := by
  show k ∈ sortedSet _ ↔ _
  rw [mem_sortedSet, List.mem_append]

theorem mem_merged_removes : id ∈ (mergeFields a b).remove_constraints ↔
    id ∈ a.remove_constraints ∨ id ∈ b.remove_constraints := by
  show id ∈ sortedSet _ ↔ _
  rw [mem_sortedSet, List.mem_append]

theorem get?_merged : (mergeFields a b).set.get? k = (b.set.get? k).or (a.set.get? k) := Dict.get?_update _ _ _

theorem mem_keys_merged : k ∈ (mergeFields a b).set.keys ↔ k ∈ a.set.keys ∨ k ∈ b.set.keys := Dict.mem_keys_update

theorem not_mem_merged_unset (h : Agrees a b) (hset : k ∈ (mergeFields a b).set.keys) : k ∉ (mergeFields a b).unset := by
  rw [mem_merged_unset]
  rintro (hunset | hunset)
  · rcases mem_keys_merged.mp hset with ha | hb
    · exact a.disjoint.keys k ha hunset
    · exact h.symm.not_unset hb hunset
  · rcases mem_keys_merged.mp hset with ha | hb
    · exact h.not_unset ha hunset
    · exact b.disjoint.keys k hb hunset

theorem size_merged (h : Agrees a b) :
    (mergeFields a b).set.size + (mergeFields a b).unset.length = (touched a b).length := by
  rw [← Dict.length_keys, ← List.length_append]
  have hnodup : ((mergeFields a b).set.keys ++ (mergeFields a b).unset).Nodup := by
    refine List.nodup_append.mpr ⟨Dict.nodup_keys _, ?_, ?_⟩
    · exact (List.perm_insertionSort _ _).nodup_iff.mpr (List.nodup_dedup _)
    · rintro k hset k' hunset rfl
      exact not_mem_merged_unset h hset hunset
  apply List.Perm.length_eq
  refine (List.perm_ext_iff_of_nodup hnodup (List.nodup_dedup _)).mpr ?_
  intro k
  rw [List.mem_append, mem_merged_unset, mem_keys_merged]
  simp only [List.mem_dedup, List.mem_append]
  tauto

theorem merged_isOk (h : Agrees a b) (ha : a.added.Nodup) (hb : b.added.Nodup) :
    (∃ cs, ChangeSet.of (mergeFields a b) = .ok cs) ↔ (touched a b).length ≤ 400 := by
  rw [← size_merged h]
  constructor
  · rintro ⟨cs, hcs⟩
    rw [← ChangeSet.of_eq_ok.mp hcs]
    exact cs.disjoint.few
  · intro hfew
    apply ChangeSet.of_ok
    constructor
    · exact fun k => not_mem_merged_unset h
    · intro id hadded hremoved
      obtain ⟨c, hmem, rfl⟩ := List.mem_map.mp hadded
      rcases (mem_merged_adds h ha hb).mp hmem with hmem | hmem
      · rcases mem_merged_removes.mp hremoved with hremoved | hremoved
        · exact a.disjoint.constraints _ (mem_added hmem) hremoved
        · exact h.kept _ (mem_added hmem) hremoved
      · rcases mem_merged_removes.mp hremoved with hremoved | hremoved
        · exact h.kept' _ (mem_added hmem) hremoved
        · exact b.disjoint.constraints _ (mem_added hmem) hremoved
    · exact hfew

/-! ## When a merge applies -/

/-- The keys that are left when both are applied. -/
def keysLeft (base : GenomeDocument) (a b : ChangeSet) : List String :=
  ((base.flatten.keys.filter fun k => k ∉ a.unset ∧ k ∉ b.unset) ++ a.set.keys ++ b.set.keys).dedup

/-- The constraints of the base that neither removes. -/
def constraintsLeft (base : GenomeDocument) (a b : ChangeSet) : List GenomeConstraint :=
  base.constraints.filter fun c => c.constraint_id ∉ a.remove_constraints ∧ c.constraint_id ∉ b.remove_constraints

/-- A document has room for what is left and what both add. -/
structure Room (base : GenomeDocument) (a b : ChangeSet) : Prop where
  keys : ∀ c : Chromosome,
    ((keysLeft base a b).filter fun key => (partitionDot key).1 = c.value).length ≤ MAX_KEYS_PER_CHROMOSOME
  constraints : (constraintsLeft base a b).length + (a.added ++ b.added).dedup.length ≤ MAX_CONSTRAINTS

theorem length_touched_comm (a b : ChangeSet) : (touched a b).length = (touched b a).length := by
  apply List.Perm.length_eq
  refine (List.perm_ext_iff_of_nodup (List.nodup_dedup _) (List.nodup_dedup _)).mpr ?_
  intro k
  simp only [List.mem_dedup, List.mem_append]
  tauto

theorem Room.symm (h : Room base a b) : Room base b a := by
  have hkeys : (keysLeft base b a).Perm (keysLeft base a b) := by
    refine (List.perm_ext_iff_of_nodup (List.nodup_dedup _) (List.nodup_dedup _)).mpr ?_
    intro k
    simp only [List.mem_dedup, List.mem_append, List.mem_filter, decide_eq_true_eq]
    tauto
  have hleft : constraintsLeft base b a = constraintsLeft base a b := by
    apply List.filter_congr
    intro c _
    simp only [and_comm]
  have hadded : (b.added ++ a.added).dedup.Perm (a.added ++ b.added).dedup := by
    refine (List.perm_ext_iff_of_nodup (List.nodup_dedup _) (List.nodup_dedup _)).mpr ?_
    intro id
    simp only [List.mem_dedup, List.mem_append]
    tauto
  constructor
  · intro c
    rw [(hkeys.filter _).length_eq]
    exact h.keys c
  · rw [hleft, hadded.length_eq]
    exact h.constraints

variable {docA docB doc : GenomeDocument} {merged : ChangeSet}

theorem flatOk_of_set (h : apply_changes base cs = .ok doc) (hv : cs.set.get? k = some v) : FlatOk k v := by
  apply flatOk_of_flatten doc
  rw [(apply_changes_spec h).1, get?_changed, hv]
  rfl

theorem flatOk_merged (ha : apply_changes base a = .ok docA) (hb : apply_changes base b = .ok docB)
    (hfields : merged.toChangeFields = mergeFields a b) (hv : (changed base merged).get? k = some v) : FlatOk k v := by
  rw [get?_changed, hfields, get?_merged] at hv
  cases hset : b.set.get? k with
  | some w =>
    obtain rfl : w = v := by simpa [hset] using hv
    exact flatOk_of_set hb hset
  | none =>
    cases hset' : a.set.get? k with
    | some w =>
      obtain rfl : w = v := by simpa [hset, hset'] using hv
      exact flatOk_of_set ha hset'
    | none =>
      rw [hset, hset'] at hv
      simp only [Option.or_none, Option.none_or] at hv
      split at hv
      · cases hv
      · exact flatOk_of_flatten base hv

theorem keysOf_merged (hfields : merged.toChangeFields = mergeFields a b) (c : Chromosome) :
    (keysOf c (changed base merged)).length =
      ((keysLeft base a b).filter fun key => (partitionDot key).1 = c.value).length := by
  unfold keysOf
  apply List.Perm.length_eq
  have hnodup : ((changed base merged).keys.filter fun key => (partitionDot key).1 = c.value).Nodup :=
    (Dict.nodup_keys _).filter _
  have hnodup' : ((keysLeft base a b).filter fun key => (partitionDot key).1 = c.value).Nodup :=
    (List.nodup_dedup _).filter _
  refine (List.perm_ext_iff_of_nodup hnodup hnodup').mpr ?_
  intro k
  rw [List.mem_filter, List.mem_filter]
  apply and_congr_left
  intro _
  rw [mem_keys_changed, hfields, mem_keys_merged, mem_merged_unset]
  simp only [keysLeft, List.mem_dedup, List.mem_append, List.mem_filter, decide_eq_true_eq]
  tauto

theorem length_constrained_merged (hfields : merged.toChangeFields = mergeFields a b) (hagree : Agrees a b)
    (ha : a.added.Nodup) (hb : b.added.Nodup) : (constrained base merged).length =
      (constraintsLeft base a b).length + (a.added ++ b.added).dedup.length := by
  have hkept : (base.constraints.filter (·.constraint_id ∉ merged.remove_constraints)) = constraintsLeft base a b := by
    apply List.filter_congr
    intro c _
    rw [hfields]
    simp only [mem_merged_removes, not_or]
  have hadded : merged.added.Perm (a.added ++ b.added).dedup := by
    rw [hfields]
    refine (List.perm_ext_iff_of_nodup (nodup_added_merged a b) (List.nodup_dedup _)).mpr ?_
    intro id
    rw [List.mem_dedup, List.mem_append, mem_added_merged hagree ha hb]
  unfold constrained
  rw [List.length_append, hkept, ← hadded.length_eq]
  exact congrArg _ (List.length_map _).symm

/-- **The merged change set applies** exactly where a document has room for both. -/
theorem merged_applies_iff (ha : apply_changes base a = .ok docA) (hb : apply_changes base b = .ok docB)
    (hfields : merged.toChangeFields = mergeFields a b) (hagree : Agrees a b) : Applies base merged ↔ Room base a b := by
  have happlies := apply_changes_isOk.mp ⟨docA, ha⟩
  have happlies' := apply_changes_isOk.mp ⟨docB, hb⟩
  have hlength : (constrained base merged).length = _ :=
    length_constrained_merged hfields hagree happlies.distinct happlies'.distinct
  constructor
  · intro h
    constructor
    · intro c
      rw [← keysOf_merged hfields]
      exact h.fits.few c
    · rw [← hlength]
      exact h.few
  · intro h
    constructor
    · intro k hk
      rw [hfields] at hk
      exact (mem_merged_unset.mp hk).elim (happlies.unset k) (happlies'.unset k)
    · intro id hid
      rw [hfields] at hid
      exact (mem_merged_removes.mp hid).elim (happlies.removed id) (happlies'.removed id)
    · intro id hid
      obtain ⟨c, hc, rfl⟩ := List.mem_map.mp hid
      rw [hfields] at hc
      rcases (mem_merged_adds hagree happlies.distinct happlies'.distinct).mp hc with hc | hc
      · exact happlies.fresh _ (mem_added hc)
      · exact happlies'.fresh _ (mem_added hc)
    · rw [hfields]
      exact nodup_added_merged a b
    · refine ⟨fun k v => flatOk_merged ha hb hfields, ?_⟩
      intro c
      rw [keysOf_merged hfields]
      exact h.keys c
    · rw [hlength]
      exact h.constraints

/-! ## What a merge leaves -/

/-- A key that a change set sets or unsets. -/
def Touches (cs : ChangeSet) (k : String) : Prop := k ∈ cs.set.keys ∨ k ∈ cs.unset

/-- A constraint that a change set adds or removes. -/
def TouchesConstraint (cs : ChangeSet) (id : String) : Prop := id ∈ cs.added ∨ id ∈ cs.remove_constraints

/-- What each side does is in the result, and the base is elsewhere. -/
structure Combines (base : GenomeDocument) (a b : ChangeSet) (docA docB doc : GenomeDocument) : Prop where
  keys_a : ∀ k, Touches a k → doc.flatten.get? k = docA.flatten.get? k
  keys_b : ∀ k, Touches b k → doc.flatten.get? k = docB.flatten.get? k
  keys_rest : ∀ k, ¬Touches a k → ¬Touches b k → doc.flatten.get? k = base.flatten.get? k
  constraints_a : ∀ c, TouchesConstraint a c.constraint_id → (c ∈ doc.constraints ↔ c ∈ docA.constraints)
  constraints_b : ∀ c, TouchesConstraint b c.constraint_id → (c ∈ doc.constraints ↔ c ∈ docB.constraints)
  constraints_rest : ∀ c, ¬TouchesConstraint a c.constraint_id → ¬TouchesConstraint b c.constraint_id →
    (c ∈ doc.constraints ↔ c ∈ base.constraints)

/-- The same values under the same keys, and the same constraints. -/
def SameDocument (doc doc' : GenomeDocument) : Prop :=
  (∀ k, doc.flatten.get? k = doc'.flatten.get? k) ∧ doc.constraints = doc'.constraints

theorem get?_changed_of_touches (h : Touches cs k) : (changed base cs).get? k = cs.set.get? k := by
  rw [get?_changed]
  cases hset : cs.set.get? k with
  | some v => rfl
  | none =>
    rcases h with hkey | hunset
    · exact absurd hkey (Dict.get?_eq_none.mp hset)
    · rw [if_pos hunset]
      rfl

theorem get?_merged_of_touches (hagree : Agrees a b) (h : Touches a k) :
    (mergeFields a b).set.get? k = a.set.get? k := by
  rw [get?_merged]
  cases hb : b.set.get? k with
  | none => exact Option.none_or
  | some w =>
    rcases h with hkey | hunset
    · obtain ⟨v, hv⟩ := Dict.mem_keys.mp hkey
      have heq := hagree.keys k _ _ (effect_of_set hv) (effect_of_set hb)
      obtain rfl : v = w := by simpa using heq
      exact hv.symm
    · exact absurd hunset (hagree.symm.not_unset (Dict.mem_keys.mpr ⟨w, hb⟩))

theorem get?_merged_symm (hagree : Agrees a b) : (mergeFields a b).set.get? k = (mergeFields b a).set.get? k := by
  by_cases h : k ∈ a.set.keys
  · rw [get?_merged_of_touches hagree (.inl h), get?_merged]
    obtain ⟨v, hv⟩ := Dict.mem_keys.mp h
    rw [hv]
    rfl
  · have hnone := Dict.get?_eq_none.mpr h
    rw [get?_merged, get?_merged, hnone, Option.or_none, Option.none_or]

theorem touches_merged (hfields : merged.toChangeFields = mergeFields a b) :
    Touches merged k ↔ Touches a k ∨ Touches b k := by
  unfold Touches
  rw [hfields, mem_keys_merged, mem_merged_unset]
  tauto

theorem mem_constrained_of_touches (hfresh : ∀ id ∈ cs.added, id ∉ ids base.constraints)
    (h : TouchesConstraint cs c.constraint_id) : c ∈ constrained base cs ↔ c ∈ cs.add_constraints := by
  rw [mem_constrained]
  constructor
  · rintro (⟨hbase, hnot⟩ | hadd)
    · rcases h with hadded | hremoved
      · exact absurd (List.mem_map_of_mem hbase) (hfresh _ hadded)
      · exact absurd hremoved hnot
    · exact hadd
  · exact .inr

/-- **What a merge leaves** of what one side touches. -/
theorem mem_merged_of_touches (hagree : Agrees a b) (ha : a.added.Nodup) (hb : b.added.Nodup)
    (h : TouchesConstraint a c.constraint_id) : c ∈ (mergeFields a b).add_constraints ↔ c ∈ a.add_constraints := by
  rw [mem_merged_adds hagree ha hb]
  constructor
  · rintro (hadd | hadd)
    · exact hadd
    · rcases h with hadded | hremoved
      · obtain ⟨c', hc', hid⟩ := List.mem_map.mp hadded
        rw [← hagree.constraints c' hc' c hadd hid]
        exact hc'
      · exact absurd hremoved (hagree.kept' _ (mem_added hadd))
  · exact .inl

theorem combines (ha : apply_changes base a = .ok docA) (hb : apply_changes base b = .ok docB)
    (hfields : merged.toChangeFields = mergeFields a b) (hagree : Agrees a b)
    (hdoc : apply_changes base merged = .ok doc) : Combines base a b docA docB doc := by
  have happlies := apply_changes_isOk.mp ⟨docA, ha⟩
  have happlies' := apply_changes_isOk.mp ⟨docB, hb⟩
  have happlies'' := apply_changes_isOk.mp ⟨doc, hdoc⟩
  have hsymm : ∀ c, c ∈ (mergeFields a b).add_constraints ↔ c ∈ (mergeFields b a).add_constraints := by
    intro c
    rw [mem_merged_adds hagree happlies.distinct happlies'.distinct,
      mem_merged_adds hagree.symm happlies'.distinct happlies.distinct, or_comm]
  have htouches : ∀ id, TouchesConstraint merged id ↔ TouchesConstraint a id ∨ TouchesConstraint b id := by
    intro id
    unfold TouchesConstraint
    rw [hfields, mem_added_merged hagree happlies.distinct happlies'.distinct, mem_merged_removes]
    tauto
  constructor
  · intro k hk
    rw [(apply_changes_spec hdoc).1, (apply_changes_spec ha).1, get?_changed_of_touches hk,
      get?_changed_of_touches ((touches_merged hfields).mpr (.inl hk)), hfields, get?_merged_of_touches hagree hk]
  · intro k hk
    rw [(apply_changes_spec hdoc).1, (apply_changes_spec hb).1, get?_changed_of_touches hk,
      get?_changed_of_touches ((touches_merged hfields).mpr (.inr hk)), hfields, get?_merged_symm hagree,
      get?_merged_of_touches hagree.symm hk]
  · intro k hka hkb
    have hnot : ¬Touches merged k := fun h => ((touches_merged hfields).mp h).elim hka hkb
    have hnone : merged.set.get? k = none := Dict.get?_eq_none.mpr fun h => hnot (.inl h)
    rw [(apply_changes_spec hdoc).1, get?_changed, hnone, if_neg fun h => hnot (.inr h)]
    rfl
  · intro c hc
    rw [(apply_changes_spec hdoc).2, (apply_changes_spec ha).2,
      mem_constrained_of_touches happlies''.fresh ((htouches _).mpr (.inl hc)),
      mem_constrained_of_touches happlies.fresh hc, hfields,
      mem_merged_of_touches hagree happlies.distinct happlies'.distinct hc]
  · intro c hc
    rw [(apply_changes_spec hdoc).2, (apply_changes_spec hb).2,
      mem_constrained_of_touches happlies''.fresh ((htouches _).mpr (.inr hc)),
      mem_constrained_of_touches happlies'.fresh hc, hfields, hsymm,
      mem_merged_of_touches hagree.symm happlies'.distinct happlies.distinct hc]
  · intro c hca hcb
    have hnot : ¬TouchesConstraint merged c.constraint_id := fun h => ((htouches _).mp h).elim hca hcb
    rw [(apply_changes_spec hdoc).2, mem_constrained]
    constructor
    · rintro (⟨hbase, -⟩ | hadd)
      · exact hbase
      · exact absurd (.inl (mem_added hadd)) hnot
    · intro hbase
      exact .inl ⟨hbase, fun h => hnot (.inr h)⟩

theorem sameDocument_symm {merged' : ChangeSet} {doc' : GenomeDocument} (ha : a.added.Nodup) (hb : b.added.Nodup)
    (hfields : merged.toChangeFields = mergeFields a b) (hfields' : merged'.toChangeFields = mergeFields b a)
    (hagree : Agrees a b) (hdoc : apply_changes base merged = .ok doc) (hdoc' : apply_changes base merged' = .ok doc') :
    SameDocument doc doc' := by
  constructor
  · intro k
    have hunset : k ∈ merged.unset ↔ k ∈ merged'.unset := by
      rw [hfields, hfields', mem_merged_unset, mem_merged_unset, or_comm]
    rw [(apply_changes_spec hdoc).1, (apply_changes_spec hdoc').1, get?_changed, get?_changed, hfields, hfields',
      get?_merged_symm hagree, ← hfields, ← hfields']
    simp only [hunset]
  · have hadds : (mergeFields a b).add_constraints = (mergeFields b a).add_constraints := by
      have hget : ∀ id, (byId (a.add_constraints ++ b.add_constraints)).get? id =
          (byId (b.add_constraints ++ a.add_constraints)).get? id := by
        intro id
        apply Option.ext
        intro c
        rw [get?_byId_append hagree ha hb, get?_byId_append hagree.symm hb ha, or_comm]
      have hkeys : sorted (byId (a.add_constraints ++ b.add_constraints)).keys =
          sorted (byId (b.add_constraints ++ a.add_constraints)).keys := by
        apply Python.sorted_perm
        refine (List.perm_ext_iff_of_nodup (Dict.nodup_keys _) (Dict.nodup_keys _)).mpr ?_
        intro id
        rw [Dict.mem_keys, Dict.mem_keys, hget]
      show (sorted _).filterMap _ = (sorted _).filterMap _
      rw [hkeys]
      exact List.filterMap_congr fun id _ => hget id
    have hremoves : (mergeFields a b).remove_constraints = (mergeFields b a).remove_constraints := by
      apply Python.sortedSet_congr
      intro id
      rw [List.mem_append, List.mem_append, or_comm]
    rw [(apply_changes_spec hdoc).2, (apply_changes_spec hdoc').2]
    unfold constrained
    rw [hfields, hfields', hadds, hremoves]

/-! ## Never picking a side -/

/-- A merge returns, says truly whether the branches agree, and where it merges them leaves what each side does. -/
structure NeverPicksASide (base : GenomeDocument) (a b : ChangeSet) (docA docB : GenomeDocument) : Prop where
  returns : ∃ result, merge_change_sets a b = .ok result
  reports : ∀ merged report, merge_change_sets a b = .ok (merged, report) → (report.mergeable = true ↔ Agrees a b)
  applies : ∀ merged report, merge_change_sets a b = .ok (some merged, report) →
    ∃ doc, apply_changes base merged = .ok doc ∧ Combines base a b docA docB doc ∧
      ∃ merged' report' doc', merge_change_sets b a = .ok (some merged', report') ∧
        apply_changes base merged' = .ok doc' ∧ SameDocument doc doc'

theorem merge_of_mergeable (h : (compare_branches a b).mergeable = true)
    (hcs : ChangeSet.of (mergeFields a b) = .ok cs) : merge_change_sets a b = .ok (some cs, compare_branches a b) := by
  unfold merge_change_sets
  simp only [h, hcs]
  rfl

theorem merge_eq_ok {merged : Option ChangeSet} {report : BranchComparison}
    (h : merge_change_sets a b = .ok (merged, report)) : report = compare_branches a b ∧
      (report.mergeable = false ∧ merged = none ∨
        report.mergeable = true ∧ ∃ cs, merged = some cs ∧ ChangeSet.of (mergeFields a b) = .ok cs) := by
  unfold merge_change_sets at h
  cases hmergeable : (compare_branches a b).mergeable with
  | false =>
    simp only [hmergeable] at h
    cases h
    exact ⟨rfl, .inl ⟨hmergeable, rfl⟩⟩
  | true =>
    simp only [hmergeable] at h
    cases hcs : ChangeSet.of (mergeFields a b) with
    | error e =>
      rw [hcs] at h
      cases h
    | ok cs =>
      rw [hcs] at h
      cases h
      exact ⟨rfl, .inr ⟨hmergeable, cs, rfl, rfl⟩⟩

/-- **A merge never picks a side** exactly where the branches seem to agree just when they do, and where they do, touch
    at most 400 keys together and leave a document with room for both. -/
theorem merge_exact_iff (ha : apply_changes base a = .ok docA) (hb : apply_changes base b = .ok docB) :
    NeverPicksASide base a b docA docB ↔
      (SeemsToAgree a b ↔ Agrees a b) ∧ (Agrees a b → (touched a b).length ≤ 400 ∧ Room base a b) := by
  have hdistinct := (apply_changes_isOk.mp ⟨docA, ha⟩).distinct
  have hdistinct' := (apply_changes_isOk.mp ⟨docB, hb⟩).distinct
  have hmergeable := mergeable_iff hdistinct hdistinct'
  constructor
  · intro h
    obtain ⟨⟨merged, report⟩, hmerge⟩ := h.returns
    obtain ⟨rfl, hcases⟩ := merge_eq_ok hmerge
    have hseems : SeemsToAgree a b ↔ Agrees a b := by
      rw [← hmergeable]
      exact h.reports merged _ hmerge
    refine ⟨hseems, ?_⟩
    intro hagree
    have htrue := hmergeable.mpr (hseems.mpr hagree)
    rcases hcases with ⟨hfalse, -⟩ | ⟨-, cs, rfl, hcs⟩
    · rw [htrue] at hfalse
      cases hfalse
    · obtain ⟨doc, hdoc, -⟩ := h.applies cs _ hmerge
      have hfields := ChangeSet.of_eq_ok.mp hcs
      exact ⟨(merged_isOk hagree hdistinct hdistinct').mp ⟨cs, hcs⟩,
        (merged_applies_iff ha hb hfields hagree).mp (apply_changes_isOk.mp ⟨doc, hdoc⟩)⟩
  · rintro ⟨hseems, hroom⟩
    constructor
    · cases hreport : (compare_branches a b).mergeable with
      | false =>
        unfold merge_change_sets
        simp only [hreport]
        exact ⟨_, rfl⟩
      | true =>
        have hagree := hseems.mp (hmergeable.mp hreport)
        obtain ⟨cs, hcs⟩ := (merged_isOk hagree hdistinct hdistinct').mpr (hroom hagree).1
        exact ⟨_, merge_of_mergeable hreport hcs⟩
    · intro merged report hmerge
      obtain ⟨rfl, -⟩ := merge_eq_ok hmerge
      rw [hmergeable, hseems]
    · intro merged report hmerge
      obtain ⟨rfl, ⟨-, hnone⟩ | ⟨htrue, cs, hsome, hcs⟩⟩ := merge_eq_ok hmerge
      · cases hnone
      · obtain rfl := Option.some.inj hsome
        have hagree := hseems.mp (hmergeable.mp htrue)
        have hfields := ChangeSet.of_eq_ok.mp hcs
        obtain ⟨doc, hdoc⟩ := apply_changes_isOk.mpr ((merged_applies_iff ha hb hfields hagree).mpr (hroom hagree).2)
        refine ⟨doc, hdoc, combines ha hb hfields hagree hdoc, ?_⟩
        -- the other way round: what is the same stays so
        have hseems' : SeemsToAgree b a := by
          have h := hmergeable.mp htrue
          constructor
          · intro k e f he hf
            have heq := hagree.keys k f e hf he
            rw [← heq]
            exact heq ▸ h.keys k f e hf he
          · intro c hc c' hc' hid
            have heq := hagree.constraints c' hc' c hc hid.symm
            rw [← heq]
            exact heq ▸ h.constraints c' hc' c hc hid.symm
          · exact h.kept'
          · exact h.kept
        have htrue' := (mergeable_iff hdistinct' hdistinct).mpr hseems'
        obtain ⟨hfew, hroom⟩ := hroom hagree
        rw [length_touched_comm] at hfew
        obtain ⟨cs', hcs'⟩ := (merged_isOk hagree.symm hdistinct' hdistinct).mpr hfew
        have hfields' := ChangeSet.of_eq_ok.mp hcs'
        obtain ⟨doc', hdoc'⟩ :=
          apply_changes_isOk.mpr ((merged_applies_iff hb ha hfields' hagree.symm).mpr hroom.symm)
        exact ⟨cs', _, doc', merge_of_mergeable htrue' hcs', hdoc',
          sameDocument_symm hdistinct hdistinct' hfields hfields' hagree hdoc hdoc'⟩

/-- A branch that sets the logo, merged with one that changes nothing. -/
theorem merge_exact_iff_logo : ∃ docA docB, apply_changes blank (setLogo .null) = .ok docA ∧
    apply_changes blank { checked := rfl } = .ok docB ∧
      NeverPicksASide blank (setLogo .null) { checked := rfl } docA docB := by
  obtain ⟨docA, ha⟩ := apply_changes_isOk.mpr (applies_setLogo (show ValueOk .null from trivial))
  have happlies : Applies blank { checked := rfl } := by
    apply applies_unset rfl _ rfl rfl
    intro k hk
    cases hk
  obtain ⟨docB, hb⟩ := apply_changes_isOk.mpr happlies
  refine ⟨docA, docB, ha, hb, (merge_exact_iff ha hb).mpr ⟨?_, ?_⟩⟩
  · have hnone : ∀ k, (effect { checked := rfl }).get? k = none := fun k => rfl
    constructor
    · intro h
      refine ⟨?_, ?_, h.kept, h.kept'⟩
      · intro k e f _ hf
        rw [hnone] at hf
        cases hf
      · intro c _ c' hc'
        cases hc'
    · intro h
      refine ⟨?_, ?_, h.kept, h.kept'⟩
      · intro k e f _ hf
        rw [hnone] at hf
        cases hf
      · intro c _ c' hc'
        cases hc'
  · intro _
    refine ⟨by decide, ?_, by decide⟩
    intro c
    exact (List.length_filter_le _ _).trans (by decide)

theorem effect_setLogo {w : Value} {e : Effect} (h : (effect (setLogo w)).get? k = some e) : e = .SET w := by
  rw [get?_effect, if_neg (show k ∉ (setLogo w).unset from List.not_mem_nil)] at h
  obtain ⟨w', hw', rfl⟩ := Option.map_eq_some_iff.mp h
  rw [(get?_setLogo hw').2]

/-- **One branch sets a key to one, the other to true.** They are merged, and are not the same. -/
theorem merges_one_and_true : ¬∀ base a b docA docB, apply_changes base a = .ok docA → apply_changes base b = .ok docB →
    NeverPicksASide base a b docA docB := by
  intro h
  obtain ⟨docA, ha⟩ := apply_changes_isOk.mpr (applies_setLogo (show ValueOk (.int 1) from trivial))
  obtain ⟨docB, hb⟩ := apply_changes_isOk.mpr (applies_setLogo (show ValueOk (.bool true) from trivial))
  have hnever := h blank _ _ docA docB ha hb
  obtain ⟨⟨merged, report⟩, hmerge⟩ := hnever.returns
  obtain ⟨rfl, -⟩ := merge_eq_ok hmerge
  have hseems : SeemsToAgree (setLogo (.int 1)) (setLogo (.bool true)) := by
    constructor
    · intro k e f he hf
      rw [effect_setLogo he, effect_setLogo hf]
      rfl
    · intro c hc
      cases hc
    · intro id hid
      cases hid
    · intro id hid
      cases hid
  have hmergeable := (mergeable_iff (a := setLogo (.int 1)) (b := setLogo (.bool true)) List.nodup_nil List.nodup_nil).mpr
    hseems
  have hagree := (hnever.reports merged _ hmerge).mp hmergeable
  have heq := hagree.keys "visual.logo" (.SET (.int 1)) (.SET (.bool true)) rfl rfl
  cases heq

end Genome
