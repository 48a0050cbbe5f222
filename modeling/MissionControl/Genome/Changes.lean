import MissionControl.Genome.Document

/-! # Change sets

A branch records what it changes of a base document: values set, keys unset, constraints added and removed. Applied, a
change set says of each key and each constraint what the result holds (`apply_changes_spec`), and it applies exactly
where it unsets and removes what the base has, adds what is left free, and the result is a document
(`apply_changes_isOk`).

**Composing two change sets is applying them in turn** exactly where together they touch at most 400 keys, the second
unsets no key that only the first sets, and adds no constraint again that the first removes (`compose_exact_iff`). -/

namespace Genome

open Python (Dict raiseIf sortedSet mem_sortedSet)

structure ChangeFields where
  set : Dict String Value := .empty
  unset : List String := []
  add_constraints : List GenomeConstraint := []
  remove_constraints : List String := []

/-- The identifiers of the added constraints. -/
def ChangeFields.added (cs : ChangeFields) : List String := cs.add_constraints.map (·.constraint_id)

/-- `_disjoint` -/
def ChangeFields.check (cs : ChangeFields) : Except GenomeError Unit := do
  raiseIf (cs.set.keys.any fun k => k ∈ cs.unset) (.plain "a key cannot be both set and unset")
  raiseIf (cs.added.any fun id => id ∈ cs.remove_constraints) (.plain "a constraint cannot be both added and removed")
  raiseIf (400 < cs.set.size + cs.unset.length) (.plain "a change set touches at most 400 keys")

structure ChangeSet extends ChangeFields where
  checked : toChangeFields.check = .ok ()

/-- `ChangeSet(...)` -/
def ChangeSet.of (cs : ChangeFields) : Except GenomeError ChangeSet :=
  match h : cs.check with
  | .ok () => .ok { cs with checked := h }
  | .error e => .error e

def ids (constraints : List GenomeConstraint) : List String := constraints.map (·.constraint_id)

def apply_changes (base : GenomeDocument) (changes : ChangeSet) : Except GenomeError GenomeDocument := do
  let values := base.flatten.filterKeys (· ∉ changes.unset)
  let missing := sortedSet (changes.unset.filter (· ∉ base.flatten.keys))
  raiseIf (missing ≠ []) (.listing "cannot unset keys the base does not have: " missing)
  let values := values.update changes.set
  let known := ids base.constraints
  let absent := sortedSet (changes.remove_constraints.filter (· ∉ known))
  raiseIf (absent ≠ []) (.listing "cannot remove constraints the base does not have: " absent)
  let clash := sortedSet (changes.added.filter fun id => id ∈ known ∧ id ∉ changes.remove_constraints)
  raiseIf (clash ≠ []) (.listing "constraints already exist in the base: " clash)
  let constraints := (base.constraints.filter (·.constraint_id ∉ changes.remove_constraints)) ++ changes.add_constraints
  document_from_flat values constraints base.provenance

/-- The constraints added to a dictionary under their identifiers. -/
def addById (d : Dict String GenomeConstraint) (constraints : List GenomeConstraint) : Dict String GenomeConstraint :=
  d.updateList (constraints.map fun c => (c.constraint_id, c))

/-- `{c.constraint_id: c for c in constraints}` -/
def byId (constraints : List GenomeConstraint) : Dict String GenomeConstraint := addById .empty constraints

/-- What `compose` makes a change set of. -/
def composeFields (parent child : ChangeSet) : ChangeFields :=
  let values := (parent.set.filterKeys (· ∉ child.unset)).update child.set
  let unset := sortedSet ((parent.unset.filter (· ∉ child.set.keys)) ++ child.unset)
  let adds := addById (byId (parent.add_constraints.filter (·.constraint_id ∉ child.remove_constraints)))
    child.add_constraints
  let removes := sortedSet (parent.remove_constraints.filter (· ∉ adds.keys) ++
    child.remove_constraints.filter (· ∉ parent.added))
  { set := values
    unset := unset.filter (· ∉ values.keys)
    add_constraints := adds.entries.map Prod.snd
    remove_constraints := removes }

def compose (parent child : ChangeSet) : Except GenomeError ChangeSet := ChangeSet.of (composeFields parent child)

/-! ## What is accepted -/

/-- What the checks of a change set come to. -/
structure Disjoint (cs : ChangeFields) : Prop where
  keys : ∀ k ∈ cs.set.keys, k ∉ cs.unset
  constraints : ∀ id ∈ cs.added, id ∉ cs.remove_constraints
  few : cs.set.size + cs.unset.length ≤ 400

theorem changes_check_eq_ok {cs : ChangeFields} : cs.check = .ok () ↔ Disjoint cs := by
  unfold ChangeFields.check
  rw [Python.bind_unit_eq_ok, Python.bind_unit_eq_ok, Python.raiseIf_eq_ok, Python.raiseIf_eq_ok, Python.raiseIf_eq_ok,
    not_lt, Bool.not_eq_true, Bool.not_eq_true, List.any_eq_false, List.any_eq_false]
  simp only [decide_eq_true_eq]
  constructor
  · rintro ⟨hkeys, hconstraints, hfew⟩
    exact ⟨hkeys, hconstraints, hfew⟩
  · rintro ⟨hkeys, hconstraints, hfew⟩
    exact ⟨hkeys, hconstraints, hfew⟩

theorem ChangeSet.disjoint (cs : ChangeSet) : Disjoint cs.toChangeFields := changes_check_eq_ok.mp cs.checked

variable {fields : ChangeFields}

theorem ChangeSet.of_eq_ok {cs : ChangeSet} : ChangeSet.of fields = .ok cs ↔ cs.toChangeFields = fields := by
  unfold ChangeSet.of
  constructor
  · intro h
    split at h
    · cases h
      rfl
    · cases h
  · rintro rfl
    split
    · rfl
    · rename_i e he
      rw [cs.checked] at he
      cases he

theorem ChangeSet.of_ok (h : Disjoint fields) : ∃ cs, ChangeSet.of fields = .ok cs :=
  ⟨{ fields with checked := changes_check_eq_ok.mpr h }, ChangeSet.of_eq_ok.mpr rfl⟩

/-! ## What a change set leaves -/

variable {base doc : GenomeDocument} {cs : ChangeSet} {k id : String} {c : GenomeConstraint}
  {values : Dict String Value}

/-- The flat values after the changes. -/
def changed (base : GenomeDocument) (cs : ChangeSet) : Dict String Value :=
  (base.flatten.filterKeys (· ∉ cs.unset)).update cs.set

/-- The constraints after the changes. -/
def constrained (base : GenomeDocument) (cs : ChangeSet) : List GenomeConstraint :=
  base.constraints.filter (·.constraint_id ∉ cs.remove_constraints) ++ cs.add_constraints

theorem get?_changed : (changed base cs).get? k =
    (cs.set.get? k).or (if k ∈ cs.unset then none else base.flatten.get? k) := by
  unfold changed
  rw [Dict.get?_update, Dict.get?_filterKeys]
  by_cases h : k ∈ cs.unset <;> simp [h]

theorem mem_constrained : c ∈ constrained base cs ↔
    c ∈ base.constraints ∧ c.constraint_id ∉ cs.remove_constraints ∨ c ∈ cs.add_constraints := by
  unfold constrained
  rw [List.mem_append, List.mem_filter, decide_eq_true_eq]

/-- A change set that the base has what it takes for. -/
structure Applies (base : GenomeDocument) (cs : ChangeSet) : Prop where
  unset : ∀ k ∈ cs.unset, k ∈ base.flatten.keys
  removed : ∀ id ∈ cs.remove_constraints, id ∈ ids base.constraints
  fresh : ∀ id ∈ cs.added, id ∉ ids base.constraints
  distinct : cs.added.Nodup
  fits : Fits (changed base cs)
  few : (constrained base cs).length ≤ MAX_CONSTRAINTS

theorem mem_added (h : c ∈ cs.add_constraints) : c.constraint_id ∈ cs.added := List.mem_map.mpr ⟨c, h, rfl⟩

theorem sortedSet_filter_eq_nil {l : List String} {p : String → Bool} :
    sortedSet (l.filter p) = [] ↔ ∀ x ∈ l, p x = false := by
  rw [Python.sortedSet_eq_nil, List.filter_eq_nil_iff]
  simp

theorem apply_changes_eq_ok : apply_changes base cs = .ok doc ↔
    (∀ k ∈ cs.unset, k ∈ base.flatten.keys) ∧ (∀ id ∈ cs.remove_constraints, id ∈ ids base.constraints) ∧
      (∀ id ∈ cs.added, id ∉ ids base.constraints) ∧
      document_from_flat (changed base cs) (constrained base cs) base.provenance = .ok doc := by
  have hclash : (∀ id ∈ cs.added, decide (id ∈ ids base.constraints ∧ id ∉ cs.remove_constraints) = false) ↔
      ∀ id ∈ cs.added, id ∉ ids base.constraints := by
    apply forall₂_congr
    intro id hid
    have := cs.disjoint.constraints id hid
    simp [this]
  unfold apply_changes
  simp only [Python.bind_unit_eq_ok, Python.raiseIf_eq_ok, not_not, sortedSet_filter_eq_nil]
  rw [hclash]
  simp only [decide_eq_false_iff_not, not_not]
  rfl

theorem nodup_constrained (hfresh : ∀ id ∈ cs.added, id ∉ ids base.constraints) :
    (ids (constrained base cs)).Nodup ↔ cs.added.Nodup := by
  have hkept : (ids (base.constraints.filter (·.constraint_id ∉ cs.remove_constraints))).Nodup :=
    base.accepted.ids.sublist (List.filter_sublist.map _)
  unfold ids constrained at *
  rw [List.map_append, List.nodup_append]
  constructor
  · exact fun h => h.2.1
  · intro h
    refine ⟨hkept, h, ?_⟩
    rintro id hid id' hid' rfl
    exact hfresh id hid' ((List.filter_sublist.map _).subset hid)

/-- **When a change set applies.** -/
theorem apply_changes_isOk : (∃ doc, apply_changes base cs = .ok doc) ↔ Applies base cs := by
  simp only [apply_changes_eq_ok, exists_and_left]
  rw [document_from_flat_isOk]
  constructor
  · rintro ⟨hunset, hremoved, hfresh, hfits, hfew, hids⟩
    exact ⟨hunset, hremoved, hfresh, (nodup_constrained hfresh).mp hids, hfits, hfew⟩
  · rintro ⟨hunset, hremoved, hfresh, hdistinct, hfits, hfew⟩
    exact ⟨hunset, hremoved, hfresh, hfits, hfew, (nodup_constrained hfresh).mpr hdistinct⟩

/-- **What a change set leaves** of every key and every constraint. -/
theorem apply_changes_spec (h : apply_changes base cs = .ok doc) :
    (∀ k, doc.flatten.get? k = (changed base cs).get? k) ∧ doc.constraints = constrained base cs := by
  obtain ⟨-, -, -, hdoc⟩ := apply_changes_eq_ok.mp h
  exact ⟨get?_of_document_from_flat hdoc, (document_from_flat_eq_ok hdoc).2.1⟩

/-! ## Constraints by identifier -/

variable {constraints : List GenomeConstraint} {d : Dict String GenomeConstraint}

/-- Each constraint is under its own identifier. -/
def Keyed (d : Dict String GenomeConstraint) : Prop := ∀ id c, d.get? id = some c → c.constraint_id = id

theorem Keyed.set (h : Keyed d) (c : GenomeConstraint) : Keyed (d.set c.constraint_id c) := by
  intro id c' hc'
  rw [Dict.get?_set] at hc'
  split at hc'
  · rename_i hid
    rw [← Option.some.inj hc', hid]
  · exact h id c' hc'

theorem Keyed.addById (h : Keyed d) (constraints : List GenomeConstraint) : Keyed (addById d constraints) := by
  induction constraints generalizing d with
  | nil => exact h
  | cons c constraints ih => exact ih (h.set c)

theorem keyed_byId (constraints : List GenomeConstraint) : Keyed (byId constraints) :=
  Keyed.addById (fun _ _ h => by cases h) constraints

theorem Keyed.map_entries (h : Keyed d) : ids (d.entries.map Prod.snd) = d.keys := by
  unfold ids Dict.keys
  rw [List.map_map]
  apply List.map_congr_left
  rintro ⟨id, c⟩ hmem
  exact h id c (Dict.get?_eq_some.mpr hmem)

theorem Keyed.mem_entries (h : Keyed d) : c ∈ d.entries.map Prod.snd ↔ d.get? c.constraint_id = some c := by
  rw [List.mem_map, Dict.get?_eq_some]
  constructor
  · rintro ⟨⟨id, c'⟩, hmem, rfl⟩
    rwa [h id c' (Dict.get?_eq_some.mpr hmem)]
  · intro hmem
    exact ⟨_, hmem, rfl⟩

theorem map_fst_pairs (constraints : List GenomeConstraint) :
    (constraints.map fun c => (c.constraint_id, c)).map Prod.fst = ids constraints := by
  rw [List.map_map]
  rfl

theorem get?_byId (h : (ids constraints).Nodup) :
    (byId constraints).get? id = some c ↔ c ∈ constraints ∧ c.constraint_id = id := by
  show (Dict.ofList (constraints.map fun c => (c.constraint_id, c))).get? id = some c ↔ _
  rw [Dict.get?_ofList (by rwa [map_fst_pairs]), List.mem_map]
  constructor
  · rintro ⟨c', hmem, heq⟩
    obtain ⟨rfl, rfl⟩ := Prod.mk.inj heq
    exact ⟨hmem, rfl⟩
  · rintro ⟨hmem, rfl⟩
    exact ⟨c, hmem, rfl⟩

theorem get?_addById (h : (ids constraints).Nodup) : (addById d constraints).get? id = some c ↔
    c ∈ constraints ∧ c.constraint_id = id ∨ id ∉ ids constraints ∧ d.get? id = some c := by
  have hpairs : ((constraints.map fun c => (c.constraint_id, c)).map Prod.fst).Nodup := by rwa [map_fst_pairs]
  unfold addById
  by_cases hid : id ∈ ids constraints
  · obtain ⟨c', hmem, rfl⟩ := List.mem_map.mp hid
    have hget : (d.updateList (constraints.map fun c => (c.constraint_id, c))).get? c'.constraint_id = some c' :=
      Dict.get?_updateList hpairs (List.mem_map_of_mem hmem)
    rw [hget]
    constructor
    · intro heq
      obtain rfl := Option.some.inj heq
      exact .inl ⟨hmem, rfl⟩
    · rintro (⟨hmem', hid'⟩ | ⟨hnot, -⟩)
      · exact congrArg some (List.inj_on_of_nodup_map h hmem hmem' hid'.symm)
      · exact absurd hid hnot
  · have hget : (d.updateList (constraints.map fun c => (c.constraint_id, c))).get? id = d.get? id := by
      apply Dict.get?_updateList_of_not_mem
      intro entry hentry heq
      obtain ⟨c', hmem, rfl⟩ := List.mem_map.mp hentry
      exact hid (heq ▸ List.mem_map_of_mem hmem)
    rw [hget]
    constructor
    · intro hd
      exact .inr ⟨hid, hd⟩
    · rintro (⟨hmem, rfl⟩ | ⟨-, hd⟩)
      · exact absurd (List.mem_map_of_mem hmem) hid
      · exact hd

/-! ## Composing -/

variable {parent child : ChangeSet} {mid : GenomeDocument}

/-- The keys that two change sets set or unset. -/
def touched (a b : ChangeSet) : List String := (a.set.keys ++ a.unset ++ b.set.keys ++ b.unset).dedup

theorem get?_composed : (composeFields parent child).set.get? k =
    (child.set.get? k).or (if k ∈ child.unset then none else parent.set.get? k) := by
  show (Dict.update _ _).get? k = _
  rw [Dict.get?_update, Dict.get?_filterKeys]
  by_cases h : k ∈ child.unset <;> simp [h]

theorem mem_keys_composed : k ∈ (composeFields parent child).set.keys ↔
    k ∈ child.set.keys ∨ k ∉ child.unset ∧ k ∈ parent.set.keys := by
  simp only [Dict.mem_keys, get?_composed]
  cases child.set.get? k with
  | some v => simp
  | none => by_cases h : k ∈ child.unset <;> simp [h]

theorem mem_unset_composed : k ∈ (composeFields parent child).unset ↔
    (k ∈ parent.unset ∧ k ∉ child.set.keys ∨ k ∈ child.unset) ∧ k ∉ (composeFields parent child).set.keys := by
  show k ∈ (sortedSet _).filter _ ↔ _
  rw [List.mem_filter, mem_sortedSet, List.mem_append, List.mem_filter, decide_eq_true_eq, decide_eq_true_eq]
  rfl

theorem keyed_composed (parent child : ChangeSet) :
    Keyed (addById (byId (parent.add_constraints.filter (·.constraint_id ∉ child.remove_constraints)))
      child.add_constraints) :=
  Keyed.addById (keyed_byId _) _

theorem mem_adds_composed (hp : parent.added.Nodup) (hc : child.added.Nodup) :
    c ∈ (composeFields parent child).add_constraints ↔ c ∈ child.add_constraints ∨
      c.constraint_id ∉ child.added ∧ c ∈ parent.add_constraints ∧ c.constraint_id ∉ child.remove_constraints := by
  have hkept : (ids (parent.add_constraints.filter (·.constraint_id ∉ child.remove_constraints))).Nodup :=
    hp.sublist (List.filter_sublist.map _)
  show c ∈ (Dict.entries _).map Prod.snd ↔ _
  rw [(keyed_composed parent child).mem_entries, get?_addById hc, get?_byId hkept, List.mem_filter, decide_eq_true_eq]
  show _ ∧ _ ∨ _ ∧ (_ ∧ _) ∧ _ ↔ _
  simp only [and_true]
  rfl

theorem mem_removes_composed : id ∈ (composeFields parent child).remove_constraints ↔
    id ∈ parent.remove_constraints ∧ id ∉ (composeFields parent child).added ∨
      id ∈ child.remove_constraints ∧ id ∉ parent.added := by
  have hkeys : (composeFields parent child).added = Dict.keys _ := (keyed_composed parent child).map_entries
  rw [hkeys]
  show id ∈ sortedSet _ ↔ _
  rw [mem_sortedSet, List.mem_append, List.mem_filter, List.mem_filter, decide_eq_true_eq, decide_eq_true_eq]

theorem nodup_added_composed (parent child : ChangeSet) : (composeFields parent child).added.Nodup := by
  have hkeys : (composeFields parent child).added = Dict.keys _ := (keyed_composed parent child).map_entries
  rw [hkeys]
  exact Dict.nodup_keys _

theorem size_composed (parent child : ChangeSet) :
    (composeFields parent child).set.size + (composeFields parent child).unset.length = (touched parent child).length := by
  rw [← Dict.length_keys, ← List.length_append]
  have hnodup : ((composeFields parent child).set.keys ++ (composeFields parent child).unset).Nodup := by
    refine List.nodup_append.mpr ⟨Dict.nodup_keys _, ?_, ?_⟩
    · exact ((List.perm_insertionSort _ _).nodup_iff.mpr (List.nodup_dedup _)).filter _
    · rintro k hset k' hunset rfl
      exact (mem_unset_composed.mp hunset).2 hset
  apply List.Perm.length_eq
  refine (List.perm_ext_iff_of_nodup hnodup (List.nodup_dedup _)).mpr ?_
  intro k
  rw [List.mem_append, mem_unset_composed, mem_keys_composed]
  simp only [List.mem_dedup, List.mem_append]
  have := parent.disjoint.keys k
  have := child.disjoint.keys k
  tauto

theorem compose_isOk (hp : parent.added.Nodup) (hc : child.added.Nodup) :
    (∃ cs, compose parent child = .ok cs) ↔ (touched parent child).length ≤ 400 := by
  rw [← size_composed]
  constructor
  · rintro ⟨cs, hcs⟩
    rw [← ChangeSet.of_eq_ok.mp hcs]
    exact cs.disjoint.few
  · intro hfew
    apply ChangeSet.of_ok
    constructor
    · intro k hset hunset
      exact (mem_unset_composed.mp hunset).2 hset
    · intro id hadded hremoved
      obtain ⟨c, hmem, rfl⟩ := List.mem_map.mp hadded
      rw [mem_adds_composed hp hc] at hmem
      rcases mem_removes_composed.mp hremoved with ⟨-, hnot⟩ | ⟨hchild, hparent⟩
      · exact hnot hadded
      · rcases hmem with hmem | ⟨-, hmem, -⟩
        · exact child.disjoint.constraints _ (List.mem_map_of_mem hmem) hchild
        · exact hparent (List.mem_map_of_mem hmem)
    · exact hfew

/-- The composed change set does to the base what the two do in turn. -/
structure ComposesExactly (base : GenomeDocument) (parent child : ChangeSet) (doc : GenomeDocument) : Prop where
  exact : ∃ composed result, compose parent child = .ok composed ∧ apply_changes base composed = .ok result ∧
    (∀ k, result.flatten.get? k = doc.flatten.get? k) ∧ ∀ c, c ∈ result.constraints ↔ c ∈ doc.constraints

theorem mem_keys_changed : k ∈ (changed base cs).keys ↔ k ∈ cs.set.keys ∨ k ∈ base.flatten.keys ∧ k ∉ cs.unset := by
  simp only [Dict.mem_keys, get?_changed]
  cases cs.set.get? k with
  | some v => simp
  | none => by_cases h : k ∈ cs.unset <;> simp [h]

theorem mem_keys_of_spec (h : apply_changes base cs = .ok doc) :
    k ∈ doc.flatten.keys ↔ k ∈ cs.set.keys ∨ k ∈ base.flatten.keys ∧ k ∉ cs.unset := by
  rw [← mem_keys_changed]
  simp only [Dict.mem_keys, (apply_changes_spec h).1]

theorem mem_ids : id ∈ ids constraints ↔ ∃ c ∈ constraints, c.constraint_id = id := List.mem_map

theorem mem_ids_of_spec (h : apply_changes base cs = .ok doc) :
    id ∈ ids doc.constraints ↔ id ∈ ids base.constraints ∧ id ∉ cs.remove_constraints ∨ id ∈ cs.added := by
  rw [(apply_changes_spec h).2, mem_ids]
  simp only [mem_constrained]
  constructor
  · rintro ⟨c, ⟨hc, hnot⟩ | hc, rfl⟩
    · exact .inl ⟨List.mem_map_of_mem hc, hnot⟩
    · exact .inr (List.mem_map_of_mem hc)
  · rintro (⟨hid, hnot⟩ | hid)
    · obtain ⟨c, hc, rfl⟩ := mem_ids.mp hid
      exact ⟨c, .inl ⟨hc, hnot⟩, rfl⟩
    · obtain ⟨c, hc, rfl⟩ := List.mem_map.mp hid
      exact ⟨c, .inr hc, rfl⟩

variable {composed : ChangeSet}

/-- **The composed change set leaves** of every key what the two leave in turn. -/
theorem get?_changed_composed (hcomposed : compose parent child = .ok composed)
    (hp : apply_changes base parent = .ok mid) (k : String) :
    (changed base composed).get? k = (changed mid child).get? k := by
  have hfields := ChangeSet.of_eq_ok.mp hcomposed
  have hunset : k ∈ composed.unset ↔ (k ∈ parent.unset ∧ k ∉ child.set.keys ∨ k ∈ child.unset) ∧
      ¬(k ∈ child.set.keys ∨ k ∉ child.unset ∧ k ∈ parent.set.keys) := by
    rw [hfields, mem_unset_composed, mem_keys_composed]
  rw [get?_changed, get?_changed, (apply_changes_spec hp).1, get?_changed, hfields, get?_composed, ← hfields]
  cases hchild : child.set.get? k with
  | some v => rfl
  | none =>
    have hnot : k ∉ child.set.keys := Dict.get?_eq_none.mp hchild
    by_cases hk : k ∈ child.unset
    · have : k ∈ composed.unset := hunset.mpr ⟨.inr hk, by simp [hnot, hk]⟩
      simp [hk, this]
    · cases hparent : parent.set.get? k with
      | some v => simp [hk]
      | none =>
        have hnot' : k ∉ parent.set.keys := Dict.get?_eq_none.mp hparent
        have : k ∈ composed.unset ↔ k ∈ parent.unset := by
          rw [hunset]
          tauto
        simp [hk, this]

/-- **The composed change set leaves** the constraints that the two leave in turn. -/
theorem mem_constrained_composed (hcomposed : compose parent child = .ok composed)
    (hp : apply_changes base parent = .ok mid) (hc : apply_changes mid child = .ok doc)
    (hagain : ∀ id ∈ child.added, id ∉ parent.remove_constraints) :
    c ∈ constrained base composed ↔ c ∈ constrained mid child := by
  have hfields := ChangeSet.of_eq_ok.mp hcomposed
  have happlies := apply_changes_isOk.mp ⟨mid, hp⟩
  have happlies' := apply_changes_isOk.mp ⟨doc, hc⟩
  have hadds : c ∈ composed.add_constraints ↔ c ∈ child.add_constraints ∨
      c.constraint_id ∉ child.added ∧ c ∈ parent.add_constraints ∧ c.constraint_id ∉ child.remove_constraints := by
    rw [hfields]
    exact mem_adds_composed happlies.distinct happlies'.distinct
  have hremoves : c.constraint_id ∈ composed.remove_constraints ↔
      c.constraint_id ∈ parent.remove_constraints ∧ c.constraint_id ∉ composed.added ∨
        c.constraint_id ∈ child.remove_constraints ∧ c.constraint_id ∉ parent.added := by
    rw [hfields]
    exact mem_removes_composed
  have hadded : ∀ id ∈ composed.added, id ∈ child.added ∨ id ∈ parent.added := by
    intro id hid
    obtain ⟨c', hc', rfl⟩ := List.mem_map.mp hid
    rw [hfields, mem_adds_composed happlies.distinct happlies'.distinct] at hc'
    exact hc'.imp (fun h => List.mem_map_of_mem h) fun h => List.mem_map_of_mem h.2.1
  rw [mem_constrained, mem_constrained, (apply_changes_spec hp).2, mem_constrained, hadds]
  constructor
  · rintro (⟨hbase, hnot⟩ | hchild | ⟨-, hparent, hnot⟩)
    · have hid : c.constraint_id ∈ ids base.constraints := List.mem_map_of_mem hbase
      have hparent : c.constraint_id ∉ parent.added := fun h => happlies.fresh _ h hid
      left
      refine ⟨.inl ⟨hbase, ?_⟩, ?_⟩
      · intro hremoved
        -- what the parent removes is only kept away where something of the name is added
        apply hnot
        refine hremoves.mpr (.inl ⟨hremoved, ?_⟩)
        intro hcomposed'
        rcases hadded _ hcomposed' with h | h
        · exact hagain _ h hremoved
        · exact hparent h
      · intro hremoved
        exact hnot (hremoves.mpr (.inr ⟨hremoved, hparent⟩))
    · exact .inr hchild
    · exact .inl ⟨.inr hparent, hnot⟩
  · rintro (⟨⟨hbase, hnot⟩ | hparent, hkept⟩ | hchild)
    · left
      refine ⟨hbase, ?_⟩
      intro hremoved
      rcases hremoves.mp hremoved with ⟨h, -⟩ | ⟨h, -⟩
      · exact hnot h
      · exact hkept h
    · right
      right
      refine ⟨?_, hparent, hkept⟩
      intro hchild
      exact happlies'.fresh _ hchild ((mem_ids_of_spec hp).mpr (.inr (List.mem_map_of_mem hparent)))
    · exact .inr (.inl hchild)

/-- **Composing two change sets is applying them in turn** exactly where they touch at most 400 keys together, the
    second unsets no key of the first that the base lacks, and adds no constraint that the first removes. -/
theorem compose_exact_iff (hp : apply_changes base parent = .ok mid) (hc : apply_changes mid child = .ok doc) :
    ComposesExactly base parent child doc ↔
      (touched parent child).length ≤ 400 ∧
        (∀ k ∈ child.unset, k ∈ parent.set.keys → k ∈ base.flatten.keys) ∧
        ∀ id ∈ child.added, id ∉ parent.remove_constraints := by
  have happlies := apply_changes_isOk.mp ⟨mid, hp⟩
  have happlies' := apply_changes_isOk.mp ⟨doc, hc⟩
  constructor
  · rintro ⟨composed, result, hcomposed, hresult, -, -⟩
    have hfields := ChangeSet.of_eq_ok.mp hcomposed
    have happlies'' := apply_changes_isOk.mp ⟨result, hresult⟩
    refine ⟨(compose_isOk happlies.distinct happlies'.distinct).mp ⟨composed, hcomposed⟩, ?_, ?_⟩
    · intro k hk hset
      apply happlies''.unset
      rw [hfields, mem_unset_composed, mem_keys_composed]
      have : k ∉ child.set.keys := fun h => child.disjoint.keys k h hk
      tauto
    · intro id hid hremoved
      have hadded : id ∈ composed.added := by
        obtain ⟨c, hmem, rfl⟩ := List.mem_map.mp hid
        rw [hfields]
        exact List.mem_map_of_mem ((mem_adds_composed happlies.distinct happlies'.distinct).mpr (.inl hmem))
      exact happlies''.fresh id hadded (happlies.removed id hremoved)
  · rintro ⟨hfew, hunset, hagain⟩
    obtain ⟨composed, hcomposed⟩ := (compose_isOk happlies.distinct happlies'.distinct).mpr hfew
    have hfields := ChangeSet.of_eq_ok.mp hcomposed
    have hvalues := get?_changed_composed hcomposed hp
    have hmem : ∀ c, c ∈ constrained base composed ↔ c ∈ constrained mid child :=
      fun c => mem_constrained_composed hcomposed hp hc hagain
    have hfresh : ∀ id ∈ composed.added, id ∉ ids base.constraints := by
      intro id hid hbase
      obtain ⟨c, hmem, rfl⟩ := List.mem_map.mp hid
      rw [hfields, mem_adds_composed happlies.distinct happlies'.distinct] at hmem
      rcases hmem with hchild | ⟨-, hparent, -⟩
      · have hadded := mem_added hchild
        exact happlies'.fresh _ hadded ((mem_ids_of_spec hp).mpr (.inl ⟨hbase, hagain _ hadded⟩))
      · exact happlies.fresh _ (mem_added hparent) hbase
    have hdistinct : composed.added.Nodup := by
      rw [hfields]
      exact nodup_added_composed parent child
    obtain ⟨result, hresult⟩ : ∃ result, apply_changes base composed = .ok result := by
      apply apply_changes_isOk.mpr
      constructor
      · intro k hk
        rw [hfields] at hk
        rcases (mem_unset_composed.mp hk).1 with ⟨h, -⟩ | h
        · exact happlies.unset k h
        · rcases (mem_keys_of_spec hp).mp (happlies'.unset k h) with hset | ⟨hbase, -⟩
          · exact hunset k h hset
          · exact hbase
      · intro id hid
        rw [hfields] at hid
        rcases mem_removes_composed.mp hid with ⟨h, -⟩ | ⟨h, hnot⟩
        · exact happlies.removed id h
        · rcases (mem_ids_of_spec hp).mp (happlies'.removed id h) with ⟨hbase, -⟩ | hadded
          · exact hbase
          · exact absurd hadded hnot
      · exact hfresh
      · exact hdistinct
      · exact happlies'.fits.congr hvalues
      · have hnodup : (constrained base composed).Nodup := ((nodup_constrained hfresh).mpr hdistinct).of_map
        have hnodup' : (constrained mid child).Nodup :=
          ((nodup_constrained happlies'.fresh).mpr happlies'.distinct).of_map
        rw [((List.perm_ext_iff_of_nodup hnodup hnodup').mpr hmem).length_eq]
        exact happlies'.few
    refine ⟨composed, result, hcomposed, hresult, ?_, ?_⟩
    · intro k
      rw [(apply_changes_spec hresult).1, (apply_changes_spec hc).1, hvalues]
    · intro c
      rw [(apply_changes_spec hresult).2, (apply_changes_spec hc).2, hmem]

/-! ## A logo that is set and unset -/

theorem fits_of_size_le (hflat : ∀ key v, values.get? key = some v → FlatOk key v) (hsize : values.size ≤ 200) :
    Fits values := by
  refine ⟨hflat, ?_⟩
  intro c
  have hle : (keysOf c values).length ≤ values.keys.length := List.length_filter_le _ _
  rw [Dict.length_keys] at hle
  exact hle.trans hsize

/-- A document that holds nothing. -/
def blank : GenomeDocument := { checked := rfl }

theorem get?_blank (key : String) : blank.flatten.get? key = none := rfl

def setLogo (v : Value) : ChangeSet := { set := .ofList [("visual.logo", v)], checked := rfl }

def unsetLogo : ChangeSet := { unset := ["visual.logo"], checked := rfl }

theorem get?_setLogo {v w : Value} {key : String} (h : (setLogo v).set.get? key = some w) :
    key = "visual.logo" ∧ w = v := by
  have hmem : (key, w) ∈ [("visual.logo", v)] := Dict.get?_eq_some.mp h
  simpa using hmem

theorem applies_setLogo {v : Value} (hv : ValueOk v) : Applies blank (setLogo v) := by
  constructor
  · intro k hk
    cases hk
  · intro id hid
    cases hid
  · intro id hid
    cases hid
  · exact List.nodup_nil
  · apply fits_of_size_le
    · intro key w hw
      rw [get?_changed, get?_blank] at hw
      obtain ⟨rfl, rfl⟩ := get?_setLogo (show (setLogo v).set.get? key = some w by simpa using hw)
      exact ⟨.VISUAL, "logo", rfl, rfl, hv⟩
    · show 1 ≤ 200
      decide
  · exact Nat.zero_le _

theorem applies_unset (hset : cs.set = .empty) (hunset : ∀ k ∈ cs.unset, k ∈ base.flatten.keys)
    (hadd : cs.add_constraints = []) (hremove : cs.remove_constraints = []) : Applies base cs := by
  constructor
  · exact hunset
  · rw [hremove]
    intro id hid
    cases hid
  · intro id hid
    rw [ChangeFields.added, hadd] at hid
    cases hid
  · rw [ChangeFields.added, hadd]
    exact List.nodup_nil
  · apply (fits_flatten base).mono
    intro k v hv
    rw [get?_changed, hset, Dict.get?_empty, Option.none_or] at hv
    split at hv
    · cases hv
    · exact hv
  · unfold constrained
    rw [hadd, List.append_nil]
    exact (List.length_filter_le _ _).trans base.accepted.constraints

/-- A sub-branch without changes composes with the branch that sets the logo. -/
theorem compose_exact_iff_logo : ∃ mid doc, apply_changes blank (setLogo .null) = .ok mid ∧
    apply_changes mid { checked := rfl } = .ok doc ∧ ComposesExactly blank (setLogo .null) { checked := rfl } doc := by
  obtain ⟨mid, hmid⟩ := apply_changes_isOk.mpr (applies_setLogo (show ValueOk .null from trivial))
  have happlies : Applies mid { checked := rfl } := by
    apply applies_unset rfl _ rfl rfl
    intro k hk
    cases hk
  obtain ⟨doc, hdoc⟩ := apply_changes_isOk.mpr happlies
  refine ⟨mid, doc, hmid, hdoc, (compose_exact_iff hmid hdoc).mpr ⟨by decide, ?_, ?_⟩⟩
  · intro k hk
    cases hk
  · intro id hid
    cases hid

/-- **A key that one change set sets and the next unsets** cannot be unset in the base, which never had it. -/
theorem not_composes : ¬∀ base parent child mid doc, apply_changes base parent = .ok mid →
    apply_changes mid child = .ok doc → ComposesExactly base parent child doc := by
  intro h
  obtain ⟨mid, hmid⟩ := apply_changes_isOk.mpr (applies_setLogo (show ValueOk .null from trivial))
  have hlogo : "visual.logo" ∈ mid.flatten.keys := (mem_keys_of_spec hmid).mpr (.inl (by decide))
  have happlies : Applies mid unsetLogo := by
    apply applies_unset rfl _ rfl rfl
    intro k hk
    obtain rfl : k = "visual.logo" := by simpa [unsetLogo] using hk
    exact hlogo
  obtain ⟨doc, hdoc⟩ := apply_changes_isOk.mpr happlies
  obtain ⟨composed, result, hcomposed, hresult, -⟩ := (h blank (setLogo .null) unsetLogo mid doc hmid hdoc).exact
  have hfields := ChangeSet.of_eq_ok.mp hcomposed
  have hunset : "visual.logo" ∈ composed.unset := by
    rw [hfields, mem_unset_composed, mem_keys_composed]
    decide
  cases (apply_changes_isOk.mp ⟨result, hresult⟩).unset _ hunset

end Genome
