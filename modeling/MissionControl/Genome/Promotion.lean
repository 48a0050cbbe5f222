import MissionControl.Genome.Inheritance

/-! # Whether a branch may be promoted

A branch is compared with its base and resolved after its approved ancestors, as a preview. It may be promoted where
the resolver reports no conflict of its own, it leaves the locks of its base alone, and nothing blocking fails.

**What a promotable branch keeps** (`promotable_iff`): its values all reach the result, nothing blocking fails and no
lock of the base is removed. The locked values of the base stay as they are exactly where none of them is set to a value
that only compares equal, as `True` does to `1` and `None` to a key that is not there. -/

namespace Genome

open Python (Dict sortedSet)

/-! ## Differences -/

structure ValueChange where
  key : String
  before : Value := .null
  after : Value := .null

structure DocumentDiff where
  added : List ValueChange
  removed : List ValueChange
  modified : List ValueChange
  unchanged : List String
  constraints_added : List String
  constraints_removed : List String
  constraints_modified : List String

/-- `before[key] == after[key]`, for a key of both -/
def sameAt {ν : Type} (eq : ν → ν → Bool) (before after : Dict String ν) (key : String) : Bool :=
  match before.get? key, after.get? key with
  | some u, some v => eq u v
  | _, _ => false

def diff_documents (before after : GenomeDocument) : DocumentDiff :=
  let a := before.flatten
  let b := after.flatten
  let ca := byId before.constraints
  let cb := byId after.constraints
  let at_ (d : Dict String Value) (k : String) := (d.get? k).getD .null
  { added := (sortedSet (b.keys.filter (· ∉ a.keys))).map fun k => { key := k, after := at_ b k }
    removed := (sortedSet (a.keys.filter (· ∉ b.keys))).map fun k => { key := k, before := at_ a k }
    modified := (sortedSet (a.keys.filter fun k => k ∈ b.keys ∧ !sameAt Value.eq a b k)).map fun k =>
      { key := k, before := at_ a k, after := at_ b k }
    unchanged := sortedSet (a.keys.filter fun k => k ∈ b.keys ∧ sameAt Value.eq a b k)
    constraints_added := sortedSet (cb.keys.filter (· ∉ ca.keys))
    constraints_removed := sortedSet (ca.keys.filter (· ∉ cb.keys))
    constraints_modified := sortedSet (ca.keys.filter fun k => k ∈ cb.keys ∧ !sameAt GenomeConstraint.eq ca cb k) }

/-! ## The comparison with the base -/

def ConflictReason.value : ConflictReason → String
  | SCOPE_ORDER => "SCOPE_ORDER"
  | UNAPPROVED_OVERRIDE => "UNAPPROVED_OVERRIDE"
  | IMMUTABLE_OVERRIDE => "IMMUTABLE_OVERRIDE"
  | CONSTRAINT_VIOLATION => "CONSTRAINT_VIOLATION"

/-- `Scope(value)`, nothing where it raises. -/
def Scope.of? (value : String) : Option Scope :=
  [BRAND, PROJECT, PAGE, COMPONENT, ASSET].find? fun scope => scope.value = value

/-- `GenomeLayer(scope=scope, scope_ref=scope_ref, status=VersionStatus.DRAFT, document=document)` -/
def draftLayer (scope scope_ref : String) (document : GenomeDocument) : Except GenomeError GenomeLayer :=
  match Scope.of? scope with
  | none =>
    .error (.plain "Input should be \x27brand\x27, \x27project\x27, \x27page\x27, \x27component\x27 or \x27asset\x27")
  | some scope =>
    if named : 1 ≤ scope_ref.length ∧ scope_ref.length ≤ 300 then
      .ok { scope, scope_ref, status := .DRAFT, document, named }
    else if scope_ref.length < 1 then .error (.plain "String should have at least 1 character")
    else .error (.plain "String should have at most 300 characters")

structure Violation where
  kind : String
  key : String
  constraint_id : Option String
  detail : String

structure Comparison where
  values : DocumentDiff
  unchanged_own : List String
  unchanged_inherited : List String
  invariant_violations : List Violation
  failed_findings : List ConstraintFinding
  promotable : Bool

/-- The immutable constraints of the base under their identifiers. -/
def base_immutable (base : GenomeDocument) : Dict String GenomeConstraint :=
  byId (base.constraints.filter (·.kind = .IMMUTABLE))

/-- The conflicts that count as violations. -/
def Resolution.conflictsOf (resolution : Resolution) (scope_ref : String) : List GenomeConflict :=
  resolution.conflicts.filter fun c => c.scope_ref = scope_ref ∧ c.reason ≠ .UNAPPROVED_OVERRIDE

/-- One turn of the loop over the immutable constraints of the base. -/
def invariantChanged (base : GenomeDocument) (changes : ChangeSet) (c : GenomeConstraint) : List Violation :=
  let changed := match changes.set.get? c.key with
    | some v => !((base.flatten.get? c.key).getD .null).eq v
    | none => false
  (if changed then [{
    kind := "INVARIANT_CHANGED", key := c.key, constraint_id := some c.constraint_id,
    detail := "changes a value the approved version declares immutable" }] else []) ++
  if c.key ∈ changes.unset then [{
    kind := "INVARIANT_CHANGED", key := c.key, constraint_id := some c.constraint_id,
    detail := "unsets a value the approved version declares immutable" }] else []

def violations (base : GenomeDocument) (changes : ChangeSet) (resolution : Resolution) (scope_ref : String) :
    List Violation :=
  let locks := base_immutable base
  (resolution.conflictsOf scope_ref).map (fun c => {
    kind := c.reason.value, key := c.key, constraint_id := c.constraint_id, detail := c.detail }) ++
  (sortedSet (changes.remove_constraints.filter (· ∈ locks.keys))).map (fun cid => {
    kind := "INVARIANT_REMOVED", key := ((locks.get? cid).map (·.key)).getD "", constraint_id := some cid,
    detail := "removes an approved immutable constraint" }) ++
  (locks.entries.map Prod.snd).flatMap (invariantChanged base changes)

def compare_with_base (host : Host) (base : GenomeDocument) (changes : ChangeSet) (ancestors : List GenomeLayer)
    (scope_ref scope : String) : Except GenomeError Comparison := do
  let branch_doc ← apply_changes base changes
  let diff := diff_documents base branch_doc
  let branch ← draftLayer scope scope_ref branch_doc
  let resolution := resolve host (ancestors ++ [branch]) (some scope_ref)
  let violations := violations base changes resolution scope_ref
  let inherited := (resolution.constraints.map (·.constraint_id)).filter fun id =>
    resolution.constraint_owner.get? id ≠ some scope_ref
  let failed := resolution.findings.filter fun f => !f.passed
  .ok {
    values := diff
    unchanged_own := sortedSet ((ids base.constraints).filter fun id =>
      id ∉ diff.constraints_removed ∧ id ∉ diff.constraints_modified)
    unchanged_inherited := inherited.insertionSort (· ≤ ·)
    invariant_violations := violations
    failed_findings := failed
    promotable := violations.isEmpty && !failed.any fun f => f.severity = .BLOCKING }

variable {host : Host} {base doc : GenomeDocument} {changes : ChangeSet} {ancestors : List GenomeLayer}
  {scope scope_ref : String} {branch : GenomeLayer} {report : Comparison} {c : GenomeConstraint}

theorem draftLayer_eq_ok (h : draftLayer scope scope_ref doc = .ok branch) :
    branch.document = doc ∧ branch.scope_ref = scope_ref ∧ branch.status = .DRAFT := by
  unfold draftLayer at h
  split at h
  · cases h
  · split at h
    · cases h
      exact ⟨rfl, rfl, rfl⟩
    · split at h
      · cases h
      · cases h

theorem compare_with_base_eq_ok (h : compare_with_base host base changes ancestors scope_ref scope = .ok report) :
    ∃ branch, apply_changes base changes = .ok branch.document ∧ branch.scope_ref = scope_ref ∧ branch.status = .DRAFT ∧
      draftLayer scope scope_ref branch.document = .ok branch ∧ (report.promotable = true ↔
        violations base changes (resolve host (ancestors ++ [branch]) (some scope_ref)) scope_ref = [] ∧
        ∀ f ∈ (resolve host (ancestors ++ [branch]) (some scope_ref)).findings, f.severity = .BLOCKING →
          f.passed = true) := by
  unfold compare_with_base at h
  cases hdoc : apply_changes base changes with
  | error e =>
    rw [hdoc] at h
    cases h
  | ok doc =>
    rw [hdoc] at h
    cases hbranch : draftLayer scope scope_ref doc with
    | error e =>
      simp only [hbranch, bind, Except.bind] at h
      cases h
    | ok branch =>
      simp only [hbranch, bind, Except.bind] at h
      cases h
      obtain ⟨rfl, href, hstatus⟩ := draftLayer_eq_ok hbranch
      refine ⟨branch, rfl, href, hstatus, hbranch, ?_⟩
      simp only [Bool.and_eq_true, List.isEmpty_iff, Bool.not_eq_true', List.any_eq_false, List.mem_filter,
        decide_eq_true_eq]
      apply and_congr_right
      intro _
      constructor
      · intro hnone f hf hblocking
        by_contra hfailed
        exact hnone f ⟨hf, by simpa using hfailed⟩ hblocking
      · rintro hall f ⟨hf, hfailed⟩ hblocking
        rw [hall f hf hblocking] at hfailed
        cases hfailed

/-! ## A layer without conflicts -/

variable {inherited : Dict String GenomeConstraint} {st : Resolving} {entry : String × Value}
  {entries : List (String × Value)} {preview_ref : Option String} {layer : GenomeLayer} {k : String} {v : Value}

/-- No conflict counts against a scope. -/
def Clear (scope_ref : String) (conflicts : List GenomeConflict) : Prop :=
  ∀ c ∈ conflicts, c.scope_ref = scope_ref → c.reason = .UNAPPROVED_OVERRIDE

theorem Clear.of_append {conflicts new : List GenomeConflict} (h : Clear scope_ref (conflicts ++ new)) :
    Clear scope_ref conflicts ∧ Clear scope_ref new :=
  ⟨fun c hc => h c (List.mem_append_left _ hc), fun c hc => h c (List.mem_append_right _ hc)⟩

theorem visit_clear (h : Clear scope_ref (visit host inherited scope_ref st entry).conflicts) :
    Clear scope_ref st.conflicts ∧ takes host inherited st.values entry = true := by
  unfold visit at h
  unfold takes
  cases hbroken : broken? inherited st.values entry.1 entry.2 with
  | some c =>
    rw [hbroken] at h
    cases h.of_append.2 _ (List.mem_singleton_self _) rfl
  | none =>
    rw [hbroken] at h
    cases hviolated : violated? host inherited st.values entry.1 entry.2 with
    | some found =>
      rw [hviolated] at h
      cases h.of_append.2 _ (List.mem_singleton_self _) rfl
    | none =>
      rw [hviolated] at h
      exact ⟨h, rfl⟩

/-- **A layer none of whose values is a conflict has them all taken.** -/
theorem foldl_visit_clear (h : Clear scope_ref (entries.foldl (visit host inherited scope_ref) st).conflicts) :
    Clear scope_ref st.conflicts ∧ ∀ entry ∈ entries, Taken host inherited st.values entries entry.1 entry.2 := by
  induction entries generalizing st with
  | nil =>
    refine ⟨h, ?_⟩
    intro entry hentry
    cases hentry
  | cons first entries ih =>
    obtain ⟨hclear, htaken⟩ := ih h
    obtain ⟨hbefore, htakes⟩ := visit_clear hclear
    refine ⟨hbefore, ?_⟩
    intro entry hentry
    rcases List.mem_cons.mp hentry with rfl | hentry
    · exact taken_cons.mpr (.inl ⟨rfl, htakes⟩)
    · apply taken_cons.mpr
      right
      rw [visit_values] at htaken
      exact htaken entry hentry

theorem adopt_clear (h : Clear scope_ref (adopt scope_ref st c).conflicts) : Clear scope_ref st.conflicts := by
  unfold adopt at h
  split at h
  · split at h
    · exact h
    · exact h.of_append.1
  · exact h

theorem foldl_adopt_clear {constraints : List GenomeConstraint}
    (h : Clear scope_ref (constraints.foldl (adopt scope_ref) st).conflicts) : Clear scope_ref st.conflicts := by
  induction constraints generalizing st with
  | nil => exact h
  | cons c constraints ih => exact adopt_clear (ih h)

/-- **A layer that is applied without a conflict gives all its values.** -/
theorem applyLayer_clear (hadmitted : Admitted preview_ref layer)
    (h : Clear layer.scope_ref (applyLayer host preview_ref st layer).conflicts)
    (hv : layer.document.flatten.get? k = some v) : (applyLayer host preview_ref st layer).values.get? k = some v := by
  by_cases hnarrower : st.last.any (fun last => layer.scope.order < last) = true
  · unfold applyLayer at h
    rw [if_pos hnarrower] at h
    cases h.of_append.2 _ (List.mem_singleton_self _) rfl
  · have hlast : st.last.any (layer.scope.order < ·) = false := Bool.not_eq_true _ ▸ hnarrower
    rw [applyLayer_spec.taken hlast hadmitted]
    apply get?_settle_of_taken layer.document.flatten.nodup
    unfold applyLayer at h
    rw [if_neg hnarrower] at h
    simp only [if_neg hadmitted.passes] at h
    exact (foldl_visit_clear (foldl_adopt_clear h)).2 (k, v) (Dict.get?_eq_some.mp hv)

/-! ## What a promotable branch keeps -/

/-- A branch breaks no invariant. -/
structure BreaksNothing (host : Host) (base : GenomeDocument) (ancestors : List GenomeLayer) (branch : GenomeLayer) :
    Prop where
  given : ∀ k v, branch.document.flatten.get? k = some v →
    (resolve host (ancestors ++ [branch]) (some branch.scope_ref)).values.get? k = some v
  blocking : ∀ f ∈ (resolve host (ancestors ++ [branch]) (some branch.scope_ref)).findings, f.severity = .BLOCKING →
    f.passed = true
  locked : ∀ c ∈ base.constraints, c.kind = .IMMUTABLE →
    branch.document.flatten.get? c.key = base.flatten.get? c.key ∧ c ∈ branch.document.constraints

theorem mem_base_immutable :
    c ∈ (base_immutable base).entries.map Prod.snd ↔ c ∈ base.constraints ∧ c.kind = .IMMUTABLE := by
  have hnodup : (ids (base.constraints.filter (·.kind = .IMMUTABLE))).Nodup :=
    base.accepted.ids.sublist (List.filter_sublist.map _)
  unfold base_immutable
  rw [(keyed_byId _).mem_entries, get?_byId hnodup, List.mem_filter, decide_eq_true_eq]
  simp only [and_true]

variable {resolution : Resolution}

theorem lock_of_no_violations (h : violations base changes resolution scope_ref = [])
    (hc : c ∈ base.constraints) (hkind : c.kind = .IMMUTABLE) :
    c.constraint_id ∉ changes.remove_constraints ∧ c.key ∉ changes.unset := by
  unfold violations at h
  rw [List.append_eq_nil_iff, List.append_eq_nil_iff, List.map_eq_nil_iff, List.map_eq_nil_iff,
    List.flatMap_eq_nil_iff] at h
  obtain ⟨⟨-, hremoved⟩, hchanged⟩ := h
  have hlock : c ∈ (base_immutable base).entries.map Prod.snd := mem_base_immutable.mpr ⟨hc, hkind⟩
  constructor
  · intro hmem
    have hkey : c.constraint_id ∈ (base_immutable base).keys := by
      obtain ⟨⟨id, c'⟩, hentry, rfl⟩ := List.mem_map.mp hlock
      have hid : c'.constraint_id = id := keyed_byId _ id c' (Dict.get?_eq_some.mpr hentry)
      rw [hid]
      exact List.mem_map.mpr ⟨_, hentry, rfl⟩
    have := sortedSet_filter_eq_nil.mp hremoved _ hmem
    rw [decide_eq_false_iff_not] at this
    exact this hkey
  · intro hmem
    have := (List.append_eq_nil_iff.mp (hchanged c hlock)).2
    rw [if_pos hmem] at this
    cases this

theorem clear_of_no_violations (h : violations base changes resolution scope_ref = []) :
    Clear scope_ref resolution.conflicts := by
  unfold violations at h
  rw [List.append_eq_nil_iff, List.append_eq_nil_iff, List.map_eq_nil_iff] at h
  intro c hc href
  by_contra hreason
  have hmem : c ∈ resolution.conflictsOf scope_ref :=
    List.mem_filter.mpr ⟨hc, by simpa using ⟨href, hreason⟩⟩
  rw [h.1.1] at hmem
  cases hmem

/-- **A promotable branch breaks nothing** exactly where it sets no locked key of the base to a value that only
    compares equal. -/
theorem promotable_iff (h : compare_with_base host base changes ancestors scope_ref scope = .ok report)
    (hpromotable : report.promotable = true) :
    (∃ branch, apply_changes base changes = .ok branch.document ∧
      draftLayer scope scope_ref branch.document = .ok branch ∧ BreaksNothing host base ancestors branch) ↔
      ∀ c ∈ base.constraints, c.kind = .IMMUTABLE → ∀ v, changes.set.get? c.key = some v →
        base.flatten.get? c.key = some v := by
  constructor
  · rintro ⟨branch, hdoc, -, hbreaks⟩ c hc hkind v hv
    rw [← (hbreaks.locked c hc hkind).1, (apply_changes_spec hdoc).1, get?_changed, hv]
    rfl
  · intro hexact
    obtain ⟨branch, hdoc, rfl, hstatus, hbranch, hverdict⟩ := compare_with_base_eq_ok h
    obtain ⟨hnone, hblocking⟩ := hverdict.mp hpromotable
    refine ⟨branch, hdoc, hbranch, ?_, hblocking, ?_⟩
    · intro k v hv
      have hclear := clear_of_no_violations hnone
      unfold resolve at hclear ⊢
      rw [resolving_append] at hclear ⊢
      show (sortItems _).get? k = some v
      rw [get?_sortItems]
      exact applyLayer_clear (.inr rfl) hclear hv
    · intro c hc hkind
      obtain ⟨hkept, hset⟩ := lock_of_no_violations hnone hc hkind
      constructor
      · rw [(apply_changes_spec hdoc).1, get?_changed, if_neg hset]
        cases hv : changes.set.get? c.key with
        | none => rfl
        | some v => exact (hexact c hc hkind v hv).symm
      · rw [(apply_changes_spec hdoc).2, mem_constrained]
        exact .inl ⟨hc, hkept⟩

/-! ## A locked weight -/

def weightLock : GenomeConstraint where
  constraint_id := "weight"
  key := "visual.weight"
  kind := .IMMUTABLE
  checked := by decide

/-- A document that locks the weight one. -/
def weighted : GenomeDocument := visual (.ofList [("weight", .int 1)]) [weightLock] (by decide)

def setWeight (v : Value) : ChangeSet := { set := .ofList [("visual.weight", v)], checked := rfl }

theorem promotable_of_toOption {result : Except GenomeError Comparison}
    (h : result.toOption.map (·.promotable) = some true) :
    ∃ report, result = .ok report ∧ report.promotable = true := by
  cases result with
  | error e => cases h
  | ok report => exact ⟨report, rfl, Option.some.inj h⟩

/-- A logo is set beside the locked weight. -/
theorem promotable_iff_logo : ∃ report,
    compare_with_base blackAndWhite weighted (setLogo (.str "round")) [] "home" "page" = .ok report ∧
      report.promotable = true ∧ ∃ branch, BreaksNothing blackAndWhite weighted [] branch := by
  obtain ⟨report, hreport, hpromotable⟩ := promotable_of_toOption
    (show ((compare_with_base blackAndWhite weighted (setLogo (.str "round")) [] "home" "page").toOption.map
      (·.promotable)) = some true by decide)
  obtain ⟨branch, -, -, hbreaks⟩ := (promotable_iff hreport hpromotable).mpr (by
    intro c hc _ v hv
    obtain rfl : c = weightLock := List.mem_singleton.mp hc
    exact absurd (get?_setLogo hv).1 (by decide))
  exact ⟨report, hreport, hpromotable, branch, hbreaks⟩

/-- **The locked one is set to true**, and the branch may be promoted. -/
theorem weight_set_to_true : ¬∀ host base changes ancestors scope_ref scope report,
    (∀ l ∈ ancestors, l.status = .APPROVED) →
    compare_with_base host base changes ancestors scope_ref scope = .ok report → report.promotable = true →
    ∃ branch, apply_changes base changes = .ok branch.document ∧
      draftLayer scope scope_ref branch.document = .ok branch ∧ BreaksNothing host base ancestors branch := by
  intro h
  obtain ⟨report, hreport, hpromotable⟩ := promotable_of_toOption
    (show ((compare_with_base blackAndWhite weighted (setWeight (.bool true)) [] "home" "page").toOption.map
      (·.promotable)) = some true by decide)
  obtain ⟨branch, hdoc, -, hbreaks⟩ := h _ _ _ _ _ _ report (by decide) hreport hpromotable
  have hkept := (hbreaks.locked weightLock (List.mem_singleton_self _) rfl).1
  rw [(apply_changes_spec hdoc).1] at hkept
  have hset : (changed weighted (setWeight (.bool true))).get? "visual.weight" = some (.bool true) := by decide
  have hbase : weighted.flatten.get? "visual.weight" = some (.int 1) := by decide
  have heq : some (Value.bool true) = some (.int 1) := hset.symm.trans (hkept.trans hbase)
  cases heq

end Genome
