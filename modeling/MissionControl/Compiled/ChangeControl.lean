import MissionControl.Compiled.Cells

/-! # Change control

An approval rests on the hashes of its subjects and of everything its subjects causally rest on. A change makes stale
what it leads to in the graph. The two agree: an approval is in the blast radius of a change exactly when it is no longer
valid under the hashes after the change (`blast_radius_agrees`). -/

namespace Compiled

open Python (sorted sortedSet mem_sortedSet)

/-! ## Scopes -/

/-- The hash of a node: of its artifact where that is known, and of its structure otherwise. -/
def currentHash (graph : CausalWorkGraph) (artifact_hashes : String → Option String) (ref : String) : Option String :=
  (artifact_hashes ref).or ((graph.node? ref).map (·.semantic_hash))

/-- The nodes some subject causally rests on, each once and sorted. -/
def causalClosure (graph : CausalWorkGraph) (subject_refs : List String) : List String :=
  (sortedSet (subject_refs.flatMap graph.ancestors)).filter fun ref => (graph.node? ref).isSome

structure ApprovalScope where
  approval_id : String
  subject_refs : List String
  subject_hashes : List (String × String)
  dependency_closure_hash : String
  preview_hash : Option String := none
  policy_version : String
  reviewer_class : String
  authenticated_reviewer_ref : Option String
  decision : Option String
  timestamp : Option String := none

/-- The arguments of `build_scope` beside the graph and the hashes. -/
structure ScopeArgs where
  approval_id : String
  subjects : List (String × String)
  policy_version : String
  reviewer_ref : Option String
  decision : Option String
  reviewer_class : String := "authenticated_human"
  preview_hash : Option String := none
  timestamp : Option String := none

inductive ApprovalValidity where
  | VALID
  | STALE_APPROVAL
  | FULL_GATE_REPLAY
  | NOT_APPROVED
  | UNAUTHENTICATED_REVIEWER
  deriving DecidableEq, Repr

/-- The arguments of `evaluate_scope` beside the scope. -/
structure EvaluationArgs where
  current_subject_hashes : String → Option String
  current_closure_hash : String
  current_policy_version : String
  preservation_permitted : Bool := true
  high_risk_change : Bool := false

/-- Nothing the scope protects has changed. -/
def Unchanged (scope : ApprovalScope) (args : EvaluationArgs) : Prop :=
  (∀ subject ∈ scope.subject_hashes, args.current_subject_hashes subject.1 = some subject.2) ∧
    args.current_closure_hash = scope.dependency_closure_hash ∧ args.current_policy_version = scope.policy_version

instance (scope : ApprovalScope) (args : EvaluationArgs) : Decidable (Unchanged scope args) :=
  inferInstanceAs (Decidable (_ ∧ _))

/-- An approval stays valid only if the exact protected state is unchanged. -/
def evaluate_scope (scope : ApprovalScope) (args : EvaluationArgs) : ApprovalValidity :=
  if named scope.authenticated_reviewer_ref = none then .UNAUTHENTICATED_REVIEWER
  else if scope.decision ≠ some "approve" then .NOT_APPROVED
  else if Unchanged scope args ∧ args.preservation_permitted then .VALID
  else if args.high_risk_change then .FULL_GATE_REPLAY
  else .STALE_APPROVAL

/-! ## Changes -/

/-- A change map: the old and the new hash of each reference, in the order of the map. -/
structure ChangeMap where
  entries : List (String × String × String)
  keys_nodup : (entries.map (·.1)).Nodup

namespace ChangeMap

/-- `changes[ref]` -/
def get (changes : ChangeMap) (ref : String) : Option (String × String) :=
  (changes.entries.find? (·.1 == ref)).map (·.2)

/-- The references whose hash does change, and that are nodes. -/
def changed (changes : ChangeMap) (graph : CausalWorkGraph) : List String :=
  sorted ((changes.entries.filter fun c => c.2.1 ≠ c.2.2 ∧ (graph.node? c.1).isSome).map (·.1))

/-- The artifact hashes after the change. -/
def after (changes : ChangeMap) (artifact_hashes : String → Option String) (ref : String) : Option String :=
  match changes.get ref with
  | some (_, new) => some new
  | none => artifact_hashes ref

end ChangeMap

/-- What the certificate reads of a context capsule. -/
structure ContextCapsule where
  dependency_hashes : List (String × String)

structure BlastRadiusCertificate where
  changed_refs : List String
  old_hashes : List String
  new_hashes : List String
  causal_descendants : List String
  preserved_refs : List String
  stale_context_capsules : List String
  stale_validation_refs : List String
  stale_approvals : List String
  preserved_approvals : List String
  mandatory_full_replay_reasons : List String
  certificate_hash : String

def _HIGH_RISK_PREFIXES : List String :=
  ["external:", "decision:legal_security_policy", "decision:release_go_no_go"]

/-- The validations whose node is regulated. -/
def REGULATED : List String := ["PROFILE:SECURITY", "PROFILE:PRIVACY", "PROFILE:TRADEMARK"]

/-- What the changes affect: the changed nodes, and those that rest on them. -/
def affected (graph : CausalWorkGraph) (changes : ChangeMap) : List String :=
  changes.changed graph ++ (graph.descendantsOf (changes.changed graph)).filter (· ∉ changes.changed graph)

/-- The approval rests on something affected. -/
def Hit (graph : CausalWorkGraph) (changes : ChangeMap) (scope : ApprovalScope) : Prop :=
  ∃ ref ∈ scope.subject_refs ++ scope.subject_refs.flatMap graph.ancestors, ref ∈ affected graph changes

instance (graph : CausalWorkGraph) (changes : ChangeMap) (scope : ApprovalScope) :
    Decidable (Hit graph changes scope) :=
  inferInstanceAs (Decidable (∃ ref ∈ _, _))

/-- Why the whole gate has to be replayed for one affected node. -/
def replayReasons (graph : CausalWorkGraph) (ref : String) : List String :=
  (if ∃ risk ∈ _HIGH_RISK_PREFIXES, risk.toList <+: ref.toList then ["HIGH_RISK_NODE_AFFECTED:" ++ ref] else []) ++
    (if ∃ obligation ∈ (graph.node? ref).elim [] (·.validation_obligations), obligation ∈ REGULATED then
      ["REGULATED_VALIDATION_AFFECTED:" ++ ref] else [])

section

variable [Fingerprint]

/-- The hash of everything the subjects causally rest on. -/
def dependency_closure_hash (graph : CausalWorkGraph) (subject_refs : List String)
    (artifact_hashes : String → Option String) : String :=
  closure_hash ((causalClosure graph subject_refs).map fun ref => (ref, (currentHash graph artifact_hashes ref).getD ""))

def build_scope (graph : CausalWorkGraph) (artifact_hashes : String → Option String) (args : ScopeArgs) :
    ApprovalScope where
  approval_id := args.approval_id
  subject_refs := sorted (args.subjects.map (·.1))
  subject_hashes := sortedPairs args.subjects
  dependency_closure_hash := dependency_closure_hash graph (args.subjects.map (·.1)) artifact_hashes
  preview_hash := args.preview_hash
  policy_version := args.policy_version
  reviewer_class := args.reviewer_class
  authenticated_reviewer_ref := args.reviewer_ref
  decision := args.decision
  timestamp := args.timestamp

/-- New version, delta, closure of the descendants: what is affected becomes stale, and the rest is preserved. -/
def compute_blast_radius (graph : CausalWorkGraph) (changes : ChangeMap) (approvals : List ApprovalScope)
    (capsules : List (String × ContextCapsule)) : BlastRadiusCertificate :=
  let changed := changes.changed graph
  let descendants := (graph.descendantsOf changed).filter (· ∉ changed)
  let hit := affected graph changes
  let certificate : BlastRadiusCertificate :=
    { changed_refs := changed
      old_hashes := changed.filterMap fun ref => (changes.get ref).map (·.1)
      new_hashes := changed.filterMap fun ref => (changes.get ref).map (·.2)
      causal_descendants := sorted descendants
      preserved_refs := sorted ((graph.nodes.map (·.id)).filter (· ∉ hit))
      stale_context_capsules := sorted ((capsules.filter fun c =>
        c.1 ∈ hit ∨ ∃ dependency ∈ c.2.dependency_hashes, dependency.1 ∈ changed).map (·.1))
      stale_validation_refs :=
        sorted (hit.filter fun ref => (graph.node? ref).any (·.type = .VALIDATION_OBLIGATION))
      stale_approvals := sorted ((approvals.filter fun s => Hit graph changes s).map (·.approval_id))
      preserved_approvals := sorted ((approvals.filter fun s => ¬Hit graph changes s).map (·.approval_id))
      mandatory_full_replay_reasons := sortedSet (hit.flatMap (replayReasons graph))
      certificate_hash := "" }
  { certificate with certificate_hash := semantic_hash (.dict
      [("changed_refs", texts certificate.changed_refs), ("old_hashes", texts certificate.old_hashes),
        ("new_hashes", texts certificate.new_hashes), ("causal_descendants", texts certificate.causal_descendants),
        ("preserved_refs", texts certificate.preserved_refs),
        ("stale_context_capsules", texts certificate.stale_context_capsules),
        ("stale_validation_refs", texts certificate.stale_validation_refs),
        ("stale_approvals", texts certificate.stale_approvals),
        ("preserved_approvals", texts certificate.preserved_approvals),
        ("mandatory_full_replay_reasons", texts certificate.mandatory_full_replay_reasons)]) }

end

/-! ## What changes -/

variable {graph : CausalWorkGraph} {hashes : String → Option String} {changes : ChangeMap} {ref : String}

theorem mem_causalClosure {subject_refs : List String} :
    ref ∈ causalClosure graph subject_refs ↔ ∃ subject ∈ subject_refs, graph.Ancestor subject ref := by
  unfold causalClosure
  rw [List.mem_filter, mem_sortedSet, List.mem_flatMap]
  simp only [CausalWorkGraph.mem_ancestors]
  refine and_iff_left_of_imp ?_
  rintro ⟨subject, -, hancestor⟩
  obtain ⟨node, hnode⟩ := hancestor.isNode
  rw [hnode]
  rfl

theorem causalClosure_sorted (subject_refs : List String) :
    causalClosure graph (sorted subject_refs) = causalClosure graph subject_refs := by
  unfold causalClosure
  congr 1
  apply Python.sortedSet_congr
  simp

theorem ChangeMap.get_eq_some_iff {change : String × String} :
    changes.get ref = some change ↔ (ref, change) ∈ changes.entries := by
  unfold ChangeMap.get
  rw [Option.map_eq_some_iff]
  constructor
  · rintro ⟨entry, hfind, rfl⟩
    have hkey : entry.1 = ref := by simpa using List.find?_some hfind
    rw [← hkey]
    exact List.mem_of_find?_eq_some hfind
  · intro hmem
    cases hfind : changes.entries.find? (·.1 == ref) with
    | none =>
      have hnone := List.find?_eq_none.mp hfind _ hmem
      simp at hnone
    | some entry =>
      have hkey : entry.1 = ref := by simpa using List.find?_some hfind
      have hentry : entry = (ref, change) :=
        List.inj_on_of_nodup_map changes.keys_nodup (List.mem_of_find?_eq_some hfind) hmem hkey
      exact ⟨entry, rfl, by rw [hentry]⟩

theorem ChangeMap.mem_changed : ref ∈ changes.changed graph ↔
      ∃ old new, changes.get ref = some (old, new) ∧ old ≠ new ∧ (graph.node? ref).isSome = true := by
  unfold ChangeMap.changed
  rw [Python.mem_sorted, List.mem_map]
  constructor
  · rintro ⟨⟨key, old, new⟩, hentry, rfl⟩
    obtain ⟨hmem, hchanged⟩ := List.mem_filter.mp hentry
    simp only [ne_eq, decide_eq_true_eq] at hchanged
    exact ⟨old, new, ChangeMap.get_eq_some_iff.mpr hmem, hchanged.1, hchanged.2⟩
  · rintro ⟨old, new, hget, hne, hnode⟩
    refine ⟨(ref, old, new), List.mem_filter.mpr ⟨ChangeMap.get_eq_some_iff.mp hget, ?_⟩, rfl⟩
    simpa using ⟨hne, hnode⟩

/-- The changes are over nodes of the graph, and their old hashes are the current ones. -/
def OverNodes (graph : CausalWorkGraph) (hashes : String → Option String) (changes : ChangeMap) : Prop :=
  ∀ c ∈ changes.entries, (graph.node? c.1).isSome = true ∧ currentHash graph hashes c.1 = some c.2.1

theorem currentHash_after_iff (hchanges : OverNodes graph hashes changes) (ref : String) :
    currentHash graph (changes.after hashes) ref = currentHash graph hashes ref ↔ ref ∉ changes.changed graph := by
  rw [ChangeMap.mem_changed]
  cases hget : changes.get ref with
  | none => simp [currentHash, ChangeMap.after, hget]
  | some change =>
    obtain ⟨old, new⟩ := change
    obtain ⟨hnode, hold⟩ := hchanges _ (ChangeMap.get_eq_some_iff.mp hget)
    have hnew : currentHash graph (changes.after hashes) ref = some new := by
      simp [currentHash, ChangeMap.after, hget]
    rw [hnew, show currentHash graph hashes ref = some old from hold]
    simp [hnode, eq_comm]

/-! ## Forward from the changes, and backward from the subjects -/

/-- **The two closures are dual**: an approval rests on something affected exactly when one of its subjects is changed,
    or rests on a changed node. -/
theorem hit_iff {scope : ApprovalScope} : Hit graph changes scope ↔
      ∃ subject ∈ scope.subject_refs, ∃ ref ∈ changes.changed graph, ref = subject ∨ graph.Ancestor subject ref := by
  have haffected : ∀ x, x ∈ affected graph changes ↔
      x ∈ changes.changed graph ∨ ∃ ref ∈ changes.changed graph, graph.Ancestor x ref := by
    intro x
    unfold affected
    rw [List.mem_append, List.mem_filter, CausalWorkGraph.mem_descendantsOf]
    constructor
    · rintro (hx | ⟨⟨ref, href, -, hancestor⟩, -⟩)
      · exact .inl hx
      · exact .inr ⟨ref, href, hancestor⟩
    · rintro (hx | ⟨ref, href, hancestor⟩)
      · exact .inl hx
      · by_cases hx : x ∈ changes.changed graph
        · exact .inl hx
        · obtain ⟨node, hnode⟩ := hancestor.isNode
          exact .inr ⟨⟨ref, href, by rw [hnode]; rfl, hancestor⟩, by simpa using hx⟩
  constructor
  · rintro ⟨x, hx, hhit⟩
    rw [haffected] at hhit
    rcases List.mem_append.mp hx with hsubject | hx
    · rcases hhit with hchanged | ⟨ref, href, hancestor⟩
      · exact ⟨x, hsubject, x, hchanged, .inl rfl⟩
      · exact ⟨x, hsubject, ref, href, .inr hancestor⟩
    · obtain ⟨subject, hsubject, hancestor⟩ := List.mem_flatMap.mp hx
      rw [CausalWorkGraph.mem_ancestors] at hancestor
      rcases hhit with hchanged | ⟨ref, href, hfurther⟩
      · exact ⟨subject, hsubject, x, hchanged, .inr hancestor⟩
      · exact ⟨subject, hsubject, ref, href, .inr (hancestor.trans hfurther)⟩
  · rintro ⟨subject, hsubject, ref, href, rfl | hancestor⟩
    · exact ⟨ref, List.mem_append_left _ hsubject, (haffected ref).mpr (.inl href)⟩
    · refine ⟨ref, List.mem_append_right _ ?_, (haffected ref).mpr (.inl href)⟩
      exact List.mem_flatMap.mpr ⟨subject, hsubject, CausalWorkGraph.mem_ancestors.mpr hancestor⟩

/-! ## The hash of the closure -/

section

variable [Fingerprint]

theorem dependency_closure_hash_eq_iff (h : CollisionFree) {subject_refs : List String}
    {hashes' : String → Option String} :
    dependency_closure_hash graph subject_refs hashes' = dependency_closure_hash graph subject_refs hashes ↔
      ∀ ref ∈ causalClosure graph subject_refs, currentHash graph hashes' ref = currentHash graph hashes ref := by
  have hsome : ∀ ref ∈ causalClosure graph subject_refs, ∀ hashes : String → Option String,
      currentHash graph hashes ref = some ((currentHash graph hashes ref).getD "") := by
    intro ref href hashes
    obtain ⟨node, hnode⟩ := Option.isSome_iff_exists.mp (List.mem_filter.mp href).2
    cases hknown : hashes ref <;> simp [currentHash, hknown, hnode]
  unfold dependency_closure_hash
  constructor
  · intro heq ref href
    have hpairs := sortedPairs_eq_of_closure_hash h heq
    have hmem : (ref, (currentHash graph hashes' ref).getD "") ∈
        (causalClosure graph subject_refs).map fun ref => (ref, (currentHash graph hashes ref).getD "") := by
      rw [← mem_sortedPairs, ← hpairs, mem_sortedPairs]
      exact List.mem_map_of_mem href
    obtain ⟨other, -, hother⟩ := List.mem_map.mp hmem
    obtain ⟨rfl, hhash⟩ := Prod.mk.injEq .. ▸ hother
    rw [hsome other href hashes', hsome other href hashes, hhash]
  · intro hall
    congr 1
    apply List.map_congr_left
    intro ref href
    rw [hall ref href]

/-! ## Approvals -/

/-- The scope is approved by an authenticated reviewer, and its subjects have the current hashes. -/
structure ScopeArgs.Approved (args : ScopeArgs) (graph : CausalWorkGraph) (hashes : String → Option String) : Prop where
  reviewer : named args.reviewer_ref ≠ none
  decision : args.decision = some "approve"
  current : ∀ subject ∈ args.subjects, currentHash graph hashes subject.1 = some subject.2

/-- The evaluation of a scope under the hashes after the change. -/
def evaluateAfter (graph : CausalWorkGraph) (hashes : String → Option String) (changes : ChangeMap)
    (args : ScopeArgs) : ApprovalValidity :=
  let scope := build_scope graph hashes args
  evaluate_scope scope
    { current_subject_hashes := currentHash graph (changes.after hashes)
      current_closure_hash := dependency_closure_hash graph scope.subject_refs (changes.after hashes)
      current_policy_version := scope.policy_version }

theorem evaluateAfter_eq_valid_iff (h : CollisionFree) (hchanges : OverNodes graph hashes changes) {args : ScopeArgs}
    (hargs : args.Approved graph hashes) : evaluateAfter graph hashes changes args = .VALID ↔
      ∀ subject ∈ args.subjects.map (·.1), ∀ ref ∈ changes.changed graph,
        ¬(ref = subject ∨ graph.Ancestor subject ref) := by
  have hsubjects : (∀ subject ∈ (build_scope graph hashes args).subject_hashes,
      currentHash graph (changes.after hashes) subject.1 = some subject.2) ↔
      ∀ subject ∈ args.subjects.map (·.1), subject ∉ changes.changed graph := by
    show (∀ subject ∈ sortedPairs args.subjects, _) ↔ _
    simp only [mem_sortedPairs, List.forall_mem_map]
    refine forall₂_congr fun subject hsubject => ?_
    rw [← hargs.current subject hsubject, currentHash_after_iff hchanges]
  have hclosure : dependency_closure_hash graph (build_scope graph hashes args).subject_refs (changes.after hashes) =
      (build_scope graph hashes args).dependency_closure_hash ↔
      ∀ ref ∈ causalClosure graph (args.subjects.map (·.1)), ref ∉ changes.changed graph := by
    show dependency_closure_hash graph (sorted _) _ = dependency_closure_hash graph _ _ ↔ _
    have hsorted : dependency_closure_hash graph (sorted (args.subjects.map (·.1))) (changes.after hashes) =
        dependency_closure_hash graph (args.subjects.map (·.1)) (changes.after hashes) := by
      unfold dependency_closure_hash
      rw [causalClosure_sorted]
    rw [hsorted, dependency_closure_hash_eq_iff h]
    exact forall₂_congr fun ref _ => currentHash_after_iff hchanges ref
  have hvalid : evaluateAfter graph hashes changes args = .VALID ↔
      (∀ subject ∈ args.subjects.map (·.1), subject ∉ changes.changed graph) ∧
        ∀ ref ∈ causalClosure graph (args.subjects.map (·.1)), ref ∉ changes.changed graph := by
    rw [← hsubjects, ← hclosure]
    show (if named args.reviewer_ref = none then _ else if args.decision ≠ some "approve" then _ else _) = _ ↔ _
    rw [if_neg hargs.reviewer, if_neg (not_not.mpr hargs.decision)]
    simp only [Unchanged]
    split_ifs with hunchanged hrisk
    · simpa using hunchanged.1
    · cases hrisk
    · simpa using hunchanged
  rw [hvalid]
  constructor
  · rintro ⟨hown, hrests⟩ subject hsubject ref href (rfl | hancestor)
    · exact hown ref hsubject href
    · exact hrests ref (mem_causalClosure.mpr ⟨subject, hsubject, hancestor⟩) href
  · intro hnone
    refine ⟨fun subject hsubject hchanged => hnone subject hsubject subject hchanged (.inl rfl), ?_⟩
    intro ref href hchanged
    obtain ⟨subject, hsubject, hancestor⟩ := mem_causalClosure.mp href
    exact hnone subject hsubject ref hchanged (.inr hancestor)

/-- **The blast radius agrees with approval validity**: of approved scopes over the current hashes, the certificate of a
    change lists as stale those whose evaluation under the hashes after the change is no longer valid. -/
theorem blast_radius_agrees (h : CollisionFree) (hchanges : OverNodes graph hashes changes) (scopes : List ScopeArgs)
    (hscopes : ∀ args ∈ scopes, args.Approved graph hashes) (capsules : List (String × ContextCapsule)) :
    (compute_blast_radius graph changes (scopes.map (build_scope graph hashes)) capsules).stale_approvals =
      sorted ((scopes.filter fun args => evaluateAfter graph hashes changes args ≠ .VALID).map (·.approval_id)) := by
  show sorted (((scopes.map (build_scope graph hashes)).filter fun s => Hit graph changes s).map (·.approval_id)) = _
  congr 1
  rw [List.filter_map, List.map_map]
  show ((scopes.filter _).map fun args => args.approval_id) = _
  congr 1
  apply List.filter_congr
  intro args hargs
  show decide (Hit graph changes (build_scope graph hashes args)) = decide _
  rw [decide_eq_decide, hit_iff, ne_eq, evaluateAfter_eq_valid_iff h hchanges (hscopes args hargs)]
  show (∃ subject ∈ sorted (args.subjects.map (·.1)), _) ↔ _
  simp only [Python.mem_sorted]
  push Not
  rfl

end

/-! ## A change under an approved artifact -/

/-- Copy that rests on a brief. -/
def copyGraph : CausalWorkGraph := .ofListed
  [{ id := "ref:creative_brief", type := .EXISTING_REF, dependencies := [], semantic_hash := "h1" },
    { id := "work:copy", type := .EXECUTABLE_WORK, dependencies := ["ref:creative_brief"], semantic_hash := "h2" }]
  (by decide)

/-- The brief is written anew. -/
def briefChange : ChangeMap where
  entries := [("ref:creative_brief", "c1", "c2")]
  keys_nodup := by decide

/-- The artifact hashes before the change. -/
def knownHashes (ref : String) : Option String := if ref = "ref:creative_brief" then some "c1" else none

/-- The approval of the copy. -/
def copyApproval : ScopeArgs where
  approval_id := "approval:copy"
  subjects := [("work:copy", "h2")]
  policy_version := "amc-approval/v1"
  reviewer_ref := some "client"
  decision := some "approve"

theorem blast_radius_agrees_copy :
    (@compute_blast_radius plainFingerprint copyGraph briefChange
      [@build_scope plainFingerprint copyGraph knownHashes copyApproval] []).stale_approvals =
      sorted (([copyApproval].filter fun args =>
        @evaluateAfter plainFingerprint copyGraph knownHashes briefChange args ≠ .VALID).map (·.approval_id)) := by
  refine @blast_radius_agrees copyGraph knownHashes briefChange plainFingerprint plainFingerprint_collisionFree ?_
    [copyApproval] ?_ []
  · unfold OverNodes
    decide
  · intro args hargs
    rw [List.mem_singleton.mp hargs]
    exact ⟨by decide, rfl, by decide⟩

end Compiled
