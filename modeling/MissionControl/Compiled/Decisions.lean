import MissionControl.Compiled.Cells

/-! # The decision spine

Decision versions are appended, and a version that supersedes another names its hash. What is live is read off the set
of all hashes that were ever named, and a proposal can name any. Where none names the hash of a live version of another
kind, or of a version that is still to be accepted, each call changes the decision of its own kind only
(`decisions_upheld_iff`). -/

namespace Compiled

open Canonical (Value PyFloat)
open Python (sorted sortedSet)

inductive DecisionStatus where
  | PROPOSED
  | AWAITING_EVIDENCE
  | AWAITING_APPROVAL
  | ACCEPTED
  | REJECTED
  | SUPERSEDED
  | INVALIDATED
  deriving DecidableEq, Repr

def DecisionStatus.value : DecisionStatus → String
  | PROPOSED => "PROPOSED"
  | AWAITING_EVIDENCE => "AWAITING_EVIDENCE"
  | AWAITING_APPROVAL => "AWAITING_APPROVAL"
  | ACCEPTED => "ACCEPTED"
  | REJECTED => "REJECTED"
  | SUPERSEDED => "SUPERSEDED"
  | INVALIDATED => "INVALIDATED"

structure DecisionNode where
  id : String
  kind : DecisionKind
  version : Int := 1
  question : String
  alternatives : List String
  evidence_refs : List String := []
  assumptions : List String := []
  selected_option : Option String := none
  owner : String
  required_approver : Option String := none
  approved_by : Option String := none
  affected_nodes : List String := []
  status : DecisionStatus := .PROPOSED
  confidence : Option PyFloat := none
  supersedes : Option String := none
  created_at : Option String := none
  deriving DecidableEq

namespace DecisionNode

/-- The fields of a node, as JSON. -/
def model_dump (n : DecisionNode) : Value :=
  .dict [("id", .str n.id), ("kind", .str n.kind.value), ("version", .int n.version), ("question", .str n.question),
    ("alternatives", texts n.alternatives), ("evidence_refs", texts n.evidence_refs),
    ("assumptions", texts n.assumptions), ("selected_option", optText n.selected_option), ("owner", .str n.owner),
    ("required_approver", optText n.required_approver), ("approved_by", optText n.approved_by),
    ("affected_nodes", texts n.affected_nodes), ("status", .str n.status.value),
    ("confidence", n.confidence.elim .none .float), ("supersedes", optText n.supersedes),
    ("created_at", optText n.created_at)]

/-- `created_at` is not part of what a version says. -/
def decision_hash [Fingerprint] (n : DecisionNode) : String := semantic_hash n.model_dump ["created_at"]

end DecisionNode

/-! ## The spine -/

structure DecisionSpine where
  versions : List DecisionNode := []
  superseded : List String := []

/-- What a call raises: a refusal of its own, or that a revision names a field there is not. -/
inductive SpineError where
  | decision (text : String)
  | attribute_error
  deriving DecidableEq

/-- The fields a revision may change, and the other names it was called with. -/
structure Changes where
  question : Option String := none
  alternatives : Option (List String) := none
  evidence_refs : Option (List String) := none
  assumptions : Option (List String) := none
  selected_option : Option (Option String) := none
  owner : Option String := none
  required_approver : Option (Option String) := none
  affected_nodes : Option (List String) := none
  confidence : Option (Option PyFloat) := none
  created_at : Option (Option String) := none
  others : List String := []

structure DecisionDiff where
  kind : DecisionKind
  old_hash : String
  new_hash : String
  changed_fields : List String
  stale_nodes : List String

/-- The fields no revision may set. -/
def FORBIDDEN : List String := ["id", "kind", "version", "supersedes", "status", "approved_by"]

/-- `str` of a list of texts without quotes. -/
def listText (items : List String) : String := "[" ++ ", ".intercalate (items.map fun t => "\x27" ++ t ++ "\x27") ++ "]"

/-- The name of a field that is given and not what it was. -/
def changedField {α : Type} [DecidableEq α] (name : String) (given : Option α) (old : α) : List String :=
  if given.any (· ≠ old) then [name] else []

/-- `tuple(sorted(k for k in changes if ...))` -/
def Changes.changed (c : Changes) (n : DecisionNode) : List String :=
  sorted (changedField "question" c.question n.question ++ changedField "alternatives" c.alternatives n.alternatives ++
    changedField "evidence_refs" c.evidence_refs n.evidence_refs ++
    changedField "assumptions" c.assumptions n.assumptions ++
    changedField "selected_option" c.selected_option n.selected_option ++ changedField "owner" c.owner n.owner ++
    changedField "required_approver" c.required_approver n.required_approver ++
    changedField "affected_nodes" c.affected_nodes n.affected_nodes ++
    changedField "confidence" c.confidence n.confidence ++ changedField "created_at" c.created_at n.created_at)

section

variable [Fingerprint]

namespace DecisionNode

/-- The accepted version of a decision. -/
def accepted (current : DecisionNode) (selected_option approver_ref : String) : DecisionNode :=
  { current with
    status := .ACCEPTED
    selected_option := some selected_option
    approved_by := some approver_ref
    version := current.version + 1
    supersedes := some current.decision_hash }

/-- The revised version of a decision. -/
def revised (current : DecisionNode) (c : Changes) : DecisionNode :=
  { current with
    question := c.question.getD current.question
    alternatives := c.alternatives.getD current.alternatives
    evidence_refs := c.evidence_refs.getD current.evidence_refs
    assumptions := c.assumptions.getD current.assumptions
    selected_option := c.selected_option.getD current.selected_option
    owner := c.owner.getD current.owner
    required_approver := c.required_approver.getD current.required_approver
    affected_nodes := c.affected_nodes.getD current.affected_nodes
    confidence := c.confidence.getD current.confidence
    created_at := c.created_at.getD current.created_at
    version := current.version + 1
    supersedes := some current.decision_hash
    status := .PROPOSED
    approved_by := none }

end DecisionNode

namespace DecisionSpine

def _append (s : DecisionSpine) (node : DecisionNode) : DecisionSpine where
  versions := s.versions ++ [node]
  superseded := (named node.supersedes).toList ++ s.superseded

/-- The versions of the kind that no other supersedes. -/
def live (s : DecisionSpine) (kind : DecisionKind) : List DecisionNode :=
  s.versions.filter fun v => v.kind = kind ∧ v.decision_hash ∉ s.superseded

def current (s : DecisionSpine) (kind : DecisionKind) : Option DecisionNode := (s.live kind).getLast?

def propose (s : DecisionSpine) (node : DecisionNode) : Except SpineError (DecisionNode × DecisionSpine) :=
  if node.status ≠ .PROPOSED then
    .error (.decision "new decisions enter the spine as PROPOSED")
  else if (s.current node.kind).isSome then
    .error (.decision s!"{node.kind.value} already has a live version; use revise()")
  else
    .ok (node, s._append node)

def accept (s : DecisionSpine) (kind : DecisionKind) (selected_option approver_ref : String) :
    Except SpineError (DecisionNode × DecisionSpine) :=
  match s.current kind with
  | none => .error (.decision s!"no live {kind.value} decision")
  | some current =>
    if current.status = .ACCEPTED then
      .error (.decision "accepted decision versions are immutable; use revise()")
    else if selected_option ∉ current.alternatives then
      .error (.decision "selected option must be one of the declared alternatives")
    else if approver_ref = "" ∨ approver_ref = current.owner then
      .error (.decision "acceptance needs an approver distinct from the decision owner")
    else if ∃ approver ∈ named current.required_approver, approver_ref ≠ approver then
      .error (.decision "approver does not match the required approver")
    else
      .ok (current.accepted selected_option approver_ref, s._append (current.accepted selected_option approver_ref))

def revise (s : DecisionSpine) (kind : DecisionKind) (graph : CausalWorkGraph) (changes : Changes) :
    Except SpineError ((DecisionNode × DecisionDiff) × DecisionSpine) :=
  match s.current kind with
  | none => .error (.decision s!"no live {kind.value} decision")
  | some current =>
    match changes.others.filter (· ∈ FORBIDDEN) with
    | name :: names => .error (.decision s!"cannot set {listText (sortedSet (name :: names))} on a revision")
    | [] =>
      -- `getattr` of a field there is not
      if changes.others ≠ [] then
        .error .attribute_error
      else
        let revised := current.revised changes
        let diff : DecisionDiff :=
          { kind
            old_hash := current.decision_hash
            new_hash := revised.decision_hash
            changed_fields := changes.changed current
            stale_nodes := sorted (graph.descendants ("decision:" ++ kind.value)) }
        .ok ((revised, diff), s._append revised)

/-- A call on the spine. -/
inductive Op where
  | propose (node : DecisionNode)
  | accept (kind : DecisionKind) (selected_option approver_ref : String)
  | revise (kind : DecisionKind) (graph : CausalWorkGraph) (changes : Changes)

/-- The kind a call names. -/
def Op.kind : Op → DecisionKind
  | .propose node => node.kind
  | .accept kind .. => kind
  | .revise kind .. => kind

/-- The spine after a call: a call that raises leaves it. -/
def step (s : DecisionSpine) : Op → DecisionSpine
  | .propose node => (s.propose node).toOption.elim s Prod.snd
  | .accept kind selected_option approver_ref => (s.accept kind selected_option approver_ref).toOption.elim s Prod.snd
  | .revise kind graph changes => (s.revise kind graph changes).toOption.elim s Prod.snd

/-- The spine after some calls, from the empty one. -/
def run (ops : List Op) : DecisionSpine := ops.foldl step {}

@[simp] theorem run_snoc (ops : List Op) (op : Op) : run (ops ++ [op]) = (run ops).step op := by
  simp [run]

end DecisionSpine

/-! ## What a hash tells -/

namespace DecisionNode

/-- What a version says. -/
def semantics (n : DecisionNode) : List (String × Value) :=
  [("id", .str n.id), ("kind", .str n.kind.value), ("version", .int n.version), ("question", .str n.question),
    ("alternatives", texts n.alternatives), ("evidence_refs", texts n.evidence_refs),
    ("assumptions", texts n.assumptions), ("selected_option", optText n.selected_option), ("owner", .str n.owner),
    ("required_approver", optText n.required_approver), ("approved_by", optText n.approved_by),
    ("affected_nodes", texts n.affected_nodes), ("status", .str n.status.value),
    ("confidence", n.confidence.elim .none .float), ("supersedes", optText n.supersedes)]

theorem decision_hash_eq (n : DecisionNode) :
    n.decision_hash = Fingerprint.content_fingerprint (.dict n.semantics) := by
  simp [decision_hash, semantic_hash, model_dump, semantics]

theorem decision_hash_ne_empty (n : DecisionNode) : n.decision_hash ≠ "" := by
  rw [decision_hash_eq]
  exact Fingerprint.nonempty _

omit [Fingerprint] in
theorem isJson_semantics (n : DecisionNode) : IsJson (.dict n.semantics) := by
  have hconfidence : IsJson (n.confidence.elim .none .float) := by
    cases n.confidence with
    | none => exact .none
    | some f => exact .float f
  apply IsJson.dict
  · simp [semantics]
  · simp [semantics, IsJson.str, IsJson.int, isJson_optText, isJson_texts, hconfidence]

theorem kind_version_of_hash (h : CollisionFree) {a b : DecisionNode} (hab : a.decision_hash = b.decision_hash) :
    a.kind = b.kind ∧ a.version = b.version := by
  rw [decision_hash_eq, decision_hash_eq] at hab
  have hsame := h _ _ a.isJson_semantics b.isJson_semantics hab
  rw [Canonical.same_dict_iff (by simp [semantics]) (by simp [semantics])] at hsame
  have hlists : Value.str a.kind.value = .str b.kind.value ∧ Value.int a.version = .int b.version := by
    simp only [semantics, List.map_cons, Value.normal, List.cons.injEq] at hsame
    exact ⟨hsame.2.1, hsame.2.2.1⟩
  exact ⟨DecisionKind.value_inj (Value.str.inj hlists.1), Value.int.inj hlists.2⟩

end DecisionNode

/-! ## What a call does -/

namespace DecisionSpine

/-- The version a call appends, if it does not raise. -/
def appended (s : DecisionSpine) : Op → Option DecisionNode
  | .propose node => (s.propose node).toOption.map Prod.fst
  | .accept kind selected_option approver_ref => (s.accept kind selected_option approver_ref).toOption.map Prod.fst
  | .revise kind graph changes => (s.revise kind graph changes).toOption.map fun r => r.1.1

/-- What `accept` checks of the live version, beside that it is not accepted yet. -/
def MayAccept (current : DecisionNode) (selected_option approver_ref : String) : Prop :=
  selected_option ∈ current.alternatives ∧ approver_ref ≠ "" ∧ approver_ref ≠ current.owner ∧
    ∀ approver ∈ named current.required_approver, approver_ref = approver

variable {s' s : DecisionSpine} {node : DecisionNode}

theorem propose_ok_iff {node' : DecisionNode} : s.propose node = .ok (node', s') ↔
      node' = node ∧ s' = s._append node ∧ node.status = .PROPOSED ∧ s.current node.kind = none := by
  unfold propose
  split_ifs with hstatus hcurrent
  · simp [hstatus]
  · simp only [false_iff]
    rintro ⟨-, -, -, hnone⟩
    simp [hnone] at hcurrent
  · have hnone : s.current node.kind = none := by simpa using hcurrent
    simp only [ne_eq, not_not] at hstatus
    simp only [Except.ok.injEq, Prod.mk.injEq, hstatus, hnone, and_true]
    exact ⟨fun h => ⟨h.1.symm, h.2.symm⟩, fun h => ⟨h.1.symm, h.2.symm⟩⟩

variable {approver_ref selected_option : String}

theorem accept_ok_iff {kind : DecisionKind} : s.accept kind selected_option approver_ref = .ok (node, s') ↔
      ∃ c, s.current kind = some c ∧ c.status ≠ .ACCEPTED ∧ MayAccept c selected_option approver_ref ∧
        node = c.accepted selected_option approver_ref ∧ s' = s._append node := by
  unfold accept
  cases hcurrent : s.current kind with
  | none => simp
  | some c =>
    simp only [Option.some.injEq, exists_eq_left']
    split_ifs with hstatus hoption happrover hrequired
    · simp [hstatus]
    · simp only [false_iff]
      rintro ⟨-, ⟨-, hempty, howner, -⟩, -⟩
      rcases happrover with h | h
      · exact hempty h
      · exact howner h
    · simp only [false_iff]
      rintro ⟨-, ⟨-, -, -, hall⟩, -⟩
      obtain ⟨approver, hmem, hne⟩ := hrequired
      exact hne (hall approver hmem)
    · have hmay : MayAccept c selected_option approver_ref := by
        push Not at happrover hrequired
        exact ⟨hoption, happrover.1, happrover.2, hrequired⟩
      simp only [Except.ok.injEq, Prod.mk.injEq]
      constructor
      · rintro ⟨rfl, rfl⟩
        exact ⟨hstatus, hmay, rfl, rfl⟩
      · rintro ⟨-, -, rfl, rfl⟩
        exact ⟨rfl, rfl⟩
    · simp [MayAccept, hoption]

theorem revise_ok {kind : DecisionKind} {graph : CausalWorkGraph} {changes : Changes} {diff : DecisionDiff}
    (h : s.revise kind graph changes = .ok ((node, diff), s')) :
    ∃ c, s.current kind = some c ∧ node = c.revised changes ∧ s' = s._append node := by
  unfold revise at h
  split at h
  · cases h
  · rename_i c hcurrent
    split at h
    · cases h
    · split_ifs at h
      cases h
      exact ⟨c, hcurrent, rfl, rfl⟩

variable {op : Op}

theorem appended_cases (h : s.appended op = some node) :
    (op = .propose node ∧ node.status = .PROPOSED ∧ s.current node.kind = none) ∨
    (∃ kind selected_option approver_ref c, op = .accept kind selected_option approver_ref ∧
      s.current kind = some c ∧ c.status ≠ .ACCEPTED ∧ MayAccept c selected_option approver_ref ∧
      node = c.accepted selected_option approver_ref) ∨
    (∃ kind graph changes c, op = .revise kind graph changes ∧ s.current kind = some c ∧
      node = c.revised changes) := by
  cases op with
  | propose node' =>
    cases hcall : s.propose node' with
    | error e => simp [appended, hcall, Except.toOption] at h
    | ok r =>
      obtain ⟨hnode, -, hstatus, hnone⟩ := propose_ok_iff.mp hcall
      have hr : r.1 = node := by simpa [appended, hcall, Except.toOption] using h
      rw [hnode] at hr
      subst hr
      exact .inl ⟨rfl, hstatus, hnone⟩
  | accept kind selected_option approver_ref =>
    cases hcall : s.accept kind selected_option approver_ref with
    | error e => simp [appended, hcall, Except.toOption] at h
    | ok r =>
      obtain ⟨c, hcurrent, hstatus, hmay, hnode, -⟩ := accept_ok_iff.mp hcall
      have hr : r.1 = node := by simpa [appended, hcall, Except.toOption] using h
      exact .inr (.inl ⟨kind, selected_option, approver_ref, c, rfl, hcurrent, hstatus, hmay, hr.symm.trans hnode⟩)
  | revise kind graph changes =>
    cases hcall : s.revise kind graph changes with
    | error e => simp [appended, hcall, Except.toOption] at h
    | ok r =>
      obtain ⟨c, hcurrent, hnode, -⟩ := revise_ok hcall
      have hr : r.1.1 = node := by simpa [appended, hcall, Except.toOption] using h
      exact .inr (.inr ⟨kind, graph, changes, c, rfl, hcurrent, hr.symm.trans hnode⟩)

theorem step_eq (s : DecisionSpine) (op : Op) : s.step op = (s.appended op).elim s s._append := by
  cases op with
  | propose node =>
    cases hcall : s.propose node with
    | error e => simp [step, appended, hcall, Except.toOption]
    | ok r => simp [step, appended, hcall, Except.toOption, propose_ok_iff.mp hcall]
  | accept kind selected_option approver_ref =>
    cases hcall : s.accept kind selected_option approver_ref with
    | error e => simp [step, appended, hcall, Except.toOption]
    | ok r =>
      obtain ⟨c, -, -, -, -, hs⟩ := accept_ok_iff.mp hcall
      simp [step, appended, hcall, Except.toOption, hs]
  | revise kind graph changes =>
    cases hcall : s.revise kind graph changes with
    | error e => simp [step, appended, hcall, Except.toOption]
    | ok r =>
      obtain ⟨c, -, -, hs⟩ := revise_ok hcall
      simp [step, appended, hcall, Except.toOption, hs]

/-! ## What is live -/

variable {v : DecisionNode}

theorem mem_live {kind : DecisionKind} :
    v ∈ s.live kind ↔ v ∈ s.versions ∧ v.kind = kind ∧ v.decision_hash ∉ s.superseded := by
  simp [live]

theorem current_mem {kind : DecisionKind} (h : s.current kind = some v) :
    v ∈ s.live kind := List.mem_of_getLast? h

theorem live_eq_nil_of_current {kind : DecisionKind} (h : s.current kind = none) :
    s.live kind = [] := List.getLast?_eq_none_iff.mp h

/-- At most one version of each kind is live. -/
def Single (s : DecisionSpine) : Prop := ∀ kind, (s.live kind).length ≤ 1

theorem Single.live_eq (h : s.Single) {kind : DecisionKind} (hv : s.current kind = some v) : s.live kind = [v] := by
  have hmem := current_mem hv
  cases hlive : s.live kind with
  | nil =>
    rw [hlive] at hmem
    cases hmem
  | cons w rest =>
    have hlen := h kind
    rw [hlive, List.length_cons] at hlen
    have hrest : rest = [] := List.length_eq_zero_iff.mp (by omega)
    subst hrest
    rw [hlive, List.mem_singleton] at hmem
    rw [hmem]

theorem live_append (s : DecisionSpine) (node : DecisionNode) (kind : DecisionKind) :
    (s._append node).live kind =
      (s.live kind ++ if node.kind = kind ∧ node.decision_hash ∉ s.superseded then [node] else []).filter
        fun v => named node.supersedes ≠ some v.decision_hash := by
  have hmem : ∀ v : DecisionNode, v.decision_hash ∈ (s._append node).superseded ↔
      named node.supersedes = some v.decision_hash ∨ v.decision_hash ∈ s.superseded := fun v => by
    simp [_append]
  have hold : (s.versions.filter fun v => v.kind = kind ∧ v.decision_hash ∉ (s._append node).superseded) =
      (s.live kind).filter fun v => named node.supersedes ≠ some v.decision_hash := by
    rw [live, List.filter_filter]
    apply List.filter_congr
    intro v _
    simp only [hmem, ← Bool.decide_and]
    congr 1
    simp only [eq_iff_iff, not_or]
    tauto
  show (s.versions ++ [node]).filter _ = _
  rw [List.filter_append, hold, List.filter_append]
  congr 1
  by_cases hnode : node.kind = kind ∧ node.decision_hash ∉ s.superseded
  · rw [if_pos hnode, List.filter_cons, List.filter_cons]
    have hiff : (node.kind = kind ∧ node.decision_hash ∉ (s._append node).superseded) ↔
        named node.supersedes ≠ some node.decision_hash := by
      rw [hmem, not_or]
      exact ⟨fun h => h.2.1, fun h => ⟨hnode.1, h, hnode.2⟩⟩
    simp only [hiff, List.filter_nil]
  · rw [if_neg hnode, List.filter_cons]
    have hnot : ¬(node.kind = kind ∧ node.decision_hash ∉ (s._append node).superseded) := by
      rw [hmem, not_or]
      exact fun h => hnode ⟨h.1, h.2.2⟩
    simp [hnot]

theorem live_append_of_ne (s : DecisionSpine) {kind : DecisionKind} (h : node.kind ≠ kind) :
    (s._append node).live kind = (s.live kind).filter fun v => named node.supersedes ≠ some v.decision_hash := by
  simp [live_append, h]

theorem live_append_of_supersedes {s : DecisionSpine} (hs : s.Single) {c node : DecisionNode}
    (hc : s.current node.kind = some c) (hnode : node.supersedes = some c.decision_hash) :
    (s._append node).live node.kind =
      if node.decision_hash ∉ s.superseded ∧ node.decision_hash ≠ c.decision_hash then [node] else [] := by
  have hnamed : named node.supersedes = some c.decision_hash := by
    simp [named, hnode, c.decision_hash_ne_empty]
  rw [live_append, hs.live_eq hc, hnamed, List.filter_append]
  have hold : ([c].filter fun v => some c.decision_hash ≠ some v.decision_hash) = [] := by simp
  rw [hold, List.nil_append]
  by_cases hin : node.decision_hash ∈ s.superseded
  · simp [hin]
  · by_cases heq : node.decision_hash = c.decision_hash
    · simp [heq]
    · simp [hin, heq, Ne.symm heq]

theorem current_kind {kind : DecisionKind} {c : DecisionNode} (h : s.current kind = some c) :
    c.kind = kind := (mem_live.mp (current_mem h)).2.1

theorem Single.append (hs : s.Single) (h : s.appended op = some node) : (s._append node).Single := by
  intro kind
  by_cases hkind : node.kind = kind
  · subst hkind
    have htakes : ∀ c, s.current node.kind = some c → node.supersedes = some c.decision_hash →
        ((s._append node).live node.kind).length ≤ 1 := fun c hc hsup => by
      rw [live_append_of_supersedes hs hc hsup]
      split_ifs <;> simp
    obtain ⟨-, -, hnone⟩ | ⟨kind, _, _, c, -, hc, -, -, rfl⟩ | ⟨kind, _, _, c, -, hc, rfl⟩ := appended_cases h
    · rw [live_append, live_eq_nil_of_current hnone, List.nil_append]
      apply (List.length_filter_le _ _).trans
      split_ifs <;> simp
    · apply htakes c _ rfl
      rw [← hc, ← current_kind hc]
      rfl
    · apply htakes c _ rfl
      rw [← hc, ← current_kind hc]
      rfl
  · rw [live_append_of_ne s hkind]
    exact (List.length_filter_le _ _).trans (hs kind)

theorem Single.step (hs : s.Single) (op : Op) : (s.step op).Single := by
  rw [step_eq]
  cases happended : s.appended op with
  | none => exact hs
  | some node => exact hs.append happended

theorem single_run (ops : List Op) : (run ops).Single := by
  induction ops using List.reverseRecOn with
  | nil => exact fun kind => Nat.zero_le 1
  | append_singleton ops op ih =>
    rw [run_snoc]
    exact ih.step op

theorem appended_kind (h : s.appended op = some node) : node.kind = op.kind := by
  obtain ⟨rfl, -, -⟩ | ⟨kind, _, _, c, rfl, hc, -, -, rfl⟩ | ⟨kind, _, _, c, rfl, hc, rfl⟩ := appended_cases h
  · rfl
  · show c.kind = kind
    exact current_kind hc
  · show c.kind = kind
    exact current_kind hc

/-! ## Each call keeps to its kind -/

/-- A proposal names no live version of another kind, and the version an acceptance makes was not named before. -/
def ClearAt (s : DecisionSpine) : Op → Prop
  | .propose node => node.status = .PROPOSED → s.current node.kind = none →
      ∀ kind v, kind ≠ node.kind → s.current kind = some v → named node.supersedes ≠ some v.decision_hash
  | .accept kind selected_option approver_ref => ∀ c, s.current kind = some c → c.status ≠ .ACCEPTED →
      MayAccept c selected_option approver_ref →
      (c.accepted selected_option approver_ref).decision_hash ∉ s.superseded
  | .revise .. => True

/-- Every call is clear on the spine it comes to. -/
def Clear (ops : List Op) : Prop := ∀ before op after, ops = before ++ op :: after → ClearAt (run before) op

/-- A call that revises the decision of a kind. -/
def Revises (s : DecisionSpine) (kind : DecisionKind) (op : Op) : Prop :=
  ∃ graph changes r, op = .revise kind graph changes ∧ s.revise kind graph changes = .ok r

/-- **Decision operations only touch their own kind**, over a sequence of calls from the empty spine. -/
structure Upheld (ops : List Op) : Prop where
  own_kind : ∀ before op after, ops = before ++ op :: after →
    ∀ kind ≠ op.kind, ((run before).step op).current kind = (run before).current kind
  one_live : ∀ before after, ops = before ++ after → (run before).Single
  accepted_stays : ∀ before kind selected_option approver_ref mid after node s',
    ops = before ++ .accept kind selected_option approver_ref :: mid ++ after →
    (run before).accept kind selected_option approver_ref = .ok (node, s') →
    (∀ mid₁ op mid₂, mid = mid₁ ++ op :: mid₂ →
      ¬Revises (run (before ++ .accept kind selected_option approver_ref :: mid₁)) kind op) →
    (run (before ++ .accept kind selected_option approver_ref :: mid)).current kind = some node ∧
      node.status = .ACCEPTED

theorem current_step_of_clearAt (h : CollisionFree) (hs : s.Single) (hop : ClearAt s op) {kind : DecisionKind}
    (hkind : kind ≠ op.kind) : (s.step op).current kind = s.current kind := by
  rw [step_eq]
  cases happended : s.appended op with
  | none => rfl
  | some node =>
    have hnode := appended_kind happended
    -- no version of the other kind has the hash the new version names
    have hkeep : ∀ v ∈ s.live kind, named node.supersedes ≠ some v.decision_hash := by
      intro v hv hname
      have hvcurrent : s.current kind = some v := by
        cases hcurrent : s.current kind with
        | none =>
          rw [live_eq_nil_of_current hcurrent] at hv
          cases hv
        | some w =>
          rw [hs.live_eq hcurrent, List.mem_singleton] at hv
          rw [hv]
      have hother : ∀ {c : DecisionNode}, s.current op.kind = some c → node.supersedes = some c.decision_hash →
          False := by
        intro c hc hsup
        simp only [named, hsup, Option.filter_some, c.decision_hash_ne_empty, ne_eq, not_false_eq_true, decide_true,
          if_true, Option.some.injEq] at hname
        have hsame := (DecisionNode.kind_version_of_hash h hname).1
        rw [current_kind hc, current_kind hvcurrent] at hsame
        exact hkind hsame.symm
      obtain ⟨rfl, hstatus, hnone⟩ | ⟨_, _, _, c, rfl, hc, -, -, rfl⟩ | ⟨_, _, _, c, rfl, hc, rfl⟩ :=
        appended_cases happended
      · exact hop hstatus hnone kind v hkind hvcurrent hname
      · exact hother hc rfl
      · exact hother hc rfl
    show ((s._append node).live kind).getLast? = (s.live kind).getLast?
    rw [live_append_of_ne s (by rw [hnode]; exact hkind.symm), List.filter_eq_self.mpr]
    intro v hv
    simpa using hkeep v hv

theorem current_accept (h : CollisionFree) (hs : s.Single) {kind : DecisionKind}
    (hop : ClearAt s (.accept kind selected_option approver_ref))
    (hcall : s.accept kind selected_option approver_ref = .ok (node, s')) :
    s'.current kind = some node ∧ node.status = .ACCEPTED := by
  obtain ⟨c, hc, hstatus, hmay, rfl, rfl⟩ := accept_ok_iff.mp hcall
  have hnew := hop c hc hstatus hmay
  have hne : (c.accepted selected_option approver_ref).decision_hash ≠ c.decision_hash := by
    intro heq
    have hversion : c.version + 1 = c.version := (DecisionNode.kind_version_of_hash h heq).2
    omega
  have hkind : c.kind = kind := current_kind hc
  subst hkind
  have hlive := @live_append_of_supersedes _ s hs c (c.accepted selected_option approver_ref) hc rfl
  rw [if_pos ⟨hnew, hne⟩] at hlive
  refine ⟨?_, rfl⟩
  show ((s._append _).live (c.accepted selected_option approver_ref).kind).getLast? = _
  rw [hlive]
  rfl

theorem current_step_of_accepted (h : CollisionFree) (hs : s.Single) (hop : ClearAt s op) {kind : DecisionKind}
    (hcurrent : s.current kind = some node) (hstatus : node.status = .ACCEPTED) (hrevise : ¬Revises s kind op) :
    (s.step op).current kind = some node := by
  by_cases hkind : kind = op.kind
  · have hnone : s.appended op = none := by
      cases happended : s.appended op with
      | none => rfl
      | some new =>
        exfalso
        obtain ⟨rfl, -, hnone⟩ | ⟨k, _, _, c, rfl, hc, hnot, -⟩ | ⟨k, graph, changes, c, rfl, hc, -⟩ :=
          appended_cases happended
        · rw [hkind] at hcurrent
          exact absurd (hcurrent.symm.trans hnone) (by simp)
        · have hk : kind = k := hkind
          subst hk
          have hsame : c = node := Option.some.inj (hc.symm.trans hcurrent)
          exact hnot (hsame ▸ hstatus)
        · apply hrevise
          have hk : kind = k := hkind
          subst hk
          cases hcall : s.revise kind graph changes with
          | error e => simp [appended, hcall, Except.toOption] at happended
          | ok r => exact ⟨graph, changes, r, rfl, hcall⟩
    rw [step_eq, hnone]
    exact hcurrent
  · rw [current_step_of_clearAt h hs hop hkind]
    exact hcurrent

/-- Each call of a sequence keeps to its kind exactly when each is clear: a proposal names no live version of another
    kind, and the version an acceptance makes was not named before. -/
theorem decisions_upheld_iff (h : CollisionFree) (ops : List Op) : Upheld ops ↔ Clear ops := by
  constructor
  · intro hup before op after hops
    have hs := single_run before
    cases op with
    | propose node =>
      intro hstatus hnone kind v hkind hv hname
      have hsame := hup.own_kind before _ after hops kind hkind
      have hstep : (run before).step (.propose node) = (run before)._append node := by
        have hcall := propose_ok_iff.mpr ⟨rfl, rfl, hstatus, hnone⟩
        simp [step, hcall, Except.toOption]
      have hgone : ((run before)._append node).live kind = [] := by
        rw [live_append_of_ne _ hkind.symm, hs.live_eq hv]
        simp [hname]
      rw [hstep, hv, current, hgone] at hsame
      cases hsame
    | accept kind selected_option approver_ref =>
      intro c hc hstatus hmay hnamed
      have hcall := accept_ok_iff.mpr ⟨c, hc, hstatus, hmay, rfl, rfl⟩
      have hstays := (hup.accepted_stays before kind selected_option approver_ref [] after _ _
        (by simpa using hops) hcall (by simp)).1
      have hstep : run (before ++ [.accept kind selected_option approver_ref]) =
          (run before)._append (c.accepted selected_option approver_ref) := by
        rw [run_snoc]
        simp [step, hcall, Except.toOption]
      rw [hstep] at hstays
      -- a version whose hash is named is not live
      have hfree := (mem_live.mp (current_mem hstays)).2.2
      exact hfree (List.mem_append_right _ hnamed)
    | revise => trivial
  · intro hclear
    refine ⟨?_, fun before _ _ => single_run before, ?_⟩
    · intro before op after hops kind hkind
      exact current_step_of_clearAt h (single_run before) (hclear before op after hops) hkind
    · intro before kind selected_option approver_ref mid after node s' hops hcall
      induction mid using List.reverseRecOn generalizing after with
      | nil =>
        intro _
        have hat := hclear before _ after (by simpa using hops)
        have hstep : run (before ++ [.accept kind selected_option approver_ref]) = s' := by
          rw [run_snoc]
          simp [step, hcall, Except.toOption]
        rw [hstep]
        exact current_accept h (single_run before) hat hcall
      | append_singleton mid op ih =>
        intro hnever
        have hearlier := ih ([op] ++ after) (by simpa using hops) fun mid₁ op' mid₂ hmid =>
          hnever mid₁ op' (mid₂ ++ [op]) (by simp [hmid])
        have hassoc : before ++ .accept kind selected_option approver_ref :: (mid ++ [op]) =
            before ++ .accept kind selected_option approver_ref :: mid ++ [op] := by simp
        rw [hassoc, run_snoc]
        refine ⟨?_, hearlier.2⟩
        have hat := hclear (before ++ .accept kind selected_option approver_ref :: mid) op after (by simpa using hops)
        exact current_step_of_accepted h (single_run _) hat hearlier.1 hearlier.2 (hnever mid op [] (by simp))

/-! ## A proposal that hides another kind's decision -/

theorem run_propose {node : DecisionNode} (h : node.status = .PROPOSED) :
    run [.propose node] = ({} : DecisionSpine)._append node := by
  have hcall := propose_ok_iff.mpr ⟨rfl, rfl, h, (rfl : ({} : DecisionSpine).current node.kind = none)⟩
  simp [run, step, hcall, Except.toOption]

theorem current_run_propose (h : node.status = .PROPOSED) (hnone : node.supersedes = none) :
    (run [.propose node]).current node.kind = some node := by
  have hlive : (run [.propose node]).live node.kind = [node] := by
    rw [run_propose h, live_append]
    simp [live, named, hnone]
  rw [current, hlive]
  rfl

theorem not_upheld_of_named {a b : DecisionNode} (ha : a.status = .PROPOSED) (hnone : a.supersedes = none)
    (hb : b.status = .PROPOSED) (hkind : a.kind ≠ b.kind) (hname : b.supersedes = some a.decision_hash) :
    ¬Upheld [.propose a, .propose b] := by
  intro hup
  have hsame := hup.own_kind [.propose a] (.propose b) [] rfl a.kind hkind
  have hcurrent := current_run_propose ha hnone
  have hfree : (run [.propose a]).current b.kind = none := by
    have hlive : (run [.propose a]).live b.kind = [] := by
      rw [run_propose ha, live_append_of_ne _ hkind]
      rfl
    rw [current, hlive]
    rfl
  have hstep : (run [.propose a]).step (.propose b) = (run [.propose a])._append b := by
    have hcall := propose_ok_iff.mpr ⟨rfl, rfl, hb, hfree⟩
    simp [step, hcall, Except.toOption]
  have hgone : ((run [.propose a])._append b).live a.kind = [] := by
    rw [live_append_of_ne _ hkind.symm, (single_run [.propose a]).live_eq hcurrent]
    simp [named, hname, a.decision_hash_ne_empty]
  rw [hstep, hcurrent, current, hgone] at hsame
  cases hsame

end DecisionSpine

end

/-- What is in scope, as it is proposed. -/
def scopeDecision : DecisionNode where
  id := "d1"
  kind := .SCOPE
  question := "What is in scope?"
  alternatives := ["site", "site and shop"]
  owner := "lead"

/-- A strategy whose proposal names a version it supersedes. -/
def strategyDecision (supersedes : Option String) : DecisionNode where
  id := "d2"
  kind := .STRATEGY
  question := "Which market first?"
  alternatives := ["home", "abroad"]
  owner := "lead"
  supersedes := supersedes

namespace DecisionSpine

theorem decisions_upheld_iff_scope : @Upheld plainFingerprint
    [.propose scopeDecision, .accept .SCOPE "site" "client", .propose (strategyDecision none)] := by
  refine (@decisions_upheld_iff plainFingerprint plainFingerprint_collisionFree _).mpr ?_
  intro before op after hops
  match before, hops with
  | [], hops =>
    cases hops
    intro _ _ _ _ _ _
    simp [scopeDecision, named]
  | [_], hops =>
    cases hops
    intro c _ _ _
    rw [@run_propose plainFingerprint _ rfl]
    simp [_append, scopeDecision, named]
  | [_, _], hops =>
    cases hops
    intro _ _ _ _ _ _
    simp [strategyDecision, named]
  | _ :: _ :: _ :: before, hops => simp at hops

/-- The strategy names the hash of the scope, which is live. -/
theorem scope_hidden :
    ¬@Upheld plainFingerprint [.propose scopeDecision,
      .propose (strategyDecision (some (@DecisionNode.decision_hash plainFingerprint scopeDecision)))] :=
  @not_upheld_of_named plainFingerprint _ _ rfl rfl rfl (by decide) rfl

end DecisionSpine

end Compiled
