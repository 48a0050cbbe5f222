import MissionControl.Actions.Requests
import MissionControl.Encoding.HashChain

/-! # The transition chain

What `verify_transition_chain` reports about logs that only `insert_request`,
`transition` and `annotate` have written, and what two intact logs with one head
have in common. -/

namespace Actions

open Canonical (Value Sha256 CollisionFree canonical_hash canonical_hash_eq_iff same_dict_iff stored_same_iff plainHash plainHash_collisionFree)
open Encoding (HashChain)

variable [Sha256]

/-- The transition log as a hash chain. -/
def transitionChain : HashChain TransitionEntry String where
  prev := (·.prev_hash)
  hash := (·.entry_hash)
  digest := fun e => canonical_hash e.body

/-! ## What the verification decides -/

variable {n : Nat} {head : Option String}

theorem verifyFrom_eq_intact {entries i : Nat} {prev : Option String} {es : List TransitionEntry} :
    verifyFrom entries i prev es = .intact n head ↔
      n = entries ∧ transitionChain.Linked prev es ∧ head = transitionChain.headFrom prev es := by
  induction es generalizing i prev with
  | nil =>
    simp only [verifyFrom, ChainReport.intact.injEq, HashChain.Linked, HashChain.headFrom_nil, true_and]
    constructor
    · rintro ⟨rfl, rfl⟩
      exact ⟨rfl, rfl⟩
    · rintro ⟨rfl, rfl⟩
      exact ⟨rfl, rfl⟩
  | cons e rest ih =>
    simp only [verifyFrom, HashChain.Linked, HashChain.headFrom_cons]
    by_cases hprev : e.prev_hash = prev
    · by_cases hhash : canonical_hash e.body = e.entry_hash
      · rw [if_neg (not_not.mpr hprev), if_neg (not_not.mpr hhash), ih]
        simp [transitionChain, hprev, hhash]
      · rw [if_neg (not_not.mpr hprev), if_pos hhash]
        simp [transitionChain, hhash]
    · rw [if_pos hprev]
      simp [transitionChain, hprev]

variable {w : World}

variable {action_id : String}

theorem verify_transition_chain_intact : verify_transition_chain w action_id = .intact n head ↔
      n = (w.log action_id).length ∧ transitionChain.Linked none (w.log action_id) ∧
        head = transitionChain.headFrom none (w.log action_id) :=
  verifyFrom_eq_intact

/-! ## What an entry's hash covers -/

/-- Two entries with the same content. Evidence is compared as Python compares
    it: the order of a mapping and the sign of a zero make no difference. -/
structure TransitionEntry.Identical (e e' : TransitionEntry) : Prop where
  action_id : e.action_id = e'.action_id
  tenant_id : e.tenant_id = e'.tenant_id
  from_state : e.from_state = e'.from_state
  to_state : e.to_state = e'.to_state
  actor : e.actor = e'.actor
  reason : e.reason = e'.reason
  evidence : e.evidence.Same e'.evidence
  prev_hash : e.prev_hash = e'.prev_hash
  entry_hash : e.entry_hash = e'.entry_hash
  created_at : e.created_at = e'.created_at

omit [Sha256] in
theorem body_same {e e' : TransitionEntry} (h : e.body.Same e'.body)
    (hhash : e.entry_hash = e'.entry_hash) : e.Identical e' := by
  rw [TransitionEntry.body, TransitionEntry.body, same_dict_iff (by rfl) (by simp [List.nodup_cons])] at h
  simp only [List.map_cons, List.map_nil, List.cons.injEq, and_true, Value.normal, iso,
    Value.str.injEq, Value.int.injEq] at h
  obtain ⟨haction, htenant, hfrom, hto, hactor, hreason, hev, hprev, hat⟩ := h
  refine ⟨haction, htenant, ?_, ActionState.value_inj hto, hactor, hreason, hev, ?_, hhash,
    Int.ofNat_inj.mp hat⟩
  · cases hs : e.from_state <;> cases hs' : e'.from_state <;>
      simp only [hs, hs', Value.normal, Value.str.injEq, reduceCtorEq] at hfrom
    · rfl
    · rw [ActionState.value_inj hfrom]
  · cases hs : e.prev_hash <;> cases hs' : e'.prev_hash <;>
      simp only [hs, hs', Value.normal, Value.str.injEq, reduceCtorEq] at hprev
    · rfl
    · rw [hprev]

omit [Sha256] in
theorem body_same_evidence (e : TransitionEntry) (v : Value) :
    { e with evidence := v }.body.Same e.body ↔ v.Same e.evidence := by
  rw [TransitionEntry.body, TransitionEntry.body, same_dict_iff (by rfl) (by simp [List.nodup_cons])]
  simp [Value.Same]

variable {w' : World}

/-- **A head commits to the log.** Two intact logs, of whatever lengths, that end
    in one hash are the same, entry for entry. -/
theorem identical_of_head (hash : CollisionFree) {action_id' : String} {n' : Nat}
    (h : verify_transition_chain w action_id = .intact n head)
    (h' : verify_transition_chain w' action_id' = .intact n' head) :
    List.Forall₂ TransitionEntry.Identical (w.log action_id) (w'.log action_id') := by
  obtain ⟨-, hlinked, hhead⟩ := verify_transition_chain_intact.mp h
  obtain ⟨-, hlinked', hhead'⟩ := verify_transition_chain_intact.mp h'
  refine HashChain.forall₂_of_head ?_ (fun _ _ hid => hid.prev_hash) hlinked hlinked'
    (hhead.symm.trans hhead')
  exact fun e e' hdigest heq => body_same ((canonical_hash_eq_iff hash).mp hdigest) heq

/-! ## Sequences of calls -/

/-- A call that writes the log. -/
inductive LogCall where
  | insert_request (row : ActionRow) (actor reason : String) (evidence : Option Value)
  | transition (a : TransitionArgs)
  | annotate (a : AnnotateArgs)

namespace LogCall

/-- The evidence the call hashes. -/
def evidence : LogCall → Value
  | insert_request _ _ _ evidence => evidence.getD (.dict [])
  | transition a => a.evidence.getD (.dict [])
  | annotate a => a.evidence

/-- The world after the call, made at the moment `t`. -/
def perform (w : World) (t : Moment) : LogCall → World
  | insert_request row actor reason evidence =>
    committed { w with now := t }
      (Actions.insert_request { w with now := t } row actor reason evidence)
  | transition a => committed { w with now := t } (Actions.transition { w with now := t } a)
  | annotate a => committed { w with now := t } (Actions.annotate { w with now := t } a)

/-- The call finds what it needs: a new key and id, or the version it expects. -/
def Admitted (w : World) : LogCall → Prop
  | insert_request row _ _ _ =>
    find_by_key w row.tenant_id row.idempotency_key = none ∧
      w.action_requests.find? row.action_id = none
  | transition a => ∃ current, w.action_requests.find? a.action_id = some current ∧
      current.version = a.expected_version ∧ current.state ∈ a.expected_states
  | annotate a => ∃ current, w.action_requests.find? a.action_id = some current ∧
      current.version = a.expected_version

/-- The call appends an entry: it is admitted, and its evidence is stored. -/
def Appends (w : World) (c : LogCall) : Prop :=
  c.Admitted w ∧ (w.backend.stored c.evidence).isSome

end LogCall

/-- The world after calls made one after the other, each at its own moment. -/
def runCalls (w : World) : List (Moment × LogCall) → World
  | [] => w
  | (t, c) :: rest => runCalls (c.perform w t) rest

/-- Every entry the calls append has evidence its backend returns with the hash
    it was written with. -/
def EvidenceKept (w : World) : List (Moment × LogCall) → Prop
  | [] => True
  | (t, c) :: rest =>
    (c.Appends w → w.backend.Faithful c.evidence) ∧ EvidenceKept (c.perform w t) rest

/-- `w'` has one more entry than `w`, written with the evidence `v`. -/
def Appended (w w' : World) (v : Value) : Prop :=
  ∃ action_id tenant_id from_state to_state actor reason created_at stored,
    w.backend.stored v = some stored ∧
    w'.action_transitions = w.action_transitions ++
      [{ w.nextEntry action_id tenant_id from_state to_state actor reason v created_at with
          evidence := stored }]

/-- **A call appends one entry, or none.** -/
theorem LogCall.perform_spec (w : World) (t : Moment) (c : LogCall) : (c.perform w t).backend = w.backend ∧
    (c.Appends w ∧ Appended w (c.perform w t) c.evidence ∨
      ¬ c.Appends w ∧ (c.perform w t).action_transitions = w.action_transitions) := by
  cases c with
  | insert_request row actor reason evidence =>
    simp only [perform, Actions.insert_request, Appends, Admitted, LogCall.evidence]
    cases hkey : find_by_key w row.tenant_id row.idempotency_key with
    | some existing =>
      have hkey' : find_by_key { w with now := t } row.tenant_id row.idempotency_key = some existing := hkey
      rw [hkey']
      dsimp only
      split <;> simp [committed]
    | none =>
      have hkey' : find_by_key { w with now := t } row.tenant_id row.idempotency_key = none := hkey
      rw [hkey']
      dsimp only
      split
      · rename_i hid
        split
        · rename_i e he
          have := _append_transition_error he
          simp_all [committed]
        · rename_i w' hw'
          obtain ⟨stored, hs, rfl⟩ := _append_transition_ok hw'
          have hs' : w.backend.stored (evidence.getD (.dict [])) = some stored := hs
          refine ⟨rfl, .inl ⟨⟨⟨rfl, hid⟩, by simp [hs']⟩, ?_⟩⟩
          exact ⟨_, _, _, _, _, _, _, _, hs, rfl⟩
      · rename_i hid
        simp [committed, hid]
  | transition a =>
    simp only [perform, Actions.transition, Appends, Admitted, LogCall.evidence]
    cases hcur : w.action_requests.find? a.action_id with
    | none => simp [committed]
    | some current =>
      dsimp only
      split
      · rename_i hv
        split
        · rename_i e he
          have := _append_transition_error he
          simp_all [committed]
        · rename_i w' hw'
          obtain ⟨stored, hs, rfl⟩ := _append_transition_ok hw'
          have hs' : w.backend.stored (a.evidence.getD (.dict [])) = some stored := hs
          refine ⟨rfl, .inl ⟨⟨⟨current, rfl, hv⟩, by simp [hs']⟩, ?_⟩⟩
          exact ⟨_, _, _, _, _, _, _, _, hs, rfl⟩
      · rename_i hv
        refine ⟨rfl, .inr ⟨?_, rfl⟩⟩
        rintro ⟨⟨_, ⟨⟩, hv'⟩, -⟩
        exact hv hv'
  | annotate a =>
    simp only [perform, Actions.annotate, Appends, Admitted, LogCall.evidence]
    cases hcur : w.action_requests.find? a.action_id with
    | none => simp [committed]
    | some current =>
      dsimp only
      split
      · rename_i hv
        split
        · rename_i e he
          have := _append_transition_error he
          simp_all [committed]
        · rename_i w' hw'
          obtain ⟨stored, hs, rfl⟩ := _append_transition_ok hw'
          have hs' : w.backend.stored a.evidence = some stored := hs
          refine ⟨rfl, .inl ⟨⟨⟨current, rfl, hv⟩, by simp [hs']⟩, ?_⟩⟩
          exact ⟨_, _, _, _, _, _, _, _, hs, rfl⟩
      · rename_i hv
        refine ⟨rfl, .inr ⟨?_, rfl⟩⟩
        rintro ⟨⟨_, ⟨⟩, hv'⟩, -⟩
        exact hv hv'

/-! ## When the chain stays intact -/

/-- The log of every action is linked. -/
def AllLinked (w : World) : Prop := ∀ action_id, transitionChain.Linked none (w.log action_id)

/-- **An appended entry verifies exactly when its evidence survived storage.** -/
theorem allLinked_appended (hash : CollisionFree) {v : Value} (hv : v.Distinct) (h : Appended w w' v) :
    AllLinked w' ↔ AllLinked w ∧ w.backend.Faithful v := by
  obtain ⟨action_id, tenant_id, from_state, to_state, actor, reason, created_at, stored, hs, hw'⟩ := h
  rw [← stored_same_iff hv hs]
  set e := w.nextEntry action_id tenant_id from_state to_state actor reason v created_at with he
  have hbody : canonical_hash ({ e with evidence := stored } : TransitionEntry).body = e.entry_hash ↔
      stored.Same v := by
    show canonical_hash _ = canonical_hash e.body ↔ _
    rw [canonical_hash_eq_iff hash]
    exact body_same_evidence e stored
  have hlog : ∀ id, w'.log id = w.log id ++ if action_id = id then [{ e with evidence := stored }] else [] := by
    intro id
    simp only [World.log, hw', List.filter_append]
    congr 1
    by_cases hid : action_id = id
    · simp [hid, he, World.nextEntry]
    · simp [hid, he, World.nextEntry]
  have hown : transitionChain.Linked none (w'.log action_id) ↔
      transitionChain.Linked none (w.log action_id) ∧ stored.Same v := by
    rw [hlog, if_pos rfl, HashChain.linked_append]
    refine and_congr_right fun _ => ?_
    rw [← hbody]
    refine and_iff_right ?_
    simp [transitionChain, he, World.nextEntry, HashChain.headFrom]
  constructor
  · intro hall
    have hsame := (hown.mp (hall action_id)).2
    refine ⟨fun id => ?_, hsame⟩
    by_cases hid : action_id = id
    · subst hid
      exact (hown.mp (hall action_id)).1
    · have := hall id
      rwa [hlog, if_neg hid, List.append_nil] at this
  · rintro ⟨hall, hsame⟩ id
    by_cases hid : action_id = id
    · subst hid
      exact hown.mpr ⟨hall action_id, hsame⟩
    · rw [hlog, if_neg hid, List.append_nil]
      exact hall id

theorem allLinked_perform (hash : CollisionFree) {t : Moment} {c : LogCall} (hc : c.evidence.Distinct) :
    AllLinked (c.perform w t) ↔ AllLinked w ∧ (c.Appends w → w.backend.Faithful c.evidence) := by
  obtain ⟨-, ⟨happ, h⟩ | ⟨happ, h⟩⟩ := c.perform_spec w t
  · rw [allLinked_appended hash hc h]
    simp [happ]
  · simp [AllLinked, World.log, h, happ]

theorem allLinked_runCalls (hash : CollisionFree) {calls : List (Moment × LogCall)}
    (hcalls : ∀ x ∈ calls, x.2.evidence.Distinct) :
    AllLinked (runCalls w calls) ↔ AllLinked w ∧ EvidenceKept w calls := by
  induction calls generalizing w with
  | nil => simp [runCalls, EvidenceKept]
  | cons x rest ih =>
    obtain ⟨t, c⟩ := x
    rw [runCalls, ih fun y hy => hcalls y (List.mem_cons_of_mem _ hy),
      allLinked_perform hash (hcalls (t, c) List.mem_cons_self), EvidenceKept, and_assoc]

/-- A proposed page, as far as the log looks at it. -/
def proposedRow (action_id : String) : ActionRow where
  action_id := action_id
  tenant_id := "t"
  project_id := "p"
  client_id := none
  capability_id := "sandbox.cms.publish_page"
  environment := .SANDBOX
  actor_ref := "u"
  target_ref := "site/home"
  args := .publish "site" "/" "Home" "Hello"
  payload_hash := ""
  dependency_hashes := []
  policy_version := RISK_POLICY_VERSION
  risk := assess ⟨.PUBLISH, .SANDBOX, .INTERNAL, 0, none, .COMPENSATABLE, .PUBLIC, true, false, 1,
    [], 0, none⟩
  effective_class := .R3
  binding := ⟨"", "", "t", "p", .SANDBOX, "site/home", "", [], RISK_POLICY_VERSION, .R3, 0, none,
    SECOND, [.ACTION_EXECUTION]⟩
  binding_hash := ""
  idempotency_key := action_id
  request_hash := ""
  created_at := 0
  expires_at := SECOND
  run_id := none
  approval_id := none
  financial_approval_id := none
  budget_reservation_id := none
  attempts := 0
  reconcile_attempts := 0
  lease_owner := none
  lease_expires_at := none
  retry_eligible := false
  reasons := []
  outcome := none
  state := .PROPOSED
  version := 1
  updated_at := 0

/-- One insert, with `{"x": 1e16}` as evidence. -/
def floatCall : List (Moment × LogCall) :=
  [(0, .insert_request (proposedRow "act") "u" "proposed"
    (some (.dict [("x", .float ⟨false, 1, 16, by decide, by decide⟩)])))]

end Actions
