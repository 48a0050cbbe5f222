import MissionControl.Content.Jobs

/-! # The lifecycle under concurrency

A request moves an item by the state and the version it was read with. The scheduler, the publication and an edit write
by the version only, so what they read may have moved on.

* **A version keeps its body** (`bodies_kept`): only an edit writes a body, and it leaves a later version.
* **An approval has a reference** (`referenced`): the two are written together.
* **The lifecycle** (`lifecycle_iff`): every change of state is an edge, no item is in a state that needs an approval
  without one for its version, and what is being published is not edited, exactly as long as each write by the version
  only finds an item that allows it. -/

namespace Content

open Canonical (Sha256)
open Interleaving
open Projects (given)
open Relational (Table)

/-! ## What is legal -/

/-- The state stays, or there is an edge. -/
def Onward (state target : ContentState) : Prop := target = state ∨ target ∈ CONTENT_TRANSITIONS state

/-- What the lifecycle lets become of an item. -/
structure LegalChange (r r' : ItemRow) : Prop where
  edge : Onward r.item.state r'.item.state
  settled : r.item.state = .PUBLISHING ∨ r.item.state = .PUBLISHED →
    r'.item.version = r.item.version ∧ r'.body = r.body

def Legal (s s' : OpsState) : Prop :=
  ∀ r ∈ s.items, ∀ r' ∈ s'.items, r'.content_item_id = r.content_item_id → LegalChange r r'

/-- A state that needs an approval has one, for the version the item has. -/
def ItemRow.Bound (r : ItemRow) : Prop :=
  r.item.state ∈ APPROVAL_BOUND_CONTENT_STATES → r.item.approved_version = some r.item.version

def Bound (s : OpsState) : Prop := ∀ r ∈ s.items, r.Bound

/-- The item may become what the write makes of it. -/
def ItemRow.Allows (r : ItemRow) (target : ContentState) : Prop := Onward r.item.state target ∧ (r.moved target).Bound

/-! ## Writes by the version -/

/-- Where the item still has the version it was read with, it allows the move. -/
def MayMove (s : OpsState) (item : ContentItem) (target : ContentState) : Prop :=
  ∀ r ∈ s.items.find? item.content_item_id, r.item.version = item.version → r.Allows target

/-- Where the item still has the version it was read with, it is not being published, and may go to the state. -/
def MayRevise (s : OpsState) (item_id : String) (item : ContentItem) (new_state : ContentState) : Prop :=
  ∀ r ∈ s.items.find? item_id, r.item.version = item.version →
    r.item.state ≠ .PUBLISHING ∧ r.item.state ≠ .PUBLISHED ∧ Onward r.item.state new_state

section

variable [Sha256] [IsoTime] {c : OpsCall} {o : OpsOutcome} {s s' : OpsState}

/-- Each write by the version only, if it goes through, finds an item that allows it. -/
def Checks (o : OpsOutcome) (s : OpsState) : OpsCall → Prop
  | .move_item item target => ∀ x, opsExec (.move_item item target) o s = .ok x → MayMove s item target
  | .claim_job job_id mark (some (item, target)) =>
    ∀ x, opsExec (.claim_job job_id mark (some (item, target))) o s = .ok x → x.1 = true → MayMove s item target
  | .finish_item current => ∀ x, opsExec (.finish_item current) o s = .ok x →
    (current.state = .PUBLISHING → MayMove s current .PUBLISHED) ∧
      (current.state = .PUBLISHED → MayMove s current .VERIFIED)
  | .revise_item item_id item body new_state =>
    ∀ x, opsExec (.revise_item item_id item body new_state) o s = .ok x → MayRevise s item_id item new_state
  | _ => True

/-! ## One call -/

omit [Sha256] [IsoTime] in
theorem Legal.refl (s : OpsState) : Legal s s := by
  intro r hr r' hr' hid
  rw [Table.eq_of_key hr' hr hid]
  exact ⟨.inl rfl, fun _ => ⟨rfl, rfl⟩⟩

variable {r : ItemRow} {target : ContentState}

section
omit [Sha256] [IsoTime]

theorem ItemRow.Allows.legal (h : r.Allows target) : LegalChange r (r.moved target) ∧ (r.moved target).Bound :=
  ⟨⟨h.1, fun _ => ⟨rfl, rfl⟩⟩, h.2⟩

theorem revisedState_notMem {state : ContentState} (h : state ∉ SETTLED_STATES) :
    revisedState state ∉ APPROVAL_BOUND_CONTENT_STATES := by
  revert h
  cases state <;> decide

theorem fst_claim_job (s : OpsState) (job_id : String) (mark : JobMark) (moved : Option (ContentItem × ContentState)) :
    (s.claim_job job_id mark moved).1 = (s._set_job job_id mark).1 := by
  unfold OpsState.claim_job
  split
  · rename_i hclaim
    exact (congrArg Prod.fst hclaim).symm
  · rename_i hclaim _
    exact (congrArg Prod.fst hclaim).symm

end

/-- **What a call makes of an item is legal**, if it is checked. -/
theorem legal_of_edits {x : c.Resp × OpsState} (hexec : opsExec c o s = .ok x) (hc : Proper c) (hb : Bound s)
    (hchecks : Checks o s c) {r' : ItemRow} (hr : r ∈ s.items) (h : Edits s c r r') :
    LegalChange r r' ∧ r'.Bound := by
  have hfind := Table.find?_key hr
  cases h with
  | keeps => exact ⟨⟨.inl rfl, fun _ => ⟨rfl, rfl⟩⟩, hb r hr⟩
  | transitions hstate hversion =>
    obtain ⟨-, hedge, hbound⟩ := hc
    refine ⟨⟨.inr (hstate ▸ hedge), fun _ => ⟨rfl, rfl⟩⟩, fun htarget => ?_⟩
    show _ = some r.item.version
    rw [hversion]
    exact hbound htarget
  | revises hversion =>
    obtain ⟨hsettled, rfl⟩ := hc
    obtain ⟨hpublishing, hpublished, honward⟩ := hchecks x hexec r hfind hversion
    refine ⟨⟨honward, fun h => ?_⟩, fun htarget => absurd htarget (revisedState_notMem hsettled)⟩
    exact (h.elim hpublishing hpublished).elim
  | schedules hstate hversion =>
    obtain ⟨⟨hedge, -⟩, -⟩ := hc
    rw [← hstate] at hedge
    refine ⟨⟨.inr hedge, fun _ => ⟨rfl, rfl⟩⟩, fun _ => ?_⟩
    -- an item that can be scheduled is in a state that needs an approval already
    refine hb r hr ?_
    revert hedge
    cases r.item.state <;> decide
  | @claims job_id mark item target r hclaimed hid hversion =>
    have hrun := run_of_exec hexec
    obtain rfl : s.claim_job job_id mark (some (item, target)) = x := Except.ok.inj hrun
    have hanswer := (fst_claim_job s job_id mark (some (item, target))).trans hclaimed
    exact (hchecks _ hexec hanswer r (hid ▸ hfind) hversion).legal
  | moves hid hversion => exact (hchecks x hexec r (hid ▸ hfind) hversion).legal
  | publishes hid hversion hcurrent => exact ((hchecks x hexec).1 hcurrent r (hid ▸ hfind) hversion).legal
  | verifies hid hcurrent =>
    rcases hcurrent with ⟨-, hstate⟩ | ⟨hcurrent, hversion⟩
    · refine ItemRow.Allows.legal ⟨.inr ?_, fun h => ?_⟩
      · rw [hstate]
        decide
      · exact absurd h (by decide : ContentState.VERIFIED ∉ APPROVAL_BOUND_CONTENT_STATES)
    · exact ((hchecks x hexec).2 hcurrent r (hid ▸ hfind) hversion).legal

omit [Sha256] [IsoTime] in
theorem allows_of_legal (hlegal : Legal s s') (hbound : Bound s') (hr : r ∈ s.items)
    (hr' : s'.items.find? r.content_item_id = some (r.moved target)) : r.Allows target :=
  ⟨(hlegal r hr _ (Table.mem_of_find? hr') rfl).edge, hbound _ (Table.mem_of_find? hr')⟩

variable {item : ContentItem}

section
omit [Sha256] [IsoTime]

theorem find?_moved (hr : r ∈ s.items.find? item.content_item_id) (hversion : r.item.version = item.version) :
    (s._move_item item target).items.find? r.content_item_id = some (r.moved target) := by
  have hid := Table.key_of_find? hr
  rw [OpsState.find?_move_item, Table.find?_key (Table.mem_of_find? hr), Option.map_some, moveRow_of_eq hid hversion]

theorem mayMove_of_legal {t : OpsState} (hlegal : Legal s s') (hbound : Bound s') (hitems : t.items = s.items)
    (hmoved : s'.items = (t._move_item item target).items) : MayMove s item target := by
  intro r hr hversion
  refine allows_of_legal hlegal hbound (Table.mem_of_find? hr) ?_
  rw [hmoved]
  exact find?_moved (hitems ▸ hr) hversion

theorem allows_published (h : r.item.state = .PUBLISHED) : r.Allows .PUBLISHED :=
  ⟨.inl h.symm, fun hbound => absurd hbound (by decide : ContentState.PUBLISHED ∉ APPROVAL_BOUND_CONTENT_STATES)⟩

theorem finish_of_legal {current : ContentItem} (hlegal : Legal s (s.finish_item current))
    (hbound : Bound (s.finish_item current)) : (current.state = .PUBLISHING → MayMove s current .PUBLISHED) ∧
      (current.state = .PUBLISHED → MayMove s current .VERIFIED) := by
  constructor
  · intro hcurrent r hr hversion
    by_cases hpublished : r.item.state = .PUBLISHED
    · exact allows_published hpublished
    · refine allows_of_legal hlegal hbound (Table.mem_of_find? hr) ?_
      have hget : s.get_content_item current.content_item_id = some r.item := by
        show (s.items.find? current.content_item_id).map ItemRow.item = _
        rw [hr]
        rfl
      unfold OpsState.finish_item
      rw [if_pos hcurrent, hget]
      dsimp only
      rw [if_neg hpublished]
      exact find?_moved hr hversion
  · intro hcurrent
    refine mayMove_of_legal (t := s) hlegal hbound rfl ?_
    unfold OpsState.finish_item
    rw [if_neg (by rw [hcurrent]; decide), if_pos hcurrent]

theorem claim_job_of_claimed {job_id : String} {mark : JobMark} (h : (s._set_job job_id mark).1 = true) :
    s.claim_job job_id mark (some (item, target)) =
      (true, (s._set_job job_id mark).2._move_item item target) := by
  unfold OpsState.claim_job
  rw [show s._set_job job_id mark = (true, (s._set_job job_id mark).2) from Prod.ext h rfl]

end

variable {item_id : String}

theorem find?_revised {body : ContentBody} {new_state : ContentState} {x : Unit × OpsState}
    (hexec : opsExec (.revise_item item_id item body new_state) o s = .ok x) (hr : r ∈ s.items.find? item_id) :
    x.2.items.find? r.content_item_id = some (r.revised (item.version + 1) body new_state) := by
  have hrun := run_of_exec hexec
  have hid := Table.key_of_find? hr
  simp only [OpsCall.run, OpsState.revise_item] at hrun
  split at hrun
  · cases hrun
    show (s.updateItem item_id (·.revised (item.version + 1) body new_state) fun _ => rfl).items.find? _ = _
    refine OpsState.find?_updateItem.trans ?_
    rw [Table.find?_key (Table.mem_of_find? hr), Option.map_some, if_pos hid]
  · cases hrun

theorem checks_of_legal (hlegal : Legal s (opsExec.after c o s)) (hbound : Bound (opsExec.after c o s)) : Checks o s c := by
  cases c with
  | move_item item target =>
    intro x hexec
    rw [Exec.after_of_ok hexec] at hlegal hbound
    cases run_of_exec hexec
    exact mayMove_of_legal hlegal hbound rfl rfl
  | claim_job job_id mark moved =>
    cases moved with
    | none => trivial
    | some moved =>
      obtain ⟨item, target⟩ := moved
      intro x hexec hclaimed
      rw [Exec.after_of_ok hexec] at hlegal hbound
      obtain rfl : s.claim_job job_id mark (some (item, target)) = x := Except.ok.inj (run_of_exec hexec)
      rw [fst_claim_job] at hclaimed
      rw [claim_job_of_claimed hclaimed] at hlegal hbound
      exact mayMove_of_legal (t := (s._set_job job_id mark).2) hlegal hbound rfl rfl
  | finish_item current =>
    intro x hexec
    rw [Exec.after_of_ok hexec] at hlegal hbound
    cases run_of_exec hexec
    exact finish_of_legal hlegal hbound
  | revise_item item_id item body new_state =>
    intro x hexec r hr hversion
    rw [Exec.after_of_ok hexec] at hlegal hbound
    have hedited := find?_revised hexec hr
    have hchange := hlegal r (Table.mem_of_find? hr) _ (Table.mem_of_find? hedited) rfl
    have hsettled : ¬ (r.item.state = .PUBLISHING ∨ r.item.state = .PUBLISHED) := by
      intro h
      have hsame : item.version + 1 = r.item.version := (hchange.settled h).1
      omega
    exact ⟨fun h => hsettled (.inl h), fun h => hsettled (.inr h), hchange.edge⟩
  | _ => trivial

/-- **One call keeps the lifecycle** exactly if it is checked. -/
theorem legal_iff_checks (hc : Proper c) (hb : Bound s) :
    Checks o s c ↔ Legal s (opsExec.after c o s) ∧ Bound (opsExec.after c o s) := by
  constructor
  · intro hchecks
    cases hexec : opsExec c o s with
    | error e =>
      rw [Exec.after_of_error hexec]
      exact ⟨Legal.refl s, hb⟩
    | ok x =>
      constructor
      · intro r hr r' hr' hid
        rcases item_before hr' with ⟨r₀, hr₀, hid₀, hedits⟩ | ⟨-, hnew⟩
        · obtain rfl : r₀ = r := Table.eq_of_key hr₀ hr (hid₀.symm.trans hid)
          exact (legal_of_edits hexec hc hb hchecks hr hedits).1
        · rw [hid, Table.find?_key hr] at hnew
          cases hnew
      · intro r' hr'
        rcases item_before hr' with ⟨r, hr, -, hedits⟩ | ⟨rfl, -⟩
        · exact (legal_of_edits hexec hc hb hchecks hr hedits).2
        · -- a new item is planned
          intro hbound
          rw [hc.2.1] at hbound
          exact absurd hbound (by decide)
  · rintro ⟨hlegal, hbound⟩
    exact checks_of_legal hlegal hbound

/-! ## Versions and approvals -/

/-- Items stay, with their versions going up, and with the body they have as long as they have the version. -/
def BodiesKept (s s' : OpsState) : Prop := ∀ r ∈ s.items, ∃ r' ∈ s'.items, r'.content_item_id = r.content_item_id ∧
  r.item.version ≤ r'.item.version ∧ (r'.item.version = r.item.version → r'.body = r.body)

omit [Sha256] [IsoTime] in
theorem BodiesKept.refl (s : OpsState) : BodiesKept s s := fun r hr => ⟨r, hr, rfl, le_refl _, fun _ => rfl⟩

omit [Sha256] [IsoTime] in
theorem BodiesKept.trans {s₁ s₂ s₃ : OpsState} (h : BodiesKept s₁ s₂) (h' : BodiesKept s₂ s₃) : BodiesKept s₁ s₃ := by
  intro r₁ hr₁
  obtain ⟨r₂, hr₂, hid₂, hle₂, hbody₂⟩ := h r₁ hr₁
  obtain ⟨r₃, hr₃, hid₃, hle₃, hbody₃⟩ := h' r₂ hr₂
  refine ⟨r₃, hr₃, hid₃.trans hid₂, le_trans hle₂ hle₃, fun hsame => ?_⟩
  have hmiddle : r₂.item.version = r₁.item.version := by omega
  exact (hbody₃ (by omega)).trans (hbody₂ hmiddle)

theorem bodiesKept_after (c : OpsCall) (o : OpsOutcome) (s : OpsState) : BodiesKept s (opsExec.after c o s) := by
  intro r hr
  obtain ⟨r', hr', hid, hedits⟩ := item_after (c := c) (o := o) hr
  refine ⟨r', hr', hid, ?_⟩
  cases hedits with
  | @revises item body new_state r hversion =>
    have hlater : (r.revised (item.version + 1) body new_state).item.version = r.item.version + 1 :=
      congrArg (· + 1) hversion.symm
    refine ⟨by omega, fun h => absurd h (by omega)⟩
  | _ => exact ⟨le_refl _, fun _ => rfl⟩

/-- An approval has a reference. -/
def ContentItem.Referenced (item : ContentItem) : Prop := item.approved_version.isSome → (given item.approval_ref).isSome

/-- The worker has read the item. -/
def Read (item_id : String) (item : Option ContentItem) (past : List (Program.Exchange OpsCalls)) : Prop :=
  ⟨OpsCall.get_content_item item_id, .ok item⟩ ∈ past

/-- Before a worker requests a move of an item it has read the item, whose approval the move keeps, renews or drops. -/
def ReadBefore (past : List (Program.Exchange OpsCalls)) : OpsCall → Prop
  | .transition_item item_id item _ approved_version approval_ref =>
    Read item_id (some item) past ∧ ∃ r : TransitionRequest, (approved_version, approval_ref) = r.approval item
  | _ => True

variable {past : List (Program.Exchange OpsCalls)}

section
omit [Sha256] [IsoTime]

theorem obeys_call {c : OpsCall} {Q : c.Resp → List (Program.Exchange OpsCalls) → Prop} (hc : ReadBefore past c)
    (h : ∀ a, Q a (past ++ [⟨c, .ok a⟩])) : (perform c).Obeys ReadBefore Q past :=
  Program.obeys_perform hc h

theorem obeys_scoped_item {project_id : String} :
    (_scoped_item item_id project_id).Obeys ReadBefore (fun item past => Read item_id (some item) past) past := by
  refine Program.Obeys.bind (Q := Read item_id) ?_ fun item past hread => ?_
  · apply obeys_call (c := .get_content_item item_id)
    · trivial
    · exact fun _ => List.mem_append_right _ (List.mem_singleton.mpr rfl)
  · cases item with
    | none => trivial
    | some item =>
      dsimp only
      split
      · trivial
      · exact hread

theorem obeys_transition (r : TransitionRequest) :
    (transition_content_item r).Obeys ReadBefore (fun _ _ => True) [] := by
  refine obeys_scoped_item.bind fun item past hread => ?_
  split
  · trivial
  · refine Program.Obeys.bind (Q := fun _ => Read r.item_id (some item)) ?_ fun body past hread => ?_
    · apply obeys_call (c := .item_body r.item_id)
      · trivial
      · exact fun _ => List.mem_append_left _ hread
    refine Program.Obeys.bind (Q := fun _ => Read r.item_id (some item)) ?_ fun _ past hread => ?_
    · unfold assertTransition
      split
      · trivial
      · exact hread
    refine Program.Obeys.bind (Q := fun _ _ => True) ?_ fun _ _ _ => ?_
    · apply obeys_call (c := .transition_item r.item_id item r.target _ _)
      · exact ⟨hread, r, rfl⟩
      · exact fun _ => trivial
    · apply obeys_call (c := .get_content_item r.item_id)
      · trivial
      · exact fun _ => trivial

end

variable [Json] {hash_payload : List (String × Agency.ArtifactStatus) → String} {fuel : ℕ}

theorem obeys_program (op : Operation) :
    (op.program hash_payload fuel).Obeys ReadBefore (fun _ _ => True) [] := by
  by_cases h : ∀ r, op ≠ .transition r
  · have honly : (op.program hash_payload fuel).Only (ProperIf False True) :=
      only_program hash_payload fuel op (fun r hr => absurd hr (h r)) fun _ _ => trivial
    refine (honly.obeys fun past c hc => ?_).mono fun _ _ _ => trivial
    cases c with
    | transition_item => exact hc.1.elim
    | _ => trivial
  · push Not at h
    obtain ⟨r, rfl⟩ := h
    exact (obeys_transition r).void

/-- What the operations do. -/
def Follows (m : OpsStage) : Action OpsCalls OpsState OpsOutcome → Prop
  | .call i c _ => Proper c ∧ ReadBefore (m.own i) c
  | _ => True

/-- Every approval has a reference, and so had every one that was read. -/
structure Referenced (m : OpsStage) : Prop where
  items : ∀ r ∈ m.world.items, r.item.Referenced
  reads : ∀ i item_id item, (⟨i, .get_content_item item_id, .ok (some item)⟩ : Event OpsCalls) ∈ m.history → item.Referenced

omit [Sha256] [IsoTime] [Json] in
theorem referenced_approval {r : TransitionRequest} (h : item.Referenced) :
    (r.approval item).1.isSome → (given (r.approval item).2).isSome := by
  unfold TransitionRequest.approval
  split
  · intro _
    simp [given, toString, String.append_eq_empty_iff]
  · split
    · simp
    · exact h

variable {m : OpsStage}

omit [Json] in
theorem referenced_call {i : ℕ} (h : Referenced m) (hc : Proper c) (hread : ReadBefore (m.own i) c) :
    Referenced (m.perform opsExec i c o) := by
  constructor
  · intro r' hr'
    rcases item_before hr' with ⟨r, hr, -, hedits⟩ | ⟨rfl, -⟩
    · have hbefore := h.items r hr
      cases hedits with
      | @transitions item target approved_version approval_ref r =>
        obtain ⟨hmem, request, happroval⟩ := hread
        have hitem := h.reads i _ item (Stage.mem_own.mp hmem)
        have hleft := referenced_approval (r := request) hitem
        rw [← happroval] at hleft
        exact hleft
      | _ => exact hbefore
    · intro happroved
      rw [hc.2.2] at happroved
      cases happroved
  · intro j item_id item hmem
    rcases List.mem_append.mp hmem with hmem | hmem
    · exact h.reads j item_id item hmem
    · have hevent := List.mem_singleton.mp hmem
      injection hevent with hworker hcall hanswer
      subst hworker
      subst hcall
      -- what has just been read is a row
      have hrun := run_of_exec (Exec.of_answer (eq_of_heq hanswer).symm)
      have hget : m.world.get_content_item item_id = some item := congrArg Prod.fst (Except.ok.inj hrun)
      obtain ⟨r, hr, rfl⟩ := Option.map_eq_some_iff.mp hget
      exact h.items r (Table.mem_of_find? hr)

/-! ## Runs -/

variable {w : OpsState} {steps : List (OpsStage × Action OpsCalls OpsState OpsOutcome)} {p : Pool OpsCalls OpsState}

theorem follows_of_run (run : Run (operations hash_payload fuel) w steps p) : Meets Follows steps := by
  intro x hx
  obtain ⟨m, a⟩ := x
  cases a with
  | call i c o =>
    refine ⟨proper_of_run run _ hx, run.obeys (fun q hq => ?_) hx⟩
    obtain ⟨op, rfl⟩ := hq
    exact obeys_program op
  | _ => trivial

/-- **An approval has a reference**, in every run. -/
theorem referenced_of_run (hw : ∀ r ∈ w.items, r.item.Referenced)
    (run : Run (operations hash_payload fuel) w steps p) (hm : m ∈ visited steps p) : Referenced m := by
  refine run.steps_of_meets (P := Referenced) (C := Follows) ⟨hw, fun _ _ _ hmem => nomatch hmem⟩ ?_ ?_
    (follows_of_run run) hm
  · intro m i c o h hc
    exact referenced_call h hc.1 hc.2
  · intro m w' h henv
    refine ⟨?_, h.reads⟩
    rw [show w'.items = m.world.items from henv.items]
    exact h.items

/-- **A version keeps its body**, in every run. -/
theorem bodies_kept (run : Run (operations hash_payload fuel) w steps p) :
    (visited steps p).Pairwise fun m m' => BodiesKept m.world m'.world := by
  refine run.pairwise (C := fun _ _ => True) (fun run _ m hm => ?_) fun _ _ => trivial
  refine run.later (R := fun m m' => BodiesKept m.world m'.world) (fun _ => .refl _) (fun _ _ _ => .trans) ?_ ?_ hm
  · exact fun m i c o => bodiesKept_after c o m.world
  · intro m w' henv
    unfold BodiesKept
    rw [show w'.items = m.world.items from henv.items]
    exact BodiesKept.refl m.world

/-- A step changes items as the lifecycle lets it. -/
def LegalStep (m : OpsStage) : Action OpsCalls OpsState OpsOutcome → Prop
  | .call _ c o => Legal m.world (opsExec.after c o m.world)
  | _ => True

/-- A write by the version only, if it goes through, finds an item that allows it. -/
def Checked (m : OpsStage) : Action OpsCalls OpsState OpsOutcome → Prop
  | .call _ c o => Checks o m.world c
  | _ => True

/-- The item's approval is of the version it has. -/
structure ContentItem.Approved (item : ContentItem) : Prop where
  approved_version : item.approved_version = some item.version
  approval_ref : (given item.approval_ref).isSome

/-- **The lifecycle in a run.** -/
structure Lifecycle (steps : List (OpsStage × Action OpsCalls OpsState OpsOutcome)) (p : Pool OpsCalls OpsState) :
    Prop where
  edges : Meets LegalStep steps
  approvals : ∀ m ∈ visited steps p, ∀ r ∈ m.world.items, r.item.state ∈ APPROVAL_BOUND_CONTENT_STATES → r.item.Approved
  bodies : (visited steps p).Pairwise fun m m' => BodiesKept m.world m'.world

/-- **The lifecycle is kept**, in every run of the operations, if and only if each write by the version only that goes
    through finds an item that allows it. -/
theorem lifecycle_iff
    (hw : ∀ r ∈ w.items, r.item.Referenced ∧ (r.item.state ∈ APPROVAL_BOUND_CONTENT_STATES → r.item.Approved))
    (run : Run (operations hash_payload fuel) w steps p) : Lifecycle steps p ↔ Meets Checked steps := by
  have hreferenced : ∀ m ∈ visited steps p, Referenced m := fun m =>
    referenced_of_run (fun r hr => (hw r hr).1) run
  have hiff : (Meets LegalStep steps ∧ ∀ m ∈ visited steps p, Bound m.world) ↔ Meets Checked steps := by
    refine run.legal_iff (P := fun m => Bound m.world) (fun r hr hbound => ((hw r hr).2 hbound).approved_version)
      (fun _ _ => ⟨trivial, trivial⟩) ?_ ?_ (proper_of_run run)
    · exact fun m i c o hc hb => legal_iff_checks hc hb
    · intro m w' hb henv
      refine ⟨trivial, trivial, ?_⟩
      show Bound w'
      unfold Bound
      rw [show w'.items = m.world.items from henv.items]
      exact hb
  rw [← hiff]
  constructor
  · intro h
    exact ⟨h.edges, fun m hm r hr hbound => (h.approvals m hm r hr hbound).approved_version⟩
  · rintro ⟨hedges, hbound⟩
    refine ⟨hedges, fun m hm r hr hstate => ?_, bodies_kept run⟩
    have happroved := hbound m hm r hr hstate
    exact ⟨happroved, (hreferenced m hm).items r hr (by rw [happroved]; rfl)⟩

end

/-! ## An edit while an item is published -/

attribute [local instance] Canonical.mixHash morningTime plainJson

/-- A job that has been claimed, and its item, which is due. -/
def claimedJob : ScheduledJob where
  job_id := "job-1"
  tenant_id := "t"
  project_id := "p"
  slot_id := none
  content_item_id := some "cnt-1"
  job_kind := .PUBLISH
  due_at := hourText 9
  status := .ENQUEUED
  idempotency_key := publishKey "cnt-1" 1 (hourText 9)
  outbox_message_id := some "outbox-job-1"
  block_reasons := []
  payload := { version := some 1, channel := some "web" }
  attempts := 1

def dueItem : ItemRow := ⟨{ readyItem with state := .DUE }, {}⟩

def itemDue : OpsState := { stocked [dueItem] [] with jobs := ⟨Table.empty.put claimedJob, by decide +kernel⟩ }

def edit : ReviseRequest where
  project_id := "p"
  item_id := "cnt-1"
  actor := "u"
  expected_version := 1
  body_patch := Table.empty.put ("text", .str "better")

/-- The item is read to be edited, goes to be published, and is edited. -/
def editedMeanwhile : List (Operation ⊕ ℕ × OpsOutcome) :=
  .inl (.revise edit) :: turns 0 2 ++ .inl (.publish "job-1") :: turns 1 11 ++ turns 0 1

theorem lawful_itemDue : ∀ r ∈ itemDue.items, r.item.Referenced ∧
    (r.item.state ∈ APPROVAL_BOUND_CONTENT_STATES → r.item.Approved) := by
  intro r hr
  obtain rfl : r = dueItem := List.mem_singleton.mp hr
  exact ⟨fun _ => rfl, fun _ => ⟨rfl, rfl⟩⟩

/-- In the step no item that is being published, or has been, gets another version. -/
def settledStay (m : OpsStage) : Action OpsCalls OpsState OpsOutcome → Bool
  | .call _ c o => m.world.items.rows.all fun r => (opsExec.after c o m.world).items.rows.all fun r' =>
    r'.content_item_id = r.content_item_id → r.item.state = .PUBLISHING ∨ r.item.state = .PUBLISHED →
      r'.item.version = r.item.version
  | _ => true

theorem settledStay_of_legalStep {m : OpsStage} {a : Action OpsCalls OpsState OpsOutcome} (h : LegalStep m a) :
    settledStay m a = true := by
  cases a with
  | call i c o =>
    refine List.all_eq_true.mpr fun r hr => List.all_eq_true.mpr fun r' hr' => decide_eq_true ?_
    exact fun hid hsettled => ((h r hr r' hr' hid).settled hsettled).1
  | _ => rfl

/-- **An item is edited while it is being published.** -/
theorem edited_while_publishing : ∃ w steps p,
    (∀ r ∈ w.items, r.item.Referenced ∧ (r.item.state ∈ APPROVAL_BOUND_CONTENT_STATES → r.item.Approved)) ∧
      Run (operations (fun _ => "h") 9) w steps p ∧ ¬ Lifecycle steps p := by
  refine ⟨itemDue, _, _, lawful_itemDue, run_plays itemDue editedMeanwhile, fun h => ?_⟩
  have hfails : (plays itemDue editedMeanwhile).1.all (fun x => settledStay x.1 x.2) = false := by decide +kernel
  have hstay := List.all_eq_true.mpr fun x hx => settledStay_of_legalStep (h.edges x hx)
  exact Bool.noConfusion (hfails.symm.trans hstay)

/-- A publication that nothing interferes with. -/
theorem lifecycle_iff_publishing : Lifecycle (plays itemDue (.inl (.publish "job-1") :: turns 0 11)).1
    (plays itemDue (.inl (.publish "job-1") :: turns 0 11)).2 ↔
      Meets Checked (plays itemDue (.inl (.publish "job-1") :: turns 0 11)).1 :=
  lifecycle_iff lawful_itemDue (run_plays itemDue _)

end Content
