import MissionControl.Memory.Changes
import MissionControl.Transition.Run

/-! # What the memory ledger guarantees

Over any order of the transactions of its operations. -/

namespace Memory

open Canonical Transition

/-- What every reachable state keeps. -/
structure Kept (s : Ledger) : Prop where
  ids : Ids s.records
  one : OneActive s.records
  placed : ∀ r ∈ s.records, validate_placement r.scope r.authority r.project_id r.thread_id = .ok ()
  known : ∀ r ∈ s.records, ∀ p, r.project_id = some p → p ∈ s.projects
  /-- The record of a promotion is in the table, with another status at most. -/
  source : ∀ p ∈ s.promotions, ∃ r ∈ s.records, r = { p.record with status := r.status }
  promotable : ∀ p ∈ s.promotions,
    can_promote p.record.scope p.record.authority p.to_authority = .ok ()
  /-- What was promoted is not active any more. -/
  written : ∀ p ∈ s.promotions, p.stage = .written → ∀ r ∈ s.records,
    r.memory_id = p.record.memory_id → r.status ≠ .ACTIVE

variable {s s' : Ledger} {e : Event} {p : Promotion} {w : Write} {fresh : Fresh}

/-! ## Writes -/

/-- **The write of a promotion is not refused.** -/
theorem Kept.promotion_checked (h : Kept s) (hp : p ∈ s.promotions) :
    checkWrite s.projects p.write = .ok () := by
  obtain ⟨r, hr, heq⟩ := h.source p hp
  obtain ⟨hto, -⟩ := can_promote_ok (h.promotable p hp)
  have hplaced := h.placed r hr
  rw [heq] at hplaced
  refine checkWrite_ok (validate_placement_promoted hplaced hto) ?_ (by simp [Promotion.write])
  intro q hq
  apply h.known r hr q
  rw [heq]
  exact hq

/-! ## One operation -/

/-- The invariant after an operation that keeps the records, and adds only what was
    checked. -/
theorem Kept.of_carries (h : Kept s) (hids : Ids s'.records) (hone : OneActive s'.records)
    (hcarries : Carries s.records s'.records) (hprojects : s.projects ⊆ s'.projects)
    (horigin : ∀ r ∈ s'.records, (∃ x ∈ s.records, r = { x with status := r.status }) ∨
      (validate_placement r.scope r.authority r.project_id r.thread_id = .ok () ∧
        ∀ q, r.project_id = some q → q ∈ s'.projects))
    (hpromotions : ∀ p' ∈ s'.promotions, ∃ p ∈ s.promotions, p'.record = p.record ∧
      p'.to_authority = p.to_authority ∧ (p'.stage = .written → p.stage = .written ∨
        ∀ r ∈ s'.records, r.memory_id = p.record.memory_id → r.status ≠ .ACTIVE)) : Kept s' := by
  constructor
  · exact hids
  · exact hone
  · intro r hr
    rcases horigin r hr with ⟨x, hx, heq⟩ | ⟨hplaced, -⟩
    · have hplaced := h.placed x hx
      rw [heq]
      exact hplaced
    · exact hplaced
  · intro r hr q hq
    rcases horigin r hr with ⟨x, hx, heq⟩ | ⟨-, hknown⟩
    · rw [heq] at hq
      exact hprojects (h.known x hx q hq)
    · exact hknown q hq
  · intro p' hp'
    obtain ⟨p, hp, hrecord, -, -⟩ := hpromotions p' hp'
    obtain ⟨x, hx, hxp⟩ := h.source p hp
    obtain ⟨y, hy, hyx, -, -⟩ := hcarries x hx
    refine ⟨y, hy, ?_⟩
    rw [hrecord]
    rw [hxp] at hyx
    exact hyx
  · intro p' hp'
    obtain ⟨p, hp, hrecord, hto, -⟩ := hpromotions p' hp'
    rw [hrecord, hto]
    exact h.promotable p hp
  · intro p' hp' hstage r hr hid
    obtain ⟨p, hp, hrecord, -, hwritten⟩ := hpromotions p' hp'
    rw [hrecord] at hid
    rcases hwritten hstage with hbefore | hafter
    · -- the record was not active before, and is the same record still
      obtain ⟨x, hx, hxp⟩ := h.source p hp
      obtain ⟨y, hy, hyx, -, hactive⟩ := hcarries x hx
      have hxid : x.memory_id = p.record.memory_id := by rw [hxp]
      have hyid : y.memory_id = x.memory_id := by rw [hyx]
      rw [hids.eq hr hy (hid.trans (hyid.trans hxid).symm)]
      exact hactive (h.written p hp hbefore x hx hxid)
    · exact hafter r hr hid

theorem Kept.retired {f : MemoryRecord → MemoryRecord} (h : Kept s) (hf : Retires f)
    (hrecords : s'.records = s.records.map f) (hprojects : s'.projects = s.projects)
    (hpromotions : ∀ p' ∈ s'.promotions, ∃ p ∈ s.promotions, p'.record = p.record ∧
      p'.to_authority = p.to_authority ∧ (p'.stage = .written → p.stage = .written)) : Kept s' := by
  apply h.of_carries
  · rw [hrecords]
    exact hf.ids h.ids
  · rw [hrecords]
    exact hf.oneActive h.one
  · rw [hrecords]
    exact hf.carries _
  · rw [hprojects]
    exact fun _ hq => hq
  · intro r hr
    rw [hrecords] at hr
    obtain ⟨x, hx, rfl⟩ := List.mem_map.mp hr
    refine .inl ⟨x, hx, ?_⟩
    rcases hf x with heq | ⟨_, _, heq⟩ <;> rw [heq]
  · intro p' hp'
    obtain ⟨p, hp, hrecord, hto, hstage⟩ := hpromotions p' hp'
    exact ⟨p, hp, hrecord, hto, fun hw => .inl (hstage hw)⟩

theorem promotions_same (hpromotions : s'.promotions = s.promotions) :
    ∀ p' ∈ s'.promotions, ∃ p ∈ s.promotions, p'.record = p.record ∧
      p'.to_authority = p.to_authority ∧ (p'.stage = .written → p.stage = .written) := by
  intro p' hp'
  rw [hpromotions] at hp'
  exact ⟨p', hp', rfl, rfl, id⟩

theorem promotions_set {i : Nat} {stage : Stage} (hp : s.promotions[i]? = some p)
    (hpromotions : s'.promotions = s.promotions.set i { p with stage := stage }) :
    ∀ p' ∈ s'.promotions, ∃ q ∈ s.promotions, p'.record = q.record ∧
      p'.to_authority = q.to_authority ∧ (p'.stage = .written → q.stage = .written ∨
        q = p ∧ stage = .written) := by
  intro p' hp'
  rw [hpromotions] at hp'
  rcases List.mem_or_eq_of_mem_set hp' with hold | rfl
  · exact ⟨p', hold, rfl, rfl, .inl⟩
  · exact ⟨p, List.mem_of_getElem? hp, rfl, rfl, fun hstage => .inr ⟨rfl, hstage⟩⟩

theorem step_read (h : Kept s) {memory_id actor : String} {to_authority : MemoryAuthority}
    {project_id : Option String}
    (hp : beginPromotion s.records memory_id to_authority actor project_id = .ok p) :
    Kept { s with promotions := s.promotions ++ [p] } := by
  unfold beginPromotion at hp
  split at hp
  · cases hp
  · rename_i record hfound
    split at hp
    · cases hp
    · cases hpromote : can_promote record.scope record.authority to_authority with
      | error error =>
        rw [hpromote] at hp
        cases hp
      | ok u =>
        rw [hpromote] at hp
        cases hp
        have hcases : ∀ q ∈ s.promotions ++ [⟨record, to_authority, actor, .read⟩],
            q ∈ s.promotions ∨ q = ⟨record, to_authority, actor, .read⟩ := by
          intro q hq
          rw [List.mem_append, List.mem_singleton] at hq
          exact hq
        refine ⟨h.ids, h.one, h.placed, h.known, fun q hq => ?_, fun q hq => ?_, fun q hq hstage => ?_⟩
        · rcases hcases q hq with hq | rfl
          · exact h.source q hq
          · exact ⟨record, List.mem_of_find?_eq_some hfound, rfl⟩
        · rcases hcases q hq with hq | rfl
          · exact h.promotable q hq
          · exact hpromote
        · rcases hcases q hq with hq | rfl
          · exact h.written q hq hstage
          · cases hstage

theorem retires_settle (p : Promotion) : Retires fun r =>
    if r.memory_id = p.record.memory_id ∧ r.status ≠ .SUPERSEDED then
      { r with status := .SUPERSEDED } else r := by
  intro r
  dsimp only
  split
  · exact .inr ⟨_, .inr rfl, rfl⟩
  · exact .inl rfl

section

variable [JsonHash]

/-- What each operation keeps. -/
structure Entry.Ok (e : Entry) : Prop where
  ids : Ids e.before
  before : OneActive e.before
  after : OneActive e.after
  carries : Carries e.before e.after
  ranked : ∀ a ∈ e.before, a.status = .ACTIVE → a ∈ e.after ∨ e.act = .invalidate a.memory_id ∨
    ∃ b ∈ e.after, b.status = .ACTIVE ∧ b.subject = a.subject ∧
      authority_rank a.authority ≤ authority_rank b.authority
  promoted : ∀ p, e.act = .promote p → ∃ fresh : Fresh,
    (∀ x ∈ e.before, x.memory_id ≠ fresh.memory_id) ∧ WriteChange e.before p.write fresh e.after

/-- An operation left a state: nothing happened to the records, or one entry was logged. -/
def Moves (s s' : Ledger) : Prop :=
  (s'.log = s.log ∧ s'.records = s.records) ∨
    ∃ act, s'.log = s.log ++ [⟨act, s.records, s'.records⟩] ∧ Entry.Ok ⟨act, s.records, s'.records⟩

theorem Kept.promotion_yields (h : Kept s) (hp : p ∈ s.promotions) {r : MemoryRecord}
    (hr : r.authority = p.record.authority) : ¬ r.Withstands p.write.authority p.write.content_hash := by
  obtain ⟨-, hrank⟩ := can_promote_ok (h.promotable p hp)
  rintro (hlower | ⟨-, hsame⟩)
  · rw [hr] at hlower
    exact absurd hlower (Nat.lt_asymm hrank)
  · rw [← hr, hsame] at hrank
    exact absurd hrank (Nat.lt_irrefl _)

theorem Kept.wrote (h : Kept s) (hnew : s.unused fresh) (hw : checkWrite s.projects w = .ok ())
    (hrecords : s'.records = (applyWrite s.records w fresh).2) (hprojects : s'.projects = s.projects)
    (hpromotions : ∀ p' ∈ s'.promotions, ∃ p ∈ s.promotions, p'.record = p.record ∧
      p'.to_authority = p.to_authority ∧ (p'.stage = .written → p.stage = .written ∨
        ∀ r ∈ s'.records, r.memory_id = p.record.memory_id → r.status ≠ .ACTIVE)) :
    Kept s' ∧ WriteChange s.records w fresh s'.records := by
  have hchange := applyWrite_change h.ids h.one w fresh
  rw [← hrecords] at hchange
  obtain ⟨hplaced, hknown⟩ := of_checkWrite hw
  refine ⟨h.of_carries (hchange.ids h.ids hnew) (hchange.oneActive h.one) hchange.carries ?_ ?_
    hpromotions, hchange⟩
  · rw [hprojects]
    exact fun _ hq => hq
  · intro r hr
    rcases hchange.origin hr with hold | ⟨status, supersedes, rfl⟩
    · exact .inl hold
    · rw [hprojects]
      exact .inr ⟨hplaced, hknown⟩

variable {act : Act}

variable {before : List MemoryRecord}

theorem WriteChange.entry_ok {after : List MemoryRecord} (hids : Ids before) (hone : OneActive before)
    (h : WriteChange before w fresh after)
    (hpromote : ∀ p, act = .promote p → p.write = w ∧ ∀ x ∈ before, x.memory_id ≠ fresh.memory_id) :
    Entry.Ok ⟨act, before, after⟩ := by
  refine ⟨hids, hone, h.oneActive hone, h.carries, ?_, ?_⟩
  · intro a ha _
    exact (h.ranked hids ha).imp_right .inr
  · intro p hp
    obtain ⟨rfl, hnew⟩ := hpromote p hp
    exact ⟨fresh, hnew, h⟩

theorem Retires.entry_ok {f : MemoryRecord → MemoryRecord} (h : Retires f) (hids : Ids before)
    (hone : OneActive before)
    (hactive : ∀ a ∈ before, a.status = .ACTIVE → f a = a ∨ act = .invalidate a.memory_id)
    (hact : ∀ p, act ≠ .promote p) : Entry.Ok ⟨act, before, before.map f⟩ := by
  refine ⟨hids, hone, h.oneActive hone, h.carries before, ?_, fun p hp => absurd hp (hact p)⟩
  intro a ha hstatus
  rcases hactive a ha hstatus with heq | hinvalidate
  · exact .inl (List.mem_map.mpr ⟨a, ha, heq⟩)
  · exact .inr (.inl hinvalidate)

variable {records : List MemoryRecord}

theorem Entry.ok_same (hids : Ids records) (hone : OneActive records) (hact : ∀ p, act ≠ .promote p) :
    Entry.Ok ⟨act, records, records⟩ :=
  ⟨hids, hone, hone, .refl _, fun _ ha _ => .inl ha, fun p hp => absurd hp (hact p)⟩

/-! ## The steps -/

/-- The log of an operation on the records. -/
def Logs (act : Act) (s s' : Ledger) : Prop := s'.log = s.log ++ [⟨act, s.records, s'.records⟩]

theorem step_create (h : Kept s) {tenant_id project_id actor description : String}
    (hnew : s.unused fresh) (hproject : project_id ∉ s.projects)
    (hrecords : s'.records = s.records ++ [charter tenant_id project_id actor description fresh])
    (hprojects : s'.projects = s.projects ++ [project_id]) (hpromotions : s'.promotions = s.promotions)
    (hlog : Logs (.create project_id) s s') : Kept s' ∧ Moves s s' := by
  have hids : Ids s'.records := by
    rw [hrecords]
    exact ids_append h.ids hnew
  have hone : OneActive s'.records := by
    rw [hrecords]
    apply oneActive_append h.one
    intro _ x hx _ hsubject
    -- nothing was known of the project
    exact hproject (h.known x hx project_id (congrArg Subject.project_id hsubject))
  have hcarries : Carries s.records s'.records := by
    rw [hrecords]
    exact .append _ _
  constructor
  · apply h.of_carries hids hone hcarries
    · rw [hprojects]
      exact List.subset_append_left _ _
    · intro r hr
      rw [hrecords] at hr
      rcases List.mem_append.mp hr with hr | hr
      · exact .inl ⟨r, hr, rfl⟩
      · rw [List.mem_singleton.mp hr]
        refine .inr ⟨rfl, fun q hq => ?_⟩
        rw [hprojects, ← Option.some.inj hq]
        exact List.mem_append_right _ List.mem_cons_self
    · intro p' hp'
      obtain ⟨p, hp, hrecord, hto, hstage⟩ := promotions_same hpromotions p' hp'
      exact ⟨p, hp, hrecord, hto, fun hw => .inl (hstage hw)⟩
  · refine .inr ⟨_, hlog, h.ids, h.one, hone, hcarries, fun a ha _ => .inl ?_, ?_⟩
    · rw [hrecords]
      exact List.mem_append_left _ ha
    · intro p hp
      cases hp

theorem step_write (h : Kept s) (hnew : s.unused fresh)
    (hrecords : s'.records = recordsOr s.records (write_memory s.projects s.records w fresh))
    (hprojects : s'.projects = s.projects) (hpromotions : s'.promotions = s.promotions)
    (hlog : Logs (.write w) s s') : Kept s' ∧ Moves s s' := by
  have hstages : ∀ p' ∈ s'.promotions, ∃ p ∈ s.promotions, p'.record = p.record ∧
      p'.to_authority = p.to_authority ∧ (p'.stage = .written → p.stage = .written ∨
        ∀ r ∈ s'.records, r.memory_id = p.record.memory_id → r.status ≠ .ACTIVE) := by
    intro p' hp'
    obtain ⟨p, hp, hrecord, hto, hstage⟩ := promotions_same hpromotions p' hp'
    exact ⟨p, hp, hrecord, hto, fun hw => .inl (hstage hw)⟩
  cases hcheck : checkWrite s.projects w with
  | error error =>
    -- the transaction does not begin
    have hsame : s'.records = s.records := by
      rw [hrecords, write_memory, hcheck]
      rfl
    constructor
    · apply h.of_carries _ _ _ _ _ hstages
      · rw [hsame]
        exact h.ids
      · rw [hsame]
        exact h.one
      · rw [hsame]
        exact .refl _
      · rw [hprojects]
        exact fun _ hq => hq
      · intro r hr
        rw [hsame] at hr
        exact .inl ⟨r, hr, rfl⟩
    · refine .inr ⟨_, hlog, ?_⟩
      rw [hsame]
      exact Entry.ok_same h.ids h.one fun p hp => by cases hp
  | ok u =>
    have happlied : s'.records = (applyWrite s.records w fresh).2 := by
      rw [hrecords, write_memory, hcheck]
      rfl
    obtain ⟨hkept, hchange⟩ := h.wrote hnew hcheck happlied hprojects hstages
    exact ⟨hkept, .inr ⟨_, hlog, hchange.entry_ok h.ids h.one fun p hp => by cases hp⟩⟩

theorem step_promote (h : Kept s) {i : Nat} (hp : s.promotions[i]? = some p) (hnew : s.unused fresh)
    (hrecords : s'.records = recordsOr s.records (write_memory s.projects s.records p.write fresh))
    (hprojects : s'.projects = s.projects) (hpromotions : s'.promotions = s.promotions.set i
      { p with stage := stageOf (write_memory s.projects s.records p.write fresh) })
    (hlog : Logs (.promote p) s s') : Kept s' ∧ Moves s s' := by
  have hmem : p ∈ s.promotions := List.mem_of_getElem? hp
  have hcheck := h.promotion_checked hmem
  have happlied : s'.records = (applyWrite s.records p.write fresh).2 := by
    rw [hrecords, write_memory, hcheck]
    rfl
  -- the promoted record does not stop the write, and is not active after it
  obtain ⟨r, hr, hrp⟩ := h.source p hmem
  have hchange := applyWrite_change h.ids h.one p.write fresh
  rw [← happlied] at hchange
  have hinactive : ∀ x ∈ s'.records, x.memory_id = p.record.memory_id → x.status ≠ .ACTIVE := by
    intro x hx hid
    have hsubject : r.subject = p.write.subject := by
      rw [hrp]
      rfl
    have hyields := h.promotion_yields hmem (r := r) (by rw [hrp])
    apply hchange.inactive h.ids h.one hnew hr hsubject hyields hx
    rw [hid, hrp]
  obtain ⟨hkept, -⟩ := h.wrote hnew hcheck happlied hprojects fun p' hp' => by
    obtain ⟨q, hq, hrecord, hto, hstage⟩ := promotions_set hp hpromotions p' hp'
    refine ⟨q, hq, hrecord, hto, fun hw => (hstage hw).imp_right fun heq => ?_⟩
    rw [heq.1]
    exact hinactive
  refine ⟨hkept, .inr ⟨_, hlog, hchange.entry_ok h.ids h.one fun q hq => ?_⟩⟩
  cases hq
  exact ⟨rfl, hnew⟩

theorem step_settle (h : Kept s) {i : Nat} (hp : s.promotions[i]? = some p)
    (hstage : p.stage = .written) (hrecords : s'.records = settlePromotion s.records p)
    (hprojects : s'.projects = s.projects)
    (hpromotions : s'.promotions = s.promotions.set i { p with stage := .done })
    (hlog : Logs (.settle p) s s') : Kept s' ∧ Moves s s' := by
  have hstages : ∀ p' ∈ s'.promotions, ∃ p ∈ s.promotions, p'.record = p.record ∧
      p'.to_authority = p.to_authority ∧ (p'.stage = .written → p.stage = .written) := by
    intro p' hp'
    obtain ⟨q, hq, hrecord, hto, hw⟩ := promotions_set hp hpromotions p' hp'
    refine ⟨q, hq, hrecord, hto, fun hw' => (hw hw').resolve_right fun hdone => ?_⟩
    cases hdone.2
  have hid : Retires (id : MemoryRecord → MemoryRecord) := fun r => .inl rfl
  unfold settlePromotion at hrecords
  split at hrecords
  · refine ⟨h.retired (retires_settle p) hrecords hprojects hstages, .inr ⟨_, hlog, ?_⟩⟩
    rw [hrecords]
    refine (retires_settle p).entry_ok h.ids h.one (fun a ha hactive => .inl ?_) fun q hq => by cases hq
    -- the promoted record is not active by now
    rw [if_neg]
    rintro ⟨hsource, -⟩
    exact h.written p (List.mem_of_getElem? hp) hstage a ha hsource hactive
  · have hrecords' : s'.records = s.records.map id := by rw [hrecords, List.map_id]
    refine ⟨h.retired hid hrecords' hprojects hstages, .inr ⟨_, hlog, ?_⟩⟩
    rw [hrecords]
    exact Entry.ok_same h.ids h.one fun q hq => by cases hq

theorem step_invalidate (h : Kept s) {memory_id : String} {project_id : Option String}
    (hrecords : invalidate_memory s.records memory_id project_id = .ok records) (hafter : s'.records = records)
    (hprojects : s'.projects = s.projects) (hpromotions : s'.promotions = s.promotions)
    (hlog : Logs (.invalidate memory_id) s s') : Kept s' ∧ Moves s s' := by
  have hretires : Retires fun r => if r.memory_id = memory_id ∧ r.project_id = project_id then
      { r with status := .INVALIDATED } else r := by
    intro r
    dsimp only
    split
    · exact .inr ⟨_, .inl rfl, rfl⟩
    · exact .inl rfl
  unfold invalidate_memory at hrecords
  dsimp only at hrecords
  split at hrecords
  · rw [Except.ok.injEq] at hrecords
    rw [← hafter] at hrecords
    refine ⟨h.retired hretires hrecords.symm hprojects (promotions_same hpromotions), .inr ⟨_, hlog, ?_⟩⟩
    rw [← hrecords]
    refine hretires.entry_ok h.ids h.one (fun a ha hactive => ?_) fun q hq => by cases hq
    by_cases hfound : a.memory_id = memory_id ∧ a.project_id = project_id
    · exact .inr (by rw [hfound.1])
    · exact .inl (if_neg hfound)
  · cases hrecords

/-- **Every transaction keeps the invariant.** -/
theorem step_kept (h : Kept s) (hstep : step s e = some s') : Kept s' ∧ Moves s s' := by
  cases e with
  | create tenant_id project_id actor description fresh =>
    rw [step] at hstep
    split at hstep
    · rename_i hnew
      cases hstep
      exact step_create h hnew.1 hnew.2 rfl rfl rfl rfl
    · cases hstep
  | write w fresh =>
    rw [step] at hstep
    split at hstep
    · rename_i hnew
      cases hstep
      exact step_write h hnew rfl rfl rfl rfl
    · cases hstep
  | read memory_id to_authority actor project_id =>
    rw [step] at hstep
    split at hstep
    · rename_i p hp
      cases hstep
      exact ⟨step_read h hp, .inl ⟨rfl, rfl⟩⟩
    · cases hstep
      exact ⟨h, .inl ⟨rfl, rfl⟩⟩
  | promote i fresh =>
    rw [step] at hstep
    split at hstep
    · rename_i p hp
      split at hstep
      · rename_i hnew
        cases hstep
        exact step_promote h hp hnew.1 rfl rfl rfl rfl
      · cases hstep
    · cases hstep
  | settle i =>
    rw [step] at hstep
    split at hstep
    · rename_i p hp
      split at hstep
      · rename_i hstage
        cases hstep
        exact step_settle h hp hstage rfl rfl rfl rfl
      · cases hstep
    · cases hstep
  | invalidate memory_id project_id =>
    rw [step] at hstep
    split at hstep
    · rename_i records hrecords
      cases hstep
      exact step_invalidate h hrecords rfl rfl rfl rfl
    · cases hstep
      exact ⟨h, .inl ⟨rfl, rfl⟩⟩

end

end Memory
