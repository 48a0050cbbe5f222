import MissionControl.Durable.Duties

/-! # Receipts

A receipt is redacted and written as JSON when it is committed, and a later tick adopts what it reads
back. That is what was committed exactly when redaction and JSON change nothing in it (`Unchanged`). -/

namespace Durable

open Canonical (Sha256)
open Interleaving
open Interleaving.Program (Exchange)
open Python (Key Object)

/-! ## What storage leaves alone -/

section Storage

variable (_redact_string : String → String)

/-- The object as it is read back. -/
def stored (o : Object) : Object := (redact_value _redact_string o).json

/-- **Nothing in the object is redacted, or changed by JSON**: each string is left alone, there is no tuple,
    a key is a string, and a sensitive key has only the mark of redaction. -/
inductive Unchanged : Object → Prop
  | none : Unchanged .none
  | bool (b : Bool) : Unchanged (.bool b)
  | int (n : Int) : Unchanged (.int n)
  | float (f : Canonical.PyFloat) : Unchanged (.float f)
  | str {s : String} (h : _redact_string s = s) : Unchanged (.str s)
  | list {items : List Object} (h : ∀ o ∈ items, Unchanged o) : Unchanged (.list items)
  | dict {items : List (Key × Object)} (distinct : (items.map Prod.fst).Nodup)
      (strings : ∀ kv ∈ items, kv.1 = .str kv.1.text)
      (redacted : ∀ kv ∈ items, sensitive kv.1 = true → kv.2 = .str "[REDACTED_SENSITIVE_FIELD]")
      (others : ∀ kv ∈ items, sensitive kv.1 = false → Unchanged kv.2) : Unchanged (.dict items)

/-- One item of a `dict`, as it is read back. -/
def storedItem (kv : Key × Object) : Key × Object :=
  (.str kv.1.text, if sensitive kv.1 then .str "[REDACTED_SENSITIVE_FIELD]" else stored _redact_string kv.2)

theorem stored_list (items : List Object) :
    stored _redact_string (.list items) = .list (items.map (stored _redact_string)) := by
  show Object.list (Object.jsonList (redact_list _redact_string items)) = _
  rw [redact_list_eq, Object.jsonList_eq, List.map_map]
  rfl

theorem stored_dict (items : List (Key × Object)) :
    stored _redact_string (.dict items) = .dict (Object.dictOf (items.map (storedItem _redact_string))) := by
  show Object.dict (Object.dictOf (Object.jsonItems (redact_items _redact_string items))) = _
  rw [redact_items_eq, Object.jsonItems_eq, List.map_map]
  congr 3
  funext kv
  show (Key.str kv.1.text, Object.json (if sensitive kv.1 then _ else _)) = storedItem _redact_string kv
  unfold storedItem
  split <;> rfl

variable {_redact_string}

theorem storedItem_eq_iff {kv : Key × Object} : storedItem _redact_string kv = kv ↔ kv.1 = .str kv.1.text ∧
    (sensitive kv.1 = true → kv.2 = .str "[REDACTED_SENSITIVE_FIELD]") ∧
      (sensitive kv.1 = false → stored _redact_string kv.2 = kv.2) := by
  obtain ⟨k, o⟩ := kv
  unfold storedItem
  cases sensitive k <;> simp [Prod.ext_iff, eq_comm]

theorem dictOf_map_eq_iff {items : List (Key × Object)} :
    Object.dictOf (items.map (storedItem _redact_string)) = items ↔
      (items.map Prod.fst).Nodup ∧ ∀ kv ∈ items, storedItem _redact_string kv = kv := by
  constructor
  · intro h
    have hnodup : (items.map Prod.fst).Nodup := h ▸ Object.nodup_dictOf _
    -- the keys that are read back are strings
    have hkeys : ∀ kv ∈ items, Key.str kv.1.text = kv.1 := by
      intro kv hkv
      have hmem : kv.1 ∈ (Object.dictOf (items.map (storedItem _redact_string))).map Prod.fst := by
        rw [h]
        exact List.mem_map_of_mem hkv
      have hmem := Object.mem_keys_dictOf hmem
      rw [List.map_map] at hmem
      obtain ⟨kv', -, hkv'⟩ := List.mem_map.mp hmem
      rw [← hkv']
      rfl
    have hsame : (items.map (storedItem _redact_string)).map Prod.fst = items.map Prod.fst := by
      rw [List.map_map]
      exact List.map_congr_left hkeys
    rw [Object.dictOf_of_nodup (hsame ▸ hnodup)] at h
    have hmap := h.trans (List.map_id items).symm
    exact ⟨hnodup, List.map_inj_left.mp hmap⟩
  · rintro ⟨hnodup, hitems⟩
    have hmap : items.map (storedItem _redact_string) = items :=
      (List.map_congr_left hitems).trans (List.map_id _)
    rw [hmap]
    exact Object.dictOf_of_nodup hnodup

/-- **What is read back is what was stored** exactly when storage leaves it alone. -/
theorem stored_eq_iff (o : Object) : stored _redact_string o = o ↔ Unchanged _redact_string o := by
  induction o with
  | none => exact iff_of_true rfl .none
  | bool b => exact iff_of_true rfl (.bool b)
  | int n => exact iff_of_true rfl (.int n)
  | float f => exact iff_of_true rfl (.float f)
  | str s =>
    constructor
    · intro h
      exact .str (Object.str.inj h)
    · rintro (⟨⟩ | ⟨⟩ | ⟨⟩ | ⟨⟩ | ⟨h⟩ | ⟨⟩ | ⟨⟩)
      exact congrArg Object.str h
  | list items ih =>
    rw [stored_list]
    constructor
    · intro h
      have hmap := (Object.list.inj h).trans (List.map_id items).symm
      exact .list fun o ho => (ih o ho).mp (List.map_inj_left.mp hmap o ho)
    · rintro (⟨⟩ | ⟨⟩ | ⟨⟩ | ⟨⟩ | ⟨⟩ | ⟨h⟩ | ⟨⟩)
      have hmap : items.map (stored _redact_string) = items :=
        (List.map_congr_left fun o ho => (ih o ho).mpr (h o ho)).trans (List.map_id items)
      rw [hmap]
  | tuple items ih =>
    constructor
    · intro h
      cases h
    · intro h
      cases h
  | dict items ih =>
    rw [stored_dict, Object.dict.injEq, dictOf_map_eq_iff]
    constructor
    · rintro ⟨hnodup, hitems⟩
      refine .dict hnodup ?_ ?_ ?_
      · exact fun kv hkv => (storedItem_eq_iff.mp (hitems kv hkv)).1
      · exact fun kv hkv => (storedItem_eq_iff.mp (hitems kv hkv)).2.1
      · exact fun kv hkv hk => (ih kv hkv).mp ((storedItem_eq_iff.mp (hitems kv hkv)).2.2 hk)
    · intro h
      cases h with
      | dict hnodup hstrings hredacted hothers =>
        exact ⟨hnodup, fun kv hkv => storedItem_eq_iff.mpr
          ⟨hstrings kv hkv, hredacted kv hkv, fun hk => (ih kv hkv).mpr (hothers kv hkv hk)⟩⟩

end Storage

/-! ## What a tick adopts -/

/-- The worker has read this committed intent. -/
def ReadCommitted (past : List (Exchange DurableCalls)) (intent : Intent) : Prop :=
  intent.status = .COMMITTED ∧ ∃ key, ⟨.get_intent key, .ok (some intent)⟩ ∈ past

/-- The observation is that of every committed intent the worker has read. -/
def Adopts (past : List (Exchange DurableCalls)) (observation : Object) : Prop :=
  ∀ intent, ReadCommitted past intent → intent.receipt.get "observation" = some observation

/-- The worker has read no committed intent. -/
def Unread (past : List (Exchange DurableCalls)) : Prop := ∀ intent, ¬ ReadCommitted past intent

theorem Unread.adopts {past : List (Exchange DurableCalls)} (h : Unread past) (observation : Object) :
    Adopts past observation :=
  fun intent hread => absurd hread (h intent)

/-- What `commit` writes. -/
def committedReceipt (observation verification : Object) (trace_id : String) (tick_n : ℕ) (committed : Instant) :
    Object :=
  .dict [(.str "observation", observation), (.str "verification", verification), (.str "trace_id", .str trace_id),
    (.str "logical_tick", .int tick_n), (.str "wall_committed_at", .int committed)]

/-- What is verified has been adopted, where the worker has read a committed intent; what is committed is
    the receipt of a tick. -/
def Duly (past : List (Exchange DurableCalls)) : Call → Prop
  | .verify _ observation => Adopts past observation
  | .commit_intent _ receipt .. => ∃ observation verification trace_id tick_n committed,
      receipt = committedReceipt observation verification trace_id tick_n committed
  | _ => True

/-- Calls that neither read an intent nor owe anything. -/
def Plain : Call → Prop
  | .get_intent _ | .verify .. | .commit_intent .. => False
  | _ => True

theorem duly_of_plain (past : List (Exchange DurableCalls)) (c : Call) (h : Plain c) : Duly past c := by
  cases c <;> trivial

/-- What the worker has read in `past'`, it had read in `past`. -/
def ReadsNothing (past past' : List (Exchange DurableCalls)) : Prop :=
  ∀ intent, ReadCommitted past' intent → ReadCommitted past intent

variable {past past' : List (Exchange DurableCalls)} {α : Type}

theorem ReadsNothing.unread (h : ReadsNothing past past') (hunread : Unread past) : Unread past' :=
  fun intent hread => hunread intent (h intent hread)

theorem ReadsNothing.adopts {observation : Object} (h : ReadsNothing past past') (hadopts : Adopts past observation) :
    Adopts past' observation :=
  fun intent hread => hadopts intent (h intent hread)

theorem readsNothing_snoc {x : Exchange DurableCalls}
    (h : ∀ key intent, x = ⟨.get_intent key, .ok (some intent)⟩ → intent.status ≠ .COMMITTED) :
    ReadsNothing past (past ++ [x]) := by
  rintro intent ⟨hstatus, key, hmem⟩
  refine ⟨hstatus, key, ?_⟩
  rcases List.mem_append.mp hmem with hmem | hmem
  · exact hmem
  · exact absurd hstatus (h key intent (List.mem_singleton.mp hmem).symm)

variable {p : DurableProgram α}

theorem obeys_plain (hp : p.Only Plain) : p.Obeys Duly (fun _ past' => ReadsNothing past past') past := by
  refine (hp.obeys duly_of_plain).mono fun _ past' h intent hread => ?_
  obtain ⟨t, rfl, ht⟩ := h
  obtain ⟨hstatus, key, hmem⟩ := hread
  refine ⟨hstatus, key, ?_⟩
  rcases List.mem_append.mp hmem with hmem | hmem
  · exact hmem
  · exact (ht _ hmem).elim

/-! ### Plain programs -/

theorem only_ask {c : Call} (h : Plain c) : (ask c).Only Plain := Program.only_perform h

theorem only_transition (job_id : String) (dst : RunState) (fencing_token : ℕ) (now : Instant) (reason : String)
    (fields : Fields) : (transition job_id dst fencing_token now reason fields).Only Plain := by
  refine (only_ask (by trivial)).bind fun current => ?_
  cases current with
  | none => trivial
  | some current =>
    dsimp only
    split
    · trivial
    split
    · trivial
    split
    · trivial
    exact only_ask (by trivial)

theorem only_move (token : ℕ) (job : Job) (dst : RunState) (reason : String) (fields : Fields) :
    (move token job dst reason fields).Only Plain :=
  (only_ask (by trivial)).bind fun _ => only_transition ..

theorem only_release (token : ℕ) (report : TickReport) (job : Job) (dst : RunState) (reasons : List String)
    (retry : Bool) (fields : Fields) : (release token report job dst reasons retry fields).Only Plain :=
  (only_ask (by trivial)).bind fun _ => (only_move ..).bind fun _ => trivial

theorem only_reserve (t : Tick) (job : Job) : (reserve t job).Only Plain :=
  (only_ask (by trivial)).bind fun _ => (only_ask (by trivial)).bind fun _ => only_ask (by trivial)

theorem only_markUnconfirmed (t : Tick) (job : Job) (error_class : String) :
    (markUnconfirmed t job error_class).Only Plain :=
  (only_ask (by trivial)).bind fun _ => only_ask (by trivial)

theorem only_operatorMoveAt (job_id : String) (dst : RunState) (actor reason : String) (moment : Instant) :
    (operatorMoveAt job_id dst actor reason moment).Only Plain := by
  refine (only_ask (by trivial)).bind fun job => ?_
  cases job with
  | none => trivial
  | some job =>
    dsimp only
    split
    · trivial
    · exact only_transition ..

theorem only_operator_move (job_id : String) (dst : RunState) (actor reason : String) (now : Option Instant) :
    (operator_move job_id dst actor reason now).Only Plain := by
  cases now with
  | some now => exact only_operatorMoveAt ..
  | none => exact (only_ask (by trivial)).bind fun now => only_operatorMoveAt ..

theorem only_claimFirst (worker_id : String) (now expires : Instant) (candidates : List Job) :
    (claimFirst worker_id now expires candidates).Only Plain := by
  induction candidates with
  | nil => trivial
  | cons job rest ih =>
    unfold claimFirst
    split
    · trivial
    · refine (only_ask (by trivial)).bind fun claimed => ?_
      cases claimed with
      | none => exact ih
      | some claimed => trivial

theorem only_claim_due_job (worker_id : String) (now : Instant) (lease_seconds : ℕ) (job_id project_id : Option String) :
    (claim_due_job worker_id now lease_seconds job_id project_id).Only Plain :=
  (only_ask (by trivial)).bind fun candidates => only_claimFirst worker_id now _ candidates

theorem only_probe (t : Tick) (report : TickReport) (job : Job) (intent : Intent) :
    (probe t report job intent).Only Plain := by
  refine (only_ask (by trivial)).attempt.bind fun answer => ?_
  split
  · exact (only_markUnconfirmed ..).bind fun _ => trivial
  · exact (only_move ..).bind fun _ => trivial
  · split
    · exact (only_move ..).bind fun _ => trivial
    · split
      · exact (only_ask (by trivial)).bind fun _ => (only_ask (by trivial)).bind fun _ => (only_release ..).bind fun _ => trivial
      · exact (only_markUnconfirmed ..).bind fun _ => trivial

/-! ### A tick -/

/-- Where a tick goes on, its observation has been adopted if any has. -/
def Reached.Sound : Reached → List (Exchange DurableCalls) → Prop
  | .done _, _ => True
  | .dispatching .., past => Unread past
  | .observed _ _ observation, past => Adopts past observation

theorem Unread.sound (h : Unread past) (reached : Reached) : reached.Sound past := by
  cases reached with
  | done report => trivial
  | dispatching report job => exact h
  | observed report job observation => exact h.adopts observation

theorem obeys_unread {p : DurableProgram Reached} (hp : p.Only Plain) (h : Unread past) :
    p.Obeys Duly Reached.Sound past :=
  (obeys_plain hp).mono fun reached _ hreads => (hreads.unread h).sound reached

theorem obeys_done {p : DurableProgram TickReport} (hp : p.Only Plain) :
    (p.bind fun report => Program.ret (.done report)).Obeys Duly Reached.Sound past :=
  (obeys_plain hp).bind fun _ _ _ => trivial

theorem obeys_resume (t : Tick) (report : TickReport) (job : Job) (h : Unread past) :
    (resume t report job).Obeys Duly Reached.Sound past := by
  refine (Program.obeys_perform (Q := fun answer past' => past' = past ++ [⟨.get_intent t.key, .ok answer⟩])
    trivial fun _ => rfl).bind fun answer past₁ hpast => ?_
  subst hpast
  cases answer with
  | none =>
    have hunread : Unread (past ++ [⟨.get_intent t.key, .ok none⟩]) :=
      (readsNothing_snoc fun key intent hx => by cases hx).unread h
    exact obeys_unread ((only_move ..).bind fun _ => (only_reserve ..).bind fun _ => trivial) hunread
  | some intent =>
    have hopen : intent.status ≠ .COMMITTED → Unread (past ++ [⟨.get_intent t.key, .ok (some intent)⟩]) := by
      intro hstatus
      refine (readsNothing_snoc fun key intent' hx => ?_).unread h
      cases hx
      exact hstatus
    dsimp only
    split
    · split
      · exact obeys_done (only_release ..)
      · exact obeys_done (only_release ..)
      · rename_i observation _ hobservation
        -- this is the only committed intent the worker has read
        have hadopts : Adopts (past ++ [⟨.get_intent t.key, .ok (some intent)⟩]) observation := by
          rintro intent' ⟨hstatus', key, hmem⟩
          rcases List.mem_append.mp hmem with hmem | hmem
          · exact absurd ⟨hstatus', key, hmem⟩ (h intent')
          · cases List.mem_singleton.mp hmem
            exact hobservation
        exact (obeys_plain (only_move ..)).bind fun _ _ hreads => hreads.adopts hadopts
    · exact obeys_done (only_release ..)
    · exact obeys_done (only_release ..)
    · rename_i hstatus
      exact obeys_unread (only_probe ..) (hopen (by rw [hstatus]; decide))
    · rename_i hstatus
      exact obeys_unread (only_probe ..) (hopen (by rw [hstatus]; decide))

theorem obeys_begin (t : Tick) (report : TickReport) (job : Job) (h : Unread past) :
    (begin t report job).Obeys Duly Reached.Sound past := by
  refine (obeys_plain (only_move ..)).bind fun job past₁ h₁ => ?_
  refine (obeys_plain (only_ask (by trivial))).bind fun answer past₂ h₂ => ?_
  obtain ⟨blocked | _, reasons⟩ := answer
  · refine (obeys_plain (only_move ..)).bind fun job past₃ h₃ => ?_
    refine (obeys_plain (only_reserve ..)).bind fun reserved past₄ h₄ => ?_
    have hunread : Unread past₄ := h₄.unread (h₃.unread (h₂.unread (h₁.unread h)))
    obtain ⟨intent, created⟩ := reserved
    dsimp only
    split
    · exact hunread
    · exact (obeys_plain (only_move ..)).bind fun job past₅ h₅ => obeys_resume _ _ _ (h₅.unread hunread)
  · exact obeys_done (only_release ..)

/-- Calls that owe nothing. -/
def Free : Call → Prop
  | .verify .. | .commit_intent .. => False
  | _ => True

theorem duly_of_free (past : List (Exchange DurableCalls)) (c : Call) (h : Free c) : Duly past c := by
  cases c <;> trivial

theorem free_of_plain (c : Call) (h : Plain c) : Free c := by
  cases c <;> trivial

theorem obeys_free (hp : p.Only Free) : p.Obeys Duly (fun _ _ => True) past :=
  (hp.obeys duly_of_free).mono fun _ _ _ => trivial

theorem obeys_commit (t : Tick) (report : TickReport) (job : Job) (observation verification : Object) :
    (commit t report job observation verification).Obeys Duly (fun _ _ => True) past := by
  refine (obeys_plain (only_move ..)).bind fun job _ _ => ?_
  refine (obeys_plain (only_ask (by trivial))).bind fun committed _ _ => ?_
  refine (obeys_free (Program.only_perform (by trivial))).bind fun current _ _ => ?_
  have hfinish : ∀ x : RunState × Object, ((ask .clock).bind fun now =>
      (move t.token job x.1 "committed"
        { logical_tick := some t.tick_n
          attempts := some 0
          lease_owner := some none
          lease_expires_at := some none
          next_due_at := some (now + job.recurrence_seconds.getD 0 * SECOND) }).bind fun _ =>
        Program.ret { report with outcome := "COMMITTED", final_state := some x.1.value }).Only Plain :=
    fun x => (only_ask (by trivial)).bind fun now => (only_move ..).bind fun _ => trivial
  dsimp only
  split
  · refine (obeys_plain (only_ask (by trivial))).bind fun now _ _ => ?_
    refine (Program.obeys_perform (Q := fun _ _ => True)
      ⟨observation, verification, t.trace_id, t.tick_n, committed, rfl⟩ fun _ => trivial).bind fun _ _ _ => ?_
    exact obeys_free (((only_ask (by trivial)).bind hfinish).mono free_of_plain)
  · exact obeys_free (((only_ask (by trivial)).bind hfinish).mono free_of_plain)

section Tick

variable [Sha256]

theorem only_fail (t : Tick) (report : TickReport) (job : Job) (reason : String) :
    (fail t report job reason).Only Plain := by
  refine (only_ask (by trivial)).bind fun env => (only_ask (by trivial)).bind fun now => ?_
  dsimp only
  split <;> exact only_release ..

theorem only_dispatchJob (t : Tick) (report : TickReport) (job : Job) :
    (dispatchJob t report job).Only Plain := by
  refine (only_move ..).bind fun job => (only_ask (by trivial)).attempt.bind fun answer => ?_
  cases answer with
  | error e => exact (only_markUnconfirmed ..).bind fun _ => (only_move ..).bind fun _ => trivial
  | ok dispatched =>
    dsimp only
    split
    · exact (only_release ..).bind fun _ => trivial
    · split
      · exact (only_fail ..).bind fun _ => trivial
      · refine (only_move ..).bind fun job => (only_ask (by trivial)).attempt.bind fun observed => ?_
        cases observed with
        | error e => exact (only_move ..).bind fun _ => (only_release ..).bind fun _ => trivial
        | ok observation => trivial

theorem obeys_conclude (t : Tick) (report : TickReport) (job : Job) (observation : Object)
    (h : Adopts past observation) : (conclude t report job observation).Obeys Duly (fun _ _ => True) past := by
  refine (obeys_plain (only_move ..)).bind fun job past₁ h₁ => ?_
  refine (Program.obeys_perform (Q := fun _ _ => True) (h₁.adopts h) fun _ => trivial).bind fun verification _ _ => ?_
  split
  · exact obeys_commit ..
  · split
    · exact obeys_free (((only_move ..).bind fun _ => only_release ..).mono free_of_plain)
    · exact obeys_free ((only_fail ..).mono free_of_plain)

theorem obeys_goOn (t : Tick) (reached : Reached) (h : reached.Sound past) :
    (reached.goOn t).Obeys Duly (fun _ _ => True) past := by
  cases reached with
  | done report => trivial
  | observed report job observation => exact obeys_conclude t report job observation h
  | dispatching report job =>
    refine (obeys_unread (only_dispatchJob t report job) h).bind fun reached past₁ h₁ => ?_
    cases reached with
    | done report => trivial
    | dispatching report job => trivial
    | observed report job observation => exact obeys_conclude t report job observation h₁

theorem obeys_runClaimed (handlers : String → Option Handler) (trace_id : String) (job : Job) (entered : RunState)
    (h : Unread past) : (runClaimed handlers trace_id job entered).Obeys Duly (fun _ _ => True) past := by
  unfold runClaimed
  dsimp only
  split
  · exact obeys_free (((only_move ..).bind fun _ => only_release ..).mono free_of_plain)
  · split
    · exact (obeys_begin _ _ _ h).bind fun reached _ => obeys_goOn _ reached
    · exact (obeys_resume _ _ _ h).bind fun reached _ => obeys_goOn _ reached

theorem obeys_run_tick (handlers : String → Option Handler) (trace_id worker_id : String) (now : Option Instant)
    (lease_seconds : ℕ) (job_id project_id : Option String) (h : Unread past) :
    (run_tick handlers trace_id worker_id now lease_seconds job_id project_id).Obeys Duly (fun _ _ => True) past := by
  -- whatever goes on with a claim as a tick does
  have hclaim : ∀ (started : Instant) (past : List (Exchange DurableCalls))
      (goOn : Option (Job × RunState) → DurableProgram TickReport), goOn none = Program.ret {} →
      (∀ job entered, goOn (some (job, entered)) = runClaimed handlers trace_id job entered) → Unread past →
      ((claim_due_job worker_id started lease_seconds job_id project_id).bind goOn).Obeys Duly
        (fun _ _ => True) past := by
    intro started past goOn hnone hsome h
    refine (obeys_plain (only_claim_due_job ..)).bind fun claimed past₁ h₁ => ?_
    cases claimed with
    | none =>
      rw [hnone]
      trivial
    | some claimed =>
      rw [hsome]
      exact obeys_runClaimed _ _ _ _ (h₁.unread h)
  cases now with
  | some now => exact hclaim now past _ rfl (fun _ _ => rfl) h
  | none =>
    refine (obeys_plain (only_ask (by trivial))).bind fun started past₁ h₁ => ?_
    exact hclaim started past₁ _ rfl (fun _ _ => rfl) (h₁.unread h)

/-- **Every program of the runtime adopts what it has read.** -/
theorem obeys_program (d : Deployment) (request : Request) :
    (request.program d).Obeys Duly (fun _ _ => True) [] := by
  have hnone : Unread [] := by
    rintro intent ⟨-, key, hmem⟩
    cases hmem
  cases request with
  | create_job input => exact obeys_free ((only_ask (by trivial)).void.mono free_of_plain)
  | claim_due_job => exact obeys_free ((only_claim_due_job ..).void.mono free_of_plain)
  | run_tick => exact (obeys_run_tick _ _ _ _ _ _ _ hnone).void
  | operator_move => exact obeys_free ((only_operator_move ..).void.mono free_of_plain)
  | renew_lease => exact obeys_free ((only_ask (by trivial)).void.mono free_of_plain)

end Tick

/-! ## The journal -/

section Journal

variable {_redact_string : String → String} {s s' : Store} {c : Call} {o : Outside}

/-- A committed intent stays as it is. -/
def CommittedStay (s s' : Store) : Prop :=
  ∀ key row, s.intents.find? key = some row → row.status = .COMMITTED → s'.intents.find? key = some row

theorem CommittedStay.of_eq (h : s'.intents = s.intents) : CommittedStay s s' := by
  intro key row hrow _
  rw [h]
  exact hrow

variable {receipt : Object} {now : Instant} {job_id refusal key : String} {fencing_token : ℕ}
  {status : IntentStatus}

theorem settled_of_settle_intent {r : Unit}
    (h : s.settle_intent key job_id fencing_token now status receipt refusal = .ok (r, s')) :
    ∃ row, s.intents.find? key = some row ∧ row.status ≠ .COMMITTED ∧
      s'.intents = s.intents.update key (·.settle status receipt) (Intent.settle_key status receipt) := by
  unfold Store.settle_intent at h
  simp only [bind, Except.bind] at h
  split at h
  · cases h
  · split at h
    · rename_i job _ hopen
      cases h
      cases hrow : s.intents.find? key with
      | none =>
        rw [hrow] at hopen
        cases hopen
      | some row =>
        refine ⟨row, rfl, fun hstatus => ?_, rfl⟩
        rw [hrow, Option.any_some] at hopen
        unfold Intent.open? at hopen
        rw [hstatus] at hopen
        simp at hopen
    · cases h

theorem committedStay_settle_intent {r : Unit}
    (h : s.settle_intent key job_id fencing_token now status receipt refusal = .ok (r, s')) : CommittedStay s s' := by
  obtain ⟨row, hrow, hopen, hintents⟩ := settled_of_settle_intent h
  intro key' row' hrow' hstatus
  rw [hintents, Relational.Table.find?_update]
  split
  · rename_i heq
    rw [heq, hrow] at hrow'
    cases hrow'
    exact absurd hstatus hopen
  · exact hrow'

theorem committedStay_run {r : c.Resp} (h : run _redact_string o s c = .ok (r, s')) : CommittedStay s s' := by
  cases c with
  | claim_job job_id version current entered worker_id now expires =>
    replace h : s.claim_job job_id version current entered worker_id now expires = (r, s') := Except.ok.inj h
    refine .of_eq ?_
    unfold Store.claim_job at h
    split at h
    · split at h
      · cases h
        rfl
      · cases h
        rfl
    · cases h
      rfl
  | move_job job_id fencing_token current dst now reason fields =>
    replace h : s.move_job job_id fencing_token current dst now reason fields = .ok (r, s') := h
    refine .of_eq ?_
    unfold Store.move_job at h
    split at h
    · split at h
      · cases h
        rfl
      · cases h
    · cases h
  | create_job input =>
    replace h : s.create_job input o.now = .ok (r, s') := h
    refine .of_eq ?_
    unfold Store.create_job at h
    split at h
    · split at h
      · cases h
      · cases h
        rfl
    · split at h
      · cases h
        rfl
      · cases h
  | renew_lease job_id worker_id fencing_token now lease_seconds =>
    replace h : s.renew_lease job_id worker_id fencing_token now lease_seconds = .ok (r, s') := h
    refine .of_eq ?_
    unfold Store.renew_lease at h
    split at h
    · cases h
    · split at h
      · cases h
      · split at h
        · cases h
        · cases h
          rfl
  | reserve_intent input =>
    replace h : s.reserve_intent input = .ok (r, s') := h
    unfold Store.reserve_intent at h
    dsimp only at h
    split at h
    · cases h
    · split at h
      · cases h
      · split at h
        · cases h
          exact .of_eq rfl
        · rename_i hnew
          cases h
          intro key row hrow _
          show (s.intents.insert _ hnew).find? key = some row
          rw [Relational.Table.find?_insert]
          split
          · rename_i heq
            have hkey : input.key = key := heq
            rw [← hkey, hnew] at hrow
            cases hrow
          · exact hrow
  | mark_intent_unconfirmed key job_id fencing_token now error_class => exact committedStay_settle_intent h
  | settle_intent_failed key job_id fencing_token now receipt =>
    replace h : (if receipt.hasText "status" "FAILED" then
      s.settle_intent key job_id fencing_token now .FAILED (redact_value _redact_string receipt)
        "intent was already settled or out of scope"
      else .error (.value "authoritative FAILED receipt required")) = .ok (r, s') := h
    split at h
    · exact committedStay_settle_intent h
    · cases h
  | commit_intent key receipt fencing_token job_id now => exact committedStay_settle_intent h
  | _ =>
    cases h
    exact .of_eq rfl

theorem committedStay_after (c : Call) (o : Outside) (w : Store) :
    CommittedStay w ((exec _redact_string).after c o w) := by
  cases hanswer : (exec _redact_string).answer c o w with
  | ok r => exact committedStay_run (run_of_answer hanswer)
  | error e => exact .of_eq (congrArg Store.intents (Exec.after_of_answer_error hanswer))

/-- What has been answered about committed intents still holds. -/
structure Journal (_redact_string : String → String) (m : DurableStage) : Prop where
  committed : ∀ {i key receipt fencing_token job_id now},
    ⟨i, .commit_intent key receipt fencing_token job_id now, .ok ()⟩ ∈ m.history →
      (∃ observation verification trace_id tick_n committed,
        receipt = committedReceipt observation verification trace_id tick_n committed) ∧
          ∃ row, m.world.intents.find? key = some row ∧ row.status = .COMMITTED ∧
            row.receipt = stored _redact_string receipt
  read : ∀ {i key intent}, ⟨i, .get_intent key, .ok (some intent)⟩ ∈ m.history → intent.status = .COMMITTED →
    m.world.intents.find? key = some intent

variable [Sha256] {d : Deployment} {m : DurableStage} {i : ℕ}

theorem journal_perform (h : Journal d._redact_string m) (hduly : Duly (m.own i) c) :
    Journal d._redact_string (m.perform (runtime d).exec i c o) := by
  have hstay : CommittedStay m.world (m.perform (runtime d).exec i c o).world := committedStay_after c o m.world
  refine ⟨fun {j key receipt fencing_token job_id now} hmem => ?_, fun {j key intent} hmem hstatus => ?_⟩
  · rcases List.mem_append.mp hmem with hmem | hmem
    · obtain ⟨hform, row, hrow, hstatus, hreceipt⟩ := h.committed hmem
      exact ⟨hform, row, hstay key row hrow hstatus, hstatus, hreceipt⟩
    · obtain ⟨rfl, rfl, hanswer⟩ := Event.mk.inj (List.mem_singleton.mp hmem)
      have hrun := run_of_answer (eq_of_heq hanswer).symm
      obtain ⟨row, hrow, -, hintents⟩ := settled_of_settle_intent hrun
      refine ⟨hduly, row.settle .COMMITTED (redact_value d._redact_string receipt), ?_, rfl, rfl⟩
      show ((exec d._redact_string).after _ o m.world).intents.find? key = _
      rw [hintents, Relational.Table.find?_update, if_pos rfl, hrow]
      rfl
  · rcases List.mem_append.mp hmem with hmem | hmem
    · exact hstay key intent (h.read hmem hstatus) hstatus
    · obtain ⟨rfl, rfl, hanswer⟩ := Event.mk.inj (List.mem_singleton.mp hmem)
      have hrun := run_of_answer (eq_of_heq hanswer).symm
      exact hstay key intent (congrArg Prod.fst (Except.ok.inj hrun)) hstatus

variable {w : Store} {steps : List (DurableStage × DurableAction)} {pool : Pool DurableCalls Store}

theorem meets_duly (run : Run (runtime d) w steps pool) {c : Call} (hmem : (m, .call i c o) ∈ steps) :
    Duly (m.own i) c := by
  have hobeys : ∀ p, (runtime d).Starts p → p.Obeys Duly (fun _ _ => True) [] := by
    rintro p ⟨request, rfl⟩
    exact obeys_program d request
  exact run.obeys hobeys hmem

theorem journal_of_run (run : Run (runtime d) w steps pool) (hm : m ∈ visited steps pool) :
    Journal d._redact_string m := by
  refine run.steps_of_meets (C := fun m a => ∀ i c o, a = .call i c o → Duly (m.own i) c)
    (P := Journal d._redact_string) ⟨fun hmem => (nomatch hmem), fun hmem => (nomatch hmem)⟩ ?_
    (fun m w' _ h => absurd h id) ?_ hm
  · exact fun m i c o h hduly => journal_perform h (hduly i c o rfl)
  · rintro ⟨m, a⟩ hmem i c o rfl
    exact meets_duly run hmem

end Journal

/-! ## Adopted receipts -/

theorem stored_committedReceipt (_redact_string : String → String) (observation verification : Object)
    (trace_id : String) (tick_n : ℕ) (committed : Instant) :
    (stored _redact_string (committedReceipt observation verification trace_id tick_n committed)).get "observation" =
      some (stored _redact_string observation) := by
  unfold committedReceipt
  rw [stored_dict, Object.dictOf_of_nodup]
  · rfl
  · show [Key.str "observation", .str "verification", .str "trace_id", .str "logical_tick",
      .str "wall_committed_at"].Nodup
    decide

section Adoption

variable [Sha256] {d : Deployment} {w : Store} {steps : List (DurableStage × DurableAction)}
  {pool : Pool DurableCalls Store} {m : DurableStage} {o : Outside}

theorem adopted_eq_stored (run : Run (runtime d) w steps pool) {j : ℕ} {job : Job} {adopted : Object}
    (hverify : (m, .call j (.verify job adopted) o) ∈ steps) {key : String} {intent : Intent}
    (hread : ⟨.get_intent key, .ok (some intent)⟩ ∈ m.own j) (hstatus : intent.status = .COMMITTED)
    {i fencing_token : ℕ} {receipt observation : Object} {job_id : String} {now : Instant}
    (hcommit : ⟨i, .commit_intent key receipt fencing_token job_id now, .ok ()⟩ ∈ m.history)
    (hobservation : receipt.get "observation" = some observation) :
    adopted = stored d._redact_string observation := by
  have hjournal : Journal d._redact_string m :=
    journal_of_run run (List.mem_append_left _ (List.mem_map_of_mem hverify))
  obtain ⟨⟨observation', verification, trace_id, tick_n, committed, rfl⟩, row, hrow, -, hreceipt⟩ :=
    hjournal.committed hcommit
  -- the worker has read the row
  have hsame : row = intent := by
    have hfound := hjournal.read (Stage.mem_own.mp hread) hstatus
    rw [hrow] at hfound
    exact Option.some.inj hfound
  have hadopts : intent.receipt.get "observation" = some adopted :=
    meets_duly run hverify intent ⟨hstatus, key, hread⟩
  rw [← hsame, hreceipt, stored_committedReceipt] at hadopts
  cases hobservation
  exact (Option.some.inj hadopts).symm

/-- **What a tick adopts after a crash**: the observation it verifies is the committed one, redacted and read
    back from JSON, and so equal to it exactly when neither changes anything in it. -/
theorem adopted_observation (run : Run (runtime d) w steps pool) {j : ℕ} {job : Job} {adopted : Object}
    (hverify : (m, .call j (.verify job adopted) o) ∈ steps) {key : String} {intent : Intent}
    (hread : ⟨.get_intent key, .ok (some intent)⟩ ∈ m.own j) (hstatus : intent.status = .COMMITTED)
    {i fencing_token : ℕ} {receipt observation : Object} {job_id : String} {now : Instant}
    (hcommit : ⟨i, .commit_intent key receipt fencing_token job_id now, .ok ()⟩ ∈ m.history)
    (hobservation : receipt.get "observation" = some observation) :
    adopted = (redact_value d._redact_string observation).json ∧
      (adopted = observation ↔ Unchanged d._redact_string observation) := by
  have hstored := adopted_eq_stored run hverify hread hstatus hcommit hobservation
  refine ⟨hstored, ?_⟩
  rw [hstored]
  exact stored_eq_iff observation

end Adoption

/-! ### A receipt with a secret -/

section Secret

attribute [local instance] Canonical.plainHash

/-- Its observations have a field that is redacted. -/
def leaking : Deployment where
  handlers _ := some ⟨"render", "v1", "RETRY_SAFE", fun _ => "target", fun _ => "input"⟩
  _redact_string := id

/-- What the handlers answer: the same object is observed, and says that it is verified. -/
def passed : Outside := { object := .dict [(.str "status", .str "PASSED"), (.str "secret", .int 1)] }

def tick (worker_id : String) (now : Instant) : Program DurableCalls Unit :=
  (Request.run_tick "trace" worker_id (some now) 900 none none).program leaking

/-- Worker 1 commits its receipt, and crashes before it can move the job on; worker 2 takes the job when the
    lease has expired. -/
def crashedAfterCommit : List (Move DurableCalls Store Outside) :=
  [.start ((Request.create_job render).program leaking), .call 0 passed, .start (tick "first" 0)] ++
    List.replicate 31 (.call 1 passed) ++ .start (tick "second" (900 * SECOND)) :: List.replicate 10 (.call 2 passed)

theorem crashedAfterCommit_allowed : ∀ x ∈ crashedAfterCommit, x.Allowed (runtime leaking) := by
  intro x hx
  simp only [crashedAfterCommit, List.mem_append, List.mem_cons, List.not_mem_nil, or_false, List.mem_replicate] at hx
  rcases hx with ((rfl | rfl | rfl) | ⟨-, rfl⟩) | rfl | ⟨-, rfl⟩
  · exact ⟨_, rfl⟩
  · trivial
  · exact ⟨_, rfl⟩
  · trivial
  · exact ⟨_, rfl⟩
  · trivial

def afterCrash : List (DurableStage × DurableAction) × Pool DurableCalls Store :=
  play (runtime leaking) (Pool.init {}) crashedAfterCommit

theorem run_afterCrash : Run (runtime leaking) {} afterCrash.1 afterCrash.2 := play_run crashedAfterCommit_allowed

/-- The receipt has been committed under the key, and its observation has a secret. -/
def committedSecret (m : DurableStage) (key : String) : Bool :=
  m.history.any fun
    | ⟨_, .commit_intent key' receipt _ _ _, .ok ()⟩ =>
      key' = key && (receipt.get "observation").any fun observation =>
        (observation.get "secret").any fun secret => secret.text? = none
    | _ => false

/-- The worker has read the intent whose receipt was committed. -/
def hasReadSecret (m : DurableStage) (j : ℕ) : Bool :=
  (m.own j).any fun
    | ⟨.get_intent key, .ok (some intent)⟩ => intent.status = .COMMITTED && committedSecret m key
    | _ => false

/-- A worker verifies what it has adopted. -/
def verifiesSecret : DurableStage × DurableAction → Bool
  | (m, .call j (.verify ..) _) => hasReadSecret m j
  | _ => false

theorem changed_of_secret {_redact_string : String → String} {observation : Object}
    (h : ((observation.get "secret").any fun secret => secret.text? = none) = true) :
    ¬ Unchanged _redact_string observation := by
  obtain ⟨secret, hsecret, htext⟩ := (Option.any_eq_true ..).mp h
  intro hunchanged
  cases hunchanged with
  | dict _ _ hredacted _ =>
    obtain ⟨kv, hfound, rfl⟩ := Option.map_eq_some_iff.mp hsecret
    have hkey : kv.1 = .str "secret" := by simpa using List.find?_some hfound
    have hmark := hredacted kv (List.mem_of_find?_eq_some hfound) (by rw [hkey]; decide +kernel)
    rw [hmark] at htext
    simp [Object.text?] at htext
  | _ => cases hsecret

theorem secret_adopted : ∃ m j job adopted o, (m, .call j (.verify job adopted) o) ∈ afterCrash.1 ∧
    ∃ key intent, ⟨.get_intent key, .ok (some intent)⟩ ∈ m.own j ∧ intent.status = .COMMITTED ∧
      ∃ i receipt fencing_token job_id now observation,
        ⟨i, .commit_intent key receipt fencing_token job_id now, .ok ()⟩ ∈ m.history ∧
          receipt.get "observation" = some observation ∧ ∀ _redact_string, ¬ Unchanged _redact_string observation := by
  have hany : afterCrash.1.any verifiesSecret = true := by decide +kernel
  obtain ⟨⟨m, a⟩, hmem, hverifies⟩ := List.any_eq_true.mp hany
  unfold verifiesSecret at hverifies
  split at hverifies
  · rename_i m j job adopted o heq
    cases heq
    obtain ⟨x, hx, hread⟩ := List.any_eq_true.mp hverifies
    split at hread
    · rename_i key intent
      rw [Bool.and_eq_true, decide_eq_true_eq] at hread
      obtain ⟨e, he, hcommit⟩ := List.any_eq_true.mp hread.2
      split at hcommit
      · rename_i i key' receipt fencing_token job_id now
        rw [Bool.and_eq_true, decide_eq_true_eq] at hcommit
        obtain ⟨rfl, hsecret⟩ := hcommit
        obtain ⟨observation, hobservation, hsecret⟩ := (Option.any_eq_true ..).mp hsecret
        exact ⟨m, j, job, adopted, o, hmem, key', intent, hx, hread.1, i, receipt, fencing_token, job_id, now, observation,
          he, hobservation, fun _ => changed_of_secret hsecret⟩
      · cases hcommit
    · cases hread
  · cases hverifies

/-- What the second worker verifies is the redacted observation. -/
theorem secret_observation_adopted : ∃ m j job adopted o, (m, .call j (.verify job adopted) o) ∈ afterCrash.1 ∧
    ∃ i key receipt fencing_token job_id now observation,
      ⟨i, .commit_intent key receipt fencing_token job_id now, .ok ()⟩ ∈ m.history ∧
        receipt.get "observation" = some observation ∧ adopted = (redact_value id observation).json ∧
          (adopted = observation ↔ Unchanged id observation) := by
  obtain ⟨m, j, job, adopted, o, hverify, key, intent, hread, hstatus, i, receipt, fencing_token, job_id, now,
    observation, hcommit, hobservation, -⟩ := secret_adopted
  exact ⟨m, j, job, adopted, o, hverify, i, key, receipt, fencing_token, job_id, now, observation, hcommit, hobservation,
    adopted_observation run_afterCrash hverify hread hstatus hcommit hobservation⟩

/-- It is not the observation that was committed. -/
theorem secret_observation_lost : ∃ steps pool, Run (runtime leaking) {} steps pool ∧
    ∃ m j job adopted o, (m, .call j (.verify job adopted) o) ∈ steps ∧
      ∃ key intent, ⟨.get_intent key, .ok (some intent)⟩ ∈ m.own j ∧ intent.status = .COMMITTED ∧
        ∃ i receipt fencing_token job_id now observation,
          ⟨i, .commit_intent key receipt fencing_token job_id now, .ok ()⟩ ∈ m.history ∧
            receipt.get "observation" = some observation ∧ adopted ≠ observation := by
  obtain ⟨m, j, job, adopted, o, hverify, key, intent, hread, hstatus, i, receipt, fencing_token, job_id, now,
    observation, hcommit, hobservation, hchanged⟩ := secret_adopted
  have hstored := adopted_eq_stored run_afterCrash hverify hread hstatus hcommit hobservation
  refine ⟨_, _, run_afterCrash, m, j, job, adopted, o, hverify, key, intent, hread, hstatus, i, receipt, fencing_token,
    job_id, now, observation, hcommit, hobservation, fun heq => hchanged leaking._redact_string ?_⟩
  rw [← stored_eq_iff, ← hstored]
  exact heq

end Secret

end Durable
