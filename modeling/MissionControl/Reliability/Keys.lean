import MissionControl.Interleaving.Amid
import MissionControl.Reliability.Audit
import MissionControl.Reliability.Outbox

/-! # Idempotency keys

A key belongs to the request that claims it first. A claim looks the key up before the transaction that
writes its record, and that transaction writes the whole record, whatever is stored by then; so two requests
may come to hold one key. What a key promises holds on the runs in which a claim that found its key free
writes to a free key, or to one that the same request has claimed meanwhile and not completed. -/

namespace Reliability

open Canonical (Value Sha256 canonical_hash)
open Interleaving
open Interleaving.Program (Exchange Obeys Only obeys_perform only_perform)
open Relational (Table)

/-! ## Claims and completions -/

/-- The arguments of `claim_idempotency`. -/
structure Claim where
  tenant_id : String
  project_id : String
  idempotency_key : String
  operation_id : String
  request : Value

/-- The arguments of `complete_idempotency`. -/
structure Completion where
  idempotency_key : String
  result_ref : Option String
  status : IdempotencyStatus

/-- The records are of one request. -/
structure SameRequest (r r' : IdempotencyRecord) : Prop where
  tenant_id : r.tenant_id = r'.tenant_id
  project_id : r.project_id = r'.project_id
  operation_id : r.operation_id = r'.operation_id
  request_hash : r.request_hash = r'.request_hash

theorem SameRequest.refl (r : IdempotencyRecord) : SameRequest r r := ⟨rfl, rfl, rfl, rfl⟩

theorem SameRequest.symm {r r' : IdempotencyRecord} (h : SameRequest r r') : SameRequest r' r :=
  ⟨h.tenant_id.symm, h.project_id.symm, h.operation_id.symm, h.request_hash.symm⟩

theorem SameRequest.trans {r r' r'' : IdempotencyRecord} (h : SameRequest r r') (h' : SameRequest r' r'') :
    SameRequest r r'' :=
  ⟨h.tenant_id.trans h'.tenant_id, h.project_id.trans h'.project_id, h.operation_id.trans h'.operation_id,
    h.request_hash.trans h'.request_hash⟩

/-- The record is of the request that is claimed. -/
structure Claim.Holds [Sha256] (q : Claim) (r : IdempotencyRecord) : Prop where
  idempotency_key : r.idempotency_key = q.idempotency_key
  tenant_id : r.tenant_id = q.tenant_id
  project_id : r.project_id = q.project_id
  operation_id : r.operation_id = q.operation_id
  request_hash : r.request_hash = canonical_hash q.request

abbrev Keys : Type := Table IdempotencyRecord String IdempotencyRecord.idempotency_key

/-- Every record stays a record of its request. -/
def KeepsRequests (t t' : Keys) : Prop :=
  ∀ key r, t.find? key = some r → ∃ r', t'.find? key = some r' ∧ SameRequest r r'

/-- A record that was completed stays completed. -/
def KeepsCompleted (t t' : Keys) : Prop :=
  ∀ key r, t.find? key = some r → r.status ≠ .CLAIMED → ∃ r', t'.find? key = some r' ∧ r'.status ≠ .CLAIMED

theorem KeepsRequests.refl (t : Keys) : KeepsRequests t t := fun _ r h => ⟨r, h, .refl r⟩

theorem KeepsRequests.trans {t₁ t₂ t₃ : Keys} (h : KeepsRequests t₁ t₂) (h' : KeepsRequests t₂ t₃) :
    KeepsRequests t₁ t₃ := by
  intro key r hr
  obtain ⟨r', hr', hsame⟩ := h key r hr
  obtain ⟨r'', hr'', hsame'⟩ := h' key r' hr'
  exact ⟨r'', hr'', hsame.trans hsame'⟩

theorem KeepsRequests.put {t : Keys} {u : IdempotencyRecord}
    (h : ∀ r, t.find? u.idempotency_key = some r → SameRequest r u) : KeepsRequests t (t.put u) := by
  intro key r hr
  rw [Table.find?_put]
  by_cases hkey : u.idempotency_key = key
  · subst hkey
    exact ⟨u, if_pos rfl, h r hr⟩
  · exact ⟨r, (if_neg hkey).trans hr, .refl r⟩

section

variable [Sha256] [JsonTime]

def Claim.program (q : Claim) : Trust IdempotencyRecord :=
  claim_idempotency q.tenant_id q.project_id q.idempotency_key q.operation_id q.request

def Completion.program (q : Completion) : Trust IdempotencyRecord :=
  complete_idempotency q.idempotency_key q.result_ref q.status

/-- **Claims and completions** of any keys, while the kernel writes other records. -/
def claiming : System TrustCalls ReliabilityState Outcome where
  exec := exec
  Starts p := (∃ q : Claim, p = q.program.void) ∨ ∃ q : Completion, p = q.program.void
  Env w w' := w'.idempotency = w.idempotency

/-! ## What a transaction does to the keys -/

/-- The keys after a statement. -/
def Write.keys (t : Keys) : Write → Keys
  | .put_idempotency value => t.put value
  | _ => t

omit [JsonTime] in
theorem Write.keys_apply {read tx tx' : ReliabilityState} {now : Instant} {x : Write}
    (h : x.apply read tx now = .ok tx') : tx'.idempotency = x.keys tx.idempotency := by
  cases x with
  | put_policy value =>
    simp only [Write.apply] at h
    split at h <;> cases h
    rfl
  | append_audit e =>
    simp only [Write.apply, Reliability.append_audit] at h
    split at h <;> cases h
    rfl
  | _ =>
    cases h
    rfl

omit [JsonTime] in
theorem keys_after (c : Call) (o : Outcome) (s : ReliabilityState) :
    (exec.after c o s).idempotency = (wrote c (exec.answer c o s)).foldl Write.keys s.idempotency :=
  view_after Write.keys_apply c o s

/-- The transaction writes no key. -/
def NoKey (writes : List Write) : Prop := ∀ u, Write.put_idempotency u ∉ writes

omit [Sha256] [JsonTime] in
theorem foldl_keys_of_noKey {writes : List Write} (h : NoKey writes) (t : Keys) :
    writes.foldl Write.keys t = t := by
  induction writes generalizing t with
  | nil => rfl
  | cons x rest ih =>
    have hx : x.keys t = t := by
      cases x with
      | put_idempotency u => exact absurd (List.mem_cons_self ..) (h u)
      | _ => rfl
    rw [List.foldl_cons, hx]
    exact ih (fun u hu => h u (List.mem_cons_of_mem _ hu)) t

/-! ## What claims and completions have read -/

abbrev Past : Type := List (Exchange TrustCalls)

/-- The state an exchange read. -/
def readOf : Exchange TrustCalls → Option ReliabilityState
  | ⟨.state, .ok state⟩ => some state
  | _ => none

/-- The state that was read last. -/
def lastRead (past : Past) : Option ReliabilityState := (past.filterMap readOf).getLast?

/-- The key was free when it was looked up. -/
def FoundFree (past : Past) (key : String) : Prop :=
  ∃ state, lastRead past = some state ∧ state.idempotency.find? key = none

/-- A claim writes an uncompleted record, under a key it found free. -/
def ClaimsDuly (past : Past) : Call → Prop
  | .transaction writes => NoKey writes ∨
    ∃ u, writes = [.put_idempotency u] ∧ FoundFree past u.idempotency_key
  | _ => True

/-- A completion writes a record of the request it found. -/
def CompletesDuly (past : Past) : Call → Prop
  | .transaction writes => NoKey writes ∨
    ∃ u state current, writes = [.put_idempotency u] ∧ lastRead past = some state ∧
      state.idempotency.find? u.idempotency_key = some current ∧ SameRequest current u
  | _ => True

section

omit [Sha256] [JsonTime]

variable {past : Past}

theorem lastRead_state (past : Past) (state : ReliabilityState) :
    lastRead (past ++ [⟨.state, .ok state⟩]) = some state := by
  rw [lastRead, List.filterMap_append]
  exact List.getLast?_concat

theorem lastRead_utc_now (past : Past) (ans : TrustCalls.Answer .utc_now) :
    lastRead (past ++ [⟨.utc_now, ans⟩]) = lastRead past := by
  rw [lastRead, List.filterMap_append]
  show (past.filterMap readOf ++ []).getLast? = _
  rw [List.append_nil]
  rfl

theorem mem_of_lastRead {state : ReliabilityState} (h : lastRead past = some state) :
    (⟨.state, .ok state⟩ : Exchange TrustCalls) ∈ past := by
  obtain ⟨x, hx, hread⟩ := List.mem_filterMap.mp (List.mem_of_getLast? h)
  have hshape : ∀ x : Exchange TrustCalls, readOf x = some state → x = ⟨.state, .ok state⟩ := by
    intro x hread
    unfold readOf at hread
    split at hread
    · cases hread
      rfl
    · cases hread
  rw [← hshape x hread]
  exact hx

end

/-- A call that writes no key. -/
def Keyless : Call → Prop
  | .transaction writes => NoKey writes
  | _ => True

omit [JsonTime] in
theorem keyless_assert_scope (tenant_id project_id : String) :
    (assert_scope tenant_id project_id).Only Keyless := by
  refine Only.bind (only_perform trivial) fun state => ?_
  split
  · trivial
  · split
    · trivial
    · split
      · trivial
      · split <;> trivial

theorem keyless_open_recovery_case (tenant_id project_id operation_id : String) (reason : RecoveryReason)
    (execution_ref observation_ref idempotency_key : Option String) (evidence_refs : List String) :
    (open_recovery_case tenant_id project_id operation_id reason execution_ref observation_ref idempotency_key
      evidence_refs).Only Keyless := by
  refine Only.bind (keyless_assert_scope tenant_id project_id) fun binding => ?_
  refine Only.bind (only_perform trivial) fun state => ?_
  split
  · trivial
  · refine Only.bind (only_perform trivial) fun created_at => ?_
    refine Only.bind (only_perform fun u hu => ?_) fun _ => trivial
    simp at hu

omit [Sha256] [JsonTime] in
theorem claimsDuly_of_keyless (past : Past) (c : Call) (h : Keyless c) : ClaimsDuly past c := by
  cases c with
  | transaction writes => exact .inl h
  | _ => trivial

theorem claim_obeys (q : Claim) : q.program.void.Obeys ClaimsDuly (fun _ _ => True) [] := by
  have hkeyless : ∀ {α : Type} {p : Trust α} (past : Past), p.Only Keyless →
      p.Obeys ClaimsDuly (fun _ _ => True) past := fun past hp =>
    (hp.obeys claimsDuly_of_keyless).mono fun _ _ _ => trivial
  refine Obeys.void (Q := fun _ _ => True) ?_
  refine (hkeyless [] (keyless_assert_scope q.tenant_id q.project_id)).bind fun binding past _ => ?_
  refine (obeys_perform (Q := fun state past' => lastRead past' = some state) trivial
    fun state => lastRead_state past state).bind fun state past hread => ?_
  split
  · split
    · trivial
    · split
      · exact (hkeyless past (keyless_open_recovery_case ..)).bind fun _ _ _ => trivial
      · trivial
  · rename_i hfree
    refine (obeys_perform (Q := fun _ past' => lastRead past' = some state) trivial
      fun now => (lastRead_utc_now past (.ok now)).trans hread).bind fun created_at past hread => ?_
    refine (obeys_perform (Q := fun _ past' => lastRead past' = some state) trivial
      fun now => (lastRead_utc_now past (.ok now)).trans hread).bind fun updated_at past hread => ?_
    refine (obeys_perform (Q := fun _ _ => True) ?_ fun _ => trivial).bind fun _ _ _ => trivial
    exact .inr ⟨_, rfl, state, hread, hfree⟩

omit [Sha256] [JsonTime] in
theorem completion_obeys (q : Completion) : q.program.void.Obeys CompletesDuly (fun _ _ => True) [] := by
  refine Obeys.void (Q := fun _ _ => True) ?_
  refine (obeys_perform (Q := fun state past' => lastRead past' = some state) trivial
    fun state => lastRead_state [] state).bind fun state past hread => ?_
  split
  · trivial
  · rename_i current hfind
    refine (obeys_perform (Q := fun _ past' => lastRead past' = some state) trivial
      fun now => (lastRead_utc_now past (.ok now)).trans hread).bind fun updated_at past hread => ?_
    refine (obeys_perform (Q := fun _ _ => True) ?_ fun _ => trivial).bind fun _ _ _ => trivial
    have hkey := Table.key_of_find? hfind
    exact .inr ⟨_, state, current, rfl, hread, hkey ▸ hfind, ⟨rfl, rfl, rfl, rfl⟩⟩

/-! ## What keys promise -/

/-- **A claim that found its key free writes to a free key**, or over an uncompleted record of its own
    request. -/
def Undisputed (m : TrustStage) : Action TrustCalls ReliabilityState Outcome → Prop
  | .call i c o => ∀ u, Write.put_idempotency u ∈ wrote c (exec.answer c o m.world) →
    FoundFree (m.own i) u.idempotency_key → ∀ r, m.world.idempotency.find? u.idempotency_key = some r →
    SameRequest r u ∧ r.status = .CLAIMED
  | _ => True

/-- The records an exchange shows: those of the state it read, or the one it wrote. -/
def Shows : Exchange TrustCalls → IdempotencyRecord → Prop
  | ⟨.state, .ok state⟩, r => r ∈ state.idempotency
  | ⟨.transaction writes, .ok ()⟩, r => .put_idempotency r ∈ writes
  | _, _ => False

/-- Every record that was read or written is of the request that has its key. -/
def Known (m : TrustStage) : Prop :=
  ∀ i x, x ∈ m.own i → ∀ r, Shows x r →
    ∃ r', m.world.idempotency.find? r.idempotency_key = some r' ∧ SameRequest r r'

/-- A call of the worker is one a claim makes, or a completion. -/
def MadeDuly (m : TrustStage) (i : Nat) (c : Call) : Prop :=
  ClaimsDuly (m.own i) c ∨ CompletesDuly (m.own i) c

variable {m : TrustStage} {i : Nat} {c : Call} {o : Outcome}

section
omit [JsonTime]

theorem keys_of_duly (hduly : MadeDuly m i c) :
    (NoKey (wrote c (exec.answer c o m.world)) ∧ (exec.after c o m.world).idempotency = m.world.idempotency) ∨
      ∃ u, wrote c (exec.answer c o m.world) = [.put_idempotency u] ∧
        (exec.after c o m.world).idempotency = m.world.idempotency.put u ∧
        (ClaimsDuly (m.own i) c → FoundFree (m.own i) u.idempotency_key) ∧
        (FoundFree (m.own i) u.idempotency_key ∨ ∃ state current, lastRead (m.own i) = some state ∧
            state.idempotency.find? u.idempotency_key = some current ∧ SameRequest current u) := by
  have hafter := keys_after c o m.world
  cases c with
  | transaction writes =>
    cases hanswer : exec.answer (.transaction writes) o m.world with
    | error e =>
      rw [hanswer] at hafter
      exact .inl ⟨fun u hu => (nomatch hu), hafter⟩
    | ok x =>
      rw [hanswer] at hafter
      have hclaims : ∀ u, writes = [.put_idempotency u] → ClaimsDuly (m.own i) (.transaction writes) →
          FoundFree (m.own i) u.idempotency_key := by
        rintro u rfl (hnone | ⟨u', hu', hfree⟩)
        · exact absurd (List.mem_singleton_self _) (hnone u)
        · cases hu'
          exact hfree
      rcases hduly with (hnone | ⟨u, rfl, hfree⟩) | (hnone | ⟨u, state, current, rfl, hread, hfind, hsame⟩)
      · exact .inl ⟨hnone, hafter.trans (foldl_keys_of_noKey hnone _)⟩
      · exact .inr ⟨u, rfl, hafter, hclaims u rfl, .inl hfree⟩
      · exact .inl ⟨hnone, hafter.trans (foldl_keys_of_noKey hnone _)⟩
      · exact .inr ⟨u, rfl, hafter, hclaims u rfl, .inr ⟨state, current, hread, hfind, hsame⟩⟩
  | _ => exact .inl ⟨fun u hu => (nomatch hu), hafter⟩

/-- **One call** that disputes no key keeps every record of its request. -/
theorem Known.keepsRequests (h : Known m) (hduly : MadeDuly m i c) (hok : Undisputed m (.call i c o)) :
    KeepsRequests m.world.idempotency (exec.after c o m.world).idempotency := by
  rcases keys_of_duly (o := o) hduly with ⟨-, hsame⟩ | ⟨u, hwrote, hput, -, hread⟩
  · rw [hsame]
    exact .refl _
  · rw [hput]
    refine KeepsRequests.put fun r hr => ?_
    rcases hread with hfree | ⟨state, current, hread, hfind, hsame⟩
    · exact (hok u (by rw [hwrote]; exact List.mem_singleton_self _) hfree r hr).1
    · -- what the completion read is of the request that has the key now
      obtain ⟨r', hr', hsame'⟩ := h i _ (mem_of_lastRead hread) current (Table.mem_of_find? hfind)
      rw [Table.key_of_find? hfind, hr] at hr'
      cases hr'
      exact hsame'.symm.trans hsame

theorem Known.perform (h : Known m) (hduly : MadeDuly m i c) (hok : Undisputed m (.call i c o)) :
    Known (m.perform exec i c o) := by
  have hkeeps := h.keepsRequests hduly hok
  intro j x hx r hshows
  by_cases hij : i = j
  · subst hij
    rw [Stage.own_perform] at hx
    rcases List.mem_append.mp hx with hx | hx
    · obtain ⟨r', hr', hsame⟩ := h i x hx r hshows
      obtain ⟨r'', hr'', hsame'⟩ := hkeeps _ r' hr'
      exact ⟨r'', hr'', hsame.trans hsame'⟩
    · rw [List.mem_singleton.mp hx] at hshows
      show ∃ r', (exec.after c o m.world).idempotency.find? _ = some r' ∧ _
      cases c with
      | state =>
        -- what was read is what is stored
        have hafter : exec.after .state o m.world = m.world := after_eq_self (by simp) o m.world
        rw [hafter]
        cases hanswer : exec.answer .state o m.world with
        | error e =>
          rw [hanswer] at hshows
          exact absurd hshows id
        | ok state =>
          have hstate : state = m.world := by
            have hexec := Exec.of_answer hanswer
            simp only [exec] at hexec
            split at hexec
            · cases hexec
            · exact (Prod.mk.inj (Except.ok.inj hexec)).1.symm
          rw [hanswer, hstate] at hshows
          exact ⟨r, Table.find?_key hshows, .refl r⟩
      | transaction writes =>
        cases hanswer : exec.answer (.transaction writes) o m.world with
        | error e =>
          rw [hanswer] at hshows
          exact absurd hshows id
        | ok x =>
          rw [hanswer] at hshows
          have hr : Write.put_idempotency r ∈ wrote (.transaction writes) (.ok x) := hshows
          rw [← hanswer] at hr
          rcases keys_of_duly (o := o) hduly with ⟨hnone, -⟩ | ⟨u, hwrote, hput, -, -⟩
          · exact absurd hr (hnone r)
          · rw [hwrote] at hr
            cases List.mem_singleton.mp hr
            refine ⟨r, ?_, .refl r⟩
            rw [hput, Table.find?_put, if_pos rfl]
      | _ => exact absurd hshows id
  · rw [Stage.own_perform_of_ne hij] at hx
    obtain ⟨r', hr', hsame⟩ := h j x hx r hshows
    obtain ⟨r'', hr'', hsame'⟩ := hkeeps _ r' hr'
    exact ⟨r'', hr'', hsame.trans hsame'⟩

theorem keepsCompleted_of_claims (hduly : ClaimsDuly (m.own i) c) (hok : Undisputed m (.call i c o)) :
    KeepsCompleted m.world.idempotency (exec.after c o m.world).idempotency := by
  intro key r hr hcompleted
  rcases keys_of_duly (o := o) (.inl hduly : MadeDuly m i c) with ⟨-, hsame⟩ | ⟨u, hwrote, hput, hclaims, -⟩
  · exact ⟨r, hsame ▸ hr, hcompleted⟩
  · rw [hput, Table.find?_put]
    by_cases hkey : u.idempotency_key = key
    · subst hkey
      have hclaimed := (hok u (by rw [hwrote]; exact List.mem_singleton_self _) (hclaims hduly) r hr).2
      exact absurd hclaimed hcompleted
    · exact ⟨r, (if_neg hkey).trans hr, hcompleted⟩

end

variable {w : ReliabilityState} {steps : List (TrustStage × Action TrustCalls ReliabilityState Outcome)}
  {s : Pool TrustCalls ReliabilityState}

theorem madeDuly_of_run (run : Run claiming w steps s) (h : (m, .call i c o) ∈ steps) : MadeDuly m i c := by
  obtain ⟨p, -, hstarts, hpre⟩ := run.origin h
  rcases hstarts with ⟨q, rfl⟩ | ⟨q, rfl⟩
  · exact .inl (hpre _ (claim_obeys q))
  · exact .inr (hpre _ (completion_obeys q))

theorem known_of_run (run : Run claiming w steps s) (hmeets : Meets Undisputed steps) : Known s.stage := by
  refine run.invariant_of_meets (C := fun m a => Undisputed m a ∧ ∀ i c o, a = .call i c o → MadeDuly m i c)
    (P := Known) (fun i x hx => nomatch hx) ?_ ?_ ?_
  · exact fun m i c o h hok => h.perform (hok.2 i c o rfl) hok.1
  · intro m w' h hsame j x hx r hshows
    show ∃ r', w'.idempotency.find? _ = some r' ∧ _
    rw [show w'.idempotency = m.world.idempotency from hsame]
    exact h j x hx r hshows
  · intro x hx
    refine ⟨hmeets x hx, fun i c o ha => madeDuly_of_run (o := o) run ?_⟩
    rw [← ha]
    exact hx

/-- The worker was started with the claim, which has returned. -/
def Returned (steps : List (TrustStage × Action TrustCalls ReliabilityState Outcome))
    (s : Pool TrustCalls ReliabilityState) (i : Nat) (q : Claim) : Prop :=
  (started steps)[i]? = some q.program.void ∧ s.workers[i]? = some (.ret ())

/-- **A claim that returned** was shown a record of its request. -/
theorem Claim.shown {q : Claim} {l : List (OwnCall TrustCalls ReliabilityState Outcome)} {a : IdempotencyRecord}
    (h : Amid exec q.program l (.ret a)) : ∃ x ∈ l, Shows (x.exchange exec) a ∧ q.Holds a := by
  obtain ⟨binding, l₁, l₂, rfl, -, hread⟩ := h.of_bind_ret
  obtain ⟨state, l₃, l₄, rfl, hstate, hdecide⟩ := hread.of_bind_ret
  obtain ⟨w, o, rfl, hanswer⟩ := hstate.of_perform_ret
  split at hdecide
  · rename_i existing hfind
    split at hdecide
    · exact nomatch hdecide.of_raise.2
    · rename_i hscope
      split at hdecide
      · obtain ⟨case, l₅, l₆, rfl, -, hfail⟩ := hdecide.of_bind_ret
        exact nomatch hfail.of_raise.2
      · rename_i hrequest
        obtain ⟨rfl, ha⟩ := hdecide.of_ret
        cases ha
        rw [not_or, not_not, not_not] at hscope hrequest
        refine ⟨⟨w, .state, o⟩, by simp, ?_, Table.key_of_find? hfind, hscope.1, hscope.2, hrequest.1, hrequest.2⟩
        show Shows ⟨.state, exec.answer .state o w⟩ a
        rw [hanswer]
        exact Table.mem_of_find? hfind
  · obtain ⟨created_at, l₅, l₆, rfl, -, hnow⟩ := hdecide.of_bind_ret
    obtain ⟨updated_at, l₇, l₈, rfl, -, hclaim⟩ := hnow.of_bind_ret
    obtain ⟨⟨⟩, l₉, l₁₀, rfl, hwrite, hret⟩ := hclaim.of_bind_ret
    obtain ⟨w', o', rfl, hanswer'⟩ := hwrite.of_perform_ret
    obtain ⟨rfl, ha⟩ := hret.of_ret
    cases ha
    refine ⟨_, List.mem_append_right _ (List.mem_append_right _ (List.mem_append_right _
      (List.mem_append_right _ (List.mem_append_left _ (List.mem_singleton_self _))))), ?_, rfl, rfl, rfl, rfl, rfl⟩
    show Shows ⟨.transaction _, exec.answer (.transaction _) o' w'⟩ _
    rw [hanswer']
    exact List.mem_singleton_self _

theorem Returned.holds (run : Run claiming w steps s) (hmeets : Meets Undisputed steps) {q : Claim}
    (h : Returned steps s i q) : ∃ r, s.stage.world.idempotency.find? q.idempotency_key = some r ∧ q.Holds r := by
  obtain ⟨a, hamid⟩ := ((run.amid.2.2 i _ _ h.1 h.2) : Amid exec q.program.void _ _).of_void_ret
  obtain ⟨x, hx, hshows, hholds⟩ := q.shown hamid
  have hown : x.exchange exec ∈ s.stage.own i := by
    rw [run.own]
    exact List.mem_map_of_mem hx
  obtain ⟨r, hr, hsame⟩ := known_of_run run hmeets i _ hown a hshows
  rw [hholds.idempotency_key] at hr
  exact ⟨r, hr, Table.key_of_find? hr, hsame.tenant_id.symm.trans hholds.tenant_id,
    hsame.project_id.symm.trans hholds.project_id, hsame.operation_id.symm.trans hholds.operation_id,
    hsame.request_hash.symm.trans hholds.request_hash⟩

/-- **One request per key.** -/
structure OneRequest (steps : List (TrustStage × Action TrustCalls ReliabilityState Outcome))
    (s : Pool TrustCalls ReliabilityState) : Prop where
  /-- All claims of a key that returned are of one request. -/
  claims : ∀ i j q q', Returned steps s i q → Returned steps s j q' → q.idempotency_key = q'.idempotency_key →
    q.tenant_id = q'.tenant_id ∧ q.project_id = q'.project_id ∧ q.operation_id = q'.operation_id ∧
      canonical_hash q.request = canonical_hash q'.request
  /-- The stored record never changes its request. -/
  records : (visited steps s).Pairwise fun m m' => KeepsRequests m.world.idempotency m'.world.idempotency
  /-- No claim puts a completed record back. -/
  completed : ∀ m i c o (q : Claim), (m, .call i c o) ∈ steps → (started steps)[i]? = some q.program.void →
    KeepsCompleted m.world.idempotency (exec.after c o m.world).idempotency

/-- **Keys.** In every run of claims and completions in which no claim that found its key free writes over another
    request's record, or over a completed one, each key has one request. -/
theorem keys_upheld (run : Run claiming w steps s) (hmeets : Meets Undisputed steps) : OneRequest steps s where
  claims i j q q' hq hq' hkey := by
    obtain ⟨r, hr, hholds⟩ := hq.holds run hmeets
    obtain ⟨r', hr', hholds'⟩ := hq'.holds run hmeets
    rw [← hkey, hr] at hr'
    cases hr'
    exact ⟨hholds.tenant_id.symm.trans hholds'.tenant_id, hholds.project_id.symm.trans hholds'.project_id,
      hholds.operation_id.symm.trans hholds'.operation_id, hholds.request_hash.symm.trans hholds'.request_hash⟩
  records := by
    refine run.pairwise_of_steps (C := Undisputed)
      (R := fun m m' => KeepsRequests m.world.idempotency m'.world.idempotency)
      (fun m => .refl _) ?_ ?_ hmeets
    · exact fun m₁ m₂ m₃ h h' => KeepsRequests.trans h h'
    · intro before p a p' run hmeets hok step run'
      cases step with
      | start hp => exact .refl _
      | env hw =>
        show KeepsRequests p.stage.world.idempotency _
        rw [show _ = p.stage.world.idempotency from hw]
        exact .refl _
      | @call i c next o hi =>
        have hduly : MadeDuly p.stage i c := madeDuly_of_run (o := o) run' (by simp)
        exact (known_of_run run hmeets).keepsRequests hduly hok
  completed m i c o q hmem hq := by
    obtain ⟨p, hp, -, hpre⟩ := run.origin hmem
    rw [hp] at hq
    cases hq
    exact keepsCompleted_of_claims (hpre _ (claim_obeys q)) (hmeets _ hmem)

end

/-! ## Two claims of one key -/

attribute [local instance] Canonical.mixHash epochTime

/-- A claim of the key `k`. -/
def claimOfK (operation_id : String) : Claim where
  tenant_id := "t"
  project_id := "p"
  idempotency_key := "k"
  operation_id := operation_id
  request := .none

/-- The call of the worker, with nothing going wrong. -/
def callBy (i : Nat) : Move TrustCalls ReliabilityState Outcome := .call i calm

/-- Two claims look the key up before either writes. -/
def overlappingClaims : List (Move TrustCalls ReliabilityState Outcome) :=
  [.start (claimOfK "a").program.void, .start (claimOfK "b").program.void] ++
    [0, 0, 1, 1, 0, 0, 0, 1, 1, 1].map callBy

/-- One claim, and after it the other. -/
def claimsInTurn : List (Move TrustCalls ReliabilityState Outcome) :=
  [.start (claimOfK "a").program.void, .start (claimOfK "a").program.void] ++
    [0, 0, 0, 0, 0, 1, 1].map callBy

theorem allowed_of_claims {a b : String} {turns : List Nat} : ∀ x ∈ [.start (claimOfK a).program.void,
    .start (claimOfK b).program.void] ++ turns.map callBy, x.Allowed claiming := by
  intro x hx
  rcases List.mem_append.mp hx with hx | hx
  · rw [List.mem_cons, List.mem_singleton] at hx
    rcases hx with rfl | rfl
    · exact .inl ⟨_, rfl⟩
    · exact .inl ⟨_, rfl⟩
  · obtain ⟨i, -, rfl⟩ := List.mem_map.mp hx
    trivial

/-- The worker has returned. -/
def returned (s : Pool TrustCalls ReliabilityState) (i : Nat) : Bool :=
  match s.workers[i]? with
  | some (.ret ()) => true
  | _ => false

theorem of_returned {s : Pool TrustCalls ReliabilityState} {i : Nat} (h : returned s i = true) :
    s.workers[i]? = some (.ret ()) := by
  unfold returned at h
  split at h
  · assumption
  · cases h

/-- **Both claims return**, for two operations. -/
theorem key_has_two_requests : ∃ w steps s, Run claiming w steps s ∧ ¬ OneRequest steps s := by
  have hrun : Run claiming oneProject (play claiming (Pool.init oneProject) overlappingClaims).1
      (play claiming (Pool.init oneProject) overlappingClaims).2 := play_run allowed_of_claims
  refine ⟨_, _, _, hrun, fun h => ?_⟩
  have hstarted : started (play claiming (Pool.init oneProject) overlappingClaims).1 =
      [(claimOfK "a").program.void, (claimOfK "b").program.void] := started_play overlappingClaims _
  have hfirst : Returned (play claiming (Pool.init oneProject) overlappingClaims).1
      (play claiming (Pool.init oneProject) overlappingClaims).2 0 (claimOfK "a") :=
    ⟨by rw [hstarted]; rfl, of_returned (by decide +kernel)⟩
  have hsecond : Returned (play claiming (Pool.init oneProject) overlappingClaims).1
      (play claiming (Pool.init oneProject) overlappingClaims).2 1 (claimOfK "b") :=
    ⟨by rw [hstarted]; rfl, of_returned (by decide +kernel)⟩
  have hoperation := (h.claims 0 1 _ _ hfirst hsecond rfl).2.2.1
  exact absurd hoperation (by decide)

/-- A statement that writes a key writes a free one. -/
def Write.toFreeKey (t : Keys) : Write → Bool
  | .put_idempotency u => (t.find? u.idempotency_key).isNone
  | _ => true

/-- Whatever the step writes of the keys, it writes to free ones. -/
def toFreeKeys (m : TrustStage) : Action TrustCalls ReliabilityState Outcome → Bool
  | .call _ c o => (wrote c (exec.answer c o m.world)).all (Write.toFreeKey m.world.idempotency)
  | _ => true

theorem undisputed_of_toFreeKeys {m : TrustStage} {a : Action TrustCalls ReliabilityState Outcome}
    (h : toFreeKeys m a = true) : Undisputed m a := by
  cases a with
  | call i c o =>
    intro u hu _ r hr
    have hfree := List.all_eq_true.mp h _ hu
    rw [Write.toFreeKey, hr] at hfree
    cases hfree
  | _ => trivial

theorem keys_upheld_in_turn : OneRequest (play claiming (Pool.init oneProject) claimsInTurn).1
    (play claiming (Pool.init oneProject) claimsInTurn).2 := by
  have hfree : (play claiming (Pool.init oneProject) claimsInTurn).1.all (fun x => toFreeKeys x.1 x.2) = true := by
    decide +kernel
  refine keys_upheld (w := oneProject) (play_run allowed_of_claims) fun x hx => ?_
  exact undisputed_of_toFreeKeys (List.all_eq_true.mp hfree x hx)

end Reliability
