import MissionControl.Commerce.Accounting

/-! # Transfers

A conversion is paid once: what a transfer has paid for stays in its payout. A payout that fails
although its transfer has landed releases what was paid for, and the next payout run pays for it
again, under a key of its own. -/

namespace Commerce

open Interleaving
open Interleaving.Program (Exchange Only only_perform)
open Relational (Table)

variable {m m' : GatewayStage} {i j : Nat} {c : Call} {o : Outside} {w w' : World} {db db' : Database}

/-! ## What a transfer pays for -/

/-- The exchange by which a worker learned of a claim. -/
def claims? : Exchange GatewayCalls → Option Claim
  | ⟨.claim _ _, .ok (.ok claim)⟩ => claim
  | _ => none

/-- Worker `i` holds the claim. -/
def Holds (m : GatewayStage) (i : Nat) (claim : Claim) : Prop :=
  ∃ x ∈ m.own i, claims? x = some claim

/-- The transfer has paid for the conversion: it landed under the key of a claim on it. -/
def PaysFor (m : GatewayStage) (landed : Transfer) (conversionId : String) : Prop :=
  ∃ i claim, Holds m i claim ∧ claim.payout.idempotencyKey = landed.idempotencyKey ∧
    ∃ item ∈ claim.items, item.conversionId = conversionId

/-- **Each conversion is part of one transfer at most.** -/
def PaidOnce (m : GatewayStage) : Prop :=
  ∀ landed ∈ m.world.transfers, ∀ landed' ∈ m.world.transfers, ∀ conversionId,
    PaysFor m landed conversionId → PaysFor m landed' conversionId → landed = landed'

/-- **What is paid stays paid**, with its items. -/
def StaysPaid (db db' : Database) : Prop :=
  ∀ p ∈ db.payouts, p.status = .PAID →
    (∃ p' ∈ db'.payouts, p'.id = p.id ∧ p'.status = .PAID) ∧
      ∀ item ∈ db.items, item.payoutId = p.id → item ∈ db'.items

/-- **The condition**: a payout that fails is not paid, and no transfer has landed under its key. -/
def Unpaid (m : GatewayStage) : GatewayAction → Prop
  | .call _ (.markFailed payoutId _) o => o.fault.made = true →
    ∀ p ∈ m.world.db.payouts, p.id = payoutId →
      p.status ≠ .PAID ∧ ∀ landed ∈ m.world.transfers, landed.idempotencyKey ≠ p.idempotencyKey
  | _ => True

/-! ## The discipline of a payout run -/

/-- A transfer is made for the claim that was just made; a payout fails by who holds its claim. -/
def mayAsk (i : Nat) (c : Call) (m : GatewayStage) : Prop :=
  match c with
  | .transfer request => ∃ t x claim destination, m.own i = t ++ [x] ∧ claims? x = some claim ∧
    request = claim.request destination
  | .markFailed payoutId _ => ∃ claim, Holds m i claim ∧ claim.payout.id = payoutId
  | _ => True

def payoutDiscipline : Discipline deployed where
  Pre := mayAsk
  Ext _ _ := True
  Inv _ := True
  ext_refl _ := trivial
  ext_trans _ _ := trivial
  ext_call _ _ _ := trivial
  ext_env _ := trivial
  inv_call _ _ _ := trivial
  inv_env _ _ := trivial

/-- The call moves no money and releases nothing. -/
def Call.harmless : Call → Prop
  | .transfer _ | .markFailed .. => False
  | _ => True

variable {α β : Type}

/-- The program keeps the discipline, from wherever it is started. -/
def Careful (p : GatewayProgram α) : Prop :=
  ∀ i m, payoutDiscipline.Safe i (Discipline.Anything (α := α)) p m

theorem careful_only {p : GatewayProgram α} (hp : p.Only Call.harmless) : Careful p := by
  intro i m
  refine (Discipline.Safe.only (R := fun _ => True) (fun j c' m' hc => ?_) (fun _ _ => trivial) hp).mono
    fun _ _ _ => trivial
  cases c' with
  | transfer _ => exact absurd hc id
  | markFailed _ _ => exact absurd hc id
  | _ => trivial

theorem Careful.bind {p : GatewayProgram α} {f : α → GatewayProgram β} (hp : Careful p)
    (hf : ∀ a, Careful (f a)) : Careful (p.bind f) :=
  fun i m => Discipline.Safe.bind (hp i m) (fun a m' _ => hf a i m') fun _ _ _ => trivial

theorem only_ask_harmless (h : c.harmless) : (ask c).Only Call.harmless := by
  refine Only.bind (only_perform h) fun r => ?_
  cases r <;> trivial

variable {x : Exchange GatewayCalls} {t : List (Exchange GatewayCalls)}

theorem holds_last {claim : Claim} (hown : m.own i = t ++ [x]) (hx : claims? x = some claim) : Holds m i claim := by
  refine ⟨x, ?_, hx⟩
  rw [hown]
  exact List.mem_append_right _ (List.mem_singleton.mpr rfl)

theorem Holds.perform {claim : Claim} (h : Holds m i claim) (j : Nat) (c : Call) (o : Outside) :
    Holds (m.perform exec j c o) i claim := by
  obtain ⟨x, hx, hclaim⟩ := h
  refine ⟨x, ?_, hclaim⟩
  by_cases hij : j = i
  · subst hij
    rw [Stage.own_perform]
    exact List.mem_append_left _ hx
  · rw [Stage.own_perform_of_ne hij]
    exact hx

theorem Holds.rely {claim : Claim} (h : Holds m i claim) (hm : payoutDiscipline.Rely i m m') : Holds m' i claim := by
  unfold Holds
  rw [hm.own]
  exact h

theorem safe_confirm {claim : Claim} (hown : m.own i = t ++ [x]) (hx : claims? x = some claim)
    (destination : String) :
    payoutDiscipline.Safe i (fun _ m' => Holds m' i claim) (confirm claim destination) m := by
  have hholds : Holds m i claim := holds_last hown hx
  unfold confirm ask
  simp only [Program.bind_eq_bind, Program.bind_assoc]
  refine Discipline.Safe.call (fun m' hm => ⟨t, x, claim, destination, hm.own.trans hown, hx, rfl⟩) ?_ ?_
  · intro m₁ o r hm₁ _
    have hholds₁ := (hholds.rely hm₁).perform i (.transfer (claim.request destination)) o
    cases r with
    | error e => exact Discipline.Safe.raise fun m₂ hm₂ => hholds₁.rely hm₂
    | ok landed =>
      refine Discipline.Safe.call (fun _ _ => trivial) ?_ ?_
      · intro m₂ o' r' hm₂ _
        have hholds₂ := (hholds₁.rely hm₂).perform i (.markPaid (claim.paid destination landed.transferId)) o'
        cases r' with
        | error e => exact Discipline.Safe.raise fun m₃ hm₃ => hholds₂.rely hm₃
        | ok paid => exact Discipline.Safe.ret fun m₃ hm₃ => hholds₂.rely hm₃
      · intro m₂ o' e m₃ hm₂ _ hm₃
        exact ((hholds₁.rely hm₂).perform i _ o').rely hm₃
  · intro m₁ o e m₂ hm₁ _ hm₂
    exact ((hholds.rely hm₁).perform i _ o).rely hm₂

theorem safe_settleClaim {claim : Claim} (hown : m.own i = t ++ [x]) (hx : claims? x = some claim)
    (destination : String) :
    payoutDiscipline.Safe i (Discipline.Anything (α := PayoutOutcome)) (settleClaim claim destination) m := by
  unfold settleClaim
  refine Discipline.Safe.attempt_bind (safe_confirm hown hx destination) fun r m₁ hholds => ?_
  cases r with
  | ok paid => exact Discipline.Safe.ret fun _ _ => trivial
  | error e =>
    simp only [ask, Program.bind_eq_bind, Program.bind_assoc]
    refine Discipline.Safe.call (fun m₂ hm₂ => ⟨claim, hholds.rely hm₂, rfl⟩) ?_ ?_
    · intro m₂ o r _ _
      cases r with
      | error e => exact Discipline.Safe.raise fun _ _ => trivial
      | ok released => exact Discipline.Safe.ret fun _ _ => trivial
    · intro m₂ o e m₃ _ _ _
      trivial

theorem careful_settleOne (agentId currency : String) (pendingCents : Int) (dryRun : Bool) :
    Careful (settleOne agentId currency pendingCents dryRun) := by
  refine (careful_only (only_ask_harmless (by trivial))).bind fun account => ?_
  split
  · exact careful_only trivial
  · split
    · exact careful_only trivial
    · intro i m
      simp only [ask, Program.bind_eq_bind, Program.bind_assoc]
      refine Discipline.Safe.call (fun _ _ => trivial) ?_ fun _ _ _ _ _ _ _ => trivial
      intro m' o r _ hr
      cases r with
      | error e => exact Discipline.Safe.raise fun _ _ => trivial
      | ok claimed =>
        cases claimed with
        | none => exact Discipline.Safe.ret fun _ _ => trivial
        | some claim =>
          -- nothing lies between the claim and what is done with it
          refine safe_settleClaim (Stage.own_perform _ _ _ _ _) ?_ _
          show claims? ⟨.claim agentId currency, exec.answer _ o m'.world⟩ = some claim
          rw [show exec.answer (.claim agentId currency) o m'.world = .ok (.ok (some claim)) from hr]
          rfl

theorem careful_settleAll (dryRun : Bool) (balances : List PendingBalance) :
    Careful (settleAll dryRun balances) := by
  induction balances with
  | nil => exact careful_only trivial
  | cons balance rest ih =>
    exact (careful_settleOne _ _ _ _).bind fun _ => ih.bind fun _ => careful_only trivial

theorem only_dispatch (event : StripeEvent) : (dispatch event).Only Call.harmless := by
  have hfind : ∀ reference, (ask (.findSaleByStripeReference reference)).Only Call.harmless :=
    fun reference => only_ask_harmless (by trivial)
  unfold dispatch
  split
  · unfold settle
    cases stripeReference event with
    | error e => exact trivial
    | ok reference =>
      refine Only.bind (p := ask (.findSaleByStripeReference reference)) (hfind reference) fun found => ?_
      cases found with
      | none => exact trivial
      | some conversion =>
        refine Only.bind (only_ask_harmless (by trivial)) fun settled => ?_
        cases settled <;> exact trivial
  · split
    · unfold clawback
      cases stripeReference event with
      | error e => exact trivial
      | ok reference =>
        refine Only.bind (p := ask (.findSaleByStripeReference reference)) (hfind reference) fun found => ?_
        cases found with
        | none => exact trivial
        | some sale => exact Only.bind (only_ask_harmless (by trivial)) fun _ => trivial
    · exact trivial

theorem only_handle (event : StripeEvent) : (handle event).Only Call.harmless := by
  refine Only.bind (only_ask_harmless (by trivial)) fun won => ?_
  cases won with
  | false => exact trivial
  | true =>
    refine Only.bind (only_ask_harmless (by trivial)) fun claimed => ?_
    cases claimed with
    | false => exact trivial
    | true =>
      have hdispatched : (dispatchClaimed event).Only Call.harmless :=
        Only.bind (only_dispatch event) fun _ =>
          Only.bind (only_ask_harmless (by trivial)) fun _ => trivial
      refine Only.bind (Only.attempt hdispatched) fun r => ?_
      cases r with
      | ok dispatched => exact trivial
      | error e =>
        exact Only.bind (only_ask_harmless (by trivial)) fun _ =>
          Only.bind (only_ask_harmless (by trivial)) fun _ => trivial

/-- **Every request that is served keeps the discipline.** -/
theorem payout_covers : payoutDiscipline.Covers := by
  intro p hp i m _
  obtain ⟨request, hserved, rfl⟩ := hp
  cases request with
  | recordSale input => exact (careful_only (only_ask_harmless (by trivial)) i m).void
  | webhook event => exact (careful_only (only_handle event) i m).void
  | upsertAgentAccount input => exact (careful_only (only_ask_harmless (by trivial)) i m).void
  | payouts dryRun agentId =>
    have hrun : Careful (runPayouts dryRun agentId) :=
      (careful_only (only_ask_harmless (by trivial))).bind fun _ => careful_settleAll _ _
    exact (hrun i m).void
  | markSettled _ _ => cases hserved
  | reverse _ _ _ => cases hserved
  | markPaid _ => cases hserved
  | markFailed _ _ => cases hserved

/-! ## What the calls do -/

/-- **Transfers are only added**, by the rail, under a key of their own. -/
theorem transfers_after (c : Call) (o : Outside) (w : World) : (Exec.after exec c o w).transfers = w.transfers ∨
      ∃ request landed, c = .transfer request ∧ landed.idempotencyKey = request.idempotencyKey ∧
        (∀ t ∈ w.transfers, t.idempotencyKey ≠ request.idempotencyKey) ∧
        (Exec.after exec c o w).transfers = w.transfers ++ [landed] := by
  rcases after_cases c o w with hsame | ⟨r, hrun⟩
  · exact .inl (congrArg World.transfers hsame)
  generalize Exec.after exec c o w = w' at hrun
  cases c with
  | transfer request =>
    simp only [run, transfer] at hrun
    split at hrun
    · cases hrun
    · split at hrun
      · cases hrun
      · split at hrun
        · cases hrun
          exact .inl rfl
        · rename_i hnone
          cases hrun
          refine .inr ⟨request, _, rfl, rfl, fun t ht heq => ?_, rfl⟩
          exact List.find?_eq_none.mp hnone t ht (by simpa using heq)
  | recordSale input =>
    obtain ⟨books, -, rfl⟩ := onBooks_ok hrun
    exact .inl rfl
  | markSettled conversionId chargeId =>
    obtain ⟨books, -, rfl⟩ := onBooks_ok hrun
    exact .inl rfl
  | recordReversal parent reversalReference memo =>
    obtain ⟨books, -, rfl⟩ := onBooks_ok hrun
    exact .inl rfl
  | upsertAgentAccount input =>
    obtain ⟨db, -, rfl⟩ := onDb_ok hrun
    exact .inl rfl
  | claim agentId currency =>
    obtain ⟨db, -, rfl⟩ := onDb_ok hrun
    exact .inl rfl
  | markPaid input =>
    obtain ⟨db, -, rfl⟩ := onDb_ok hrun
    exact .inl rfl
  | markFailed payoutId code =>
    obtain ⟨db, -, rfl⟩ := onDb_ok hrun
    exact .inl rfl
  | _ =>
    simp only [run] at hrun
    (repeat' split at hrun) <;> cases hrun <;> exact .inl rfl

theorem items_change (hchange : Change db c db') {item : PayoutItem} (hitem : item ∈ db.items) :
    item ∈ db'.items ∨ ∃ code, c = .markFailed item.payoutId code := by
  cases hchange with
  | same => exact .inl hitem
  | sold hok => exact .inl hitem
  | settled conversionId chargeId => exact .inl hitem
  | reversed hok => exact .inl hitem
  | account input => exact .inl hitem
  | claimed hok =>
    rcases claim_ok hok with ⟨-, rfl⟩ | ⟨payout, -, -, -, -, -, -, -, -, -, -, hitems⟩
    · exact .inl hitem
    · refine .inl ?_
      rw [← Table.mem_rows, hitems]
      exact List.mem_append_left _ hitem
  | paid hok => exact .inl ((markPaid_ok hok).2.2 ▸ hitem)
  | @failed payoutId code _ _ hok =>
    by_cases heq : item.payoutId = payoutId
    · exact .inr ⟨code, by rw [heq]⟩
    · refine .inl ?_
      rw [(markFailed_ok hok).2, Table.mem_filter]
      exact ⟨hitem, decide_eq_true heq⟩

theorem payout_change (hchange : Change db c db') {p : Payout} (hp : p ∈ db.payouts) :
    ∃ p' ∈ db'.payouts, p'.id = p.id ∧ p'.idempotencyKey = p.idempotencyKey ∧
      (p.status = .PAID → p'.status = .PAID ∨ ∃ code, c = .markFailed p.id code) := by
  cases hchange with
  | same => exact ⟨p, hp, rfl, rfl, .inl⟩
  | sold hok => exact ⟨p, hp, rfl, rfl, .inl⟩
  | settled conversionId chargeId => exact ⟨p, hp, rfl, rfl, .inl⟩
  | reversed hok => exact ⟨p, hp, rfl, rfl, .inl⟩
  | account input => exact ⟨p, hp, rfl, rfl, .inl⟩
  | claimed hok =>
    rcases claim_ok hok with ⟨-, rfl⟩ | ⟨payout, -, -, -, -, -, -, -, -, -, ⟨hnew, hpayouts⟩, -⟩
    · exact ⟨p, hp, rfl, rfl, .inl⟩
    · refine ⟨p, ?_, rfl, rfl, .inl⟩
      rw [hpayouts]
      exact Table.mem_insert.mpr (.inl hp)
  | @paid input _ _ hok =>
    obtain ⟨-, hpayouts, -⟩ := markPaid_ok hok
    rw [hpayouts]
    by_cases heq : p.id = input.payoutId
    · exact ⟨p.pay input, (Table.mem_update _).mpr (.inl ⟨p, hp, heq, rfl⟩), rfl, rfl, fun _ => .inl rfl⟩
    · exact ⟨p, (Table.mem_update _).mpr (.inr ⟨hp, heq⟩), rfl, rfl, .inl⟩
  | @failed payoutId code _ _ hok =>
    rw [(markFailed_ok hok).1]
    by_cases heq : p.id = payoutId
    · refine ⟨p.fail code, (Table.mem_update _).mpr (.inl ⟨p, hp, heq, rfl⟩), rfl, rfl, fun _ => .inr ⟨code, ?_⟩⟩
      rw [heq]
    · exact ⟨p, (Table.mem_update _).mpr (.inr ⟨hp, heq⟩), rfl, rfl, .inl⟩

theorem payout_origin (hchange : Change db c db') {p' : Payout} (hp' : p' ∈ db'.payouts) :
    (∃ p ∈ db.payouts, p.id = p'.id ∧ p.idempotencyKey = p'.idempotencyKey) ∨
      (db.payouts.find? p'.id = none ∧ (∀ p ∈ db.payouts, p.idempotencyKey ≠ p'.idempotencyKey) ∧
        ∃ hnew : db.payouts.find? p'.id = none, db'.payouts = db.payouts.insert p' hnew) := by
  cases hchange with
  | same => exact .inl ⟨p', hp', rfl, rfl⟩
  | sold hok => exact .inl ⟨p', hp', rfl, rfl⟩
  | settled conversionId chargeId => exact .inl ⟨p', hp', rfl, rfl⟩
  | reversed hok => exact .inl ⟨p', hp', rfl, rfl⟩
  | account input => exact .inl ⟨p', hp', rfl, rfl⟩
  | claimed hok =>
    rcases claim_ok hok with ⟨-, rfl⟩ | ⟨payout, -, -, -, -, -, -, -, -, hkey, ⟨hnew, hpayouts⟩, -⟩
    · exact .inl ⟨p', hp', rfl, rfl⟩
    · rw [hpayouts] at hp'
      rcases Table.mem_insert.mp hp' with hp' | rfl
      · exact .inl ⟨p', hp', rfl, rfl⟩
      · exact .inr ⟨hnew, hkey, hnew, hpayouts⟩
  | paid hok =>
    obtain ⟨-, hpayouts, -⟩ := markPaid_ok hok
    rw [hpayouts] at hp'
    rcases (Table.mem_update _).mp hp' with ⟨p, hp, -, rfl⟩ | ⟨hp, -⟩
    · exact .inl ⟨p, hp, rfl, rfl⟩
    · exact .inl ⟨p', hp, rfl, rfl⟩
  | failed hok =>
    rw [(markFailed_ok hok).1] at hp'
    rcases (Table.mem_update _).mp hp' with ⟨p, hp, -, rfl⟩ | ⟨hp, -⟩
    · exact .inl ⟨p, hp, rfl, rfl⟩
    · exact .inl ⟨p', hp, rfl, rfl⟩

theorem claimed_answer {agentId currency : String} {claim : Claim}
    (h : exec.answer (.claim agentId currency) o w = .ok (.ok (some claim))) :
    (∀ p ∈ w.db.payouts, p.id ≠ claim.payout.id) ∧
    (∀ p ∈ w.db.payouts, p.idempotencyKey ≠ claim.payout.idempotencyKey) ∧
    claim.payout ∈ (Exec.after exec (.claim agentId currency) o w).db.payouts ∧
    ∀ item ∈ claim.items, item.payoutId = claim.payout.id ∧
      item ∈ (Exec.after exec (.claim agentId currency) o w).db.items := by
  have hafter := Exec.of_answer h
  obtain ⟨w', hrun⟩ := run_of_answer h
  obtain ⟨db, hok, rfl⟩ := onDb_ok hrun
  have hworld : Exec.after exec (.claim agentId currency) o w = { w with db := db } := by
    refine after_of_run (fun code hfault => ?_) hrun
    unfold Exec.answer exec at h
    rw [hfault] at h
    cases h
  rw [hworld]
  rcases claim_ok hok with ⟨hnone, -⟩ | ⟨payout, hclaim, hid, -, -, -, -, -, -, hkey, ⟨hnew, hpayouts⟩, hitems⟩
  · cases hnone
  · cases hclaim
    refine ⟨Table.find?_eq_none.mp hnew, hkey, ?_, fun item hitem => ⟨?_, ?_⟩⟩
    · show payout ∈ db.payouts
      rw [hpayouts]
      exact Table.mem_insert.mpr (.inr rfl)
    · obtain ⟨c, -, rfl⟩ := List.mem_map.mp hitem
      exact hid.symm
    · show item ∈ db.items
      rw [← Table.mem_rows, hitems]
      exact List.mem_append_right _ hitem

/-! ## What is claimed stays claimed -/

/-- **Every claim can be traced.** What a transfer has paid for is still in its payout, and so is
    what a worker is about to pay for. -/
structure Traced (m : GatewayStage) : Prop where
  keys : ∀ p ∈ m.world.db.payouts, ∀ p' ∈ m.world.db.payouts, p.idempotencyKey = p'.idempotencyKey → p.id = p'.id
  payout : ∀ i claim, Holds m i claim →
    (∃ p ∈ m.world.db.payouts, p.id = claim.payout.id ∧ p.idempotencyKey = claim.payout.idempotencyKey) ∧
      ∀ item ∈ claim.items, item.payoutId = claim.payout.id
  holder : ∀ i j claim claim', Holds m i claim → Holds m j claim' → claim.payout.id = claim'.payout.id →
    i = j ∧ claim = claim'
  fresh : ∀ i t x claim, m.own i = t ++ [x] → claims? x = some claim →
    ∀ item ∈ claim.items, item ∈ m.world.db.items
  landed : ∀ t ∈ m.world.transfers, ∃ p ∈ m.world.db.payouts, p.idempotencyKey = t.idempotencyKey
  held : ∀ t ∈ m.world.transfers, ∀ i claim, Holds m i claim →
    claim.payout.idempotencyKey = t.idempotencyKey → ∀ item ∈ claim.items, item ∈ m.world.db.items
  transfers : ∀ t ∈ m.world.transfers, ∀ t' ∈ m.world.transfers, t.idempotencyKey = t'.idempotencyKey → t = t'

theorem claims?_eq_some {ans : GatewayCalls.Answer c} {claim : Claim} (h : claims? ⟨c, ans⟩ = some claim) :
    ∃ agentId currency, ∃ hc : c = .claim agentId currency, hc ▸ ans = .ok (.ok (some claim)) := by
  cases c with
  | claim agentId currency =>
    refine ⟨agentId, currency, rfl, ?_⟩
    cases ans with
    | error e => cases h
    | ok r =>
      cases r with
      | error e => cases h
      | ok claimed => exact congrArg (fun x => Except.ok (Except.ok x)) h
  | _ => cases h

theorem holds_perform {claim : Claim} (h : Holds (m.perform exec i c o) j claim) :
    Holds m j claim ∨ j = i ∧ ∃ agentId currency, c = .claim agentId currency ∧
      exec.answer (.claim agentId currency) o m.world = .ok (.ok (some claim)) := by
  obtain ⟨x, hx, hclaim⟩ := h
  by_cases hij : i = j
  · subst hij
    rw [Stage.own_perform] at hx
    rcases List.mem_append.mp hx with hx | hx
    · exact .inl ⟨x, hx, hclaim⟩
    · rw [List.mem_singleton.mp hx] at hclaim
      obtain ⟨agentId, currency, rfl, hans⟩ := claims?_eq_some hclaim
      exact .inr ⟨rfl, agentId, currency, rfl, hans⟩
  · rw [Stage.own_perform_of_ne hij] at hx
    exact .inl ⟨x, hx, hclaim⟩

variable {claim : Claim}

theorem Traced.keys_perform (h : Traced m) (i : Nat) (c : Call) (o : Outside) :
    ∀ p ∈ (m.perform exec i c o).world.db.payouts, ∀ p' ∈ (m.perform exec i c o).world.db.payouts,
      p.idempotencyKey = p'.idempotencyKey → p.id = p'.id := by
  have hchange : Change m.world.db c (m.perform exec i c o).world.db := change_after c o m.world
  intro p hp p' hp' heq
  rcases payout_origin hchange hp with ⟨p₀, hp₀, hid, hkey⟩ | ⟨hnew, hfree, -⟩
  · rcases payout_origin hchange hp' with ⟨p₀', hp₀', hid', hkey'⟩ | ⟨-, hfree', -⟩
    · rw [← hid, ← hid']
      exact h.keys p₀ hp₀ p₀' hp₀' (hkey.trans (heq.trans hkey'.symm))
    · exact absurd (hkey.trans heq) (hfree' p₀ hp₀)
  · rcases payout_origin hchange hp' with ⟨p₀', hp₀', -, hkey'⟩ | ⟨hnew', -, hinserted, hpayouts⟩
    · exact absurd (hkey'.trans heq.symm) (hfree p₀' hp₀')
    · -- only one payout is new
      rw [hpayouts] at hp
      rcases Table.mem_insert.mp hp with hp | rfl
      · exact absurd rfl (Table.find?_eq_none.mp hnew p hp)
      · rfl

theorem Traced.payout_perform (h : Traced m) (hholds : Holds (m.perform exec i c o) j claim) :
    (∃ p ∈ (m.perform exec i c o).world.db.payouts,
      p.id = claim.payout.id ∧ p.idempotencyKey = claim.payout.idempotencyKey) ∧
      ∀ item ∈ claim.items, item.payoutId = claim.payout.id := by
  rcases holds_perform hholds with hold | ⟨rfl, agentId, currency, rfl, hanswer⟩
  · obtain ⟨⟨p, hp, hid, hkey⟩, hitems⟩ := h.payout j claim hold
    obtain ⟨p', hp', hid', hkey', -⟩ := payout_change (change_after c o m.world) hp
    exact ⟨⟨p', hp', hid'.trans hid, hkey'.trans hkey⟩, hitems⟩
  · obtain ⟨-, -, hpayout, hitems⟩ := claimed_answer hanswer
    exact ⟨⟨claim.payout, hpayout, rfl, rfl⟩, fun item hitem => (hitems item hitem).1⟩

theorem Traced.holder_perform (h : Traced m) {j' : Nat} {claim' : Claim}
    (hholds : Holds (m.perform exec i c o) j claim) (hholds' : Holds (m.perform exec i c o) j' claim')
    (heq : claim.payout.id = claim'.payout.id) : j = j' ∧ claim = claim' := by
  have hnot : ∀ {k : Nat} {agentId currency : String} {made old : Claim}, Holds m k old →
      exec.answer (.claim agentId currency) o m.world = .ok (.ok (some made)) → old.payout.id ≠ made.payout.id := by
    intro k agentId currency made old hold hanswer hid
    obtain ⟨⟨p, hp, hpId, -⟩, -⟩ := h.payout k old hold
    exact (claimed_answer hanswer).1 p hp (hpId.trans hid)
  rcases holds_perform hholds with hold | ⟨rfl, agentId, currency, rfl, hanswer⟩
  · rcases holds_perform hholds' with hold' | ⟨-, agentId, currency, -, hanswer⟩
    · exact h.holder j j' claim claim' hold hold' heq
    · exact absurd heq (hnot hold hanswer)
  · rcases holds_perform hholds' with hold' | ⟨rfl, agentId', currency', hc, hanswer'⟩
    · exact absurd heq.symm (hnot hold' hanswer)
    · cases hc
      rw [hanswer] at hanswer'
      cases hanswer'
      exact ⟨rfl, rfl⟩

theorem Traced.fresh_perform (h : Traced m) (hpre : mayAsk i c m)
    (hown : (m.perform exec i c o).own j = t ++ [x]) (hclaim : claims? x = some claim) :
    ∀ item ∈ claim.items, item ∈ (m.perform exec i c o).world.db.items := by
  by_cases hij : i = j
  · subst hij
    rw [Stage.own_perform] at hown
    obtain ⟨-, hx⟩ := List.append_inj' hown rfl
    rw [← List.singleton_inj.mp hx] at hclaim
    obtain ⟨agentId, currency, rfl, hanswer⟩ := claims?_eq_some hclaim
    exact fun item hitem => ((claimed_answer hanswer).2.2.2 item hitem).2
  · rw [Stage.own_perform_of_ne hij] at hown
    intro item hitem
    rcases items_change (change_after c o m.world) (h.fresh j t x claim hown hclaim item hitem) with
      hstays | ⟨code, rfl⟩
    · exact hstays
    · obtain ⟨claim', hholds', hid⟩ := hpre
      have hholds : Holds m j claim := holds_last hown hclaim
      have hitemId := (h.payout j claim hholds).2 item hitem
      exact absurd (h.holder i j claim' claim hholds' hholds (hid.trans hitemId)).1 hij

theorem Traced.landed_perform (h : Traced m) (hpre : mayAsk i c m) (o : Outside) :
    ∀ t ∈ (m.perform exec i c o).world.transfers,
      ∃ p ∈ (m.perform exec i c o).world.db.payouts, p.idempotencyKey = t.idempotencyKey := by
  have hkeeps : ∀ key, (∃ p ∈ m.world.db.payouts, p.idempotencyKey = key) →
      ∃ p ∈ (m.perform exec i c o).world.db.payouts, p.idempotencyKey = key := by
    rintro key ⟨p, hp, rfl⟩
    obtain ⟨p', hp', -, hkey, -⟩ := payout_change (change_after c o m.world) hp
    exact ⟨p', hp', hkey⟩
  intro t ht
  change t ∈ (Exec.after exec c o m.world).transfers at ht
  rcases transfers_after c o m.world with hsame | ⟨request, landed, rfl, hkey, -, hadded⟩
  · rw [hsame] at ht
    exact hkeeps _ (h.landed t ht)
  · rw [hadded] at ht
    rcases List.mem_append.mp ht with ht | ht
    · exact hkeeps _ (h.landed t ht)
    · rw [List.mem_singleton.mp ht, hkey]
      obtain ⟨l, x, claim, destination, hown, hclaim, rfl⟩ := hpre
      have hholds : Holds m i claim := holds_last hown hclaim
      obtain ⟨⟨p, hp, -, hpKey⟩, -⟩ := h.payout i claim hholds
      exact hkeeps _ ⟨p, hp, hpKey⟩

/-- **What has been paid for stays in its payout**, when no payout fails that was paid for. -/
theorem Traced.held_perform (h : Traced m) (hpre : mayAsk i c m) (hunpaid : Unpaid m (.call i c o)) :
    ∀ t ∈ (m.perform exec i c o).world.transfers, ∀ j claim, Holds (m.perform exec i c o) j claim →
      claim.payout.idempotencyKey = t.idempotencyKey →
        ∀ item ∈ claim.items, item ∈ (m.perform exec i c o).world.db.items := by
  intro t ht j claim hholds hkey item hitem
  change t ∈ (Exec.after exec c o m.world).transfers at ht
  change item ∈ (Exec.after exec c o m.world).db.items
  have hold : t ∈ m.world.transfers → item ∈ (Exec.after exec c o m.world).db.items := by
    intro hlanded
    rcases holds_perform hholds with hold | ⟨rfl, agentId, currency, rfl, hanswer⟩
    · have hbefore := h.held t hlanded j claim hold hkey item hitem
      rcases items_change (change_after c o m.world) hbefore with hstays | ⟨code, rfl⟩
      · exact hstays
      · obtain ⟨⟨p, hp, hid, hpKey⟩, hitems⟩ := h.payout j claim hold
        by_cases hmade : o.fault.made = true
        · have hnone := (hunpaid hmade p hp (hid.trans (hitems item hitem).symm)).2 t hlanded
          exact absurd (hkey.symm.trans hpKey.symm) hnone
        · obtain ⟨code', hfault⟩ := Fault.eq_before hmade
          rw [after_of_before hfault]
          exact hbefore
    · -- the key of a new payout is new
      obtain ⟨p, hp, hpKey⟩ := h.landed t hlanded
      exact absurd (hpKey.trans hkey.symm) ((claimed_answer hanswer).2.1 p hp)
  rcases transfers_after c o m.world with hsame | ⟨request, landed, rfl, hlanded, -, hadded⟩
  · exact hold (hsame ▸ ht)
  · rw [hadded] at ht
    rcases List.mem_append.mp ht with ht | ht
    · exact hold ht
    · rw [List.mem_singleton.mp ht, hlanded] at hkey
      obtain ⟨l, x, claim₀, destination, hown, hclaim₀, rfl⟩ := hpre
      rcases holds_perform hholds with hbefore | ⟨-, agentId, currency, hc, -⟩
      · have hholds₀ : Holds m i claim₀ := holds_last hown hclaim₀
        obtain ⟨⟨p, hp, hpId, hpKey⟩, -⟩ := h.payout j claim hbefore
        obtain ⟨⟨p₀, hp₀, hp₀Id, hp₀Key⟩, -⟩ := h.payout i claim₀ hholds₀
        have hid := h.keys p hp p₀ hp₀ (hpKey.trans (hkey.trans hp₀Key.symm))
        have hsame := (h.holder j i claim claim₀ hbefore hholds₀ (hpId.symm.trans (hid.trans hp₀Id))).2
        subst hsame
        rcases items_change (change_after (.transfer _) o m.world) (h.fresh i l x claim hown hclaim₀ item hitem) with
          hstays | ⟨code, hc⟩
        · exact hstays
        · cases hc
      · cases hc

theorem Traced.transfers_perform (h : Traced m) (i : Nat) (c : Call) (o : Outside) :
    ∀ t ∈ (m.perform exec i c o).world.transfers, ∀ t' ∈ (m.perform exec i c o).world.transfers,
      t.idempotencyKey = t'.idempotencyKey → t = t' := by
  intro t ht t' ht' heq
  change t ∈ (Exec.after exec c o m.world).transfers at ht
  change t' ∈ (Exec.after exec c o m.world).transfers at ht'
  rcases transfers_after c o m.world with hsame | ⟨request, landed, rfl, hkey, hfree, hadded⟩
  · exact h.transfers t (hsame ▸ ht) t' (hsame ▸ ht') heq
  · rw [hadded] at ht ht'
    rcases List.mem_append.mp ht with ht | ht
    · rcases List.mem_append.mp ht' with ht' | ht'
      · exact h.transfers t ht t' ht' heq
      · rw [List.mem_singleton.mp ht', hkey] at heq
        exact absurd heq (hfree t ht)
    · rcases List.mem_append.mp ht' with ht' | ht'
      · rw [List.mem_singleton.mp ht, hkey] at heq
        exact absurd heq.symm (hfree t' ht')
      · rw [List.mem_singleton.mp ht, List.mem_singleton.mp ht']

/-- **One step** that meets the condition. -/
theorem Traced.perform (h : Traced m) (hpre : mayAsk i c m) (hunpaid : Unpaid m (.call i c o)) :
    Traced (m.perform exec i c o) where
  keys := h.keys_perform i c o
  payout _ _ hholds := h.payout_perform hholds
  holder _ _ _ _ hholds hholds' heq := h.holder_perform hholds hholds' heq
  fresh _ _ _ _ hown hclaim := h.fresh_perform hpre hown hclaim
  landed := h.landed_perform hpre o
  held := h.held_perform hpre hunpaid
  transfers := h.transfers_perform i c o

/-- **What can be traced is paid for once.** -/
theorem Traced.paidOnce (h : Traced m) : PaidOnce m := by
  intro landed hlanded landed' hlanded' conversionId hpays hpays'
  obtain ⟨i, claim, hholds, hkey, item, hitem, hrow⟩ := hpays
  obtain ⟨j, claim', hholds', hkey', item', hitem', hrow'⟩ := hpays'
  have hmem := h.held landed hlanded i claim hholds hkey item hitem
  have hmem' := h.held landed' hlanded' j claim' hholds' hkey' item' hitem'
  -- a conversion is in one item
  have heq : item = item' := Table.eq_of_key hmem hmem' (hrow.trans hrow'.symm)
  subst heq
  have hid := ((h.payout i claim hholds).2 item hitem).symm.trans ((h.payout j claim' hholds').2 item hitem')
  have hsame := (h.holder i j claim claim' hholds hholds' hid).2
  subst hsame
  exact h.transfers landed hlanded landed' hlanded' (hkey.symm.trans hkey')

/-! ## Runs -/

theorem traced_start (hdb : w.db = {}) (htransfers : w.transfers = []) : Traced ⟨w, []⟩ := by
  have hpayouts : ∀ p, p ∉ w.db.payouts := by
    rw [hdb]
    exact Table.not_mem_empty
  have hnone : ∀ t, t ∉ w.transfers := by
    rw [htransfers]
    exact fun t ht => by cases ht
  refine ⟨fun p hp => absurd hp (hpayouts p), ?_, ?_, ?_, fun t ht => absurd ht (hnone t),
    fun t ht => absurd ht (hnone t), fun t ht => absurd ht (hnone t)⟩
  · rintro i claim ⟨x, hx, -⟩
    cases hx
  · rintro i j claim claim' ⟨x, hx, -⟩
    cases hx
  · intro i t x claim hown
    cases t <;> cases hown

theorem StaysPaid.refl (db : Database) : StaysPaid db db :=
  fun p hp hpaid => ⟨⟨p, hp, rfl, hpaid⟩, fun _ hitem _ => hitem⟩

theorem StaysPaid.trans {a b d : Database} (h : StaysPaid a b) (h' : StaysPaid b d) : StaysPaid a d := by
  intro p hp hpaid
  obtain ⟨⟨p', hp', hid, hpaid'⟩, hitems⟩ := h p hp hpaid
  obtain ⟨⟨p'', hp'', hid', hpaid''⟩, hitems'⟩ := h' p' hp' hpaid'
  exact ⟨⟨p'', hp'', hid'.trans hid, hpaid''⟩, fun item hitem hpayout =>
    hitems' item (hitems item hitem hpayout) (hpayout.trans hid.symm)⟩

theorem staysPaid_perform (hunpaid : Unpaid m (.call i c o)) :
    StaysPaid m.world.db (m.perform exec i c o).world.db := by
  have hchange : Change m.world.db c (m.perform exec i c o).world.db := change_after c o m.world
  by_cases hmade : o.fault.made = true
  · intro p hp hpaid
    have hkept : ∀ code, c ≠ .markFailed p.id code := by
      rintro code rfl
      exact (hunpaid hmade p hp rfl).1 hpaid
    refine ⟨?_, fun item hitem hpayout => ?_⟩
    · obtain ⟨p', hp', hid, -, hstatus⟩ := payout_change hchange hp
      rcases hstatus hpaid with hpaid' | ⟨code, hc⟩
      · exact ⟨p', hp', hid, hpaid'⟩
      · exact absurd hc (hkept code)
    · rcases items_change hchange hitem with hstays | ⟨code, hc⟩
      · exact hstays
      · rw [hpayout] at hc
        exact absurd hc (hkept code)
  · obtain ⟨code, hfault⟩ := Fault.eq_before hmade
    show StaysPaid m.world.db (Exec.after exec c o m.world).db
    rw [after_of_before hfault]
    exact .refl _

/-- **Commission is paid once**, and what is paid stays paid, in every run in which no payout fails
    that is paid or whose transfer has landed. -/
theorem commission_paid_once (hdb : w.db = {}) (htransfers : w.transfers = [])
    {steps : List (GatewayStage × GatewayAction)} {s : Pool GatewayCalls World} (run : Run deployed w steps s)
    (hmeets : Meets Unpaid steps) : (∀ m ∈ visited steps s, PaidOnce m) ∧
      (visited steps s).Pairwise fun m m' => StaysPaid m.world.db m'.world.db := by
  constructor
  · intro m hm
    obtain ⟨before, s', run', rfl, hpre⟩ := run.visited hm
    have htraced : Traced s'.stage := Discipline.run_invariant payout_covers trivial
      (traced_start hdb htransfers) (fun m i c o h _ hpre hunpaid => h.perform hpre hunpaid)
      (by
        rintro m _ h ⟨keeps, rfl⟩
        exact ⟨h.keys, h.payout, h.holder, h.fresh, h.landed, h.held, h.transfers⟩)
      run' (hmeets.of_prefix hpre)
    exact htraced.paidOnce
  · refine Run.pairwise (C := Unpaid) (fun run' hmeets' m hm => ?_) run hmeets
    refine Discipline.run_later payout_covers (R := fun m m' => StaysPaid m.world.db m'.world.db)
      (fun m => .refl _) (fun _ _ _ h h' => h.trans h') trivial
      (fun m i c o _ _ hunpaid => staysPaid_perform hunpaid) ?_ run' hmeets' hm
    rintro m _ ⟨keeps, rfl⟩
    exact .refl _

/-! ## A transfer that landed and was reported as failed -/

instance (m : GatewayStage) (a : GatewayAction) : Decidable (Unpaid m a) :=
  match a with
  | .call _ (.markFailed ..) _ => inferInstanceAs (Decidable (_ = true → ∀ p ∈ m.world.db.payouts.rows, _ = _ →
      _ ≠ _ ∧ ∀ landed ∈ m.world.transfers, _ ≠ _))
  | .start _ | .env _ => .isTrue trivial
  | .call _ (.recordSale _) _ | .call _ (.findById _) _ | .call _ (.findSaleByStripeReference _) _
  | .call _ (.markSettled ..) _ | .call _ (.setIfAbsent _) _ | .call _ (.del _) _ | .call _ (.claimEvent ..) _
  | .call _ (.completeEvent ..) _ | .call _ (.releaseEvent _) _ | .call _ (.upsertAgentAccount _) _
  | .call _ (.findAgentAccount _) _ | .call _ .pendingBalances _ | .call _ (.claim ..) _
  | .call _ (.transfer _) _ | .call _ (.markPaid _) _ | .call _ (.recordReversal ..) _ => .isTrue trivial

/-- The money moves, the rail reports a failure, and the payout fails. -/
def losesAnswer : List (Move GatewayCalls World Outside) :=
  [.call 3 { id := "tr_1", fault := .after "stripe_transfer_failed" }, .call 3 {}]

/-- The next payout run. -/
def paysAgain : List (Move GatewayCalls World Outside) :=
  serves 4 (.payouts false none) 5 { id := "payout_2", key := "key_2" }

theorem losesAnswer_allowed : ∀ x ∈ losesAnswer, x.Allowed deployed := by
  intro x hx
  rcases List.mem_cons.mp hx with rfl | hx
  · trivial
  · rw [List.mem_singleton.mp hx]
    trivial

theorem paidTwice_allowed : ∀ x ∈ claims ++ losesAnswer ++ paysAgain, x.Allowed deployed :=
  List.forall_mem_append.mpr ⟨List.forall_mem_append.mpr ⟨claims_allowed, losesAnswer_allowed⟩,
    serves_allowed rfl _ _ _⟩

/-- A transfer that was refused is made up for by the next payout run. -/
theorem commission_paid_once_refused :
    (∀ m ∈ visited (play deployed (Pool.init {}) (claims ++ refuses ++ netsRefund)).1
      (play deployed (Pool.init {}) (claims ++ refuses ++ netsRefund)).2, PaidOnce m) ∧
    (visited (play deployed (Pool.init {}) (claims ++ refuses ++ netsRefund)).1
      (play deployed (Pool.init {}) (claims ++ refuses ++ netsRefund)).2).Pairwise
        fun m m' => StaysPaid m.world.db m'.world.db :=
  commission_paid_once rfl rfl (play_run refused_allowed) (by decide +kernel)

/-- Whether one of the claims a worker holds is for the conversion, under the key. -/
def holdsFor (m : GatewayStage) (i : Nat) (key conversionId : String) : Bool :=
  ((m.own i).filterMap claims?).any fun claim =>
    claim.payout.idempotencyKey == key && claim.items.any (·.conversionId == conversionId)

theorem paysFor_of_holdsFor {key conversionId : String} (h : holdsFor m i key conversionId = true)
    {landed : Transfer} (hkey : landed.idempotencyKey = key) : PaysFor m landed conversionId := by
  obtain ⟨claim, hclaim, hboth⟩ := List.any_eq_true.mp h
  obtain ⟨x, hx, hxClaim⟩ := List.mem_filterMap.mp hclaim
  rw [Bool.and_eq_true, beq_iff_eq] at hboth
  obtain ⟨item, hitem, hrow⟩ := List.any_eq_true.mp hboth.2
  exact ⟨i, claim, ⟨x, hx, hxClaim⟩, hboth.1.trans hkey.symm, item, hitem, beq_iff_eq.mp hrow⟩

/-- One that landed is made once more. -/
theorem not_paid_once : ¬ ∀ steps s, Run deployed {} steps s → (∀ m ∈ visited steps s, PaidOnce m) ∧
    (visited steps s).Pairwise fun m m' => StaysPaid m.world.db m'.world.db := by
  intro h
  have hpaid := (h _ _ (play_run paidTwice_allowed)).1 _ (stage_mem_visited _ _)
  have hheld : holdsFor (play deployed (Pool.init {}) (claims ++ losesAnswer ++ paysAgain)).2.stage 3
      "aisl_payout_key_1" "conversion_1" = true := by
    decide +kernel
  have hheld' : holdsFor (play deployed (Pool.init {}) (claims ++ losesAnswer ++ paysAgain)).2.stage 4
      "aisl_payout_key_2" "conversion_1" = true := by
    decide +kernel
  have hlanded : (play deployed (Pool.init {}) (claims ++ losesAnswer ++ paysAgain)).2.stage.world.transfers =
      [⟨"tr_1", "aisl_payout_key_1", 80, "USD", "acct_1"⟩, ⟨"payout_2", "aisl_payout_key_2", 80, "USD", "acct_1"⟩] := by
    decide +kernel
  have hsame := hpaid ⟨"tr_1", "aisl_payout_key_1", 80, "USD", "acct_1"⟩ (by rw [hlanded]; simp)
    ⟨"payout_2", "aisl_payout_key_2", 80, "USD", "acct_1"⟩ (by rw [hlanded]; simp) "conversion_1"
    (paysFor_of_holdsFor hheld rfl) (paysFor_of_holdsFor hheld' rfl)
  exact absurd (congrArg Transfer.transferId hsame) (by decide)

end Commerce
