import MissionControl.Commerce.Gateway
import MissionControl.Interleaving.Discipline

/-! # What becomes of the books

Each call changes the database in one of few ways. A conversion keeps all but its status and its
charge; whoever writes a reversal has read the sale it reverses. -/

namespace Commerce

open Interleaving
open Interleaving.Program (Only only_perform only_raise only_ret)
open Relational (Table)

/-- A point of a run of the gateway. -/
abbrev GatewayStage : Type := Stage GatewayCalls World

/-- An action of a run of the gateway. -/
abbrev GatewayAction : Type := Action GatewayCalls World Outside

variable {m m' : GatewayStage} {i : Nat} {c : Call} {o : Outside} {w w' : World} {db db' : Database}

/-! ## The changes -/

/-- **What a call does to the database.** -/
inductive Change (db : Database) : Call → Database → Prop where
  | same (c : Call) : Change db c db
  | sold {input : RecordSaleInput} {id : String} {row : Conversion} {books : Books}
      (h : recordSale db.toBooks input id = .ok (row, books)) :
      Change db (.recordSale input) { db with toBooks := books }
  | settled (conversionId : String) (chargeId : Option String) :
      Change db (.markSettled conversionId chargeId)
        { db with toBooks := (markSettled db.toBooks conversionId chargeId).2 }
  | reversed {parent row : Conversion} {reversalReference memo id : String} {books : Books}
      (h : recordReversal db.toBooks parent reversalReference memo id = .ok (row, books)) :
      Change db (.recordReversal parent reversalReference memo) { db with toBooks := books }
  | account (input : AccountInput) : Change db (.upsertAgentAccount input) (upsertAgentAccount db input).2
  | claimed {agentId currency id key : String} {r : Option Claim} {db' : Database}
      (h : claim db agentId currency id key = .ok (r, db')) : Change db (.claim agentId currency) db'
  | paid {input : PaidInput} {payout : Payout} {db' : Database}
      (h : markPaid db input = .ok (payout, db')) : Change db (.markPaid input) db'
  | failed {payoutId code : String} {payout : Payout} {db' : Database}
      (h : markFailed db payoutId code = .ok (payout, db')) : Change db (.markFailed payoutId code) db'

theorem after_cases (c : Call) (o : Outside) (w : World) :
    Exec.after exec c o w = w ∨ ∃ r, run o w c = .ok (r, Exec.after exec c o w) := by
  unfold Exec.after exec
  cases o.fault with
  | before code => exact .inl rfl
  | none =>
    dsimp only
    cases run o w c with
    | ok x => exact .inr ⟨x.1, rfl⟩
    | error e => exact .inl rfl
  | after code =>
    dsimp only
    cases run o w c with
    | ok x => exact .inr ⟨x.1, rfl⟩
    | error e => exact .inl rfl

theorem after_of_before {code : String} (h : o.fault = .before code) : Exec.after exec c o w = w := by
  unfold Exec.after exec
  rw [h]

variable {r : c.Result}

theorem after_of_run (hfault : ∀ code, o.fault ≠ .before code) (h : run o w c = .ok (r, w')) :
    Exec.after exec c o w = w' := by
  unfold Exec.after exec
  cases hf : o.fault with
  | before code => exact absurd hf (hfault code)
  | none => simp only [h]
  | after code => simp only [h]

theorem run_of_answer (h : exec.answer c o w = .ok (.ok r)) : ∃ w', run o w c = .ok (r, w') := by
  unfold Exec.answer exec at h
  cases hf : o.fault with
  | before code =>
    rw [hf] at h
    cases h
  | after code =>
    rw [hf] at h
    cases hr : run o w c with
    | ok x =>
      rw [hr] at h
      cases h
    | error e =>
      rw [hr] at h
      cases h
  | none =>
    rw [hf] at h
    cases hr : run o w c with
    | ok x =>
      rw [hr] at h
      cases h
      exact ⟨x.2, rfl⟩
    | error e =>
      rw [hr] at h
      cases h

theorem onBooks_ok {α : Type} {r : Except Err (α × Books)} {a : α} (h : w.onBooks r = .ok (a, w')) :
    ∃ books, r = .ok (a, books) ∧ w' = { w with db := { w.db with toBooks := books } } := by
  cases r with
  | ok x =>
    cases h
    exact ⟨x.2, rfl, rfl⟩
  | error e => cases h

theorem onDb_ok {α : Type} {r : Except Err (α × Database)} {a : α} (h : w.onDb r = .ok (a, w')) :
    ∃ db, r = .ok (a, db) ∧ w' = { w with db := db } := by
  cases r with
  | ok x =>
    cases h
    exact ⟨x.2, rfl, rfl⟩
  | error e => cases h

theorem change_run (h : run o w c = .ok (r, w')) : Change w.db c w'.db := by
  cases c with
  | recordSale input =>
    obtain ⟨books, hbooks, rfl⟩ := onBooks_ok h
    exact .sold hbooks
  | markSettled conversionId chargeId =>
    obtain ⟨books, hbooks, rfl⟩ := onBooks_ok h
    have hchange : Change w.db (.markSettled conversionId chargeId) _ := .settled conversionId chargeId
    rw [Except.ok.inj hbooks] at hchange
    exact hchange
  | recordReversal parent reversalReference memo =>
    obtain ⟨books, hbooks, rfl⟩ := onBooks_ok h
    exact .reversed hbooks
  | upsertAgentAccount input =>
    obtain ⟨db, hdb, rfl⟩ := onDb_ok h
    have hchange : Change w.db (.upsertAgentAccount input) _ := .account input
    rw [Except.ok.inj hdb] at hchange
    exact hchange
  | claim agentId currency =>
    obtain ⟨db, hdb, rfl⟩ := onDb_ok h
    exact .claimed hdb
  | markPaid input =>
    obtain ⟨db, hdb, rfl⟩ := onDb_ok h
    exact .paid hdb
  | markFailed payoutId code =>
    obtain ⟨db, hdb, rfl⟩ := onDb_ok h
    exact .failed hdb
  | transfer request =>
    simp only [run] at h
    cases ht : transfer w.transfers request o.id with
    | ok x =>
      rw [ht] at h
      cases h
      exact .same _
    | error e =>
      rw [ht] at h
      cases h
  | _ =>
    simp only [run] at h
    (repeat' split at h) <;> cases h <;> exact .same _

/-- **Every call is one of the changes.** -/
theorem change_after (c : Call) (o : Outside) (w : World) : Change w.db c (Exec.after exec c o w).db := by
  rcases after_cases c o w with hsame | ⟨r, hr⟩
  · rw [hsame]
    exact .same c
  · exact change_run hr

/-! ## What the operations on conversions do -/

variable {row : Conversion} {conversions : Conversions}

theorem insertRow_eq_some {conversions' : Conversions} (h : insertRow conversions row = some conversions') :
    ∃ hnew : conversions.find? row.id = none, (∀ c ∈ conversions, c.externalOrderId ≠ row.externalOrderId) ∧
      conversions' = conversions.insert row hnew := by
  unfold insertRow at h
  split at h
  · rename_i hnew
    split at h
    · cases h
    · rename_i hfree
      cases h
      refine ⟨hnew, fun c hc heq => ?_, rfl⟩
      exact hfree (List.any_eq_true.mpr ⟨c, hc, by simpa using heq⟩)
  · cases h

variable {id : String}

/-- **A sale** is a new row with a balanced group. -/
theorem recordSale_ok {books books' : Books} {input : RecordSaleInput}
    (h : recordSale books input id = .ok (row, books')) : ∃ split, row = input.row id split ∧
      (∃ hnew : books.conversions.find? row.id = none, books'.conversions = books.conversions.insert row hnew) ∧
      ∃ group : EntryGroup, group.Balanced ∧ group.legs = saleLegs split ∧ books'.ledger = books.ledger ++ [group] := by
  unfold recordSale at h
  cases hsplit : assertSplitInvariants input.split with
  | error e =>
    rw [hsplit] at h
    cases h
  | ok split =>
    rw [hsplit] at h
    simp only [bind, Except.bind] at h
    split at h
    · cases h
    · rename_i conversions hinsert
      obtain ⟨hnew, -, rfl⟩ := insertRow_eq_some hinsert
      split at h
      · cases h
      · rename_i ledger hledger
        obtain ⟨hbalanced, rfl⟩ := insertLedgerGroup_eq_ok.mp hledger
        cases h
        exact ⟨split, rfl, ⟨hnew, rfl⟩, _, hbalanced, rfl, rfl⟩

variable {memo reversalReference : String}

/-- **A reversal** is there already, or is a new row with a balanced group, and its sale is
    refunded. -/
theorem recordReversal_ok {books books' : Books} {parent : Conversion}
    (h : recordReversal books parent reversalReference memo id = .ok (row, books')) : books' = books ∨
    (∀ c ∈ books.conversions, c.externalOrderId ≠ (reversalRow parent reversalReference id).externalOrderId) ∧
    (∃ hnew : books.conversions.find? id = none, books'.conversions =
        refundRow (books.conversions.insert (reversalRow parent reversalReference id) hnew) parent.id) ∧
    ∃ group : EntryGroup, group.Balanced ∧ books'.ledger = books.ledger ++ [group] := by
  unfold recordReversal at h
  dsimp only at h
  split at h
  · cases h
    exact .inl rfl
  · split at h
    · cases h
    · split at h
      · cases h
      · rename_i conversions hinsert
        obtain ⟨hnew, hfree, rfl⟩ := insertRow_eq_some hinsert
        simp only [bind, Except.bind] at h
        split at h
        · cases h
        · rename_i ledger hledger
          obtain ⟨hbalanced, rfl⟩ := insertLedgerGroup_eq_ok.mp hledger
          cases h
          exact .inr ⟨hfree, ⟨hnew, rfl⟩, _, hbalanced, rfl⟩

/-! ## Versions of a conversion -/

/-- A version of the same conversion: all but its status and its charge is the same. -/
def Conversion.Version (c c' : Conversion) : Prop :=
  c' = { c with status := c'.status, stripeChargeId := c'.stripeChargeId }

theorem Conversion.Version.refl (c : Conversion) : c.Version c := rfl

theorem Conversion.Version.trans {c c' c'' : Conversion} (h : c.Version c') (h' : c'.Version c'') :
    c.Version c'' := by
  unfold Conversion.Version at h h' ⊢
  rw [h', h]

theorem Conversion.Version.symm {c c' : Conversion} (h : c.Version c') : c'.Version c := by
  unfold Conversion.Version at h ⊢
  rw [h]

theorem version_settle (chargeId : Option String) (c : Conversion) : c.Version (c.settle chargeId) := by
  unfold Conversion.settle
  split
  · rfl
  · exact .refl c

theorem version_refund (c : Conversion) : c.Version c.refund := by
  unfold Conversion.refund
  split
  · rfl
  · exact .refl c

/-- Every conversion is still there, in some version. -/
def Onward (conversions conversions' : Conversions) : Prop :=
  ∀ c ∈ conversions, ∃ c' ∈ conversions', c.Version c'

theorem Onward.refl (conversions : Conversions) : Onward conversions conversions :=
  fun c hc => ⟨c, hc, .refl c⟩

theorem Onward.trans {a b d : Conversions} (h : Onward a b) (h' : Onward b d) : Onward a d := by
  intro c hc
  obtain ⟨c', hc', hversion⟩ := h c hc
  obtain ⟨c'', hc'', hversion'⟩ := h' c' hc'
  exact ⟨c'', hc'', hversion.trans hversion'⟩

theorem Onward.insert (h : conversions.find? row.id = none) : Onward conversions (conversions.insert row h) :=
  fun c hc => ⟨c, Table.mem_insert.mpr (.inl hc), .refl c⟩

theorem Onward.update {f : Conversion → Conversion} (hf : ∀ c, (f c).id = c.id)
    (hversion : ∀ c : Conversion, c.Version (f c)) : Onward conversions (conversions.update id f hf) := by
  intro c hc
  by_cases hid : c.id = id
  · exact ⟨f c, (Table.mem_update hf).mpr (.inl ⟨c, hc, hid, rfl⟩), hversion c⟩
  · exact ⟨c, (Table.mem_update hf).mpr (.inr ⟨hc, hid⟩), .refl c⟩

theorem conversions_markSettled (books : Books) (conversionId : String) (chargeId : Option String) :
    (markSettled books conversionId chargeId).2.conversions = books.conversions ∨
      (markSettled books conversionId chargeId).2.conversions =
        books.conversions.update conversionId (·.settle chargeId) (Conversion.settle_id chargeId) := by
  unfold markSettled
  split
  · exact .inr rfl
  · exact .inl rfl

theorem books_claim {agentId currency key : String} {r : Option Claim}
    (h : claim db agentId currency id key = .ok (r, db')) : db'.toBooks = db.toBooks := by
  unfold claim at h
  dsimp only at h
  split at h
  · cases h
    rfl
  · split at h
    · cases h
    · split at h
      · split at h
        · cases h
        · simp only [bind, Except.bind] at h
          split at h
          · cases h
          · cases h
            rfl
      · cases h

theorem conversions_markPaid {input : PaidInput} {payout : Payout} (h : markPaid db input = .ok (payout, db')) :
    db'.conversions = db.conversions := by
  unfold markPaid at h
  split at h
  · split at h
    · simp only [bind, Except.bind] at h
      split at h
      · cases h
      · cases h
        rfl
    · cases h
  · cases h

theorem books_markFailed {payoutId code : String} {payout : Payout}
    (h : markFailed db payoutId code = .ok (payout, db')) : db'.toBooks = db.toBooks := by
  unfold markFailed at h
  split at h
  · cases h
    rfl
  · cases h

/-- **Conversions stay**, and keep what they are. -/
theorem onward_change (h : Change db c db') : Onward db.conversions db'.conversions := by
  cases h with
  | same => exact .refl _
  | sold h =>
    obtain ⟨split, -, ⟨hnew, hinsert⟩, -⟩ := recordSale_ok h
    show Onward db.conversions (Books.conversions _)
    rw [hinsert]
    exact .insert hnew
  | settled conversionId chargeId =>
    show Onward db.conversions (markSettled db.toBooks conversionId chargeId).2.conversions
    rcases conversions_markSettled db.toBooks conversionId chargeId with heq | heq
    · rw [heq]
      exact .refl _
    · rw [heq]
      exact .update _ (version_settle chargeId)
  | reversed h =>
    rcases recordReversal_ok h with rfl | ⟨-, ⟨hnew, hrefund⟩, -⟩
    · exact .refl _
    · show Onward db.conversions (Books.conversions _)
      rw [hrefund]
      exact (Onward.insert hnew).trans (.update _ version_refund)
  | account input => exact .refl _
  | claimed h =>
    rw [books_claim h]
    exact .refl _
  | paid h =>
    rw [conversions_markPaid h]
    exact .refl _
  | failed h =>
    rw [books_markFailed h]
    exact .refl _

theorem onward_after (c : Call) (o : Outside) (w : World) :
    Onward w.db.conversions (Exec.after exec c o w).db.conversions :=
  onward_change (change_after c o w)

/-! ## The discipline -/

/-- Whoever reverses a sale has read it. -/
def owes (_ : Nat) (c : Call) (m : GatewayStage) : Prop :=
  match c with
  | .recordReversal parent _ _ =>
    ∃ sale ∈ m.world.db.conversions, sale.entryType = .SALE ∧ sale.Version parent
  | _ => True

variable {Serves : Request → Prop}

variable (Serves) in
/-- Conversions stay what they are, and only sales that have been read are reversed. -/
def bookDiscipline : Discipline (gateway Serves) where
  Pre := owes
  Ext w w' := Onward w.db.conversions w'.db.conversions
  Inv _ := True
  ext_refl w := .refl _
  ext_trans := .trans
  ext_call o _ _ := onward_after _ o _
  ext_env h := by
    obtain ⟨keeps, rfl⟩ := h
    exact .refl _
  inv_call _ _ _ := trivial
  inv_env _ _ := trivial

variable (Serves) in
/-- The program keeps the discipline, from wherever it is started. -/
def Honest {α : Type} (p : GatewayProgram α) : Prop :=
  ∀ i m, (bookDiscipline Serves).Safe i (Discipline.Anything (α := α)) p m

/-- The call writes no reversal. -/
def Call.plain : Call → Prop
  | .recordReversal .. => False
  | _ => True

variable {α β : Type}

variable {p : GatewayProgram α}

theorem honest_only (hp : p.Only Call.plain) : Honest Serves p := by
  intro i m
  refine (Discipline.Safe.only (R := fun _ => True) (fun j c' m' hc => ?_) (fun _ _ => trivial) hp).mono
    fun _ _ _ => trivial
  cases c' <;> trivial

theorem Honest.bind {f : α → GatewayProgram β} (hp : Honest Serves p) (hf : ∀ a, Honest Serves (f a)) :
    Honest Serves (p.bind f) :=
  fun i m => Discipline.Safe.bind (hp i m) (fun a m' _ => hf a i m') fun _ _ _ => trivial

theorem Honest.attempt_bind {f : Except Err α → GatewayProgram β} (hp : Honest Serves p)
    (hf : ∀ r, Honest Serves (f r)) : Honest Serves ((Program.attempt p).bind f) :=
  fun i m => Discipline.Safe.attempt_bind (hp i m) fun r m' _ => hf r i m'

theorem only_ask {c : Call} (h : c.plain) : (ask c).Only Call.plain := by
  refine Only.bind (only_perform h) fun r => ?_
  cases r <;> trivial

theorem Honest.void (hp : Honest Serves p) : Honest Serves p.void :=
  fun i m => (hp i m).void

theorem honest_ask {c : Call} (h : c.plain) : Honest Serves (ask c) := honest_only (only_ask h)

theorem honest_ret (a : α) : Honest Serves (Program.ret a) := honest_only (only_ret a)

theorem honest_raise (e : Err) : Honest Serves (Program.raise e : GatewayProgram α) :=
  honest_only (only_raise (I := GatewayCalls) e)

/-- **A read, and a reversal of what it has found.** -/
theorem honest_read {c : Call} {f : c.Result → GatewayProgram α} (hc : c.plain)
    (hf : ∀ i m w o r, Onward w.db.conversions m.world.db.conversions → exec.answer c o w = .ok (.ok r) →
      (bookDiscipline Serves).Safe i (Discipline.Anything (α := α)) (f r) m) :
    Honest Serves ((ask c).bind f) := by
  intro i m
  unfold ask
  rw [Program.bind_eq_bind, Program.bind_assoc]
  refine Discipline.Safe.call (fun m' _ => ?_) ?_ ?_
  · cases c <;> trivial
  · intro m' o r _ hr
    cases r with
    | ok r => exact hf i _ m'.world o r (onward_after c o m'.world) hr
    | error e => exact honest_raise e i _
  · intro m' o e m'' _ _ _
    trivial

variable {sale : Conversion}

theorem owes_later (h : owes i (.recordReversal sale reversalReference memo) m)
    (honward : Onward m.world.db.conversions m'.world.db.conversions) :
    owes i (.recordReversal sale reversalReference memo) m' := by
  obtain ⟨sale', hsale', hentry, hversion⟩ := h
  obtain ⟨sale'', hsale'', hversion'⟩ := honward sale' hsale'
  refine ⟨sale'', hsale'', ?_, hversion'.symm.trans hversion⟩
  rw [hversion']
  exact hentry

theorem safe_reversal (h : owes i (.recordReversal sale reversalReference memo) m) :
    (bookDiscipline Serves).Safe i (Discipline.Anything (α := Conversion))
      (ask (.recordReversal sale reversalReference memo)) m := by
  refine Discipline.Safe.call (fun m' hm => owes_later h hm.ext) ?_ ?_
  · intro m' o r _ _
    cases r with
    | ok r => exact honest_ret r i _
    | error e => exact honest_raise e i _
  · intro m' o e m'' _ _ _
    trivial

theorem owes_of_mem (hsale : sale ∈ w.db.conversions) (hentry : sale.entryType = .SALE)
    (h : Onward w.db.conversions m.world.db.conversions) :
    owes i (.recordReversal sale reversalReference memo) m := by
  obtain ⟨sale', hsale', hversion⟩ := h sale hsale
  refine ⟨sale', hsale', ?_, hversion.symm⟩
  rw [hversion]
  exact hentry

theorem honest_clawback (event : StripeEvent) : Honest Serves (clawback event) := by
  unfold clawback
  cases stripeReference event with
  | error e => exact honest_raise e
  | ok reference =>
    refine honest_read trivial ?_
    intro i m w o found honward hanswer
    cases found with
    | none => exact honest_ret _ i m
    | some sale =>
      obtain ⟨w', hrun⟩ := run_of_answer hanswer
      have hfound : findSaleByStripeReference w.db.conversions reference = some sale :=
        congrArg Prod.fst (Except.ok.inj hrun)
      have hsale : sale ∈ w.db.conversions := List.mem_of_find?_eq_some hfound
      have hentry : sale.entryType = .SALE := by
        have hmatch := List.find?_some hfound
        rw [Bool.and_eq_true, decide_eq_true_eq] at hmatch
        exact hmatch.1
      refine Discipline.Safe.bind (safe_reversal (owes_of_mem hsale hentry honward))
        (fun a m' _ => honest_ret _ i m') fun _ _ _ => trivial

theorem honest_reverse (saleId reversalReference memo : String) :
    Honest Serves (reverse saleId reversalReference memo) := by
  refine honest_read trivial ?_
  intro i m w o found honward hanswer
  cases found with
  | none => exact honest_ret _ i m
  | some sale =>
    obtain ⟨w', hrun⟩ := run_of_answer hanswer
    have hfound : w.db.conversions.find? saleId = some sale := congrArg Prod.fst (Except.ok.inj hrun)
    dsimp only
    split
    · rename_i hentry
      exact Discipline.Safe.bind (safe_reversal (owes_of_mem (Table.mem_of_find? hfound) hentry honward))
        (fun a m' _ => honest_ret _ i m') fun _ _ _ => trivial
    · exact honest_ret _ i m

theorem only_settle (event : StripeEvent) : (settle event).Only Call.plain := by
  unfold settle
  cases stripeReference event with
  | error e => exact trivial
  | ok reference =>
    refine Only.bind (p := ask (.findSaleByStripeReference reference)) (only_ask (by trivial))
      fun found => ?_
    cases found with
    | none => exact trivial
    | some conversion =>
      refine Only.bind (only_ask (by trivial)) fun settled => ?_
      cases settled <;> exact trivial

theorem honest_handle (event : StripeEvent) : Honest Serves (handle event) := by
  have hdispatch : Honest Serves (dispatch event) := by
    unfold dispatch
    split
    · exact honest_only (only_settle event)
    · split
      · exact honest_clawback event
      · exact honest_ret _
  refine (honest_ask (by trivial)).bind fun won => ?_
  cases won with
  | false => exact honest_ret _
  | true =>
    refine (honest_ask (by trivial)).bind fun claimed => ?_
    cases claimed with
    | false => exact honest_ret _
    | true =>
      refine Honest.attempt_bind (hdispatch.bind fun dispatched => ?_) fun r => ?_
      · exact (honest_ask (by trivial)).bind fun _ => honest_ret _
      · cases r with
        | ok dispatched => exact honest_ret _
        | error e =>
          exact (honest_ask (by trivial)).bind fun _ => (honest_ask (by trivial)).bind fun _ => honest_raise e

theorem only_settleClaim (claim : Claim) (destination : String) :
    (settleClaim claim destination).Only Call.plain := by
  have hconfirm : (confirm claim destination).Only Call.plain :=
    Only.bind (only_ask (by trivial)) fun _ => only_ask (by trivial)
  refine Only.bind (Only.attempt hconfirm) fun r => ?_
  cases r with
  | ok paid => exact trivial
  | error e => exact Only.bind (only_ask (by trivial)) fun _ => trivial

theorem only_settleOne (agentId currency : String) (pendingCents : Int) (dryRun : Bool) :
    (settleOne agentId currency pendingCents dryRun).Only Call.plain := by
  refine Only.bind (only_ask (by trivial)) fun account => ?_
  split
  · exact trivial
  · split
    · exact trivial
    · refine Only.bind (only_ask (by trivial)) fun claim => ?_
      cases claim with
      | none => exact trivial
      | some claim => exact only_settleClaim claim _

theorem only_settleAll (dryRun : Bool) (balances : List PendingBalance) :
    (settleAll dryRun balances).Only Call.plain := by
  induction balances with
  | nil => exact trivial
  | cons balance rest ih =>
    exact Only.bind (only_settleOne _ _ _ _) fun _ => Only.bind ih fun _ => trivial

/-- **Every request keeps the discipline.** -/
theorem book_covers : (bookDiscipline Serves).Covers := by
  intro p hp i m _
  obtain ⟨request, -, rfl⟩ := hp
  cases request with
  | recordSale input => exact (honest_ask (by trivial)).void i m
  | webhook event => exact (honest_handle event).void i m
  | upsertAgentAccount input => exact (honest_ask (by trivial)).void i m
  | payouts dryRun agentId =>
    have hrun : (runPayouts dryRun agentId).Only Call.plain :=
      Only.bind (only_ask (by trivial)) fun _ => only_settleAll _ _
    exact (honest_only hrun).void i m
  | markSettled conversionId chargeId => exact (honest_ask (by trivial)).void i m
  | reverse saleId reversalReference memo => exact honest_reverse _ _ _ i m
  | markPaid input => exact (honest_ask (by trivial)).void i m
  | markFailed payoutId code => exact (honest_ask (by trivial)).void i m

end Commerce
