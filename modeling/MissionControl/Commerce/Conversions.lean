import MissionControl.Relational.Table
import Mathlib.Data.String.Basic

/-! # Conversions

The book of record of the gateway: one row for each sale and for each reversal of one, and for
each of them a balanced group of ledger entries. -/

namespace Commerce

open Relational (Table)

/-- What an `AislError` or the database reports: the code. -/
structure Err where
  code : String
  deriving DecidableEq, Repr

/-! ## Splits -/

/-- The columns of a split, in cents. -/
structure Amounts where
  grossAmountCents : Int
  commissionTotalCents : Int
  aislFeeCents : Int
  agentPayoutCents : Int
  merchantNetCents : Int
  deriving DecidableEq, Repr

/-- A split that adds up. -/
structure CommissionSplit extends Amounts where
  commission : commissionTotalCents = aislFeeCents + agentPayoutCents
  gross : grossAmountCents = merchantNetCents + commissionTotalCents
  deriving DecidableEq

/-- The invariants every ledger row must satisfy, in either direction. -/
def assertSplitInvariants (amounts : Amounts) : Except Err CommissionSplit :=
  if commission : amounts.commissionTotalCents = amounts.aislFeeCents + amounts.agentPayoutCents then
    if gross : amounts.grossAmountCents = amounts.merchantNetCents + amounts.commissionTotalCents then
      .ok ⟨amounts, commission, gross⟩
    else .error ⟨"ledger_invariant_violation"⟩
  else .error ⟨"ledger_invariant_violation"⟩

/-- A negated split adds up, too. -/
def negateSplit (split : CommissionSplit) : CommissionSplit where
  grossAmountCents := -split.grossAmountCents
  commissionTotalCents := -split.commissionTotalCents
  aislFeeCents := -split.aislFeeCents
  agentPayoutCents := -split.agentPayoutCents
  merchantNetCents := -split.merchantNetCents
  commission := by rw [split.commission, Int.neg_add]
  gross := by rw [split.gross, Int.neg_add]

/-! ## Ledger entries -/

inductive LedgerAccount where
  | merchantReceivable
  | merchantRevenue
  | agentPayable
  | platformRevenue
  | agentCash
  deriving DecidableEq, Repr

inductive LedgerDirection where
  | DEBIT
  | CREDIT
  deriving DecidableEq, Repr

def LedgerDirection.other : LedgerDirection → LedgerDirection
  | .DEBIT => .CREDIT
  | .CREDIT => .DEBIT

structure LedgerLeg where
  account : LedgerAccount
  direction : LedgerDirection
  amountCents : Int
  deriving DecidableEq, Repr

/-- The entries of one group. -/
structure EntryGroup where
  conversionId : String
  merchantId : String
  currency : String
  memo : String
  legs : List LedgerLeg
  deriving DecidableEq

/-- The sum of the legs in one direction. -/
def sumOf (direction : LedgerDirection) (legs : List LedgerLeg) : Int :=
  ((legs.filter (·.direction = direction)).map (·.amountCents)).sum

/-- A sale debits what the rail owes us and credits the three claimants on it. -/
def saleLegs (split : CommissionSplit) : List LedgerLeg :=
  [⟨.merchantReceivable, .DEBIT, split.grossAmountCents⟩,
    ⟨.merchantRevenue, .CREDIT, split.merchantNetCents⟩,
    ⟨.agentPayable, .CREDIT, split.agentPayoutCents⟩,
    ⟨.platformRevenue, .CREDIT, split.aislFeeCents⟩]

/-- Paying an agent discharges the liability. A negative amount swaps the directions. -/
def payoutLegs (amountCents : Int) : List LedgerLeg :=
  let owedDirection := if amountCents ≥ 0 then LedgerDirection.DEBIT else .CREDIT
  let cashDirection := if amountCents ≥ 0 then LedgerDirection.CREDIT else .DEBIT
  [⟨.agentPayable, owedDirection, |amountCents|⟩, ⟨.agentCash, cashDirection, |amountCents|⟩]

/-- A reversal is the same legs with the directions swapped. -/
def reversalLegs (split : CommissionSplit) : List LedgerLeg :=
  (saleLegs split).map fun leg => { leg with direction := leg.direction.other }

/-- A group that may be written: what is debited is credited, and no leg is negative. -/
def EntryGroup.Balanced (group : EntryGroup) : Prop :=
  sumOf .DEBIT group.legs = sumOf .CREDIT group.legs ∧ ∀ leg ∈ group.legs, 0 ≤ leg.amountCents

instance (group : EntryGroup) : Decidable group.Balanced :=
  inferInstanceAs (Decidable (_ ∧ _))

def insertLedgerGroup (ledger : List EntryGroup) (group : EntryGroup) : Except Err (List EntryGroup) :=
  if sumOf .DEBIT group.legs ≠ sumOf .CREDIT group.legs then .error ⟨"ledger_unbalanced"⟩
  else if group.legs.any (·.amountCents < 0) then .error ⟨"ledger_negative_leg"⟩
  else .ok (ledger ++ [group])

theorem insertLedgerGroup_eq_ok {ledger ledger' : List EntryGroup} {group : EntryGroup} :
    insertLedgerGroup ledger group = .ok ledger' ↔ group.Balanced ∧ ledger' = ledger ++ [group] := by
  unfold insertLedgerGroup EntryGroup.Balanced
  split
  · rename_i hne
    exact iff_of_false (fun h => by cases h) fun h => hne h.1.1
  · rename_i hbalanced
    rw [not_not] at hbalanced
    split
    · rename_i hnegative
      refine iff_of_false (fun h => by cases h) fun h => ?_
      obtain ⟨leg, hleg, hlt⟩ := List.any_eq_true.mp hnegative
      exact absurd (h.1.2 leg hleg) (not_le.mpr (by simpa using hlt))
    · rename_i hnonneg
      constructor
      · intro h
        cases h
        refine ⟨⟨hbalanced, fun leg hleg => ?_⟩, rfl⟩
        by_contra hlt
        exact hnonneg (List.any_eq_true.mpr ⟨leg, hleg, by simpa using not_le.mp hlt⟩)
      · intro h
        rw [h.2]

theorem saleLegs_nonneg {split : CommissionSplit} (h : ∀ leg ∈ saleLegs split, 0 ≤ leg.amountCents) :
    0 ≤ split.merchantNetCents ∧ 0 ≤ split.agentPayoutCents ∧ 0 ≤ split.aislFeeCents := by
  simp only [saleLegs, List.forall_mem_cons] at h
  exact ⟨h.2.1, h.2.2.1, h.2.2.2.1⟩

/-! ## Rows -/

inductive ConversionStatus where
  | PENDING_SETTLEMENT
  | SETTLED
  | REFUNDED
  | REVERSAL
  deriving DecidableEq, Repr

inductive EntryType where
  | SALE
  | REVERSAL
  deriving DecidableEq, Repr

structure Conversion where
  id : String
  clickId : String
  merchantId : String
  agentId : Option String
  externalOrderId : String
  currency : String
  entryType : EntryType
  parentConversionId : Option String := none
  stripePaymentIntentId : Option String
  stripeChargeId : Option String
  status : ConversionStatus
  split : CommissionSplit
  deriving DecidableEq

/-- The table `conversions`, oldest row first. -/
abbrev Conversions : Type := Table Conversion String Conversion.id

/-- The rows of the book: the conversions and the ledger. -/
structure Books where
  conversions : Conversions := .empty
  ledger : List EntryGroup := []

/-- `toUpperCase` of a currency code. -/
def toUpperCase (currency : String) : String := String.ofList (currency.toList.map Char.toUpper)

structure RecordSaleInput where
  clickId : String
  merchantId : String
  agentId : String
  externalOrderId : String
  currency : String
  stripePaymentIntentId : Option String
  stripeChargeId : Option String
  split : Amounts
  deriving DecidableEq

/-- The handles of a Stripe object. -/
structure Reference where
  chargeId : Option String
  paymentIntentId : Option String
  deriving DecidableEq, Repr

/-- The row of a sale. -/
def RecordSaleInput.row (input : RecordSaleInput) (id : String) (split : CommissionSplit) : Conversion where
  id := id
  clickId := input.clickId
  merchantId := input.merchantId
  agentId := some input.agentId
  externalOrderId := input.externalOrderId
  currency := toUpperCase input.currency
  entryType := .SALE
  stripePaymentIntentId := input.stripePaymentIntentId
  stripeChargeId := input.stripeChargeId
  status := .PENDING_SETTLEMENT
  split := split

/-- Insert a row, unless its identifier or its order is there already. -/
def insertRow (conversions : Conversions) (row : Conversion) : Option Conversions :=
  if h : conversions.find? row.id = none then
    if conversions.rows.any (·.externalOrderId = row.externalOrderId) then none
    else some (conversions.insert row h)
  else none

/-- Write a sale and its balanced ledger legs. -/
def recordSale (books : Books) (input : RecordSaleInput) (id : String) : Except Err (Conversion × Books) := do
  let split ← assertSplitInvariants input.split
  let row := input.row id split
  match insertRow books.conversions row with
  | none => .error ⟨"unique_violation"⟩
  | some conversions =>
    let ledger ← insertLedgerGroup books.ledger
      ⟨row.id, row.merchantId, row.currency, "sale " ++ input.externalOrderId, saleLegs split⟩
    return (row, ⟨conversions, ledger⟩)

/-- Locate the sale a Stripe object refers to. -/
def findSaleByStripeReference (conversions : Conversions) (reference : Reference) : Option Conversion :=
  conversions.rows.find? fun c => c.entryType = .SALE &&
    ((reference.chargeId.isSome && c.stripeChargeId == reference.chargeId) ||
      (reference.paymentIntentId.isSome && c.stripePaymentIntentId == reference.paymentIntentId))

/-- `WHERE id = $1 AND entry_type = 'SALE' AND status = 'PENDING_SETTLEMENT'` -/
def Conversion.settling (c : Conversion) : Bool := c.entryType = .SALE && c.status = .PENDING_SETTLEMENT

/-- The row of a settled sale. -/
def Conversion.settle (chargeId : Option String) (c : Conversion) : Conversion :=
  if c.settling then { c with status := .SETTLED, stripeChargeId := chargeId.or c.stripeChargeId } else c

theorem Conversion.settle_id (chargeId : Option String) (c : Conversion) : (c.settle chargeId).id = c.id := by
  unfold Conversion.settle
  split <;> rfl

def markSettled (books : Books) (conversionId : String) (chargeId : Option String) :
    Option Conversion × Books :=
  let conversions := books.conversions.update conversionId (·.settle chargeId) (Conversion.settle_id chargeId)
  if (books.conversions.find? conversionId).any (·.settling) then
    (conversions.find? conversionId, { books with conversions := conversions })
  else (none, books)

/-- The row of a reversal. -/
def reversalRow (parent : Conversion) (reversalReference id : String) : Conversion where
  id := id
  clickId := parent.clickId
  merchantId := parent.merchantId
  agentId := parent.agentId
  externalOrderId := parent.externalOrderId ++ ":reversal:" ++ reversalReference
  currency := parent.currency
  entryType := .REVERSAL
  parentConversionId := some parent.id
  stripePaymentIntentId := parent.stripePaymentIntentId
  stripeChargeId := parent.stripeChargeId
  status := .REVERSAL
  split := negateSplit parent.split

/-- `SET status = 'REFUNDED' WHERE id = $1 AND entry_type = 'SALE'` -/
def Conversion.refund (c : Conversion) : Conversion :=
  if c.entryType = .SALE then { c with status := .REFUNDED } else c

theorem Conversion.refund_id (c : Conversion) : c.refund.id = c.id := by
  unfold Conversion.refund
  split <;> rfl

/-- The sale is refunded. -/
def refundRow (conversions : Conversions) (id : String) : Conversions :=
  conversions.update id (·.refund) Conversion.refund_id

/-- Insert the negative offset entry for a refund or dispute and flip the parent sale to
    REFUNDED. Another delivery of the same event may have written the reversal already. -/
def recordReversal (books : Books) (parent : Conversion) (reversalReference memo id : String) :
    Except Err (Conversion × Books) :=
  let row := reversalRow parent reversalReference id
  match books.conversions.rows.find? (·.externalOrderId = row.externalOrderId) with
  | some found => .ok (found, books)
  | none =>
    if (books.conversions.find? parent.id).isNone then .error ⟨"foreign_key_violation"⟩
    else
      match insertRow books.conversions row with
      | none => .error ⟨"unique_violation"⟩
      | some conversions => do
        let ledger ← insertLedgerGroup books.ledger
          ⟨row.id, parent.merchantId, parent.currency, memo, reversalLegs parent.split⟩
        return (row, ⟨refundRow conversions parent.id, ledger⟩)

end Commerce

/-! # Payouts

What is owed to the agents, and the payouts that discharge it. A payout claims conversions
before anything is transferred, and is then paid or fails; a payout that fails releases what it
has claimed. -/

namespace Commerce

open Relational (Table)

inductive PayoutStatus where
  | IN_FLIGHT
  | PAID
  | FAILED
  deriving DecidableEq, Repr

structure AgentAccount where
  agentId : String
  displayName : Option String := none
  stripeAccountId : Option String := none
  payoutCurrency : String := "USD"
  minimumPayoutCents : Int := 0
  payoutsEnabled : Bool := true
  deriving DecidableEq

structure Payout where
  id : String
  agentId : String
  currency : String
  amountCents : Int
  status : PayoutStatus := .IN_FLIGHT
  idempotencyKey : String
  stripeTransferId : Option String := none
  destinationAccount : Option String := none
  failureCode : Option String := none
  deriving DecidableEq

/-- A row of `payout_items`. -/
structure PayoutItem where
  payoutId : String
  conversionId : String
  merchantId : String
  amountCents : Int
  deriving DecidableEq

/-- The database. A conversion is in one item at most: `idx_payout_items_conversion`. -/
structure Database extends Books where
  accounts : Table AgentAccount String AgentAccount.agentId := .empty
  payouts : Table Payout String Payout.id := .empty
  items : Table PayoutItem String PayoutItem.conversionId := .empty

/-! ## Accounts -/

structure AccountInput where
  agentId : String
  displayName : Option String := none
  stripeAccountId : Option String := none
  payoutCurrency : Option String := none
  minimumPayoutCents : Option Int := none
  payoutsEnabled : Option Bool := none
  deriving DecidableEq

/-- The row of an account, given the one there is. -/
def AccountInput.row (input : AccountInput) (old : Option AgentAccount) : AgentAccount where
  agentId := input.agentId
  displayName := input.displayName.or (old.bind (·.displayName))
  stripeAccountId := input.stripeAccountId.or (old.bind (·.stripeAccountId))
  payoutCurrency := toUpperCase (input.payoutCurrency.getD "USD")
  minimumPayoutCents := input.minimumPayoutCents.getD 0
  payoutsEnabled := input.payoutsEnabled.getD true

def upsertAgentAccount (db : Database) (input : AccountInput) : AgentAccount × Database :=
  let row := input.row (db.accounts.find? input.agentId)
  (row, { db with accounts := db.accounts.put row })

/-! ## What a payout may draw on -/

/-- Whether the conversion is in a payout. -/
def Database.claimed (db : Database) (conversionId : String) : Bool := (db.items.find? conversionId).isSome

/-- `ELIGIBLE_PREDICATE`: a settled sale, or a reversal of a sale that is itself in a payout. -/
def Database.eligible (db : Database) (c : Conversion) : Bool :=
  !db.claimed c.id && c.split.agentPayoutCents != 0 && c.agentId.isSome &&
    ((c.entryType = .SALE && c.status = .SETTLED) ||
      (c.entryType = .REVERSAL && c.parentConversionId.any db.claimed))

/-- The conversions that are owed to an agent in a currency. -/
def Database.owed (db : Database) (agentId currency : String) : List Conversion :=
  db.conversions.rows.filter fun c => db.eligible c && c.agentId == some agentId && c.currency == currency

/-- The sum of what the agent gets of these. -/
def agentTotal (conversions : List Conversion) : Int := (conversions.map (·.split.agentPayoutCents)).sum

structure PendingBalance where
  agentId : String
  currency : String
  amountCents : Int
  itemCount : Nat
  deriving DecidableEq, Repr

/-- The groups of `GROUP BY c.agent_id, c.currency`, ordered. -/
def Database.owedTo (db : Database) : List (String × String) :=
  ((db.conversions.rows.filter db.eligible).filterMap fun c =>
    c.agentId.map fun agentId => (agentId, c.currency)).dedup.mergeSort
      fun a b => a.1 < b.1 || (a.1 == b.1 && !(b.2 < a.2))

/-- Unpaid balance per agent and currency, including negative net positions. -/
def pendingBalances (db : Database) : List PendingBalance :=
  db.owedTo.map fun (agentId, currency) =>
    let owed := db.owed agentId currency
    ⟨agentId, currency, agentTotal owed, owed.length⟩

/-! ## Claiming -/

/-- The item of a conversion in a payout. -/
def Conversion.item (payoutId : String) (c : Conversion) : PayoutItem :=
  ⟨payoutId, c.id, c.merchantId, c.split.agentPayoutCents⟩

/-- Insert the items, unless one is of a conversion that has been claimed already. -/
def insertItems (items : Table PayoutItem String PayoutItem.conversionId) :
    List PayoutItem → Except Err (Table PayoutItem String PayoutItem.conversionId)
  | [] => .ok items
  | item :: rest =>
    if h : items.find? item.conversionId = none then insertItems (items.insert item h) rest
    else .error ⟨"payout_claim_conflict"⟩

/-- What a claim gives: the payout and its items. -/
structure Claim where
  payout : Payout
  items : List PayoutItem
  deriving DecidableEq

/-- Claim every eligible conversion of an agent in a currency into a new payout. -/
def claim (db : Database) (agentId currency payoutId idempotencyKey : String) :
    Except Err (Option Claim × Database) :=
  let eligible := db.owed agentId (toUpperCase currency)
  let items := eligible.map (·.item payoutId)
  let total := agentTotal eligible
  -- a net that is not positive is a carried debt, not a payout
  if items = [] ∨ total ≤ 0 then .ok (none, db)
  else if (db.accounts.find? agentId).isNone then .error ⟨"foreign_key_violation"⟩
  else
    let payout : Payout :=
      { id := payoutId, agentId := agentId, currency := toUpperCase currency, amountCents := total,
        idempotencyKey := "aisl_payout_" ++ idempotencyKey }
    if h : db.payouts.find? payout.id = none then
      if db.payouts.rows.any (·.idempotencyKey = payout.idempotencyKey) then .error ⟨"unique_violation"⟩
      else do
        let claimed ← insertItems db.items items
        return (some ⟨payout, items⟩, { db with payouts := db.payouts.insert payout h, items := claimed })
    else .error ⟨"unique_violation"⟩

/-! ## Settling a payout -/

structure PaidInput where
  payoutId : String
  stripeTransferId : String
  destinationAccount : String
  items : List PayoutItem
  currency : String
  deriving DecidableEq

/-- The entries that discharge one item. -/
def PaidInput.group (input : PaidInput) (item : PayoutItem) : EntryGroup :=
  ⟨item.conversionId, item.merchantId, toUpperCase input.currency, "payout " ++ input.payoutId,
    payoutLegs item.amountCents⟩

def Payout.pay (input : PaidInput) (payout : Payout) : Payout :=
  { payout with
    status := .PAID
    stripeTransferId := some input.stripeTransferId
    destinationAccount := some input.destinationAccount }

/-- Record that the transfer landed. -/
def markPaid (db : Database) (input : PaidInput) : Except Err (Payout × Database) :=
  match db.payouts.find? input.payoutId with
  | some payout =>
    if payout.status = .IN_FLIGHT then do
      let ledger ← input.items.foldlM (fun ledger item => insertLedgerGroup ledger (input.group item)) db.ledger
      return (payout.pay input,
        { db with
          payouts := db.payouts.update input.payoutId (·.pay input) fun _ => rfl
          ledger := ledger })
    else .error ⟨"payout_not_in_flight"⟩
  | none => .error ⟨"payout_not_in_flight"⟩

def Payout.fail (code : String) (payout : Payout) : Payout :=
  { payout with status := .FAILED, failureCode := some (String.ofList (code.toList.take 128)) }

/-- Record a failed transfer and release the claim. -/
def markFailed (db : Database) (payoutId code : String) : Except Err (Payout × Database) :=
  match db.payouts.find? payoutId with
  | some payout =>
    .ok (payout.fail code,
      { db with
        items := db.items.filter (·.payoutId ≠ payoutId)
        payouts := db.payouts.update payoutId (·.fail code) fun _ => rfl })
  | none => .error ⟨"payout_missing"⟩

end Commerce
