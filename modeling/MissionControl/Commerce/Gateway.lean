import MissionControl.Commerce.Conversions
import MissionControl.Interleaving.Pool

/-! # The gateway

The services around the book: webhooks settle and reverse sales, payout runs transfer what the
agents are owed. Every statement or transaction is one call. A call may fail before it has
done anything, or after: then it has been done, and the caller does not know. -/

namespace Commerce

open Interleaving (Interface Exec Program System)

/-! ## The world -/

/-- A transfer that has landed. -/
structure Transfer where
  transferId : String
  idempotencyKey : String
  amountCents : Int
  currency : String
  destination : String
  deriving DecidableEq

/-- The keys of `webhook_events`, with what became of the event; `none` while it is handled. -/
structure WebhookEvent where
  eventId : String
  eventType : String
  outcome : Option String := none
  conversionId : Option String := none
  deriving DecidableEq

def WebhookEvent.complete (outcome : String) (conversionId : Option String) (e : WebhookEvent) :
    WebhookEvent :=
  { e with outcome := some outcome, conversionId := conversionId }

/-- The database, the keys in the cache, and the transfers of the rail. -/
structure World where
  db : Database := {}
  events : Relational.Table WebhookEvent String WebhookEvent.eventId := .empty
  cache : List String := []
  transfers : List Transfer := []

structure TransferRequest where
  amountCents : Int
  currency : String
  destination : String
  idempotencyKey : String
  deriving DecidableEq

inductive Call where
  | recordSale (input : RecordSaleInput)
  | findById (id : String)
  | findSaleByStripeReference (reference : Reference)
  | markSettled (conversionId : String) (chargeId : Option String)
  | recordReversal (parent : Conversion) (reversalReference memo : String)
  | setIfAbsent (key : String)
  | del (key : String)
  | claimEvent (eventId eventType : String)
  | completeEvent (eventId outcome : String) (conversionId : Option String)
  | releaseEvent (eventId : String)
  | upsertAgentAccount (input : AccountInput)
  | findAgentAccount (agentId : String)
  | pendingBalances
  | claim (agentId currency : String)
  | transfer (request : TransferRequest)
  | markPaid (input : PaidInput)
  | markFailed (payoutId code : String)
  deriving DecidableEq

/-- What a call gives when it succeeds. -/
abbrev Call.Result : Call → Type
  | recordSale _ | recordReversal .. => Conversion
  | findById _ | findSaleByStripeReference _ | markSettled .. => Option Conversion
  | setIfAbsent _ | claimEvent .. => Bool
  | del _ | completeEvent .. | releaseEvent _ => Unit
  | upsertAgentAccount _ => AgentAccount
  | findAgentAccount _ => Option AgentAccount
  | pendingBalances => List PendingBalance
  | claim .. => Option Claim
  | transfer _ => Transfer
  | markPaid _ | markFailed .. => Payout

abbrev GatewayCalls : Interface where
  Call := Call
  Resp c := Except Err c.Result
  Err := Err

abbrev GatewayProgram (α : Type) : Type := Program GatewayCalls α

/-- Make one call; what it reports is raised. -/
def ask (c : Call) : GatewayProgram c.Result := do
  match ← Program.perform (I := GatewayCalls) c with
  | .ok r => return r
  | .error e => throw e

/-! ## The calls -/

/-- Whether a call fails, and whether it has been done by then. -/
inductive Fault where
  | none
  | before (code : String)
  | after (code : String)
  deriving DecidableEq

/-- What is decided outside: the new identifiers, and the fault of the call. -/
structure Outside where
  id : String := ""
  key : String := ""
  fault : Fault := .none

/-- The rail: one transfer for each idempotency key. -/
def transfer (transfers : List Transfer) (request : TransferRequest) (transferId : String) :
    Except Err (Transfer × List Transfer) :=
  if request.amountCents ≤ 0 then .error ⟨"invalid_transfer_amount"⟩
  else if request.destination = "" then .error ⟨"missing_transfer_destination"⟩
  else
    match transfers.find? (·.idempotencyKey = request.idempotencyKey) with
    | some landed => .ok (landed, transfers)
    | none =>
      let landed : Transfer := ⟨transferId, request.idempotencyKey, request.amountCents, request.currency,
        request.destination⟩
      .ok (landed, transfers ++ [landed])

/-- An operation of the books alone. -/
def World.onBooks {α : Type} (w : World) (r : Except Err (α × Books)) : Except Err (α × World) :=
  r.map fun (a, books) => (a, { w with db := { w.db with toBooks := books } })

def World.onDb {α : Type} (w : World) (r : Except Err (α × Database)) : Except Err (α × World) :=
  r.map fun (a, db) => (a, { w with db := db })

/-- What a call does. One that reports an error has done nothing. -/
def run (o : Outside) (w : World) : (c : Call) → Except Err (c.Result × World)
  | .recordSale input => w.onBooks (recordSale w.db.toBooks input o.id)
  | .findById id => .ok (w.db.conversions.find? id, w)
  | .findSaleByStripeReference reference =>
    .ok (Commerce.findSaleByStripeReference w.db.conversions reference, w)
  | .markSettled conversionId chargeId => w.onBooks (.ok (markSettled w.db.toBooks conversionId chargeId))
  | .recordReversal parent reversalReference memo =>
    w.onBooks (recordReversal w.db.toBooks parent reversalReference memo o.id)
  | .setIfAbsent key =>
    if key ∈ w.cache then .ok (false, w) else .ok (true, { w with cache := key :: w.cache })
  | .del key => .ok ((), { w with cache := w.cache.filter (· ≠ key) })
  | .claimEvent eventId eventType =>
    if (w.events.find? eventId).isSome then .ok (false, w)
    else .ok (true, { w with events := w.events.put ⟨eventId, eventType, none, none⟩ })
  | .completeEvent eventId outcome conversionId =>
    .ok ((), { w with events := w.events.update eventId (·.complete outcome conversionId) fun _ => rfl })
  | .releaseEvent eventId =>
    .ok ((), { w with events := w.events.filter fun e => e.eventId ≠ eventId || e.outcome.isSome })
  | .upsertAgentAccount input => w.onDb (.ok (upsertAgentAccount w.db input))
  | .findAgentAccount agentId => .ok (w.db.accounts.find? agentId, w)
  | .pendingBalances => .ok (Commerce.pendingBalances w.db, w)
  | .claim agentId currency => w.onDb (Commerce.claim w.db agentId currency o.id o.key)
  | .transfer request =>
    (Commerce.transfer w.transfers request o.id).map fun (landed, transfers) =>
      (landed, { w with transfers := transfers })
  | .markPaid input => w.onDb (markPaid w.db input)
  | .markFailed payoutId code => w.onDb (markFailed w.db payoutId code)

/-- The meaning of the calls. -/
def exec : Exec GatewayCalls World Outside := fun c o w =>
  match o.fault with
  | .before code => .ok (.error ⟨code⟩, w)
  | .none =>
    match run o w c with
    | .ok (r, w') => .ok (.ok r, w')
    | .error e => .ok (.error e, w)
  | .after code =>
    match run o w c with
    | .ok (_, w') => .ok (.error ⟨code⟩, w')
    | .error _ => .ok (.error ⟨code⟩, w)

/-! ## Webhooks -/

/-- The object of a Stripe event: its type, and its fields that are texts. -/
structure StripeObject where
  object : String
  id : Option String := none
  payment_intent : Option String := none
  latest_charge : Option String := none
  charge : Option String := none
  deriving DecidableEq

structure StripeEvent where
  id : String
  type : String
  object : StripeObject
  deriving DecidableEq

def SETTLEMENT_EVENTS : List String := ["payment_intent.succeeded", "charge.succeeded"]

def CLAWBACK_EVENTS : List String := ["charge.refunded", "charge.dispute.created", "charge.refund.updated"]

/-- Pull the charge and payment-intent handles out of whichever object the event carries. -/
def stripeReference (event : StripeEvent) : Except Err Reference :=
  let object := event.object
  if object.object = "charge" then .ok ⟨object.id, object.payment_intent⟩
  else if object.object = "payment_intent" then .ok ⟨object.latest_charge, object.id⟩
  else if object.object = "dispute" ∨ object.object = "refund" then .ok ⟨object.charge, object.payment_intent⟩
  else .error ⟨"unsupported_event_object"⟩

/-- What a pure function reports is raised. -/
def orThrow {α : Type} : Except Err α → GatewayProgram α
  | .ok a => return a
  | .error e => throw e

structure Dispatched where
  outcome : String
  conversionId : Option String
  deriving DecidableEq

def settle (event : StripeEvent) : GatewayProgram Dispatched := do
  let reference ← orThrow (stripeReference event)
  match ← ask (.findSaleByStripeReference reference) with
  | none => return ⟨"IGNORED_NO_MATCHING_CONVERSION", none⟩
  | some conversion =>
    match ← ask (.markSettled conversion.id reference.chargeId) with
    -- a refund must never be undone by a late settlement event
    | none => return ⟨"IGNORED_ALREADY_REFUNDED", some conversion.id⟩
    | some settled => return ⟨"SETTLED", some settled.id⟩

def clawback (event : StripeEvent) : GatewayProgram Dispatched := do
  let reference ← orThrow (stripeReference event)
  match ← ask (.findSaleByStripeReference reference) with
  | none => return ⟨"IGNORED_NO_MATCHING_CONVERSION", none⟩
  | some sale =>
    let reversal ← ask (.recordReversal sale event.id (event.type ++ " " ++ event.id))
    return ⟨"REVERSED", some reversal.id⟩

def dispatch (event : StripeEvent) : GatewayProgram Dispatched :=
  if event.type ∈ SETTLEMENT_EVENTS then settle event
  else if event.type ∈ CLAWBACK_EVENTS then clawback event
  else return ⟨"IGNORED_UNHANDLED_TYPE", none⟩

/-- Dispatch an event that has been claimed, and record what became of it. -/
def dispatchClaimed (event : StripeEvent) : GatewayProgram Dispatched := do
  let dispatched ← dispatch event
  ask (.completeEvent event.id dispatched.outcome dispatched.conversionId)
  return dispatched

/-- Handle one delivery of an event. `none` is a duplicate that was ignored. -/
def handle (event : StripeEvent) : GatewayProgram (Option Dispatched) := do
  if ← ask (.setIfAbsent ("event:" ++ event.id)) then
    if ← ask (.claimEvent event.id event.type) then
      match ← Program.attempt (dispatchClaimed event) with
      | .ok dispatched => return some dispatched
      | .error e =>
        -- both claims are released so that a retry can reprocess the event
        ask (.releaseEvent event.id)
        ask (.del ("event:" ++ event.id))
        throw e
    else return none
  else return none

/-! ## Payout runs -/

inductive PayoutOutcome where
  | paid (payout : Payout)
  | failed (payout : Payout) (reason : String)
  | skipped (reason : String) (amountCents : Int)
  deriving DecidableEq

/-- Why an agent is not paid now. -/
def gateFor (account : Option AgentAccount) (pendingCents : Int) : Except String String :=
  match account with
  | none => .error "no_account"
  | some account =>
    if ¬ account.payoutsEnabled then .error "payouts_disabled"
    else
      match account.stripeAccountId with
      | none => .error "no_destination"
      | some destination =>
        if destination = "" then .error "no_destination"
        else if pendingCents ≤ 0 ∨ pendingCents < account.minimumPayoutCents then .error "below_minimum"
        else .ok destination

def Claim.request (claim : Claim) (destination : String) : TransferRequest :=
  ⟨claim.payout.amountCents, claim.payout.currency, destination, claim.payout.idempotencyKey⟩

def Claim.paid (claim : Claim) (destination transferId : String) : PaidInput :=
  ⟨claim.payout.id, transferId, destination, claim.items, claim.payout.currency⟩

/-- Transfer what has been claimed and confirm it. -/
def confirm (claim : Claim) (destination : String) : GatewayProgram Payout := do
  let landed ← ask (.transfer (claim.request destination))
  ask (.markPaid (claim.paid destination landed.transferId))

/-- Transfer a claim, or release it. -/
def settleClaim (claim : Claim) (destination : String) : GatewayProgram PayoutOutcome := do
  match ← Program.attempt (confirm claim destination) with
  | .ok paid => return .paid paid
  | .error e =>
    let released ← ask (.markFailed claim.payout.id e.code)
    return .failed released e.code

def settleOne (agentId currency : String) (pendingCents : Int) (dryRun : Bool) :
    GatewayProgram PayoutOutcome := do
  let account ← ask (.findAgentAccount agentId)
  match gateFor account pendingCents with
  | .error reason => return .skipped reason pendingCents
  | .ok destination =>
    if dryRun then return .skipped "nothing_claimable" pendingCents
    else
      match ← ask (.claim agentId currency) with
      | none => return .skipped "nothing_claimable" pendingCents
      | some claim => settleClaim claim destination

def settleAll (dryRun : Bool) : List PendingBalance → GatewayProgram (List PayoutOutcome)
  | [] => return []
  | balance :: rest => do
    let outcome ← settleOne balance.agentId balance.currency balance.amountCents dryRun
    let outcomes ← settleAll dryRun rest
    return outcome :: outcomes

/-- `PayoutService.run` -/
def runPayouts (dryRun : Bool) (agentId : Option String) : GatewayProgram (List PayoutOutcome) := do
  let balances ← ask .pendingBalances
  settleAll dryRun (balances.filter fun b => agentId.all fun a => a == "" || a == b.agentId)

/-! ## The system -/

/-- What a worker may be asked to do. The last four use a repository directly, as an operator
    does. -/
inductive Request where
  | recordSale (input : RecordSaleInput)
  | webhook (event : StripeEvent)
  | upsertAgentAccount (input : AccountInput)
  | payouts (dryRun : Bool) (agentId : Option String)
  | markSettled (conversionId : String) (chargeId : Option String)
  | reverse (saleId reversalReference memo : String)
  | markPaid (input : PaidInput)
  | markFailed (payoutId code : String)
  deriving DecidableEq

/-- Reverse the sale with the identifier. -/
def reverse (saleId reversalReference memo : String) : GatewayProgram Unit := do
  match ← ask (.findById saleId) with
  | none => return ()
  | some sale =>
    if sale.entryType = .SALE then
      let _ ← ask (.recordReversal sale reversalReference memo)
      return ()
    else return ()

def Request.program : Request → GatewayProgram Unit
  | .recordSale input => (ask (.recordSale input)).void
  | .webhook event => (handle event).void
  | .upsertAgentAccount input => (ask (.upsertAgentAccount input)).void
  | .payouts dryRun agentId => (runPayouts dryRun agentId).void
  | .markSettled conversionId chargeId => (ask (.markSettled conversionId chargeId)).void
  | .reverse saleId reversalReference memo => Commerce.reverse saleId reversalReference memo
  | .markPaid input => (ask (.markPaid input)).void
  | .markFailed payoutId code => (ask (.markFailed payoutId code)).void

/-- The requests that are served to customers, the rail and the scheduler. -/
def Request.served : Request → Bool
  | .recordSale _ | .webhook _ | .upsertAgentAccount _ | .payouts .. => true
  | _ => false

/-- **The gateway**: any number of workers, each on any of the requests. Keys of the cache expire. -/
def gateway (Serves : Request → Prop) : System GatewayCalls World Outside where
  exec := exec
  Starts p := ∃ request, Serves request ∧ p = request.program
  Env w w' := ∃ keeps : String → Bool, w' = { w with cache := w.cache.filter keeps }

end Commerce
