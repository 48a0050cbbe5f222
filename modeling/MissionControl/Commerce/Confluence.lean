import MissionControl.Commerce.Payment
import MissionControl.Interleaving.Solo

/-! # The order of events

Settlements and clawbacks arrive in any order, and while the checkout is still running. The sale ends
in the same status and with the same ledger whatever the order was, as long as no event arrives
before the sale is in the books: one that finds no sale is acknowledged all the same, and never
applied. -/

namespace Commerce

open Interleaving
open Interleaving.Program (Exchange Only only_perform only_raise only_ret trace_bind_ok)

/-- The calls that move the status of a sale. -/
def Call.moves : Call → Prop
  | .markSettled .. | .recordReversal .. => True
  | _ => False

theorem run_answer {c : Call} {o : Outside} {w : World} {r : c.Result}
    (h : exec.answer c o w = .ok (.ok r)) : run o w c = .ok (r, Exec.after exec c o w) := by
  obtain ⟨w', hrun⟩ := run_of_answer h
  have hfault : ∀ code, o.fault ≠ .before code := by
    intro code hbefore
    unfold Exec.answer exec at h
    rw [hbefore] at h
    cases h
  rw [after_of_run hfault hrun, hrun]

namespace Payment

variable (p : Payment) (before : Books)

/-- The checkout, and deliveries of the events. -/
def Serves : Request → Prop
  | .recordSale input => input = p.input
  | .webhook event => event ∈ p.events
  | _ => False

/-! ## What the workers rely on -/

/-- The sale is in the books. -/
def HasSale (w : World) (c : Conversion) : Prop :=
  ∃ sale ∈ w.db.conversions, p.IsSale sale ∧ sale.Version c

/-- Whoever settles or reverses a sale has found the one of the payment. -/
def Pays (w : World) : Call → Prop
  | .recordSale input => input = p.input
  | .findSaleByStripeReference reference => ∃ event ∈ p.events, stripeReference event = .ok reference
  | .markSettled id _ => ∃ event ∈ p.events, event.settles = true ∧ ∃ c, p.HasSale w c ∧ c.id = id
  | .recordReversal parent reference memo =>
    ∃ event ∈ p.clawbacks, reference = event.id ∧ memo = event.type ++ " " ++ event.id ∧ p.HasSale w parent
  | .setIfAbsent _ | .del _ | .claimEvent .. | .completeEvent .. | .releaseEvent _ => True
  | _ => False

/-- What a call has done shows in the books. -/
def Shows (sale : Conversion) (reversed : List StripeEvent) : Call → Prop
  | .markSettled .. => sale.status ≠ .PENDING_SETTLEMENT
  | .recordReversal _ reference _ => ∀ event ∈ p.events, event.id = reference → event ∈ reversed
  | _ => True

/-- The books are those of the payment, and what has been applied shows in them. -/
structure Recorded (m : GatewayStage) (sale : Conversion) (reversed : List StripeEvent) : Prop where
  booked : p.Booked before m.world.db.toBooks sale reversed
  shows : ∀ x ∈ m.history, (∃ r, x.answer = .ok (.ok r)) → p.Shows sale reversed x.call

/-- The sale is not in the books yet, or the books are those of the payment. -/
def Inv (m : GatewayStage) : Prop :=
  (m.world.db.toBooks = before ∧ ∀ x ∈ m.history, ¬ x.call.moves) ∨
    ∃ sale reversed, p.Recorded before m sale reversed

variable {p before} {m m' : GatewayStage} {sale : Conversion} {reversed : List StripeEvent} {w w' : World}

theorem HasSale.later {c : Conversion} (h : p.HasSale w c)
    (honward : Onward w.db.conversions w'.db.conversions) : p.HasSale w' c := by
  obtain ⟨sale, hsale, hIs, hversion⟩ := h
  obtain ⟨sale', hsale', hversion'⟩ := honward sale hsale
  exact ⟨sale', hsale', hIs.version hversion', hversion'.symm.trans hversion⟩

theorem Booked.version (hb : p.Booked before w.db.toBooks sale reversed) {c : Conversion}
    (h : p.HasSale w c) : sale.Version c := by
  obtain ⟨sale', hsale', hIs, hversion⟩ := h
  rw [← hb.sole sale' hsale' hIs.order]
  exact hversion

variable {c : Call}

theorem Fresh.not_moves (hfresh : p.Fresh before) (hw : w.db.toBooks = before) (hpays : p.Pays w c) : ¬ c.moves := by
  have hnone : ∀ c, ¬ p.HasSale w c := by
    rintro c ⟨sale, hsale, hIs, -⟩
    rw [hw] at hsale
    exact hfresh.order sale hsale hIs.order
  intro hmoves
  cases c with
  | markSettled id chargeId =>
    obtain ⟨event, -, -, c, hc, -⟩ := hpays
    exact hnone c hc
  | recordReversal parent reference memo =>
    obtain ⟨event, -, -, -, hparent⟩ := hpays
    exact hnone parent hparent
  | _ => exact hmoves

theorem shows_of_not_moves (h : ¬ c.moves) : p.Shows sale reversed c := by
  cases c with
  | markSettled | recordReversal => exact absurd trivial h
  | _ => trivial

theorem Shows.mono {sale' : Conversion} {reversed' : List StripeEvent} (h : p.Shows sale reversed c)
    (hreversed : ∀ event ∈ reversed, event ∈ reversed')
    (hstatus : sale.status ≠ .PENDING_SETTLEMENT → sale'.status ≠ .PENDING_SETTLEMENT) :
    p.Shows sale' reversed' c := by
  cases c with
  | markSettled id chargeId => exact hstatus h
  | recordReversal parent reference memo => exact fun event hevent hid => hreversed event (h event hevent hid)
  | _ => trivial

theorem Booked.still (hb : p.Booked before w.db.toBooks sale reversed) (hpays : p.Pays w c) (hmoves : ¬ c.moves)
    (o : Outside) : (Exec.after exec c o w).db.toBooks = w.db.toBooks := by
  have hchange := change_after c o w
  generalize (Exec.after exec c o w).db = db' at hchange ⊢
  cases hchange with
  | same => rfl
  | @sold input id row books h =>
    rw [show input = p.input from hpays] at h
    exact absurd h hb.not_recordSale
  | settled | reversed => exact absurd trivial hmoves
  | account | claimed | paid | failed => exact absurd hpays id

variable {id : String}

theorem Booked.markSettled (hb : p.Booked before w.db.toBooks sale reversed) {chargeId : Option String}
    (hpays : p.Pays w (.markSettled id chargeId)) :
    ∃ sale', p.Booked before (Commerce.markSettled w.db.toBooks id chargeId).2 sale' reversed ∧
      sale'.status ≠ .PENDING_SETTLEMENT := by
  obtain ⟨event, hevent, hsettles, c, hc, rfl⟩ := hpays
  have hid : c.id = sale.id := by rw [hb.version hc]
  rw [hid]
  exact hb.settle hevent hsettles chargeId

theorem Booked.recordReversal (hb : p.Booked before w.db.toBooks sale reversed) {parent row : Conversion}
    {reference memo : String} {books : Books} (hpays : p.Pays w (.recordReversal parent reference memo))
    (h : Commerce.recordReversal w.db.toBooks parent reference memo id = .ok (row, books)) :
    ∃ sale' reversed', p.Booked before books sale' reversed' ∧ (∀ event ∈ reversed, event ∈ reversed') ∧
      sale'.status ≠ .PENDING_SETTLEMENT ∧ ∀ event ∈ p.events, event.id = reference → event ∈ reversed' := by
  obtain ⟨event, hevent, rfl, rfl, hparent⟩ := hpays
  obtain ⟨sale', reversed', hb', hmem, hsub⟩ := hb.reverse hevent (hb.version hparent) h
  refine ⟨sale', reversed', hb', hsub, ?_, fun event' hevent' hid => ?_⟩
  · rw [hb'.refunded hmem]
    exact nofun
  · rw [List.inj_on_of_nodup_map p.ids hevent' (List.mem_of_mem_filter hevent) hid]
    exact hmem

/-- **What one call does to the books of the payment.** -/
theorem Booked.after (hb : p.Booked before w.db.toBooks sale reversed) (hpays : p.Pays w c) (o : Outside) :
    ∃ sale' reversed', p.Booked before (Exec.after exec c o w).db.toBooks sale' reversed' ∧
      (∀ c', p.Shows sale reversed c' → p.Shows sale' reversed' c') ∧
      ((∃ r, exec.answer c o w = .ok (.ok r)) → p.Shows sale' reversed' c) := by
  by_cases hmoves : c.moves
  case neg =>
    refine ⟨sale, reversed, ?_, fun _ h => h, fun _ => ?_⟩
    · rw [hb.still hpays hmoves o]
      exact hb
    · exact shows_of_not_moves hmoves
  case pos =>
    by_cases hok : ∃ r, exec.answer c o w = .ok (.ok r)
    · -- it has succeeded, so it has been done
      obtain ⟨r, hr⟩ := hok
      have hrun := run_answer hr
      cases c with
      | markSettled id chargeId =>
        obtain ⟨books, hbooks, hafter⟩ := onBooks_ok hrun
        obtain ⟨sale', hb', hstatus⟩ := hb.markSettled hpays
        rw [show (Commerce.markSettled w.db.toBooks id chargeId).2 = books from
          congrArg Prod.snd (Except.ok.inj hbooks)] at hb'
        rw [hafter]
        exact ⟨sale', reversed, hb', fun _ h => h.mono (fun _ h => h) fun _ => hstatus, fun _ => hstatus⟩
      | recordReversal parent reference memo =>
        obtain ⟨books, hbooks, hafter⟩ := onBooks_ok hrun
        obtain ⟨sale', reversed', hb', hsub, hstatus, hshows⟩ := hb.recordReversal hpays hbooks
        rw [hafter]
        exact ⟨sale', reversed', hb', fun _ h => h.mono hsub fun _ => hstatus, fun _ => hshows⟩
      | _ => exact absurd hmoves id
    · -- it has been done, or not
      have hchange := change_after c o w
      generalize (Exec.after exec c o w).db = db' at hchange ⊢
      cases hchange with
      | same => exact ⟨sale, reversed, hb, fun _ h => h, fun h => absurd h hok⟩
      | settled id chargeId =>
        obtain ⟨sale', hb', hstatus⟩ := hb.markSettled hpays
        exact ⟨sale', reversed, hb', fun _ h => h.mono (fun _ h => h) fun _ => hstatus, fun _ => hstatus⟩
      | reversed h =>
        obtain ⟨sale', reversed', hb', hsub, hstatus, hshows⟩ := hb.recordReversal hpays h
        exact ⟨sale', reversed', hb', fun _ h => h.mono hsub fun _ => hstatus, fun _ => hshows⟩
      | sold | account | claimed | paid | failed => exact absurd hmoves id

/-- **One call keeps the invariant.** -/
theorem inv_perform (hfresh : p.Fresh before) (h : p.Inv before m) (i : ℕ) (hpays : p.Pays m.world c)
    (o : Outside) : p.Inv before (m.perform exec i c o) := by
  rcases h with ⟨hbooks, hnone⟩ | ⟨sale, reversed, hrecorded⟩
  · have hmoves := hfresh.not_moves hbooks hpays
    have hnone' : ∀ x ∈ (m.perform exec i c o).history, ¬ x.call.moves := by
      intro x hx
      rcases List.mem_append.mp hx with hx | hx
      · exact hnone x hx
      · rw [List.mem_singleton.mp hx]
        exact hmoves
    have hchange := change_after c o m.world
    generalize hdb : (Exec.after exec c o m.world).db = db' at hchange
    cases hchange with
    | same => exact .inl ⟨(congrArg Database.toBooks hdb).trans hbooks, hnone'⟩
    | @sold input id row books hsold =>
      -- the sale is in the books now
      rw [show input = p.input from hpays, hbooks] at hsold
      obtain ⟨sale, hb⟩ := booked_recordSale hfresh hsold
      refine .inr ⟨sale, [], ?_, fun x hx _ => shows_of_not_moves (hnone' x hx)⟩
      rw [show (m.perform exec i (.recordSale input) o).world.db.toBooks = books from
        congrArg Database.toBooks hdb]
      exact hb
    | settled | reversed => exact absurd trivial hmoves
    | account | claimed | paid | failed => exact absurd hpays id
  · obtain ⟨sale', reversed', hb', hmono, hnew⟩ := hrecorded.booked.after hpays o
    refine .inr ⟨sale', reversed', hb', fun x hx hok => ?_⟩
    rcases List.mem_append.mp hx with hx | hx
    · exact hmono _ (hrecorded.shows x hx hok)
    · rw [List.mem_singleton.mp hx] at hok ⊢
      exact hnew hok

/-! ## The discipline -/

theorem moved_refl (w : World) : Onward w.db.conversions w.db.conversions := .refl _

theorem moved_trans {w₁ w₂ w₃ : World} (h : Onward w₁.db.conversions w₂.db.conversions)
    (h' : Onward w₂.db.conversions w₃.db.conversions) : Onward w₁.db.conversions w₃.db.conversions := h.trans h'

/-- The workers of the payment. -/
def discipline (hfresh : p.Fresh before) : Discipline (gateway p.Serves) where
  Pre _ c m := p.Pays m.world c
  Ext w w' := Onward w.db.conversions w'.db.conversions
  Inv := p.Inv before
  ext_refl := moved_refl
  ext_trans := @moved_trans
  ext_call o _ _ := onward_after _ o _
  ext_env h := by
    obtain ⟨keeps, rfl⟩ := h
    exact .refl _
  inv_call o h hpays := inv_perform hfresh h _ hpays o
  inv_env h hw := by
    obtain ⟨keeps, rfl⟩ := hw
    rcases h with h | ⟨sale, reversed, h⟩
    · exact .inl h
    · exact .inr ⟨sale, reversed, h.booked, h.shows⟩

variable {α β : Type} (hfresh : p.Fresh before)

/-- The program keeps the discipline, from wherever it is started. -/
def Keeps (p₀ : GatewayProgram α) : Prop :=
  ∀ i m, (discipline hfresh).Safe i (Discipline.Anything (α := α)) p₀ m

variable {hfresh}

theorem Keeps.bind {q : GatewayProgram α} {f : α → GatewayProgram β} (hq : Keeps hfresh q)
    (hf : ∀ a, Keeps hfresh (f a)) : Keeps hfresh (q.bind f) :=
  fun i m => Discipline.Safe.bind (hq i m) (fun a m' _ => hf a i m') fun _ _ _ => trivial

theorem keeps_only {q : GatewayProgram α} (hq : q.Only fun c => ∀ w, p.Pays w c) : Keeps hfresh q := by
  intro i m
  exact (Discipline.Safe.only (R := fun _ => True) (fun j c m' hc => hc m'.world) (fun _ _ => trivial) hq).mono
    fun _ _ _ => trivial

theorem keeps_ret (a : α) : Keeps hfresh (Program.ret a) := keeps_only (only_ret a)

theorem keeps_raise (e : Err) : Keeps hfresh (Program.raise e : GatewayProgram α) :=
  keeps_only (only_raise (I := GatewayCalls) e)

theorem keeps_ask (h : ∀ w, p.Pays w c) : Keeps hfresh (ask c) := by
  refine keeps_only (Only.bind (only_perform h) fun r => ?_)
  cases r <;> trivial

variable {event : StripeEvent}

theorem Inv.found (hfresh : p.Fresh before) (h : p.Inv before m) (hevent : event ∈ p.events)
    {reference : Reference} (href : stripeReference event = .ok reference) {c : Conversion}
    (hc : findSaleByStripeReference m.world.db.conversions reference = some c) : p.HasSale m.world c := by
  have hnone := hfresh.unpaid event hevent reference href
  rcases h with ⟨hbooks, -⟩ | ⟨sale, reversed, hrecorded⟩
  · rw [← hbooks, hc] at hnone
    cases hnone
  · have hmem : c ∈ m.world.db.conversions := List.mem_of_find?_eq_some hc
    have hmatch := List.find?_some hc
    have hentry : c.entryType = .SALE := by
      rw [Bool.and_eq_true, decide_eq_true_eq] at hmatch
      exact hmatch.1
    rcases hrecorded.booked.sales c hmem hentry with rfl | hbefore
    · exact ⟨c, hmem, hrecorded.booked.isSale, .refl c⟩
    · -- a sale from before is not on the payment
      exact absurd hmatch (List.find?_eq_none.mp hnone c hbefore)

/-- **What an event finds, and what is done to it.** -/
theorem keeps_find (hevent : event ∈ p.events) {reference : Reference}
    (href : stripeReference event = .ok reference) {f : Option Conversion → GatewayProgram α}
    (hnone : Keeps hfresh (f none)) (hsome : ∀ c i m, p.HasSale m.world c →
      (discipline hfresh).Safe i (Discipline.Anything (α := α)) (f (some c)) m) :
    Keeps hfresh ((ask (.findSaleByStripeReference reference)).bind f) := by
  intro i m
  unfold ask
  rw [Program.bind_eq_bind, Program.bind_assoc]
  refine Discipline.Safe.call (fun m' _ => ⟨event, hevent, href⟩) ?_ ?_
  · intro m' o r hm' hr
    cases r with
    | error e => exact keeps_raise e i _
    | ok found =>
      cases found with
      | none => exact hnone i _
      | some c =>
        have hrun := run_answer hr
        have hfound : findSaleByStripeReference m'.world.db.conversions reference = some c :=
          congrArg Prod.fst (Except.ok.inj hrun)
        exact hsome c i _ ((hm'.inv.found hfresh hevent href hfound).later (onward_after _ o _))
  · intro m' o e m'' _ _ _
    trivial

theorem safe_move {i : ℕ} (h : ∀ w, Onward m.world.db.conversions w.db.conversions → p.Pays w c) :
    (discipline hfresh).Safe i (Discipline.Anything (α := c.Result)) (ask c) m := by
  refine Discipline.Safe.call (fun m' hm => h m'.world hm.ext) ?_ ?_
  · intro m' o r _ _
    cases r with
    | ok r => exact keeps_ret r i _
    | error e => exact keeps_raise e i _
  · intro m' o e m'' _ _ _
    trivial

theorem keeps_settle (hevent : event ∈ p.events) (hsettles : event.settles = true) :
    Keeps hfresh (settle event) := by
  unfold settle
  cases href : stripeReference event with
  | error e => exact keeps_raise e
  | ok reference =>
    refine keeps_find hevent href (keeps_ret _) fun c i m hc => ?_
    refine Discipline.Safe.bind (safe_move fun w honward => ?_) (fun settled m' _ => ?_) fun _ _ _ => trivial
    · exact ⟨event, hevent, hsettles, c, hc.later honward, rfl⟩
    · cases settled <;> exact keeps_ret _ i m'

theorem keeps_clawback (hevent : event ∈ p.clawbacks) : Keeps hfresh (clawback event) := by
  have hmem : event ∈ p.events := List.mem_of_mem_filter hevent
  unfold clawback
  cases href : stripeReference event with
  | error e => exact keeps_raise e
  | ok reference =>
    refine keeps_find hmem href (keeps_ret _) fun c i m hc => ?_
    refine Discipline.Safe.bind (safe_move fun w honward => ?_) (fun reversal m' _ => ?_) fun _ _ _ => trivial
    · exact ⟨event, hevent, rfl, rfl, hc.later honward⟩
    · exact keeps_ret _ i m'

theorem keeps_handle (hevent : event ∈ p.events) : Keeps hfresh (handle event) := by
  have hdispatch : Keeps hfresh (dispatch event) := by
    unfold dispatch
    split
    case isTrue hsettles => exact keeps_settle hevent (decide_eq_true hsettles)
    case isFalse hsettles =>
      split
      case isTrue hclaws =>
        have hback : event.clawsBack = true := by
          unfold StripeEvent.clawsBack StripeEvent.settles
          rw [decide_eq_false hsettles, decide_eq_true hclaws]
          rfl
        exact keeps_clawback (List.mem_filter.mpr ⟨hevent, hback⟩)
      case isFalse => exact keeps_ret _
  refine (keeps_ask fun _ => by trivial).bind fun won => ?_
  cases won with
  | false => exact keeps_ret _
  | true =>
    refine (keeps_ask fun _ => by trivial).bind fun claimed => ?_
    cases claimed with
    | false => exact keeps_ret _
    | true =>
      intro i m
      refine Discipline.Safe.attempt_bind ((hdispatch.bind fun dispatched => ?_) i m) fun r m' _ => ?_
      · exact (keeps_ask fun _ => by trivial).bind fun _ => keeps_ret _
      · cases r with
        | ok dispatched => exact keeps_ret _ i m'
        | error e =>
          exact ((keeps_ask fun _ => by trivial).bind fun _ => (keeps_ask fun _ => by trivial).bind fun _ =>
            keeps_raise e) i m'

variable (hfresh) in
/-- **Every worker keeps the discipline.** -/
theorem covers : (discipline hfresh).Covers := by
  intro q hq i m _
  obtain ⟨request, hserves, rfl⟩ := hq
  cases request with
  | recordSale input => exact (keeps_ask (fun _ => by exact hserves) i m).void
  | webhook event => exact (keeps_handle hserves i m).void
  | _ => exact absurd hserves id

/-! ## Events that have been acknowledged -/

/-- A delivery of the event has been answered with what became of it. -/
def Acknowledged (event : StripeEvent) (m : GatewayStage) : Prop :=
  ∃ i dispatched, (handle event).Trace (m.own i) (.ok (some dispatched))

/-- An event that is looked up finds its sale. -/
def finds (m : GatewayStage) : GatewayAction → Bool
  | .call _ (.findSaleByStripeReference reference) _ =>
    (findSaleByStripeReference m.world.db.conversions reference).isSome
  | _ => true

abbrev Finds (m : GatewayStage) (a : GatewayAction) : Prop := finds m a = true

variable {t : List (Exchange GatewayCalls)}

theorem trace_ask {r : c.Result} (h : (ask c).Trace t (.ok r)) : t = [⟨c, .ok (.ok r)⟩] := by
  obtain ⟨a, t₁, t₂, rfl, h₁, h₂⟩ := trace_bind_ok.mp h
  obtain rfl := Program.trace_perform_ok.mp h₁
  cases a with
  | ok x =>
    obtain ⟨rfl, hx⟩ := h₂
    cases hx
    rfl
  | error e =>
    obtain ⟨-, hx⟩ := h₂
    cases hx

variable {d : Dispatched}

theorem trace_handle (h : (handle event).Trace t (.ok (some d))) :
    ∃ l, (∀ x ∈ l, x ∈ t) ∧ (dispatch event).Trace l (.ok d) := by
  obtain ⟨won, t₁, t₂, rfl, -, h₂⟩ := trace_bind_ok.mp h
  cases won with
  | false =>
    obtain ⟨-, hnone⟩ := h₂
    cases hnone
  | true =>
    obtain ⟨claimed, t₃, t₄, rfl, -, h₄⟩ := trace_bind_ok.mp h₂
    cases claimed with
    | false =>
      obtain ⟨-, hnone⟩ := h₄
      cases hnone
    | true =>
      obtain ⟨r, t₅, t₆, rfl, h₅, h₆⟩ := trace_bind_ok.mp h₄
      cases r with
      | error e =>
        -- a delivery that fails is not acknowledged
        obtain ⟨_, t₇, t₈, -, -, h₈⟩ := trace_bind_ok.mp h₆
        obtain ⟨_, t₉, t₁₀, -, -, h₁₀⟩ := trace_bind_ok.mp h₈
        obtain ⟨-, hraise⟩ := h₁₀
        cases hraise
      | ok d' =>
        obtain ⟨-, hd⟩ := h₆
        cases hd
        obtain ⟨d', t₇, t₈, rfl, h₇, h₈⟩ := trace_bind_ok.mp (Program.trace_attempt.mp h₅)
        obtain ⟨_, t₉, t₁₀, rfl, -, h₁₀⟩ := trace_bind_ok.mp h₈
        obtain ⟨-, hd⟩ := h₁₀
        cases hd
        refine ⟨t₇, fun x hx => ?_, h₇⟩
        exact List.mem_append_right _ (List.mem_append_right _ (List.mem_append_left _
          (List.mem_append_left _ hx)))

theorem trace_find {f : Reference → Option Conversion → GatewayProgram Dispatched}
    (h : ((orThrow (stripeReference event)).bind fun reference =>
      (ask (.findSaleByStripeReference reference)).bind (f reference)).Trace t (.ok d)) :
    ∃ reference found t', t = ⟨.findSaleByStripeReference reference, .ok (.ok found)⟩ :: t' ∧
      (f reference found).Trace t' (.ok d) := by
  cases href : stripeReference event with
  | error e =>
    rw [href] at h
    obtain ⟨-, hraise⟩ := h
    cases hraise
  | ok reference =>
    rw [href] at h
    obtain ⟨found, t₁, t₂, rfl, h₁, h₂⟩ := trace_bind_ok.mp
      (show ((ask (.findSaleByStripeReference reference)).bind (f reference)).Trace t (.ok d) from h)
    obtain rfl := trace_ask h₁
    exact ⟨reference, found, t₂, rfl, h₂⟩

/-- **An event that found its sale has moved it.** -/
theorem moved_of_dispatch {l : List (Exchange GatewayCalls)} (h : (dispatch event).Trace l (.ok d))
    (hfinds : ∀ reference, ⟨.findSaleByStripeReference reference, .ok (.ok none)⟩ ∉ l) :
    (event.settles = true → ∃ id chargeId r, ⟨.markSettled id chargeId, .ok (.ok r)⟩ ∈ l) ∧
      (event.clawsBack = true → ∃ parent memo r, ⟨.recordReversal parent event.id memo, .ok (.ok r)⟩ ∈ l) := by
  unfold dispatch at h
  split at h
  case isTrue hsettles =>
    refine ⟨fun _ => ?_, fun hclaws => ?_⟩
    · obtain ⟨reference, found, t, rfl, ht⟩ := trace_find h
      cases found with
      | none => exact absurd List.mem_cons_self (hfinds reference)
      | some c =>
        obtain ⟨settled, t₁, t₂, rfl, h₁, -⟩ := trace_bind_ok.mp ht
        obtain rfl := trace_ask h₁
        exact ⟨c.id, reference.chargeId, settled, List.mem_cons_of_mem _ List.mem_cons_self⟩
    · unfold StripeEvent.clawsBack StripeEvent.settles at hclaws
      rw [decide_eq_true hsettles] at hclaws
      cases hclaws
  case isFalse hsettles =>
    refine ⟨fun hsettles' => absurd (of_decide_eq_true hsettles') hsettles, fun hclaws => ?_⟩
    have hback : event.type ∈ CLAWBACK_EVENTS := by
      unfold StripeEvent.clawsBack at hclaws
      rw [Bool.and_eq_true, decide_eq_true_eq] at hclaws
      exact hclaws.2
    rw [if_pos hback] at h
    obtain ⟨reference, found, t, rfl, ht⟩ := trace_find h
    cases found with
    | none => exact absurd List.mem_cons_self (hfinds reference)
    | some c =>
      obtain ⟨reversal, t₁, t₂, rfl, h₁, -⟩ := trace_bind_ok.mp ht
      obtain rfl := trace_ask h₁
      exact ⟨c, _, reversal, List.mem_cons_of_mem _ List.mem_cons_self⟩

/-! ## The order of the events -/

/-- No lookup has come back without a sale. -/
def AllFound (m : GatewayStage) : Prop :=
  ∀ i reference,
    (⟨i, .findSaleByStripeReference reference, .ok (.ok none)⟩ : Event GatewayCalls) ∉ m.history

variable {s : Pool GatewayCalls World} {steps : List (GatewayStage × GatewayAction)}

theorem allFound_of_meets (run : Run (gateway p.Serves) w steps s) (hmeets : Meets Finds steps) : AllFound s.stage := by
  refine run.invariant_of_meets (P := AllFound) (fun i reference h => nomatch h) ?_ (fun m w' h _ => h) hmeets
  intro m i c o hm hfinds j reference hmem
  rcases List.mem_append.mp hmem with hmem | hmem
  · exact hm j reference hmem
  · injection List.mem_singleton.mp hmem with _ hcall hanswer
    subst hcall
    have hrun := run_answer (eq_of_heq hanswer).symm
    have hnone : findSaleByStripeReference m.world.db.conversions reference = none :=
      congrArg Prod.fst (Except.ok.inj hrun)
    have hfinds : (findSaleByStripeReference m.world.db.conversions reference).isSome = true := hfinds
    rw [hnone] at hfinds
    cases hfinds

/-- The status the events leave the sale in. -/
def finalStatus (p : Payment) : ConversionStatus :=
  if p.clawbacks ≠ [] then .REFUNDED
  else if p.events.any StripeEvent.settles then .SETTLED
  else .PENDING_SETTLEMENT

/-- **Once every event has been acknowledged**, the sale has been reversed for each clawback, and its
    status is the one the events leave it in. -/
theorem Recorded.final (h : p.Recorded before m sale reversed) (hfound : AllFound m)
    (hack : ∀ event ∈ p.events, Acknowledged event m) :
    reversed.Perm p.clawbacks ∧ sale.status = p.finalStatus := by
  have hmoved : ∀ event ∈ p.events, (event.settles = true → sale.status ≠ .PENDING_SETTLEMENT) ∧
        (event.clawsBack = true → event ∈ reversed) := by
    intro event hevent
    obtain ⟨i, d, htrace⟩ := hack event hevent
    obtain ⟨l, hl, hdispatch⟩ := trace_handle htrace
    obtain ⟨hsettled, hreversed⟩ := moved_of_dispatch hdispatch
      fun reference hmem => hfound i reference (Stage.mem_own.mp (hl _ hmem))
    refine ⟨fun hsettles => ?_, fun hclaws => ?_⟩
    · obtain ⟨id, chargeId, r, hr⟩ := hsettled hsettles
      exact h.shows _ (Stage.mem_own.mp (hl _ hr)) ⟨r, rfl⟩
    · obtain ⟨parent, memo, r, hr⟩ := hreversed hclaws
      exact h.shows _ (Stage.mem_own.mp (hl _ hr)) ⟨r, rfl⟩ event hevent rfl
  have hperm : reversed.Perm p.clawbacks := by
    refine (List.perm_ext_iff_of_nodup h.booked.once (p.ids.of_map _ |>.filter _)).mpr fun event => ?_
    constructor
    · exact h.booked.clawback event
    · intro hevent
      obtain ⟨hmem, hclaws⟩ := List.mem_filter.mp hevent
      exact (hmoved event hmem).2 hclaws
  refine ⟨hperm, ?_⟩
  unfold finalStatus
  by_cases hclaws : p.clawbacks = []
  · rw [if_neg (not_not.mpr hclaws)]
    have hnone : reversed = [] := by
      rw [hclaws] at hperm
      exact hperm.eq_nil
    have hstatus := h.booked.status
    by_cases hsettles : p.events.any StripeEvent.settles = true
    · rw [if_pos hsettles]
      obtain ⟨event, hevent, hsettles⟩ := List.any_eq_true.mp hsettles
      have hmoves := (hmoved event hevent).1 hsettles
      cases hsale : sale.status with
      | SETTLED => rfl
      | PENDING_SETTLEMENT => exact absurd hsale hmoves
      | REFUNDED | REVERSAL =>
        rw [hsale] at hstatus
        cases hstatus <;> contradiction
    · rw [if_neg hsettles]
      cases hsale : sale.status with
      | PENDING_SETTLEMENT => rfl
      | SETTLED =>
        rw [hsale] at hstatus
        cases hstatus with
        | settled _ hevent hsettles' => exact absurd (List.any_eq_true.mpr ⟨_, hevent, hsettles'⟩) hsettles
      | REFUNDED | REVERSAL =>
        rw [hsale] at hstatus
        cases hstatus <;> contradiction
  · rw [if_pos hclaws]
    obtain ⟨event, hevent⟩ := List.exists_mem_of_ne_nil _ hclaws
    exact h.booked.refunded (hperm.mem_iff.mpr hevent)

theorem final_of_run (hfresh : p.Fresh w.db.toBooks) (run : Run (gateway p.Serves) w steps s)
    (hmeets : Meets Finds steps) (hack : ∀ event ∈ p.events, Acknowledged event s.stage) {sale : Conversion}
    (hsale : sale ∈ s.stage.world.db.conversions) (horder : sale.externalOrderId = p.input.externalOrderId) :
    sale.status = p.finalStatus ∧ ∃ split, assertSplitInvariants p.input.split = .ok split ∧
      (s.stage.world.db.ledger.map EntryGroup.content).Perm
        (w.db.ledger.map EntryGroup.content ++ p.saleContent split :: p.clawbacks.map (p.reversalContent split)) := by
  have hinv : p.Inv w.db.toBooks s.stage :=
    (Discipline.run_kept (covers hfresh) (.inl ⟨rfl, fun x hx => nomatch hx⟩) run).inv
  rcases hinv with ⟨hbooks, -⟩ | ⟨sale', reversed, hrecorded⟩
  · rw [hbooks] at hsale
    exact absurd horder (hfresh.order sale hsale)
  · obtain rfl := hrecorded.booked.sole sale hsale horder
    obtain ⟨hperm, hstatus⟩ := hrecorded.final (allFound_of_meets run hmeets) hack
    refine ⟨hstatus, sale.split, hrecorded.booked.isSale.split, ?_⟩
    rw [hrecorded.booked.ledger]
    exact ((hperm.map _).cons _).append_left _

/-- **The order does not matter**: two runs of one checkout with the same events, in which every
    lookup finds the sale, leave the sale in the same status and the same ledger, up to the order of
    its groups and the identifiers that were drawn. -/
theorem settlement_order_independent (hfresh : p.Fresh w.db.toBooks)
    {steps steps' : List (GatewayStage × GatewayAction)} {s s' : Pool GatewayCalls World}
    (run : Run (gateway p.Serves) w steps s) (run' : Run (gateway p.Serves) w steps' s')
    (hmeets : Meets Finds steps) (hmeets' : Meets Finds steps')
    (hack : ∀ event ∈ p.events, Acknowledged event s.stage)
    (hack' : ∀ event ∈ p.events, Acknowledged event s'.stage) {sale sale' : Conversion}
    (hsale : sale ∈ s.stage.world.db.conversions) (horder : sale.externalOrderId = p.input.externalOrderId)
    (hsale' : sale' ∈ s'.stage.world.db.conversions) (horder' : sale'.externalOrderId = p.input.externalOrderId) :
    sale.status = sale'.status ∧
      (s.stage.world.db.ledger.map EntryGroup.content).Perm (s'.stage.world.db.ledger.map EntryGroup.content) := by
  obtain ⟨hstatus, split, hsplit, hledger⟩ := final_of_run hfresh run hmeets hack hsale horder
  obtain ⟨hstatus', split', hsplit', hledger'⟩ := final_of_run hfresh run' hmeets' hack' hsale' horder'
  obtain rfl : split = split' := Except.ok.inj (hsplit.symm.trans hsplit')
  exact ⟨hstatus.trans hstatus'.symm, hledger.trans hledger'.symm⟩

/-! ## Orders to compare -/

/-- A delivery that was answered with what became of its event. -/
def acknowledges (event : StripeEvent) (m : GatewayStage) (i : ℕ) : Bool :=
  match (handle event).follow (m.own i) with
  | some (.ok (some _)) => true
  | _ => false

theorem acknowledged_of (i : ℕ) (h : acknowledges event m i = true) : Acknowledged event m := by
  unfold acknowledges at h
  split at h
  case h_1 d hfollow => exact ⟨i, d, Program.trace_of_follow hfollow⟩
  case h_2 => cases h

def succeeded : StripeEvent :=
  ⟨"evt_1", "payment_intent.succeeded", { object := "payment_intent", id := some "pi_1" }⟩

def refunded : StripeEvent :=
  ⟨"evt_2", "charge.refunded", { object := "charge", id := some "ch_1", payment_intent := some "pi_1" }⟩

/-- A checkout for 100 cents that is paid and refunded. -/
def order : Payment where
  input := ⟨"click", "merchant", "agent", "order", "usd", some "pi_1", none, ⟨100, 10, 4, 6, 90⟩⟩
  events := [succeeded, refunded]
  ids := by decide

theorem order_fresh : order.Fresh ({} : World).db.toBooks where
  order c hc := by cases hc
  reversal c hc := by cases hc
  unpaid _ _ _ _ := rfl

def record : List (Move GatewayCalls World Outside) :=
  [.start (Request.recordSale order.input).program, .call 0 { id := "sale" }]

/-- One delivery of the event, by the worker with the number. -/
def deliver (i : ℕ) (event : StripeEvent) : List (Move GatewayCalls World Outside) :=
  .start (Request.webhook event).program :: List.replicate 5 (.call i { id := event.id })

def ordered (moves : List (Move GatewayCalls World Outside)) :
    List (GatewayStage × GatewayAction) × Pool GatewayCalls World :=
  play (gateway order.Serves) (Pool.init {}) moves

theorem ordered_allowed {moves : List (Move GatewayCalls World Outside)}
    (h : ∀ x ∈ moves, x.Allowed (gateway order.Serves)) :
    Run (gateway order.Serves) {} (ordered moves).1 (ordered moves).2 := play_run h

theorem deliver_allowed (i : ℕ) (hevent : event ∈ order.events) :
    ∀ x ∈ deliver i event, x.Allowed (gateway order.Serves) := by
  intro x hx
  rcases List.mem_cons.mp hx with rfl | hx
  · exact ⟨.webhook event, hevent, rfl⟩
  · rw [List.eq_of_mem_replicate hx]
    trivial

theorem record_allowed : ∀ x ∈ record, x.Allowed (gateway order.Serves) := by
  intro x hx
  rcases List.mem_cons.mp hx with rfl | hx
  · exact ⟨.recordSale order.input, rfl, rfl⟩
  · rw [List.mem_singleton.mp hx]
    trivial

/-- The sale, its settlement, its refund. -/
def settledFirst : List (Move GatewayCalls World Outside) := record ++ deliver 1 succeeded ++ deliver 2 refunded

/-- The sale, its refund, its settlement. -/
def refundedFirst : List (Move GatewayCalls World Outside) := record ++ deliver 1 refunded ++ deliver 2 succeeded

/-- The refund comes before the sale is in the books. -/
def refundedEarly : List (Move GatewayCalls World Outside) :=
  deliver 0 refunded ++ [.start (Request.recordSale order.input).program, .call 1 { id := "sale" }] ++
    deliver 2 succeeded

theorem settledFirst_run : Run (gateway order.Serves) {} (ordered settledFirst).1 (ordered settledFirst).2 := by
  refine ordered_allowed fun x hx => ?_
  rcases List.mem_append.mp hx with hx | hx
  · rcases List.mem_append.mp hx with hx | hx
    · exact record_allowed x hx
    · exact deliver_allowed 1 (by decide) x hx
  · exact deliver_allowed 2 (by decide) x hx

theorem refundedFirst_run :
    Run (gateway order.Serves) {} (ordered refundedFirst).1 (ordered refundedFirst).2 := by
  refine ordered_allowed fun x hx => ?_
  rcases List.mem_append.mp hx with hx | hx
  · rcases List.mem_append.mp hx with hx | hx
    · exact record_allowed x hx
    · exact deliver_allowed 1 (by decide) x hx
  · exact deliver_allowed 2 (by decide) x hx

theorem refundedEarly_run :
    Run (gateway order.Serves) {} (ordered refundedEarly).1 (ordered refundedEarly).2 := by
  refine ordered_allowed fun x hx => ?_
  rcases List.mem_append.mp hx with hx | hx
  · rcases List.mem_append.mp hx with hx | hx
    · exact deliver_allowed 0 (by decide) x hx
    · rcases List.mem_cons.mp hx with rfl | hx
      · exact ⟨.recordSale order.input, rfl, rfl⟩
      · rw [List.mem_singleton.mp hx]
        trivial
  · exact deliver_allowed 2 (by decide) x hx

theorem settledFirst_acknowledged :
    ∀ event ∈ order.events, Acknowledged event (ordered settledFirst).2.stage := by
  intro event hevent
  rcases List.mem_pair.mp hevent with rfl | rfl
  · exact acknowledged_of 1 (by decide +kernel)
  · exact acknowledged_of 2 (by decide +kernel)

theorem refundedFirst_acknowledged :
    ∀ event ∈ order.events, Acknowledged event (ordered refundedFirst).2.stage := by
  intro event hevent
  rcases List.mem_pair.mp hevent with rfl | rfl
  · exact acknowledged_of 2 (by decide +kernel)
  · exact acknowledged_of 1 (by decide +kernel)

theorem refundedEarly_acknowledged :
    ∀ event ∈ order.events, Acknowledged event (ordered refundedEarly).2.stage := by
  intro event hevent
  rcases List.mem_pair.mp hevent with rfl | rfl
  · exact acknowledged_of 2 (by decide +kernel)
  · exact acknowledged_of 0 (by decide +kernel)

/-- A refund before and after the settlement. -/
theorem refund_and_settlement : ∃ sale ∈ (ordered settledFirst).2.stage.world.db.conversions,
    ∃ sale' ∈ (ordered refundedFirst).2.stage.world.db.conversions, sale.entryType = .SALE ∧
      sale'.entryType = .SALE ∧ sale.status = sale'.status ∧
      ((ordered settledFirst).2.stage.world.db.ledger.map EntryGroup.content).Perm
        ((ordered refundedFirst).2.stage.world.db.ledger.map EntryGroup.content) := by
  have hsale : ∃ sale ∈ (ordered settledFirst).2.stage.world.db.conversions.rows,
      sale.externalOrderId = order.input.externalOrderId ∧ sale.entryType = .SALE := by decide +kernel
  have hsale' : ∃ sale ∈ (ordered refundedFirst).2.stage.world.db.conversions.rows,
      sale.externalOrderId = order.input.externalOrderId ∧ sale.entryType = .SALE := by decide +kernel
  obtain ⟨sale, hmem, horder, hentry⟩ := hsale
  obtain ⟨sale', hmem', horder', hentry'⟩ := hsale'
  exact ⟨sale, hmem, sale', hmem', hentry, hentry',
    settlement_order_independent order_fresh settledFirst_run refundedFirst_run (by decide +kernel)
      (by decide +kernel) settledFirst_acknowledged refundedFirst_acknowledged hmem horder hmem' horder'⟩

/-- **A refund before the sale**: it finds no sale and is acknowledged, and the sale stays settled. -/
theorem refund_before_sale : ∃ steps s steps' s', Run (gateway order.Serves) {} steps s ∧
    Run (gateway order.Serves) {} steps' s' ∧ (∀ event ∈ order.events, Acknowledged event s.stage) ∧
    (∀ event ∈ order.events, Acknowledged event s'.stage) ∧
    s.stage.world.db.conversions.rows.map (·.status) = [.SETTLED] ∧
    s'.stage.world.db.conversions.rows.map (·.status) = [.REFUNDED, .REVERSAL] :=
  ⟨_, _, _, _, refundedEarly_run, settledFirst_run, refundedEarly_acknowledged, settledFirst_acknowledged,
    by decide +kernel, by decide +kernel⟩

end Payment

end Commerce
