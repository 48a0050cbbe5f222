import MissionControl.Commerce.Books

/-! # One payment

A checkout, and the events on its payment. Whatever the order in which the sale is recorded and the
events are applied to it, the books are those of the sale with one reversal for each clawback that
has been applied: `Booked` says which, and every operation on the sale keeps it. -/

namespace Commerce

open Relational (Table)

/-! ## The operations in full -/

variable {books books' : Books}

/-- **A sale** is recorded as a new row, and its group in the ledger. -/
theorem recordSale_eq_ok {input : RecordSaleInput} {id : String} {row : Conversion}
    (h : recordSale books input id = .ok (row, books')) :
    ∃ split, assertSplitInvariants input.split = .ok split ∧
      (∀ c ∈ books.conversions, c.externalOrderId ≠ input.externalOrderId) ∧
      ∃ hnew : books.conversions.find? (input.row id split).id = none, books' =
        ⟨books.conversions.insert (input.row id split) hnew, books.ledger ++
          [⟨id, input.merchantId, toUpperCase input.currency, "sale " ++ input.externalOrderId,
            saleLegs split⟩]⟩ := by
  unfold recordSale at h
  simp only [bind, Except.bind] at h
  split at h
  · cases h
  · rename_i split hsplit
    split at h
    · cases h
    · rename_i conversions hinsert
      obtain ⟨hnew, hfree, rfl⟩ := insertRow_eq_some hinsert
      split at h
      · cases h
      · rename_i ledger hledger
        obtain ⟨-, rfl⟩ := insertLedgerGroup_eq_ok.mp hledger
        cases h
        exact ⟨split, hsplit, hfree, hnew, rfl⟩

/-- **A reversal** is there already, or it is a new row with its group in the ledger, and its sale
    is refunded. -/
theorem recordReversal_eq_ok {parent row : Conversion} {reversalReference memo id : String}
    (h : recordReversal books parent reversalReference memo id = .ok (row, books')) : ((∃ c ∈ books.conversions,
        c.externalOrderId = (reversalRow parent reversalReference id).externalOrderId) ∧ books' = books) ∨
    (∀ c ∈ books.conversions, c.externalOrderId ≠ (reversalRow parent reversalReference id).externalOrderId) ∧
      ∃ hnew : books.conversions.find? (reversalRow parent reversalReference id).id = none, books' =
        ⟨refundRow (books.conversions.insert (reversalRow parent reversalReference id) hnew) parent.id,
          books.ledger ++ [⟨id, parent.merchantId, parent.currency, memo, reversalLegs parent.split⟩]⟩ := by
  unfold recordReversal at h
  dsimp only at h
  split at h
  · rename_i hfound
    cases h
    refine .inl ⟨⟨row, List.mem_of_find?_eq_some hfound, ?_⟩, rfl⟩
    simpa using List.find?_some hfound
  · split at h
    · cases h
    · split at h
      · cases h
      · rename_i conversions hinsert
        obtain ⟨hnew, hfree, rfl⟩ := insertRow_eq_some hinsert
        simp only [bind, Except.bind] at h
        split at h
        · cases h
        · rename_i ledger hledger
          obtain ⟨-, rfl⟩ := insertLedgerGroup_eq_ok.mp hledger
          cases h
          exact .inr ⟨hfree, hnew, rfl⟩

/-! ## The payment -/

def StripeEvent.settles (event : StripeEvent) : Bool := event.type ∈ SETTLEMENT_EVENTS

def StripeEvent.clawsBack (event : StripeEvent) : Bool := !event.settles && event.type ∈ CLAWBACK_EVENTS

/-- A checkout, and events. An event is known by its identifier. -/
structure Payment where
  input : RecordSaleInput
  events : List StripeEvent
  ids : (events.map StripeEvent.id).Nodup

/-- A ledger group without the identifier that was drawn for its conversion. -/
def EntryGroup.content (group : EntryGroup) : EntryGroup := { group with conversionId := "" }

namespace Payment

variable (p : Payment)

def clawbacks : List StripeEvent := p.events.filter StripeEvent.clawsBack

/-- The order identifier of the reversal for an event. -/
def reversalOrder (eventId : String) : String := p.input.externalOrderId ++ ":reversal:" ++ eventId

def saleContent (split : CommissionSplit) : EntryGroup :=
  ⟨"", p.input.merchantId, toUpperCase p.input.currency, "sale " ++ p.input.externalOrderId, saleLegs split⟩

def reversalContent (split : CommissionSplit) (event : StripeEvent) : EntryGroup :=
  ⟨"", p.input.merchantId, toUpperCase p.input.currency, event.type ++ " " ++ event.id, reversalLegs split⟩

/-- The row is the sale of the checkout. -/
structure IsSale (c : Conversion) : Prop where
  entry : c.entryType = .SALE
  order : c.externalOrderId = p.input.externalOrderId
  merchant : c.merchantId = p.input.merchantId
  currency : c.currency = toUpperCase p.input.currency
  split : assertSplitInvariants p.input.split = .ok c.split

/-- The status of the sale, when these events have reversed it. -/
inductive Status (reversed : List StripeEvent) : ConversionStatus → Prop
  | pending (h : reversed = []) : Status reversed .PENDING_SETTLEMENT
  | settled (h : reversed = []) {event : StripeEvent} (hevent : event ∈ p.events)
      (hsettles : event.settles = true) : Status reversed .SETTLED
  | refunded (h : reversed ≠ []) : Status reversed .REFUNDED

/-- **The books of the payment**: the sale, and one reversal for each of these events. -/
structure Booked (before books : Books) (sale : Conversion) (reversed : List StripeEvent) : Prop where
  there : sale ∈ books.conversions
  isSale : p.IsSale sale
  sole : ∀ c ∈ books.conversions, c.externalOrderId = p.input.externalOrderId → c = sale
  sales : ∀ c ∈ books.conversions, c.entryType = .SALE → c = sale ∨ c ∈ before.conversions
  status : p.Status reversed sale.status
  clawback : ∀ event ∈ reversed, event ∈ p.clawbacks
  once : reversed.Nodup
  row : ∀ event ∈ p.events,
    (∃ c ∈ books.conversions, c.externalOrderId = p.reversalOrder event.id) ↔ event ∈ reversed
  ledger : books.ledger.map EntryGroup.content = before.ledger.map EntryGroup.content ++
    p.saleContent sale.split :: reversed.map (p.reversalContent sale.split)

/-- No other order has the identifier of this one or of one of its reversals, and no sale so far is
    on the payment. -/
structure Fresh (before : Books) : Prop where
  order : ∀ c ∈ before.conversions, c.externalOrderId ≠ p.input.externalOrderId
  reversal : ∀ c ∈ before.conversions, ∀ event ∈ p.events, c.externalOrderId ≠ p.reversalOrder event.id
  unpaid : ∀ event ∈ p.events, ∀ reference, stripeReference event = .ok reference →
    findSaleByStripeReference before.conversions reference = none

variable {p} {before : Books} {sale : Conversion} {reversed : List StripeEvent}

theorem reversalOrder_ne (eventId : String) : p.reversalOrder eventId ≠ p.input.externalOrderId := by
  intro h
  have hlength := congrArg String.length h
  unfold reversalOrder at hlength
  rw [String.length_append, String.length_append] at hlength
  have hpos : 0 < ":reversal:".length := by decide
  omega

variable {event : StripeEvent}

theorem reversalOrder_inj {event' : StripeEvent} (hevent : event ∈ p.events) (hevent' : event' ∈ p.events)
    (h : p.reversalOrder event.id = p.reversalOrder event'.id) : event = event' := by
  have hid : event.id = event'.id := by
    have hlist := congrArg String.toList h
    unfold reversalOrder at hlist
    rw [String.toList_append, String.toList_append (t := event'.id)] at hlist
    exact String.toList_injective (List.append_cancel_left hlist)
  exact List.inj_on_of_nodup_map p.ids hevent hevent' hid

variable {id : String}

theorem booked_recordSale {row : Conversion} (hfresh : p.Fresh before)
    (h : recordSale before p.input id = .ok (row, books')) : ∃ sale, p.Booked before books' sale [] := by
  obtain ⟨split, hsplit, -, hnew, rfl⟩ := recordSale_eq_ok h
  refine ⟨p.input.row id split, ⟨?_, ⟨rfl, rfl, rfl, rfl, hsplit⟩, ?_, ?_, .pending rfl, ?_, ?_, ?_, ?_⟩⟩
  · exact (Table.mem_insert (h := hnew)).mpr (.inr rfl)
  · intro c hc horder
    rcases (Table.mem_insert (h := hnew)).mp hc with hc | rfl
    · exact absurd horder (hfresh.order c hc)
    · rfl
  · intro c hc _
    rcases (Table.mem_insert (h := hnew)).mp hc with hc | rfl
    · exact .inr hc
    · exact .inl rfl
  · exact fun event hevent => nomatch hevent
  · exact List.nodup_nil
  · intro event hevent
    refine iff_of_false ?_ List.not_mem_nil
    rintro ⟨c, hc, horder⟩
    rcases (Table.mem_insert (h := hnew)).mp hc with hc | rfl
    · exact hfresh.reversal c hc event hevent horder
    · exact reversalOrder_ne event.id horder.symm
  · rw [List.map_append]
    rfl

theorem Booked.not_recordSale (hb : p.Booked before books sale reversed) {r : Conversion × Books} :
    recordSale books p.input id ≠ .ok r := by
  intro h
  obtain ⟨split, -, hfree, -⟩ := recordSale_eq_ok h
  exact hfree sale hb.there hb.isSale.order

theorem mem_update_row {conversions : Conversions} {f : Conversion → Conversion}
    (hf : ∀ c, (f c).id = c.id) (hsale : sale ∈ conversions) {c : Conversion} :
    c ∈ conversions.update sale.id f hf ↔ c = f sale ∨ c ∈ conversions ∧ c.id ≠ sale.id := by
  rw [Table.mem_update]
  constructor
  · rintro (⟨c₀, hc₀, hid, rfl⟩ | hc)
    · rw [Table.eq_of_key hc₀ hsale hid]
      exact .inl rfl
    · exact .inr hc
  · rintro (rfl | hc)
    · exact .inl ⟨sale, hsale, rfl, rfl⟩
    · exact .inr hc

theorem IsSale.version {sale' : Conversion} (h : p.IsSale sale) (hversion : sale.Version sale') :
    p.IsSale sale' := by
  rw [hversion]
  exact ⟨h.entry, h.order, h.merchant, h.currency, h.split⟩

theorem Booked.update (hb : p.Booked before books sale reversed) {f : Conversion → Conversion}
    (hf : ∀ c, (f c).id = c.id) (hversion : sale.Version (f sale)) (hstatus : p.Status reversed (f sale).status) :
    p.Booked before ⟨books.conversions.update sale.id f hf, books.ledger⟩ (f sale) reversed where
  there := (mem_update_row hf hb.there).mpr (.inl rfl)
  isSale := hb.isSale.version hversion
  sole c hc horder := by
    rcases (mem_update_row hf hb.there).mp hc with rfl | ⟨hc, hne⟩
    · rfl
    · exact absurd (congrArg Conversion.id (hb.sole c hc horder)) hne
  sales c hc hentry := by
    rcases (mem_update_row hf hb.there).mp hc with rfl | ⟨hc, hne⟩
    · exact .inl rfl
    · exact .inr ((hb.sales c hc hentry).resolve_left fun heq => hne (congrArg Conversion.id heq))
  status := hstatus
  clawback := hb.clawback
  once := hb.once
  row event hevent := by
    rw [← hb.row event hevent]
    constructor
    · rintro ⟨c, hc, horder⟩
      rcases (mem_update_row hf hb.there).mp hc with rfl | ⟨hc, -⟩
      · rw [(hb.isSale.version hversion).order] at horder
        exact absurd horder.symm (reversalOrder_ne event.id)
      · exact ⟨c, hc, horder⟩
    · rintro ⟨c, hc, horder⟩
      refine ⟨c, (mem_update_row hf hb.there).mpr (.inr ⟨hc, fun hid => ?_⟩), horder⟩
      rw [Table.eq_of_key hc hb.there hid, hb.isSale.order] at horder
      exact reversalOrder_ne event.id horder.symm
  ledger := by
    rw [hb.ledger, hversion]

theorem Booked.settle (hb : p.Booked before books sale reversed) (hevent : event ∈ p.events)
    (hsettles : event.settles = true) (chargeId : Option String) :
    ∃ sale', p.Booked before (markSettled books sale.id chargeId).2 sale' reversed ∧
      sale'.status ≠ .PENDING_SETTLEMENT := by
  have hfind : books.conversions.find? sale.id = some sale := Table.find?_key hb.there
  unfold markSettled
  dsimp only
  rw [hfind, Option.any_some]
  cases hsettling : sale.settling with
  | true =>
    have hsettle : sale.settle chargeId =
        { sale with status := .SETTLED, stripeChargeId := chargeId.or sale.stripeChargeId } := by
      unfold Conversion.settle
      rw [if_pos hsettling]
    have hpending : sale.status = .PENDING_SETTLEMENT := by
      unfold Conversion.settling at hsettling
      rw [Bool.and_eq_true, decide_eq_true_eq, decide_eq_true_eq] at hsettling
      exact hsettling.2
    have hnone : reversed = [] := by
      have hstatus := hb.status
      rw [hpending] at hstatus
      cases hstatus with
      | pending h => exact h
    have hsettled : p.Status reversed (sale.settle chargeId).status := by
      rw [hsettle]
      exact .settled hnone hevent hsettles
    refine ⟨sale.settle chargeId, hb.update _ (version_settle chargeId sale) hsettled, ?_⟩
    rw [hsettle]
    exact nofun
  | false =>
    refine ⟨sale, hb, fun hpending => ?_⟩
    unfold Conversion.settling at hsettling
    rw [hb.isSale.entry, hpending] at hsettling
    cases hsettling

/-- **The sale is reversed once for an event.** -/
theorem Booked.reverse (hb : p.Booked before books sale reversed) (hevent : event ∈ p.clawbacks)
    {parent row : Conversion} (hparent : sale.Version parent)
    (h : recordReversal books parent event.id (event.type ++ " " ++ event.id) id = .ok (row, books')) :
    ∃ sale' reversed', p.Booked before books' sale' reversed' ∧ event ∈ reversed' ∧
      ∀ event' ∈ reversed, event' ∈ reversed' := by
  have hmem : event ∈ p.events := List.mem_of_mem_filter hevent
  have horder : (reversalRow parent event.id id).externalOrderId = p.reversalOrder event.id := by
    show parent.externalOrderId ++ ":reversal:" ++ event.id = _
    rw [(hb.isSale.version hparent).order]
    rfl
  rcases recordReversal_eq_ok h with ⟨hthere, rfl⟩ | ⟨hfree, hnew, rfl⟩
  · rw [horder] at hthere
    exact ⟨sale, reversed, hb, (hb.row event hmem).mp hthere, fun _ h => h⟩
  rw [horder] at hfree
  have hfirst : event ∉ reversed := by
    rw [← hb.row event hmem]
    rintro ⟨c, hc, hcorder⟩
    exact hfree c hc hcorder
  have hid : parent.id = sale.id := by rw [hparent]
  have hsale : sale ∈ books.conversions.insert (reversalRow parent event.id id) hnew :=
    Table.mem_insert.mpr (.inl hb.there)
  -- what is in the books: the refunded sale, the row of the reversal, and what was there
  have hmember : ∀ c, c ∈ refundRow (books.conversions.insert (reversalRow parent event.id id) hnew) parent.id ↔
      c = sale.refund ∨ (c ∈ books.conversions ∨ c = reversalRow parent event.id id) ∧ c.id ≠ sale.id := by
    intro c
    unfold refundRow
    rw [hid, mem_update_row Conversion.refund_id hsale, Table.mem_insert]
  have hrow : (reversalRow parent event.id id).id ≠ sale.id := fun hrowid =>
    Table.find?_eq_none.mp hnew sale hb.there hrowid.symm
  have hrefund : p.IsSale sale.refund := hb.isSale.version (version_refund sale)
  refine ⟨sale.refund, reversed ++ [event], ?_, List.mem_append_right _ (List.mem_singleton_self _),
    fun event' h => List.mem_append_left _ h⟩
  refine ⟨(hmember _).mpr (.inl rfl), hrefund, ?_, ?_, ?_, ?_, ?_, ?_, ?_⟩
  · intro c hc hcorder
    rcases (hmember c).mp hc with rfl | ⟨hc | rfl, hne⟩
    · rfl
    · exact absurd (congrArg Conversion.id (hb.sole c hc hcorder)) hne
    · exact absurd (horder.symm.trans hcorder) (reversalOrder_ne event.id)
  · intro c hc hentry
    rcases (hmember c).mp hc with rfl | ⟨hc | rfl, hne⟩
    · exact .inl rfl
    · exact .inr ((hb.sales c hc hentry).resolve_left fun heq => hne (congrArg Conversion.id heq))
    · cases hentry
  · have hstatus : sale.refund.status = .REFUNDED := by
      unfold Conversion.refund
      rw [if_pos hb.isSale.entry]
    rw [hstatus]
    exact .refunded (List.append_ne_nil_of_right_ne_nil _ (List.cons_ne_nil _ _))
  · intro event' hevent'
    rcases List.mem_append.mp hevent' with hevent' | hevent'
    · exact hb.clawback event' hevent'
    · rw [List.mem_singleton.mp hevent']
      exact hevent
  · refine List.nodup_append.mpr ⟨hb.once, List.nodup_singleton _, fun a ha b hb' hab => hfirst ?_⟩
    rw [← List.mem_singleton.mp hb', ← hab]
    exact ha
  · intro event' hevent'
    rw [List.mem_append, List.mem_singleton, ← hb.row event' hevent']
    constructor
    · rintro ⟨c, hc, hcorder⟩
      rcases (hmember c).mp hc with rfl | ⟨hc | rfl, -⟩
      · exact absurd (hcorder.symm.trans hrefund.order) (reversalOrder_ne event'.id)
      · exact .inl ⟨c, hc, hcorder⟩
      · exact .inr (reversalOrder_inj hevent' hmem (hcorder.symm.trans horder))
    · rintro (⟨c, hc, hcorder⟩ | rfl)
      · refine ⟨c, (hmember c).mpr (.inr ⟨.inl hc, fun hcid => ?_⟩), hcorder⟩
        rw [Table.eq_of_key hc hb.there hcid, hb.isSale.order] at hcorder
        exact reversalOrder_ne event'.id hcorder.symm
      · exact ⟨_, (hmember _).mpr (.inr ⟨.inr rfl, hrow⟩), horder⟩
  · have hsplit : sale.refund.split = sale.split := by rw [version_refund sale]
    have hgroup : EntryGroup.content ⟨id, parent.merchantId, parent.currency, event.type ++ " " ++ event.id,
        reversalLegs parent.split⟩ = p.reversalContent sale.split event := by
      have hparentSale := hb.isSale.version hparent
      unfold EntryGroup.content reversalContent
      rw [hparentSale.merchant, hparentSale.currency, show parent.split = sale.split by rw [hparent]]
    rw [List.map_append, List.map_singleton, hgroup, hb.ledger, hsplit, List.map_append, List.append_assoc,
      List.cons_append, List.map_singleton]

theorem Booked.refunded (hb : p.Booked before books sale reversed) (h : event ∈ reversed) :
    sale.status = .REFUNDED := by
  cases hsale : sale.status with
  | REFUNDED => rfl
  | PENDING_SETTLEMENT | SETTLED | REVERSAL =>
    have hstatus := hb.status
    rw [hsale] at hstatus
    cases hstatus <;> simp_all

end Payment

end Commerce
