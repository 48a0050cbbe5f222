import MissionControl.Commerce.Reversals

/-! # What the payouts add up to

What has been paid, and what is pending, is what the settled sales have earned. A refund that comes
in time cancels its sale; one that comes too late is a debt, of which a payout takes note. Taking
note of the debt and then releasing the sale charges the agent for what was never paid. -/

namespace Commerce

open Interleaving
open Relational

variable {Serves : Request → Prop} {db db' : Database} {sale r : Conversion} {agentId currency : String}

/-! ## Totals -/

/-- The total of an agent's payouts in a currency, in a status. -/
def payoutTotal (db : Database) (status : PayoutStatus) (agentId currency : String) : Int :=
  ((db.payouts.rows.filter fun p => p.status = status && p.agentId == agentId && p.currency == currency).map
    (·.amountCents)).sum

/-- What is pending, by `pendingBalances`. -/
def pendingTotal (db : Database) (agentId currency : String) : Int :=
  (((pendingBalances db).filter fun b => b.agentId == agentId && b.currency == currency).map (·.amountCents)).sum

/-- The conversion is of the agent and in the currency. -/
def Conversion.of (agentId currency : String) (c : Conversion) : Bool :=
  c.agentId == some agentId && c.currency == currency

/-- What an agent's settled sales have earned. -/
def settledTotal (db : Database) (agentId currency : String) : Int :=
  agentTotal (db.conversions.rows.filter fun c => c.entryType = .SALE && c.status = .SETTLED && c.of agentId currency)

/-- The sum of a payout's items. -/
def itemTotal (db : Database) (payoutId : String) : Int :=
  ((db.items.rows.filter fun i => i.payoutId = payoutId).map (·.amountCents)).sum

/-- **The accounts are right.** -/
structure Accounted (db : Database) : Prop where
  conserved : (∀ p ∈ db.payouts, p.status ≠ .IN_FLIGHT) → ∀ agentId currency,
    payoutTotal db .PAID agentId currency + pendingTotal db agentId currency = settledTotal db agentId currency
  amount : ∀ p ∈ db.payouts, p.status = .IN_FLIGHT ∨ p.status = .PAID → p.amountCents = itemTotal db p.id
  once : ∀ i ∈ db.items, ∀ i' ∈ db.items, i.conversionId = i'.conversionId → i.payoutId = i'.payoutId

/-! ## What is pending -/

theorem mem_owedTo : (agentId, currency) ∈ db.owedTo ↔ db.owed agentId currency ≠ [] := by
  unfold Database.owedTo Database.owed
  rw [List.mem_mergeSort, List.mem_dedup, List.mem_filterMap, Ne, List.filter_eq_nil_iff]
  push Not
  constructor
  · rintro ⟨c, hc, hkey⟩
    obtain ⟨hc, heligible⟩ := List.mem_filter.mp hc
    obtain ⟨agentId', hagent, hpair⟩ := Option.map_eq_some_iff.mp hkey
    cases hpair
    exact ⟨c, hc, by simp [heligible, hagent]⟩
  · rintro ⟨c, hc, howed⟩
    simp only [Bool.and_eq_true, beq_iff_eq] at howed
    obtain ⟨⟨heligible, hagent⟩, hcurrency⟩ := howed
    exact ⟨c, List.mem_filter.mpr ⟨hc, heligible⟩, by simp [hagent, hcurrency]⟩

theorem nodup_owedTo : db.owedTo.Nodup :=
  (List.mergeSort_perm _ _).nodup_iff.mpr (List.nodup_dedup _)

/-- **What is pending is what is owed.** -/
theorem pendingTotal_eq : pendingTotal db agentId currency = agentTotal (db.owed agentId currency) := by
  unfold pendingTotal pendingBalances
  rw [List.filter_map, List.map_map, sum_map_filter]
  have hkey : ∀ x ∈ db.owedTo, (if (((fun b : PendingBalance => b.agentId == agentId && b.currency == currency) ∘
      fun x : String × String => ⟨x.1, x.2, agentTotal (db.owed x.1 x.2), (db.owed x.1 x.2).length⟩) x) = true
        then ((fun b : PendingBalance => b.amountCents) ∘
          fun x : String × String => ⟨x.1, x.2, agentTotal (db.owed x.1 x.2), (db.owed x.1 x.2).length⟩) x else 0) =
      if (agentId, currency) = x then agentTotal (db.owed agentId currency) else 0 := by
    rintro ⟨a, k⟩ -
    by_cases heq : a = agentId ∧ k = currency
    · obtain ⟨rfl, rfl⟩ := heq
      simp
    · have hne : (agentId, currency) ≠ (a, k) := by
        intro hpair
        cases hpair
        exact heq ⟨rfl, rfl⟩
      simp [hne, heq]
  rw [sum_map_congr hkey]
  by_cases hmem : (agentId, currency) ∈ db.owedTo
  · have hnodup : (db.owedTo.map id).Nodup := by
      rw [List.map_id]
      exact nodup_owedTo
    exact Table.sum_map_key hnodup (by rwa [List.map_id]) _
  · have hnil : db.owed agentId currency = [] := not_not.mp (mt mem_owedTo.mpr hmem)
    rw [hnil]
    exact sum_map_zero fun x _ => ite_self _

/-! ## What every database keeps -/

/-- **What every database keeps.** Items are of conversions, in payouts that have not failed, and
    what a payout claims is its agent's. -/
structure Itemized (db : Database) : Prop where
  kept : Kept db.toBooks
  agentId : ∀ sale ∈ db.conversions, sale.entryType = .SALE → sale.agentId.isSome
  status : ∀ sale ∈ db.conversions, sale.entryType = .SALE → sale.status ≠ .REVERSAL
  settled : ∀ sale ∈ db.conversions, sale.entryType = .SALE → db.claimed sale.id →
    sale.status ≠ .PENDING_SETTLEMENT
  item : ∀ i ∈ db.items, ∃ c ∈ db.conversions, c.id = i.conversionId ∧ i.amountCents = c.split.agentPayoutCents ∧
    ∃ p ∈ db.payouts, p.id = i.payoutId ∧ p.status ≠ .FAILED ∧ c.agentId = some p.agentId ∧ c.currency = p.currency
  amount : ∀ p ∈ db.payouts, p.status ≠ .FAILED → p.amountCents = itemTotal db p.id

/-- A reversal is in a payout only when its sale is in one. -/
def Backed (db : Database) : Prop :=
  ∀ r ∈ db.conversions, r.entryType = .REVERSAL → db.claimed r.id → r.parentConversionId.any db.claimed

variable {id : String}

theorem claimed_iff : db.claimed id = true ↔ ∃ i ∈ db.items, i.conversionId = id := by
  unfold Database.claimed
  rw [Option.isSome_iff_exists]
  constructor
  · rintro ⟨i, hi⟩
    exact ⟨i, Table.mem_of_find? hi, Table.key_of_find? hi⟩
  · rintro ⟨i, hi, rfl⟩
    exact ⟨i, Table.find?_key hi⟩

theorem claimed_congr (h : db'.items = db.items) (id : String) : db'.claimed id = db.claimed id := by
  unfold Database.claimed
  rw [h]

theorem itemTotal_congr (h : db'.items = db.items) (payoutId : String) :
    itemTotal db' payoutId = itemTotal db payoutId := by
  unfold itemTotal
  rw [h]

theorem Itemized.not_claimed (h : Itemized db) (hnew : db.conversions.find? id = none) :
    db.claimed id = false := by
  rw [← Bool.not_eq_true, claimed_iff]
  rintro ⟨i, hi, rfl⟩
  obtain ⟨c, hc, hid, -⟩ := h.item i hi
  exact Table.find?_eq_none.mp hnew c hc hid

/-! ## What becomes of a conversion -/

/-- The row is a later version of one that was there, or a new one. -/
def Descends (db db' : Database) (c' : Conversion) : Prop :=
  (∃ c ∈ db.conversions, c.Version c' ∧
    (c'.status = c.status ∨ c'.entryType = .SALE ∧ (c'.status = .SETTLED ∨ c'.status = .REFUNDED))) ∨
  db.conversions.find? c'.id = none ∧ db'.items = db.items ∧
    (c'.entryType = .SALE → c'.status = .PENDING_SETTLEMENT ∧ c'.agentId.isSome)

theorem descends_of_eq (h : db'.conversions = db.conversions) {c : Conversion} (hc : c ∈ db'.conversions) :
    Descends db db' c := by
  rw [h] at hc
  exact .inl ⟨c, hc, .refl c, .inl rfl⟩

variable {c' : Conversion}

theorem descends_settled (conversionId : String) (chargeId : Option String)
    (hc' : c' ∈ (markSettled db.toBooks conversionId chargeId).2.conversions) :
    Descends db { db with toBooks := (markSettled db.toBooks conversionId chargeId).2 } c' := by
  rcases conversions_markSettled db.toBooks conversionId chargeId with heq | heq
  · rw [heq] at hc'
    exact .inl ⟨c', hc', .refl c', .inl rfl⟩
  · rw [heq] at hc'
    rcases (Table.mem_update _).mp hc' with ⟨c, hc, -, rfl⟩ | ⟨hc, -⟩
    · refine .inl ⟨c, hc, version_settle chargeId c, ?_⟩
      unfold Conversion.settle
      split
      · rename_i hsettling
        refine .inr ⟨?_, .inl rfl⟩
        unfold Conversion.settling at hsettling
        rw [Bool.and_eq_true, decide_eq_true_eq] at hsettling
        exact hsettling.1
      · exact .inl rfl
    · exact .inl ⟨c', hc, .refl c', .inl rfl⟩

theorem descends_reversed {parent row : Conversion} {reversalReference memo : String} {books : Books}
    (hok : recordReversal db.toBooks parent reversalReference memo id = .ok (row, books))
    (hc' : c' ∈ books.conversions) : Descends db { db with toBooks := books } c' := by
  rcases recordReversal_ok hok with rfl | ⟨-, ⟨hnew, hconversions⟩, -⟩
  · exact .inl ⟨c', hc', .refl c', .inl rfl⟩
  · rw [hconversions] at hc'
    have hold : ∀ c, c ∈ db.conversions.insert (reversalRow parent reversalReference id) hnew →
        c ∈ db.conversions ∨ c = reversalRow parent reversalReference id := fun c hc => Table.mem_insert.mp hc
    rcases (Table.mem_update _).mp hc' with ⟨c, hc, -, rfl⟩ | ⟨hc, -⟩
    · rcases hold c hc with hc | rfl
      · refine .inl ⟨c, hc, version_refund c, ?_⟩
        unfold Conversion.refund
        split
        · rename_i hentry
          exact .inr ⟨hentry, .inr rfl⟩
        · exact .inl rfl
      · rw [refund_of_reversal rfl]
        exact .inr ⟨hnew, rfl, fun hentry => by cases hentry⟩
    · rcases hold c' hc with hc | rfl
      · exact .inl ⟨c', hc, .refl c', .inl rfl⟩
      · exact .inr ⟨hnew, rfl, fun hentry => by cases hentry⟩

/-- **Every row descends from a row before**, or is new. -/
theorem descends_change {c : Call} (hchange : Change db c db') (hc' : c' ∈ db'.conversions) :
    Descends db db' c' := by
  cases hchange with
  | same => exact descends_of_eq rfl hc'
  | sold hok =>
    obtain ⟨split, rfl, ⟨hnew, hinsert⟩, -⟩ := recordSale_ok hok
    have hmem : c' ∈ db.conversions.insert _ hnew := hinsert ▸ hc'
    rcases Table.mem_insert.mp hmem with hc | rfl
    · exact .inl ⟨c', hc, .refl c', .inl rfl⟩
    · exact .inr ⟨hnew, rfl, fun _ => ⟨rfl, rfl⟩⟩
  | settled conversionId chargeId => exact descends_settled conversionId chargeId hc'
  | reversed hok => exact descends_reversed hok hc'
  | account input => exact descends_of_eq rfl hc'
  | claimed hok => exact descends_of_eq (congrArg Books.conversions (books_claim hok)) hc'
  | paid hok => exact descends_of_eq (conversions_markPaid hok) hc'
  | failed hok => exact descends_of_eq (congrArg Books.conversions (books_markFailed hok)) hc'

/-! ## What becomes of the payouts -/

theorem insertItems_ok {items items' : Table PayoutItem String PayoutItem.conversionId} {l : List PayoutItem}
    (h : insertItems items l = .ok items') : items'.rows = items.rows ++ l := by
  induction l generalizing items with
  | nil =>
    cases h
    exact (List.append_nil _).symm
  | cons item l ih =>
    unfold insertItems at h
    split at h
    · rw [ih h]
      show (items.rows ++ [item]) ++ l = _
      rw [List.append_assoc, List.singleton_append]
    · cases h

variable {key : String} {claimed : Option Claim}

/-- **A claim** takes nothing, or everything that is owed into a new payout. -/
theorem claim_ok (h : claim db agentId currency id key = .ok (claimed, db')) : claimed = none ∧ db' = db ∨
    ∃ payout, claimed = some ⟨payout, (db.owed agentId (toUpperCase currency)).map (·.item id)⟩ ∧ payout.id = id ∧
      payout.agentId = agentId ∧ payout.currency = toUpperCase currency ∧ payout.status = .IN_FLIGHT ∧
      payout.idempotencyKey = "aisl_payout_" ++ key ∧ 0 < payout.amountCents ∧
      payout.amountCents = agentTotal (db.owed agentId (toUpperCase currency)) ∧
      (∀ p ∈ db.payouts, p.idempotencyKey ≠ payout.idempotencyKey) ∧
      (∃ hnew : db.payouts.find? payout.id = none, db'.payouts = db.payouts.insert payout hnew) ∧
      db'.items.rows = db.items.rows ++ (db.owed agentId (toUpperCase currency)).map (·.item id) := by
  unfold claim at h
  dsimp only at h
  split at h
  · cases h
    exact .inl ⟨rfl, rfl⟩
  · rename_i hnet
    split at h
    · cases h
    · split at h
      · rename_i hnew
        split at h
        · cases h
        · rename_i hkey
          simp only [bind, Except.bind] at h
          split at h
          · cases h
          · rename_i items hitems
            cases h
            refine .inr ⟨_, rfl, rfl, rfl, rfl, rfl, rfl, ?_, rfl, fun p hp heq => ?_, ⟨hnew, rfl⟩,
              insertItems_ok hitems⟩
            · exact not_le.mp fun hle => hnet (.inr hle)
            · exact hkey (List.any_eq_true.mpr ⟨p, hp, by simpa using heq⟩)
      · cases h

variable {payout : Payout}

variable {input : PaidInput}

theorem markPaid_ok (h : markPaid db input = .ok (payout, db')) :
    (∃ p ∈ db.payouts, p.id = input.payoutId ∧ p.status = .IN_FLIGHT) ∧
    db'.payouts = db.payouts.update input.payoutId (·.pay input) (fun _ => rfl) ∧ db'.items = db.items := by
  unfold markPaid at h
  split at h
  · rename_i p hfind
    split at h
    · rename_i hstatus
      simp only [bind, Except.bind] at h
      split at h
      · cases h
      · cases h
        exact ⟨⟨p, Table.mem_of_find? hfind, Table.key_of_find? hfind, hstatus⟩, rfl, rfl⟩
    · cases h
  · cases h

variable {payoutId code : String}

theorem markFailed_ok (h : markFailed db payoutId code = .ok (payout, db')) :
    db'.payouts = db.payouts.update payoutId (·.fail code) (fun _ => rfl) ∧
    db'.items = db.items.filter (·.payoutId ≠ payoutId) := by
  unfold markFailed at h
  split at h
  · cases h
    exact ⟨rfl, rfl⟩
  · cases h

/-! ## The changes keep it -/

theorem eligible_sale {c : Conversion} (h : db.eligible c = true) (hentry : c.entryType = .SALE) :
    c.status = .SETTLED := by
  unfold Database.eligible at h
  simp only [Bool.and_eq_true, Bool.or_eq_true, decide_eq_true_eq] at h
  rcases h.2 with ⟨-, hstatus⟩ | ⟨hreversal, -⟩
  · exact hstatus
  · rw [hentry] at hreversal
    cases hreversal

theorem eligible_reversal {c : Conversion} (h : db.eligible c = true) (hentry : c.entryType = .REVERSAL) :
    c.parentConversionId.any db.claimed := by
  unfold Database.eligible at h
  simp only [Bool.and_eq_true, Bool.or_eq_true, decide_eq_true_eq] at h
  rcases h.2 with ⟨hsale, -⟩ | ⟨-, hparent⟩
  · rw [hentry] at hsale
    cases hsale
  · exact hparent

theorem mem_owed {c : Conversion} : c ∈ db.owed agentId currency ↔
    c ∈ db.conversions ∧ db.eligible c = true ∧ c.agentId = some agentId ∧ c.currency = currency := by
  unfold Database.owed
  rw [List.mem_filter, Bool.and_eq_true, Bool.and_eq_true, beq_iff_eq, beq_iff_eq, and_assoc, Table.mem_rows]

/-- Nothing happens to the payouts. -/
theorem Itemized.rows (h : Itemized db) {c : Call} (hchange : Change db c db') (hkept : Kept db'.toBooks)
    (hpayouts : db'.payouts = db.payouts) (hitems : db'.items = db.items) : Itemized db' := by
  refine ⟨hkept, ?_, ?_, ?_, ?_, ?_⟩
  · intro sale hsale hentry
    rcases descends_change hchange hsale with ⟨c, hc, hversion, -⟩ | ⟨-, -, hnew⟩
    · rw [hversion] at hentry ⊢
      exact h.agentId c hc hentry
    · exact (hnew hentry).2
  · intro sale hsale hentry
    rcases descends_change hchange hsale with ⟨c, hc, hversion, hstatus⟩ | ⟨-, -, hnew⟩
    · have hcEntry : c.entryType = .SALE := by
        rw [hversion] at hentry
        exact hentry
      rcases hstatus with hsame | ⟨-, hsame | hsame⟩
      · rw [hsame]
        exact h.status c hc hcEntry
      · rw [hsame]
        decide
      · rw [hsame]
        decide
    · rw [(hnew hentry).1]
      decide
  · intro sale hsale hentry hclaimed
    rw [claimed_congr hitems] at hclaimed
    rcases descends_change hchange hsale with ⟨c, hc, hversion, hstatus⟩ | ⟨hnew, -, -⟩
    · have hid : sale.id = c.id := by
        rw [hversion]
      have hcEntry : c.entryType = .SALE := by
        rw [hversion] at hentry
        exact hentry
      rcases hstatus with hsame | ⟨-, hsame | hsame⟩
      · rw [hsame]
        exact h.settled c hc hcEntry (hid ▸ hclaimed)
      · rw [hsame]
        decide
      · rw [hsame]
        decide
    · rw [h.not_claimed hnew] at hclaimed
      cases hclaimed
  · intro i hi
    rw [hitems] at hi
    obtain ⟨c, hc, hid, hamount, p, hp, hpId, hstatus, hagent, hcurrency⟩ := h.item i hi
    obtain ⟨c', hc', hversion⟩ := onward_change hchange c hc
    refine ⟨c', hc', ?_, ?_, p, hpayouts ▸ hp, hpId, hstatus, ?_, ?_⟩ <;> rw [hversion] <;> assumption
  · intro p hp hstatus
    rw [itemTotal_congr hitems]
    rw [hpayouts] at hp
    exact h.amount p hp hstatus

theorem sum_items (l : List Conversion) (payoutId : String) :
    ((l.map (·.item payoutId)).map (·.amountCents)).sum = agentTotal l := by
  rw [List.map_map]
  rfl

theorem Itemized.claims (h : Itemized db) (hok : claim db agentId currency id key = .ok (claimed, db')) :
    Itemized db' := by
  have hbooks := books_claim hok
  have hconversions : db'.conversions = db.conversions := congrArg Books.conversions hbooks
  rcases claim_ok hok with ⟨-, rfl⟩ | ⟨payout, -, hid, hagent, hcurrency, hstatus, -, -, htotal, -, ⟨hnew, hpayouts⟩,
    hitems⟩
  · exact h
  have hmem : ∀ i, i ∈ db'.items ↔ i ∈ db.items ∨ ∃ c ∈ db.owed agentId (toUpperCase currency), c.item id = i := by
    intro i
    rw [← Table.mem_rows, hitems, List.mem_append, List.mem_map, Table.mem_rows]
  have hother : ∀ p, p ∈ db'.payouts ↔ p ∈ db.payouts ∨ p = payout := by
    intro p
    rw [hpayouts]
    exact Table.mem_insert
  refine ⟨hbooks ▸ h.kept, hconversions ▸ h.agentId, hconversions ▸ h.status, ?_, ?_, ?_⟩
  · intro sale hsale hentry hclaimed
    rw [hconversions] at hsale
    obtain ⟨i, hi, hiSale⟩ := claimed_iff.mp hclaimed
    rcases (hmem i).mp hi with hi | ⟨c, hc, rfl⟩
    · exact h.settled sale hsale hentry (claimed_iff.mpr ⟨i, hi, hiSale⟩)
    · obtain ⟨hc, heligible, -⟩ := mem_owed.mp hc
      have heq : c = sale := Table.eq_of_key hc hsale hiSale
      subst heq
      rw [eligible_sale heligible hentry]
      decide
  · intro i hi
    rcases (hmem i).mp hi with hi | ⟨c, hc, rfl⟩
    · obtain ⟨c, hc, hcId, hamount, p, hp, hrest⟩ := h.item i hi
      exact ⟨c, hconversions ▸ hc, hcId, hamount, p, (hother p).mpr (.inl hp), hrest⟩
    · obtain ⟨hc, -, hcAgent, hcCurrency⟩ := mem_owed.mp hc
      refine ⟨c, hconversions ▸ hc, rfl, rfl, payout, (hother payout).mpr (.inr rfl), hid, ?_, ?_, ?_⟩
      · rw [hstatus]
        decide
      · rw [hagent]
        exact hcAgent
      · rw [hcurrency]
        exact hcCurrency
  · have hsplit : ∀ payoutId, itemTotal db' payoutId =
        itemTotal db payoutId + if id = payoutId then agentTotal (db.owed agentId (toUpperCase currency)) else 0 := by
      intro payoutId
      unfold itemTotal
      rw [hitems, List.filter_append, List.map_append, List.sum_append]
      congr 1
      split
      · rename_i heq
        rw [List.filter_eq_self.mpr, sum_items]
        intro i hi
        obtain ⟨c, -, rfl⟩ := List.mem_map.mp hi
        exact decide_eq_true heq
      · rename_i hne
        rw [List.filter_eq_nil_iff.mpr]
        · rfl
        · intro i hi heq
          obtain ⟨c, -, rfl⟩ := List.mem_map.mp hi
          exact hne (of_decide_eq_true heq)
    intro p hp hpStatus
    rw [hsplit]
    rcases (hother p).mp hp with hp | rfl
    · rw [if_neg, Int.add_zero]
      · exact h.amount p hp hpStatus
      · intro heq
        rw [hid] at hnew
        exact Table.find?_eq_none.mp hnew p hp heq.symm
    · -- the identifier of the payout is new, so that nothing was in it
      have hzero : itemTotal db p.id = 0 := by
        unfold itemTotal
        rw [List.filter_eq_nil_iff.mpr]
        · rfl
        · intro i hi heq
          obtain ⟨c, -, -, -, p', hp', hp'Id, -⟩ := h.item i hi
          exact Table.find?_eq_none.mp hnew p' hp' (hp'Id.trans (by simpa using heq))
      rw [hzero, if_pos hid.symm, Int.zero_add]
      exact htotal

theorem Itemized.pays (h : Itemized db) (hok : markPaid db input = .ok (payout, db')) : Itemized db' := by
  have hconversions := conversions_markPaid hok
  obtain ⟨⟨paid, hpaid, hpaidId, hopen⟩, hpayouts, hitems⟩ := markPaid_ok hok
  have hclaimed := claimed_congr hitems
  have hkept : Kept db'.toBooks := h.kept.change (.paid hok) fun _ _ _ heq => by cases heq
  refine ⟨hkept, hconversions ▸ h.agentId, hconversions ▸ h.status, ?_, ?_, ?_⟩
  · intro sale hsale hentry hsaleClaimed
    rw [hclaimed] at hsaleClaimed
    exact h.settled sale (hconversions ▸ hsale) hentry hsaleClaimed
  · intro i hi
    rw [hitems] at hi
    obtain ⟨c, hc, hcId, hamount, p, hp, hpId, hstatus, hagent, hcurrency⟩ := h.item i hi
    refine ⟨c, hconversions ▸ hc, hcId, hamount, ?_⟩
    by_cases heq : p.id = input.payoutId
    · refine ⟨p.pay input, ?_, hpId, ?_, hagent, hcurrency⟩
      · rw [hpayouts]
        exact (Table.mem_update _).mpr (.inl ⟨p, hp, heq, rfl⟩)
      · show PayoutStatus.PAID ≠ .FAILED
        decide
    · refine ⟨p, ?_, hpId, hstatus, hagent, hcurrency⟩
      rw [hpayouts]
      exact (Table.mem_update _).mpr (.inr ⟨hp, heq⟩)
  · intro p hp hstatus
    rw [itemTotal_congr hitems]
    rw [hpayouts] at hp
    rcases (Table.mem_update _).mp hp with ⟨p₀, hp₀, hpId, rfl⟩ | ⟨hp, -⟩
    · -- what is paid was in flight
      have heq : p₀ = paid := Table.eq_of_key hp₀ hpaid (hpId.trans hpaidId.symm)
      subst heq
      refine h.amount p₀ hp₀ ?_
      rw [hopen]
      decide
    · exact h.amount p hp hstatus

theorem Itemized.fails (h : Itemized db) (hok : markFailed db payoutId code = .ok (payout, db')) : Itemized db' := by
  have hbooks := books_markFailed hok
  have hconversions : db'.conversions = db.conversions := congrArg Books.conversions hbooks
  obtain ⟨hpayouts, hitems⟩ := markFailed_ok hok
  have hmem : ∀ i, i ∈ db'.items ↔ i ∈ db.items ∧ i.payoutId ≠ payoutId := by
    intro i
    rw [hitems, Table.mem_filter, decide_eq_true_eq]
  refine ⟨hbooks ▸ h.kept, hconversions ▸ h.agentId, hconversions ▸ h.status, ?_, ?_, ?_⟩
  · intro sale hsale hentry hclaimed
    obtain ⟨i, hi, hiSale⟩ := claimed_iff.mp hclaimed
    exact h.settled sale (hconversions ▸ hsale) hentry (claimed_iff.mpr ⟨i, ((hmem i).mp hi).1, hiSale⟩)
  · intro i hi
    obtain ⟨hi, hne⟩ := (hmem i).mp hi
    obtain ⟨c, hc, hcId, hamount, p, hp, hpId, hrest⟩ := h.item i hi
    refine ⟨c, hconversions ▸ hc, hcId, hamount, p, ?_, hpId, hrest⟩
    rw [hpayouts]
    exact (Table.mem_update _).mpr (.inr ⟨hp, fun heq => hne (hpId.symm.trans heq)⟩)
  · intro p hp hstatus
    rw [hpayouts] at hp
    rcases (Table.mem_update _).mp hp with ⟨p, hp, hpId, rfl⟩ | ⟨hp, hne⟩
    · exact absurd rfl hstatus
    · rw [h.amount p hp hstatus]
      unfold itemTotal
      rw [hitems]
      show _ = (((db.items.rows.filter (·.payoutId ≠ payoutId)).filter _).map _).sum
      rw [List.filter_filter]
      refine congrArg (fun l : List PayoutItem => (l.map (·.amountCents)).sum) (List.filter_congr fun i _ => ?_)
      by_cases heq : i.payoutId = p.id
      · simp [heq, hne]
      · simp [heq]

/-- **Every change keeps it.** -/
theorem Itemized.change (h : Itemized db) {c : Call} (hchange : Change db c db')
    (hparent : ∀ parent reversalReference memo, c = .recordReversal parent reversalReference memo →
      ∃ sale ∈ db.conversions, sale.entryType = .SALE ∧ sale.Version parent) : Itemized db' := by
  have hkept := h.kept.change hchange hparent
  cases hchange with
  | same => exact h
  | sold hok => exact h.rows (.sold hok) hkept rfl rfl
  | settled conversionId chargeId => exact h.rows (.settled conversionId chargeId) hkept rfl rfl
  | reversed hok => exact h.rows (.reversed hok) hkept rfl rfl
  | account input => exact h.rows (.account input) hkept rfl rfl
  | claimed hok => exact h.claims hok
  | paid hok => exact h.pays hok
  | failed hok => exact h.fails hok

/-! ## Reversals are backed -/

/-- What the payout releases has no reversal in another payout. -/
def Unreversed (db : Database) (payoutId : String) : Prop :=
  ∀ i ∈ db.items, i.payoutId = payoutId → ∀ r ∈ db.conversions, r.reverses i.conversionId →
    ∀ j ∈ db.items, j.conversionId = r.id → j.payoutId = payoutId

theorem backed_rows (h : Itemized db) (hbacked : Backed db) {c : Call} (hchange : Change db c db')
    (hitems : db'.items = db.items) : Backed db' := by
  intro r' hr' hentry hclaimed
  have hsame := claimed_congr hitems
  rw [hsame] at hclaimed
  rcases descends_change hchange hr' with ⟨r, hr, hversion, -⟩ | ⟨hnew, -⟩
  · rw [hversion] at hentry hclaimed ⊢
    have hany := hbacked r hr hentry hclaimed
    rwa [show db'.claimed = db.claimed from funext hsame]
  · rw [h.not_claimed hnew] at hclaimed
    cases hclaimed

theorem backed_claim (hbacked : Backed db) (hok : claim db agentId currency id key = .ok (claimed, db')) :
    Backed db' := by
  have hconversions : db'.conversions = db.conversions := congrArg Books.conversions (books_claim hok)
  rcases claim_ok hok with ⟨-, rfl⟩ | ⟨payout, -, -, -, -, -, -, -, -, -, -, hitems⟩
  · exact hbacked
  have hmem : ∀ i, i ∈ db'.items ↔ i ∈ db.items ∨ ∃ c ∈ db.owed agentId (toUpperCase currency), c.item id = i := by
    intro i
    rw [← Table.mem_rows, hitems, List.mem_append, List.mem_map, Table.mem_rows]
  -- what was claimed still is
  have hmono : ∀ {parent : Option String}, parent.any db.claimed → parent.any db'.claimed := by
    intro parent hparent
    rw [Option.any_eq_true] at hparent ⊢
    obtain ⟨saleId, hsale, hclaimed⟩ := hparent
    obtain ⟨i, hi, hiSale⟩ := claimed_iff.mp hclaimed
    exact ⟨saleId, hsale, claimed_iff.mpr ⟨i, (hmem i).mpr (.inl hi), hiSale⟩⟩
  intro r hr hentry hclaimed
  rw [hconversions] at hr
  obtain ⟨i, hi, hiRow⟩ := claimed_iff.mp hclaimed
  rcases (hmem i).mp hi with hi | ⟨c, hc, rfl⟩
  · exact hmono (hbacked r hr hentry (claimed_iff.mpr ⟨i, hi, hiRow⟩))
  · obtain ⟨hc, heligible, -⟩ := mem_owed.mp hc
    have heq : c = r := Table.eq_of_key hc hr hiRow
    subst heq
    exact hmono (eligible_reversal heligible hentry)

/-- **A release keeps reversals backed exactly when it releases no sale whose reversal is in
    another payout.** -/
theorem backed_fail (hbacked : Backed db) (hok : markFailed db payoutId code = .ok (payout, db')) :
    Backed db' ↔ Unreversed db payoutId := by
  have hconversions : db'.conversions = db.conversions := congrArg Books.conversions (books_markFailed hok)
  obtain ⟨-, hitems⟩ := markFailed_ok hok
  have hmem : ∀ i, i ∈ db'.items ↔ i ∈ db.items ∧ i.payoutId ≠ payoutId := by
    intro i
    rw [hitems, Table.mem_filter, decide_eq_true_eq]
  constructor
  · intro hafter i hi hiPayout r hr hreverses j hj hjRow
    by_contra hne
    obtain ⟨hentry, hparent⟩ := reverses_iff.mp hreverses
    have hany := hafter r (hconversions ▸ hr) hentry (claimed_iff.mpr ⟨j, (hmem j).mpr ⟨hj, hne⟩, hjRow⟩)
    rw [hparent, Option.any_some, claimed_iff] at hany
    -- the sale is still in a payout, which is not the one that failed
    obtain ⟨i', hi', hiSale⟩ := hany
    obtain ⟨hi', hne'⟩ := (hmem i').mp hi'
    rw [Table.eq_of_key hi' hi hiSale] at hne'
    exact hne' hiPayout
  · intro hunreversed r hr hentry hclaimed
    rw [hconversions] at hr
    obtain ⟨j, hj, hjRow⟩ := claimed_iff.mp hclaimed
    obtain ⟨hj, hne⟩ := (hmem j).mp hj
    have hany := hbacked r hr hentry (claimed_iff.mpr ⟨j, hj, hjRow⟩)
    rw [Option.any_eq_true] at hany ⊢
    obtain ⟨saleId, hparent, hsale⟩ := hany
    obtain ⟨i, hi, hiSale⟩ := claimed_iff.mp hsale
    refine ⟨saleId, hparent, claimed_iff.mpr ⟨i, (hmem i).mpr ⟨hi, fun hiPayout => ?_⟩, hiSale⟩⟩
    exact hne (hunreversed i hi hiPayout r hr (reverses_iff.mpr ⟨hentry, hiSale ▸ hparent⟩) j hj hjRow)

/-! ## The sums -/

/-- What a conversion contributes to an agent's payouts, or will. -/
def counted (db : Database) (agentId currency : String) (c : Conversion) : Int :=
  if (db.claimed c.id || db.eligible c) && c.of agentId currency then c.split.agentPayoutCents else 0

theorem eligible_iff {c : Conversion} : db.eligible c = true ↔ db.claimed c.id = false ∧
    c.split.agentPayoutCents ≠ 0 ∧ c.agentId.isSome ∧ (c.entryType = .SALE ∧ c.status = .SETTLED ∨
        c.entryType = .REVERSAL ∧ c.parentConversionId.any db.claimed) := by
  unfold Database.eligible
  simp only [Bool.and_eq_true, Bool.or_eq_true, Bool.not_eq_true', decide_eq_true_eq, bne_iff_ne, and_assoc]

theorem Itemized.sum_payout (h : Itemized db) {p : Payout} (hp : p ∈ db.payouts) :
    (((db.items.rows.filter fun i => (db.conversions.find? i.conversionId).any (·.of agentId currency)).filter
      fun i => i.payoutId = p.id).map (·.amountCents)).sum =
    if p.status ≠ .FAILED ∧ p.agentId = agentId ∧ p.currency = currency then p.amountCents else 0 := by
  -- whose an item is can be seen from its payout
  have hitem : ∀ i ∈ db.items, i.payoutId = p.id → p.status ≠ .FAILED ∧
      ((db.conversions.find? i.conversionId).any (·.of agentId currency) = true ↔
        p.agentId = agentId ∧ p.currency = currency) := by
    intro i hi hpayout
    obtain ⟨c, hc, hcId, -, p', hp', hp'Id, hstatus, hagent, hcurrency⟩ := h.item i hi
    have heq : p' = p := Table.eq_of_key hp' hp (hp'Id.trans hpayout)
    subst heq
    refine ⟨hstatus, ?_⟩
    rw [← hcId, Table.find?_key hc, Option.any_some]
    unfold Conversion.of
    rw [hagent, hcurrency, Bool.and_eq_true, beq_iff_eq, beq_iff_eq, Option.some_inj]
  rw [List.filter_filter]
  split
  · rename_i hours
    rw [h.amount p hp hours.1]
    unfold itemTotal
    refine congrArg (fun l : List PayoutItem => (l.map (·.amountCents)).sum) (List.filter_congr fun i hi => ?_)
    by_cases hpayout : i.payoutId = p.id
    · rw [((hitem i hi hpayout).2).mpr hours.2]
      simp
    · simp [hpayout]
  · rename_i hours
    rw [List.filter_eq_nil_iff.mpr]
    · rfl
    · intro i hi heq
      simp only [Bool.and_eq_true, decide_eq_true_eq] at heq
      obtain ⟨hstatus, hof⟩ := hitem i hi heq.1
      exact hours ⟨hstatus, hof.mp heq.2⟩

theorem Itemized.sum_conversion (h : Itemized db) {c : Conversion} (hc : c ∈ db.conversions) :
    (((db.items.rows.filter fun i => (db.conversions.find? i.conversionId).any (·.of agentId currency)).filter
      fun i => i.conversionId = c.id).map (·.amountCents)).sum =
    if db.claimed c.id && c.of agentId currency then c.split.agentPayoutCents else 0 := by
  rw [List.filter_filter]
  split
  · rename_i hours
    rw [Bool.and_eq_true] at hours
    obtain ⟨i, hi, hiRow⟩ := claimed_iff.mp hours.1
    obtain ⟨c', hc', hcId, hamount, -⟩ := h.item i hi
    have heq : c' = c := Table.eq_of_key hc' hc (hcId.trans hiRow)
    subst heq
    rw [← hamount, ← Table.sum_filter_key hi (fun i : PayoutItem => i.amountCents)]
    refine congrArg (fun l : List PayoutItem => (l.map (·.amountCents)).sum) (List.filter_congr fun j hj => ?_)
    rw [← hcId]
    by_cases hj' : j.conversionId = c'.id
    · rw [hj', Table.find?_key hc', Option.any_some, hours.2]
      simp
    · simp [hj']
  · rename_i hours
    rw [List.filter_eq_nil_iff.mpr]
    · rfl
    · intro i hi heq
      simp only [Bool.and_eq_true, decide_eq_true_eq] at heq
      obtain ⟨hid, hof⟩ := heq
      rw [hid, Table.find?_key hc, Option.any_some] at hof
      refine hours ?_
      rw [Bool.and_eq_true]
      exact ⟨claimed_iff.mpr ⟨i, hi, hid⟩, hof⟩

/-- **What has been paid or is in flight** is what is claimed. -/
theorem Itemized.payoutTotal_eq (h : Itemized db) :
    payoutTotal db .PAID agentId currency + payoutTotal db .IN_FLIGHT agentId currency =
      (db.conversions.rows.map fun c =>
        if db.claimed c.id && c.of agentId currency then c.split.agentPayoutCents else 0).sum := by
  have hjoin : payoutTotal db .PAID agentId currency + payoutTotal db .IN_FLIGHT agentId currency =
      (db.payouts.rows.map fun p =>
        if p.status ≠ .FAILED ∧ p.agentId = agentId ∧ p.currency = currency then p.amountCents else 0).sum := by
    unfold payoutTotal
    rw [sum_map_filter, sum_map_filter, ← List.sum_map_add]
    refine sum_map_congr fun p _ => ?_
    by_cases hours : p.agentId = agentId ∧ p.currency = currency
    · obtain ⟨rfl, rfl⟩ := hours
      cases hstatus : p.status <;> simp
    · have hno : ¬ (p.status ≠ .FAILED ∧ p.agentId = agentId ∧ p.currency = currency) := fun hall => hours hall.2
      rw [if_neg hno, if_neg, if_neg, Int.add_zero]
      · simp only [Bool.and_eq_true, beq_iff_eq]
        exact fun hall => hours ⟨hall.1.2, hall.2⟩
      · simp only [Bool.and_eq_true, beq_iff_eq]
        exact fun hall => hours ⟨hall.1.2, hall.2⟩
  rw [hjoin, ← sum_map_congr fun p hp => h.sum_payout hp, ← sum_map_congr fun c hc => h.sum_conversion hc]
  have hfrom : ∀ i ∈ db.items.rows.filter fun i => (db.conversions.find? i.conversionId).any (·.of agentId currency),
      (∃ p ∈ db.payouts, p.id = i.payoutId) ∧ ∃ c ∈ db.conversions, c.id = i.conversionId := by
    intro i hi
    obtain ⟨c, hc, hcId, -, p, hp, hpId, -⟩ := h.item i (List.mem_filter.mp hi).1
    exact ⟨⟨p, hp, hpId⟩, c, hc, hcId⟩
  rw [← Table.sum_join db.payouts (fun i hi => (hfrom i hi).1) (fun i : PayoutItem => i.amountCents),
    ← Table.sum_join db.conversions (fun i hi => (hfrom i hi).2) (fun i : PayoutItem => i.amountCents)]

theorem pendingTotal_eq_sum : pendingTotal db agentId currency = (db.conversions.rows.map fun c =>
      if db.eligible c && c.of agentId currency then c.split.agentPayoutCents else 0).sum := by
  rw [pendingTotal_eq]
  unfold agentTotal Database.owed
  rw [sum_map_filter]
  refine sum_map_congr fun c _ => ?_
  unfold Conversion.of
  rw [Bool.and_assoc]

theorem settledTotal_eq_sum : settledTotal db agentId currency = (db.conversions.rows.map fun c =>
      if c.entryType = .SALE ∧ c.status = .SETTLED ∧ c.of agentId currency then c.split.agentPayoutCents
      else 0).sum := by
  unfold settledTotal agentTotal
  rw [sum_map_filter]
  refine sum_map_congr fun c _ => ?_
  simp [and_assoc]

/-- **What is claimed, and what is pending**, is what counts. -/
theorem Itemized.counted_eq (h : Itemized db) :
    payoutTotal db .PAID agentId currency + payoutTotal db .IN_FLIGHT agentId currency +
      pendingTotal db agentId currency = (db.conversions.rows.map (counted db agentId currency)).sum := by
  rw [h.payoutTotal_eq, pendingTotal_eq_sum, ← List.sum_map_add]
  refine sum_map_congr fun c _ => ?_
  unfold counted
  cases hclaimed : db.claimed c.id with
  | false => simp
  | true =>
    have hnot : db.eligible c = false := by
      rw [← Bool.not_eq_true, eligible_iff, hclaimed]
      rintro ⟨hfalse, -⟩
      cases hfalse
    simp [hnot]

/-! ## A sale with its reversal -/

theorem counted_of_amount {c : Conversion} (hof : c.of agentId currency = true) {b : Bool}
    (h : c.split.agentPayoutCents ≠ 0 → (db.claimed c.id || db.eligible c) = b) :
    counted db agentId currency c = if b then c.split.agentPayoutCents else 0 := by
  unfold counted
  rw [hof, Bool.and_true]
  by_cases hzero : c.split.agentPayoutCents = 0
  · rw [hzero, ite_self, ite_self]
  · rw [h hzero]

theorem Itemized.counted_sale (h : Itemized db) (hsale : sale ∈ db.conversions) (hentry : sale.entryType = .SALE)
    (hof : sale.of agentId currency = true) : counted db agentId currency sale =
      if db.claimed sale.id || sale.status = .SETTLED then sale.split.agentPayoutCents else 0 := by
  refine counted_of_amount hof fun hne => ?_
  cases hclaimed : db.claimed sale.id with
  | true => rfl
  | false =>
    rw [Bool.false_or, Bool.false_or, Bool.eq_iff_iff, eligible_iff, decide_eq_true_eq]
    constructor
    · rintro ⟨-, -, -, ⟨-, hstatus⟩ | ⟨hreversal, -⟩⟩
      · exact hstatus
      · rw [hentry] at hreversal
        cases hreversal
    · intro hstatus
      exact ⟨hclaimed, hne, h.agentId sale hsale hentry, .inl ⟨hentry, hstatus⟩⟩

/-- What a reversal contributes: all of it when its sale is claimed. -/
theorem Itemized.counted_reversal (h : Itemized db) (hbacked : Backed db) (hsale : sale ∈ db.conversions)
    (hentry : sale.entryType = .SALE) (hr : r ∈ reversalsOf db.conversions sale.id) :
    counted db agentId currency r =
      if db.claimed sale.id && sale.of agentId currency then -sale.split.agentPayoutCents else 0 := by
  obtain ⟨-, hnegates⟩ := h.kept.negates hsale hr
  obtain ⟨hr, hreverses⟩ := mem_reversalsOf.mp hr
  obtain ⟨hreversal, hparent⟩ := reverses_iff.mp hreverses
  have hamount : r.split.agentPayoutCents = -sale.split.agentPayoutCents := by
    rw [hnegates.split]
    rfl
  have hof : r.of agentId currency = sale.of agentId currency := by
    unfold Conversion.of
    rw [hnegates.agentId, hnegates.currency]
  cases hours : sale.of agentId currency with
  | false =>
    unfold counted
    rw [hof, hours, Bool.and_false, Bool.and_false]
    rfl
  | true =>
    rw [Bool.and_true, ← hamount]
    refine counted_of_amount (hof.trans hours) fun hne => ?_
    cases hclaimed : db.claimed sale.id with
    | true =>
      -- the debt is noted, or is going to be
      cases hnoted : db.claimed r.id with
      | true => rfl
      | false =>
        rw [Bool.false_or, eligible_iff]
        refine ⟨hnoted, hne, ?_, .inr ⟨hreversal, ?_⟩⟩
        · rw [hnegates.agentId]
          exact h.agentId sale hsale hentry
        · rw [hparent]
          exact hclaimed
    | false =>
      -- the sale and its reversal cancel each other
      rw [Bool.or_eq_false_iff]
      refine ⟨?_, ?_⟩
      · rw [← Bool.not_eq_true]
        intro hnoted
        have hany := hbacked r hr hreversal hnoted
        rw [hparent, Option.any_some, hclaimed] at hany
        cases hany
      · rw [← Bool.not_eq_true]
        intro heligible
        have hany := eligible_reversal heligible hreversal
        rw [hparent, Option.any_some, hclaimed] at hany
        cases hany

/-- **A sale with its reversals** contributes what it has earned. -/
theorem Itemized.counted_family (h : Itemized db) (hbacked : Backed db) (hsale : sale ∈ db.conversions)
    (hentry : sale.entryType = .SALE) (honce : (reversalsOf db.conversions sale.id).length ≤ 1) :
    counted db agentId currency sale +
        ((reversalsOf db.conversions sale.id).map (counted db agentId currency)).sum =
      if sale.status = .SETTLED ∧ sale.of agentId currency then sale.split.agentPayoutCents else 0 := by
  cases hof : sale.of agentId currency with
  | false =>
    have hzero : ((reversalsOf db.conversions sale.id).map (counted db agentId currency)).sum = 0 := by
      refine sum_map_zero fun r hr => ?_
      rw [h.counted_reversal hbacked hsale hentry hr, hof, Bool.and_false]
      rfl
    rw [hzero]
    simp [counted, hof]
  | true =>
    rw [h.counted_sale hsale hentry hof]
    have hrefunded := h.kept.refunded_iff hsale hentry
    by_cases hstatus : sale.status = .REFUNDED
    · -- exactly one reversal
      have hone : (reversalsOf db.conversions sale.id).length = 1 := by
        have := hrefunded.mp hstatus
        omega
      obtain ⟨r, hr⟩ := List.length_eq_one_iff.mp hone
      have hmem : r ∈ reversalsOf db.conversions sale.id := by
        rw [hr]
        exact List.mem_singleton.mpr rfl
      rw [hr, List.map_singleton, List.sum_singleton, h.counted_reversal hbacked hsale hentry hmem, hof, hstatus]
      cases db.claimed sale.id <;> simp
    · have hnone : reversalsOf db.conversions sale.id = [] := by
        refine List.eq_nil_iff_length_eq_zero.mpr ?_
        have := mt hrefunded.mpr hstatus
        omega
      rw [hnone]
      cases hclaimed : db.claimed sale.id with
      | false => simp
      | true =>
        have hsettled : sale.status = .SETTLED := by
          have hpending := h.settled sale hsale hentry hclaimed
          have hreversal := h.status sale hsale hentry
          cases hs : sale.status with
          | PENDING_SETTLEMENT => exact absurd hs hpending
          | SETTLED => rfl
          | REFUNDED => exact absurd hs hstatus
          | REVERSAL => exact absurd hs hreversal
        simp [hsettled]

/-- **The balance**: what was paid, is in flight and is pending is what the settled sales have
    earned. -/
theorem Itemized.balance (h : Itemized db) (hbacked : Backed db)
    (honce : ∀ sale ∈ db.conversions, sale.entryType = .SALE → (reversalsOf db.conversions sale.id).length ≤ 1) :
    payoutTotal db .PAID agentId currency + payoutTotal db .IN_FLIGHT agentId currency +
      pendingTotal db agentId currency = settledTotal db agentId currency := by
  rw [h.counted_eq, settledTotal_eq_sum, sum_map_filter_not _ (·.entryType = .SALE)]
  have hparent : ∀ r ∈ db.conversions.rows.filter fun c => !decide (c.entryType = .SALE),
      r.entryType = .REVERSAL ∧ ∃ sale ∈ db.conversions, sale.entryType = .SALE ∧ sale.id = r.parentConversionId.getD "" := by
    intro r hr
    obtain ⟨hr, hnot⟩ := List.mem_filter.mp hr
    have hentry : r.entryType = .REVERSAL := by
      cases hr' : r.entryType with
      | SALE =>
        rw [hr'] at hnot
        cases hnot
      | REVERSAL => rfl
    obtain ⟨sale, hsale, hsaleEntry, -, hnegates⟩ := h.kept.parent r hr hentry
    refine ⟨hentry, sale, hsale, hsaleEntry, ?_⟩
    rw [hnegates.parent]
    rfl
  -- a reversal counts where its sale does
  have hid : ∀ r ∈ db.conversions.rows.filter fun c => !decide (c.entryType = .SALE),
      ∃ sale ∈ db.conversions, sale.id = r.parentConversionId.getD "" := by
    intro r hr
    obtain ⟨-, sale, hsale, -, hid⟩ := hparent r hr
    exact ⟨sale, hsale, hid⟩
  rw [Table.sum_join db.conversions hid (counted db agentId currency), sum_map_filter, ← List.sum_map_add]
  refine sum_map_congr fun c hc => ?_
  cases hentry : c.entryType with
  | SALE =>
    have hfamily : (db.conversions.rows.filter fun c => !decide (c.entryType = .SALE)).filter
        (fun r => r.parentConversionId.getD "" = c.id) = reversalsOf db.conversions c.id := by
      unfold reversalsOf
      rw [List.filter_filter]
      refine List.filter_congr fun r hr => ?_
      rw [Bool.eq_iff_iff, reverses_iff]
      simp only [Bool.and_eq_true, Bool.not_eq_true', decide_eq_true_eq, decide_eq_false_iff_not]
      constructor
      · rintro ⟨hid, hnot⟩
        obtain ⟨hreversal, -⟩ := hparent r (List.mem_filter.mpr ⟨hr, by simp [hnot]⟩)
        obtain ⟨sale, -, -, -, hnegates⟩ := h.kept.parent r hr hreversal
        rw [hnegates.parent] at hid
        exact ⟨hreversal, hnegates.parent.trans (congrArg some hid)⟩
      · rintro ⟨hreversal, hid⟩
        rw [hid, hreversal]
        exact ⟨rfl, by decide⟩
    rw [hfamily]
    simpa using h.counted_family hbacked hc hentry (honce c hc hentry)
  | REVERSAL =>
    have hnil : (db.conversions.rows.filter fun c => !decide (c.entryType = .SALE)).filter
        (fun r => r.parentConversionId.getD "" = c.id) = [] := by
      refine List.filter_eq_nil_iff.mpr fun r hr hid => ?_
      obtain ⟨-, sale, hsale, hsaleEntry, hsaleId⟩ := hparent r hr
      have heq : sale = c := Table.eq_of_key hsale hc (hsaleId.trans (of_decide_eq_true hid))
      rw [heq, hentry] at hsaleEntry
      cases hsaleEntry
    rw [hnil]
    simp

/-! ## Runs -/

/-- **The condition**: a payout that fails releases no sale whose reversal is in another payout. -/
def Releasable (m : GatewayStage) : GatewayAction → Prop
  | .call _ (.markFailed payoutId _) o => o.fault.made = true → Unreversed m.world.db payoutId
  | _ => True

instance (db : Database) (payoutId : String) : Decidable (Unreversed db payoutId) :=
  inferInstanceAs (Decidable (∀ i ∈ db.items.rows, _ = _ → ∀ r ∈ db.conversions.rows, _ = true →
    ∀ j ∈ db.items.rows, _ = _ → _ = _))

instance (m : GatewayStage) (a : GatewayAction) : Decidable (Releasable m a) :=
  match a with
  | .call _ (.markFailed ..) _ => inferInstanceAs (Decidable (_ = true → Unreversed m.world.db _))
  | .start _ | .env _ => .isTrue trivial
  | .call _ (.recordSale _) _ | .call _ (.findById _) _ | .call _ (.findSaleByStripeReference _) _
  | .call _ (.markSettled ..) _ | .call _ (.setIfAbsent _) _ | .call _ (.del _) _ | .call _ (.claimEvent ..) _
  | .call _ (.completeEvent ..) _ | .call _ (.releaseEvent _) _ | .call _ (.upsertAgentAccount _) _
  | .call _ (.findAgentAccount _) _ | .call _ .pendingBalances _ | .call _ (.claim ..) _
  | .call _ (.transfer _) _ | .call _ (.markPaid _) _ | .call _ (.recordReversal ..) _ => .isTrue trivial

variable {m : GatewayStage} {i : Nat} {c : Call} {o : Outside} {w : World}

theorem Itemized.perform (h : Itemized m.world.db) (howes : owes i c m) (o : Outside) :
    Itemized (m.perform exec i c o).world.db := by
  refine h.change (change_after c o m.world) ?_
  rintro parent reversalReference memo rfl
  exact howes

theorem Fault.eq_before {fault : Fault} (h : ¬ fault.made = true) : ∃ code, fault = .before code := by
  cases fault with
  | before code => exact ⟨code, rfl⟩
  | none => exact absurd rfl h
  | after code => exact absurd rfl h

theorem backed_change (h : Itemized db) (hbacked : Backed db) (hchange : Change db c db')
    (hkeeps : ∀ payoutId code, c ≠ .markFailed payoutId code) : Backed db' := by
  cases hchange with
  | same => exact hbacked
  | sold hok => exact backed_rows h hbacked (.sold hok) rfl
  | settled conversionId chargeId => exact backed_rows h hbacked (.settled conversionId chargeId) rfl
  | reversed hok => exact backed_rows h hbacked (.reversed hok) rfl
  | account input => exact hbacked
  | claimed hok => exact backed_claim hbacked hok
  | paid hok => exact backed_rows h hbacked (.paid hok) (markPaid_ok hok).2.2
  | failed hok => exact absurd rfl (hkeeps _ _)

/-- **One step.** A call leaves reversals backed exactly when it meets the condition. -/
theorem releasable_iff (h : Itemized m.world.db) (hbacked : Backed m.world.db) :
    Releasable m (.call i c o) ↔ Backed (m.perform exec i c o).world.db := by
  have hchange : Change m.world.db c (m.perform exec i c o).world.db := change_after c o m.world
  cases c with
  | markFailed payoutId code =>
    show (o.fault.made = true → Unreversed m.world.db payoutId) ↔ Backed (Exec.after exec _ o m.world).db
    by_cases hmade : o.fault.made = true
    · rw [forall_prop_of_true hmade]
      cases hfind : m.world.db.payouts.find? payoutId with
      | none =>
        -- there is no such payout, and nothing in it
        have hnothing : Unreversed m.world.db payoutId := by
          intro i hi hpayout
          obtain ⟨c, -, -, -, p, hp, hpId, -⟩ := h.item i hi
          exact absurd (hpId.trans hpayout) (Table.find?_eq_none.mp hfind p hp)
        have hsame : Exec.after exec (.markFailed payoutId code) o m.world = m.world := by
          rcases after_cases (.markFailed payoutId code) o m.world with hsame | ⟨r, hrun⟩
          · exact hsame
          · obtain ⟨db, hok, -⟩ := onDb_ok hrun
            unfold markFailed at hok
            rw [hfind] at hok
            cases hok
        rw [hsame]
        exact iff_of_true hnothing hbacked
      | some payout =>
        obtain ⟨db, hok⟩ : ∃ db, markFailed m.world.db payoutId code = .ok (payout.fail code, db) := by
          unfold markFailed
          rw [hfind]
          exact ⟨_, rfl⟩
        have hrun : run o m.world (.markFailed payoutId code) = .ok (payout.fail code, { m.world with db := db }) := by
          show World.onDb _ (markFailed _ _ _) = _
          rw [hok]
          rfl
        rw [after_of_run (Fault.not_before hmade) hrun]
        exact (backed_fail hbacked hok).symm
    · obtain ⟨code', hfault⟩ := Fault.eq_before hmade
      rw [after_of_before hfault]
      exact iff_of_true (fun hmade' => absurd hmade' hmade) hbacked
  | _ => exact iff_of_true trivial (backed_change h hbacked hchange fun _ _ heq => by cases heq)

theorem itemized_empty : Itemized {} where
  kept := kept_empty
  agentId sale hsale := absurd hsale (Table.not_mem_empty sale)
  status sale hsale := absurd hsale (Table.not_mem_empty sale)
  settled sale hsale := absurd hsale (Table.not_mem_empty sale)
  item i hi := absurd hi (Table.not_mem_empty i)
  amount p hp := absurd hp (Table.not_mem_empty p)

variable {steps : List (GatewayStage × GatewayAction)} {s : Pool GatewayCalls World}

theorem itemized_visited (hw : w.db = {}) (run : Run (gateway Serves) w steps s) :
    ∀ m ∈ visited steps s, Itemized m.world.db := by
  intro m hm
  obtain ⟨before, s', run', rfl, -⟩ := run.visited hm
  refine Discipline.run_invariant (K := fun _ _ => True) book_covers trivial
    (J := fun m => Itemized m.world.db) ?_ ?_ ?_ run' fun _ _ => trivial
  · show Itemized w.db
    rw [hw]
    exact itemized_empty
  · exact fun m i c o h _ howes _ => h.perform howes o
  · rintro m _ h ⟨keeps, rfl⟩
    exact h

/-- **Payouts are conserved** in every run: what was paid, is in flight and is pending is the share of each conversion
    that is claimed or eligible, once. An item is such a share, in a payout of its agent and currency that has not
    failed, and a payout that has not failed is the sum of its items. -/
theorem payouts_conserved (hw : w.db = {}) {steps : List (GatewayStage × GatewayAction)}
    {s : Pool GatewayCalls World} (run : Run (gateway Serves) w steps s) : ∀ m ∈ visited steps s,
      (∀ agentId currency, payoutTotal m.world.db .PAID agentId currency +
        payoutTotal m.world.db .IN_FLIGHT agentId currency + pendingTotal m.world.db agentId currency =
          (m.world.db.conversions.rows.map (counted m.world.db agentId currency)).sum) ∧
      (∀ i ∈ m.world.db.items, ∃ c ∈ m.world.db.conversions, c.id = i.conversionId ∧
        i.amountCents = c.split.agentPayoutCents ∧ ∃ p ∈ m.world.db.payouts, p.id = i.payoutId ∧ p.status ≠ .FAILED ∧
          c.agentId = some p.agentId ∧ c.currency = p.currency) ∧
      ∀ p ∈ m.world.db.payouts, p.status ≠ .FAILED → p.amountCents = itemTotal m.world.db p.id := by
  intro m hm
  have hitemized := itemized_visited hw run m hm
  exact ⟨fun _ _ => hitemized.counted_eq, hitemized.item, hitemized.amount⟩

/-- **Reversals stay backed exactly in the runs whose releases meet the condition.** -/
theorem backed_iff (hw : w.db = {}) (run : Run (gateway Serves) w steps s) :
    (∀ m ∈ visited steps s, Backed m.world.db) ↔ Meets Releasable steps := by
  refine Discipline.run_always_iff book_covers trivial (J := fun m => Itemized m.world.db) ?_ ?_
    (fun _ _ => trivial) ?_ ?_ ?_ ?_ run
  · show Itemized w.db
    rw [hw]
    exact itemized_empty
  · show Backed w.db
    rw [hw]
    exact fun r hr => absurd hr (Table.not_mem_empty r)
  · exact fun m i c o h _ howes => h.perform howes o
  · exact fun m i c o h _ hbacked => releasable_iff h hbacked
  · rintro m _ h ⟨keeps, rfl⟩
    exact h
  · rintro m _ h ⟨keeps, rfl⟩
    exact ⟨trivial, h⟩

/-- **The accounts are right** in every state of a run in which no payout that fails releases a
    sale whose reversal is in another payout. -/
theorem payouts_accounted (hw : w.db = {}) {steps : List (GatewayStage × GatewayAction)}
    {s : Pool GatewayCalls World} (run : Run (gateway Serves) w steps s)
    (honce : ∀ m ∈ visited steps s, ∀ sale ∈ m.world.db.conversions, sale.entryType = .SALE →
      (reversalsOf m.world.db.conversions sale.id).length ≤ 1)
    (hmeets : Meets Releasable steps) : ∀ m ∈ visited steps s, Accounted m.world.db := by
  intro m hm
  have hitemized := itemized_visited hw run m hm
  have hbacked := (backed_iff hw run).mpr hmeets m hm
  refine ⟨fun hquiet agentId currency => ?_, fun p hp hstatus => ?_, fun i hi i' hi' heq => ?_⟩
  · have hbalance : payoutTotal m.world.db .PAID agentId currency +
        payoutTotal m.world.db .IN_FLIGHT agentId currency + pendingTotal m.world.db agentId currency =
          settledTotal m.world.db agentId currency := hitemized.balance hbacked (honce m hm)
    have hnone : payoutTotal m.world.db .IN_FLIGHT agentId currency = 0 := by
      unfold payoutTotal
      rw [List.filter_eq_nil_iff.mpr]
      · rfl
      · intro p hp hall
        simp only [Bool.and_eq_true, decide_eq_true_eq] at hall
        exact hquiet p hp hall.1.1
    rw [hnone, Int.add_zero] at hbalance
    exact hbalance
  · refine hitemized.amount p hp ?_
    rcases hstatus with hstatus | hstatus <;> rw [hstatus] <;> decide
  · rw [Table.eq_of_key hi hi' heq]

/-! ## A refund while a payout is in flight -/

def account : AccountInput := { agentId := "agent_1", stripeAccountId := some "acct_1" }

/-- Another, larger sale. -/
def largerOrder : RecordSaleInput :=
  ⟨"click_2", "merchant_1", "agent_1", "order_2", "usd", some "pi_2", some "ch_2", ⟨2500, 250, 50, 200, 2250⟩⟩

def succeeded (id charge : String) : StripeEvent := ⟨id, "charge.succeeded", { object := "charge", id := some charge }⟩

/-- A worker starts on a request and makes so many calls. -/
def serves (worker : Nat) (request : Request) (calls : Nat) (o : Outside) : List (Move GatewayCalls World Outside) :=
  .start request.program :: List.replicate calls (.call worker o)

theorem serves_allowed {request : Request} (h : request.served = true) (worker calls : Nat) (o : Outside) :
    ∀ x ∈ serves worker request calls o, x.Allowed deployed := by
  intro x hx
  rcases List.mem_cons.mp hx with rfl | hx
  · exact ⟨request, h, rfl⟩
  · rw [List.eq_of_mem_replicate hx]
    trivial

/-- A sale is settled, and a payout run claims it. -/
def claims : List (Move GatewayCalls World Outside) :=
  serves 0 (.upsertAgentAccount account) 1 {} ++ serves 1 (.recordSale order) 1 { id := "conversion_1" } ++
    serves 2 (.webhook (succeeded "evt_0" "ch_1")) 5 {} ++
    serves 3 (.payouts false none) 3 { id := "payout_1", key := "key_1" }

/-- The rail refuses the transfer, and the payout fails. -/
def refuses : List (Move GatewayCalls World Outside) :=
  [.call 3 { fault := .before "stripe_transfer_failed" }, .call 3 {}]

/-- The sale is refunded, and the next payout run takes note of it. -/
def netsRefund : List (Move GatewayCalls World Outside) :=
  serves 4 (.webhook refunded) 5 { id := "conversion_2" } ++
    serves 5 (.recordSale largerOrder) 1 { id := "conversion_3" } ++
    serves 6 (.webhook (succeeded "evt_3" "ch_2")) 5 {} ++
    serves 7 (.payouts false none) 5 { id := "payout_2", key := "key_2" }

theorem refuses_allowed : ∀ x ∈ refuses, x.Allowed deployed := by
  intro x hx
  rcases List.mem_cons.mp hx with rfl | hx
  · trivial
  · rw [List.mem_singleton.mp hx]
    trivial

theorem claims_allowed : ∀ x ∈ claims, x.Allowed deployed :=
  List.forall_mem_append.mpr ⟨List.forall_mem_append.mpr ⟨List.forall_mem_append.mpr
    ⟨serves_allowed rfl _ _ _, serves_allowed rfl _ _ _⟩, serves_allowed rfl _ _ _⟩, serves_allowed rfl _ _ _⟩

theorem netsRefund_allowed : ∀ x ∈ netsRefund, x.Allowed deployed :=
  List.forall_mem_append.mpr ⟨List.forall_mem_append.mpr ⟨List.forall_mem_append.mpr
    ⟨serves_allowed rfl _ _ _, serves_allowed rfl _ _ _⟩, serves_allowed rfl _ _ _⟩, serves_allowed rfl _ _ _⟩

theorem refused_allowed : ∀ x ∈ claims ++ refuses ++ netsRefund, x.Allowed deployed :=
  List.forall_mem_append.mpr ⟨List.forall_mem_append.mpr ⟨claims_allowed, refuses_allowed⟩, netsRefund_allowed⟩

theorem refundedInFlight_allowed : ∀ x ∈ claims ++ netsRefund ++ refuses, x.Allowed deployed :=
  List.forall_mem_append.mpr ⟨List.forall_mem_append.mpr ⟨claims_allowed, netsRefund_allowed⟩, refuses_allowed⟩

/-- While the payout is in flight, the share of the sale is. -/
theorem payouts_conserved_claims : let db := (play deployed (Pool.init {}) claims).2.stage.world.db
    payoutTotal db .PAID "agent_1" "USD" + payoutTotal db .IN_FLIGHT "agent_1" "USD" + pendingTotal db "agent_1" "USD" =
      (db.conversions.rows.map (counted db "agent_1" "USD")).sum :=
  (payouts_conserved rfl (play_run claims_allowed) _ (stage_mem_visited _ _)).1 "agent_1" "USD"

/-- In every stage a sale has one reversal at most. -/
def reversedOnce (steps : List (GatewayStage × GatewayAction)) (s : Pool GatewayCalls World) : Bool :=
  (visited steps s).all fun m => m.world.db.conversions.rows.all fun sale =>
    (reversalsOf m.world.db.conversions sale.id).length ≤ 1

theorem reversedOnce_iff (h : reversedOnce steps s = true) : ∀ m ∈ visited steps s, ∀ sale ∈ m.world.db.conversions,
      sale.entryType = .SALE → (reversalsOf m.world.db.conversions sale.id).length ≤ 1 := by
  intro m hm sale hsale _
  exact of_decide_eq_true (List.all_eq_true.mp (List.all_eq_true.mp h m hm) sale hsale)

/-- A payout that fails before the refund leaves the accounts right. -/
theorem payouts_accounted_refused :
    Accounted (play deployed (Pool.init {}) (claims ++ refuses ++ netsRefund)).2.stage.world.db :=
  payouts_accounted rfl (play_run refused_allowed) (reversedOnce_iff (by decide +kernel)) (by decide +kernel) _
    (stage_mem_visited _ _)

/-- One that fails after the refund charges the agent for what was never paid. -/
theorem not_accounted : ¬ ∀ steps s, Run deployed {} steps s →
    (∀ m ∈ visited steps s, ∀ sale ∈ m.world.db.conversions, sale.entryType = .SALE →
      (reversalsOf m.world.db.conversions sale.id).length ≤ 1) →
    ∀ m ∈ visited steps s, Accounted m.world.db := by
  intro h
  have honce : reversedOnce (play deployed (Pool.init {}) (claims ++ netsRefund ++ refuses)).1
      (play deployed (Pool.init {}) (claims ++ netsRefund ++ refuses)).2 = true := by
    decide +kernel
  have haccounted := h _ _ (play_run refundedInFlight_allowed) (reversedOnce_iff honce) _
    (stage_mem_visited _ _)
  have hquiet : (play deployed (Pool.init {}) (claims ++ netsRefund ++ refuses)).2.stage.world.db.payouts.rows.all
      (fun p => p.status ≠ .IN_FLIGHT) = true := by
    decide +kernel
  have hconserved := haccounted.conserved
    (fun p hp => of_decide_eq_true (List.all_eq_true.mp hquiet p hp)) "agent_1" "USD"
  revert hconserved
  -- 120 were paid, nothing is pending, and 200 were earned
  decide +kernel

end Commerce
