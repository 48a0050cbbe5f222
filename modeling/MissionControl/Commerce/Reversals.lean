import MissionControl.Commerce.Books

/-! # Reversals

A reversal is the negation of the sale it reverses. What stands of a sale is therefore all of it,
nothing, or, when it has been reversed more than once, less than nothing. -/

namespace Commerce

open Interleaving
open Relational (Table)

variable {Serves : Request → Prop} {books books' : Books} {conversions : Conversions} {sale parent : Conversion}

/-! ## What stands of a sale -/

inductive Column where
  | grossAmountCents
  | commissionTotalCents
  | aislFeeCents
  | agentPayoutCents
  | merchantNetCents
  deriving DecidableEq, Repr

/-- The amount in a column. -/
def Amounts.at (amounts : Amounts) : Column → Int
  | .grossAmountCents => amounts.grossAmountCents
  | .commissionTotalCents => amounts.commissionTotalCents
  | .aislFeeCents => amounts.aislFeeCents
  | .agentPayoutCents => amounts.agentPayoutCents
  | .merchantNetCents => amounts.merchantNetCents

/-- The row is a reversal of the sale with the identifier. -/
def Conversion.reverses (saleId : String) (c : Conversion) : Bool :=
  c.entryType = .REVERSAL && c.parentConversionId == some saleId

/-- The reversals of a sale, as `findOrderFamily` reads them. -/
def reversalsOf (conversions : Conversions) (saleId : String) : List Conversion :=
  conversions.rows.filter (·.reverses saleId)

/-- The sum of a sale's own split and of all its reversals' splits in a column. -/
def standing (conversions : Conversions) (sale : Conversion) (column : Column) : Int :=
  sale.split.at column + ((reversalsOf conversions sale.id).map (·.split.at column)).sum

/-- **Sales are reversed at most in full**, and the ledger is balanced. -/
structure Reversible (books : Books) : Prop where
  balanced : ∀ group ∈ books.ledger, group.Balanced
  nonneg : ∀ sale ∈ books.conversions, sale.entryType = .SALE →
    ∀ column, 0 ≤ standing books.conversions sale column
  refunded : ∀ sale ∈ books.conversions, sale.entryType = .SALE → sale.status = .REFUNDED →
    ∀ column, standing books.conversions sale column = 0

theorem negateSplit_at (split : CommissionSplit) (column : Column) :
    (negateSplit split).at column = -split.at column := by
  cases column <;> rfl

/-! ## What every book keeps -/

/-- The row negates the sale. -/
structure Negates (sale r : Conversion) : Prop where
  parent : r.parentConversionId = some sale.id
  agentId : r.agentId = sale.agentId
  currency : r.currency = sale.currency
  split : r.split = negateSplit sale.split

/-- **What every book keeps.** Reversals negate sales that are refunded, and a sale is refunded
    when it has been reversed. -/
structure Kept (books : Books) : Prop where
  balanced : ∀ group ∈ books.ledger, group.Balanced
  nonneg : ∀ sale ∈ books.conversions, sale.entryType = .SALE → ∀ column, 0 ≤ sale.split.at column
  parent : ∀ r ∈ books.conversions, r.entryType = .REVERSAL →
    ∃ sale ∈ books.conversions, sale.entryType = .SALE ∧ sale.status = .REFUNDED ∧ Negates sale r
  reversed : ∀ sale ∈ books.conversions, sale.entryType = .SALE → sale.status = .REFUNDED →
    ∃ r ∈ books.conversions, r.reverses sale.id

variable {saleId : String}

theorem reverses_iff {c : Conversion} :
    c.reverses saleId = true ↔ c.entryType = .REVERSAL ∧ c.parentConversionId = some saleId := by
  unfold Conversion.reverses
  rw [Bool.and_eq_true, decide_eq_true_eq, beq_iff_eq]

variable {r : Conversion}

theorem mem_reversalsOf : r ∈ reversalsOf conversions saleId ↔ r ∈ conversions ∧ r.reverses saleId :=
  List.mem_filter

theorem Kept.negates (h : Kept books) (hsale : sale ∈ books.conversions)
    (hr : r ∈ reversalsOf books.conversions sale.id) : sale.status = .REFUNDED ∧ Negates sale r := by
  obtain ⟨hr, hreverses⟩ := mem_reversalsOf.mp hr
  obtain ⟨hentry, hparent⟩ := reverses_iff.mp hreverses
  obtain ⟨sale', hsale', -, hstatus, hnegates⟩ := h.parent r hr hentry
  have hid : sale'.id = sale.id := Option.some.inj (hnegates.parent.symm.trans hparent)
  have heq : sale' = sale := Table.eq_of_key hsale' hsale hid
  subst heq
  exact ⟨hstatus, hnegates⟩

/-- **What stands of a sale** is what is left of it after so many reversals. -/
theorem Kept.standing_eq (h : Kept books) (hsale : sale ∈ books.conversions) (column : Column) :
    standing books.conversions sale column =
      sale.split.at column - (reversalsOf books.conversions sale.id).length * sale.split.at column := by
  have hmap : (reversalsOf books.conversions sale.id).map (·.split.at column) =
      List.replicate (reversalsOf books.conversions sale.id).length (-sale.split.at column) := by
    refine List.eq_replicate_iff.mpr ⟨List.length_map _, fun x hx => ?_⟩
    obtain ⟨r, hr, rfl⟩ := List.mem_map.mp hx
    rw [(h.negates hsale hr).2.split, negateSplit_at]
  unfold standing
  rw [hmap, List.sum_replicate, nsmul_eq_mul, Int.mul_neg, Int.sub_eq_add_neg]

theorem Kept.refunded_iff (h : Kept books) (hsale : sale ∈ books.conversions)
    (hentry : sale.entryType = .SALE) :
    sale.status = .REFUNDED ↔ 0 < (reversalsOf books.conversions sale.id).length := by
  constructor
  · intro hstatus
    obtain ⟨r, hr, hreverses⟩ := h.reversed sale hsale hentry hstatus
    exact List.length_pos_of_mem (mem_reversalsOf.mpr ⟨hr, hreverses⟩)
  · intro hpos
    obtain ⟨r, hr⟩ := List.exists_mem_of_length_pos hpos
    exact (h.negates hsale hr).1

theorem Kept.at_eq_zero (h : Kept books) (hsale : sale ∈ books.conversions) (hentry : sale.entryType = .SALE)
    (hzero : sale.split.grossAmountCents = 0) (column : Column) : sale.split.at column = 0 := by
  have hnet : 0 ≤ sale.split.merchantNetCents := h.nonneg sale hsale hentry .merchantNetCents
  have hagent : 0 ≤ sale.split.agentPayoutCents := h.nonneg sale hsale hentry .agentPayoutCents
  have hfee : 0 ≤ sale.split.aislFeeCents := h.nonneg sale hsale hentry .aislFeeCents
  have hcommission := sale.split.commission
  have hgross := sale.split.gross
  cases column <;> simp only [Amounts.at] <;> omega

/-- **Exactly the sales that are reversed once at most stand**, and those for nothing. -/
theorem Kept.reversible_iff (h : Kept books) : Reversible books ↔
    ∀ sale ∈ books.conversions, sale.entryType = .SALE →
      (reversalsOf books.conversions sale.id).length ≤ 1 ∨ sale.split.grossAmountCents = 0 := by
  constructor
  · intro hrev sale hsale hentry
    have hstands := hrev.nonneg sale hsale hentry .grossAmountCents
    rw [h.standing_eq hsale] at hstands
    have hgross : 0 ≤ sale.split.grossAmountCents := h.nonneg sale hsale hentry .grossAmountCents
    simp only [Amounts.at] at hstands
    by_contra hne
    push Not at hne
    -- two reversals of a positive amount leave less than nothing
    have htwo : (2 : Int) ≤ (reversalsOf books.conversions sale.id).length := by
      have := hne.1
      omega
    have hpos : 0 < sale.split.grossAmountCents := by
      have := hne.2
      omega
    nlinarith only [hstands, htwo, hpos]
  · intro honce
    refine ⟨h.balanced, fun sale hsale hentry column => ?_, fun sale hsale hentry hstatus column => ?_⟩
    · rw [h.standing_eq hsale]
      have hcolumn := h.nonneg sale hsale hentry column
      rcases honce sale hsale hentry with hlength | hzero
      · interval_cases hn : (reversalsOf books.conversions sale.id).length <;> simp [hcolumn]
      · simp [h.at_eq_zero hsale hentry hzero column]
    · rw [h.standing_eq hsale]
      have hpos := (h.refunded_iff hsale hentry).mp hstatus
      rcases honce sale hsale hentry with hlength | hzero
      · have hone : (reversalsOf books.conversions sale.id).length = 1 := by
          omega
        simp [hone]
      · simp [h.at_eq_zero hsale hentry hzero column]

/-! ## The changes keep it -/

variable {input : PaidInput}

theorem balanced_foldlM {items : List PayoutItem} {ledger ledger' : List EntryGroup}
    (h : items.foldlM (fun ledger item => insertLedgerGroup ledger (input.group item)) ledger = .ok ledger')
    (hledger : ∀ group ∈ ledger, group.Balanced) : ∀ group ∈ ledger', group.Balanced := by
  induction items generalizing ledger with
  | nil =>
    cases h
    exact hledger
  | cons item items ih =>
    rw [List.foldlM_cons] at h
    cases hinsert : insertLedgerGroup ledger (input.group item) with
    | error e =>
      rw [hinsert] at h
      cases h
    | ok next =>
      rw [hinsert] at h
      obtain ⟨hbalanced, rfl⟩ := insertLedgerGroup_eq_ok.mp hinsert
      refine ih h fun group hgroup => ?_
      rcases List.mem_append.mp hgroup with hgroup | hgroup
      · exact hledger group hgroup
      · rw [List.mem_singleton.mp hgroup]
        exact hbalanced

variable {db db' : Database}

theorem balanced_markPaid {payout : Payout} (h : markPaid db input = .ok (payout, db'))
    (hledger : ∀ group ∈ db.ledger, group.Balanced) : ∀ group ∈ db'.ledger, group.Balanced := by
  unfold markPaid at h
  split at h
  · split at h
    · simp only [bind, Except.bind] at h
      split at h
      · cases h
      · rename_i ledger hfold
        cases h
        exact balanced_foldlM hfold hledger
    · cases h
  · cases h

theorem settle_of_not_settling {chargeId : Option String} {c : Conversion} (h : c.settling = false) :
    c.settle chargeId = c := by
  unfold Conversion.settle
  rw [h]
  rfl

theorem refund_of_reversal {c : Conversion} (h : c.entryType = .REVERSAL) : c.refund = c := by
  unfold Conversion.refund
  rw [h]
  rfl

variable {f : Conversion → Conversion}

theorem Kept.modify (h : Kept books) (hf : ∀ c, (f c).id = c.id) (hversion : ∀ c : Conversion, c.Version (f c))
    (hsame : ∀ c, c.entryType = .REVERSAL ∨ c.status = .REFUNDED → f c = c)
    (hrefunded : ∀ c ∈ books.conversions, c.entryType = .SALE → (f c).status = .REFUNDED →
      ∃ r ∈ books.conversions, r.reverses c.id) :
    Kept { books with conversions := books.conversions.modify f hf } := by
  have hentry : ∀ c, (f c).entryType = c.entryType := by
    intro c
    rw [hversion c]
  have hkeep : ∀ r ∈ books.conversions, r.entryType = .REVERSAL → r ∈ books.conversions.modify f hf := by
    intro r hr hreversal
    exact (Table.mem_modify hf).mpr ⟨r, hr, hsame r (.inl hreversal)⟩
  refine ⟨h.balanced, ?_, ?_, ?_⟩
  · intro sale hsale hsaleEntry column
    obtain ⟨c, hc, rfl⟩ := (Table.mem_modify hf).mp hsale
    rw [hversion c]
    exact h.nonneg c hc ((hentry c).symm.trans hsaleEntry) column
  · intro r hr hreversal
    obtain ⟨c, hc, rfl⟩ := (Table.mem_modify hf).mp hr
    have hcEntry := (hentry c).symm.trans hreversal
    rw [hsame c (.inl hcEntry)]
    obtain ⟨sale, hsale, hsaleEntry, hstatus, hnegates⟩ := h.parent c hc hcEntry
    exact ⟨sale, (Table.mem_modify hf).mpr ⟨sale, hsale, hsame sale (.inr hstatus)⟩, hsaleEntry, hstatus,
      hnegates⟩
  · intro sale hsale hsaleEntry hstatus
    obtain ⟨c, hc, rfl⟩ := (Table.mem_modify hf).mp hsale
    obtain ⟨r, hr, hreverses⟩ := hrefunded c hc ((hentry c).symm.trans hsaleEntry) hstatus
    exact ⟨r, hkeep r hr (reverses_iff.mp hreverses).1, by rwa [hf]⟩

theorem Kept.settled (h : Kept books) (conversionId : String) (chargeId : Option String) :
    Kept (markSettled books conversionId chargeId).2 := by
  unfold markSettled
  dsimp only
  split
  · refine h.modify _ (fun c => ?_) (fun c hc => ?_) fun c hc hentry hstatus => ?_
    · split
      · exact version_settle chargeId c
      · exact .refl c
    · -- neither a reversal nor what is refunded is waiting to be settled
      have hnot : c.settling = false := by
        unfold Conversion.settling
        rcases hc with hc | hc <;> simp [hc]
      dsimp only
      rw [settle_of_not_settling hnot, ite_self]
    · refine h.reversed c hc hentry ?_
      split at hstatus
      · dsimp only [Conversion.settle] at hstatus
        split at hstatus
        · cases hstatus
        · exact hstatus
      · exact hstatus
  · exact h

variable {id : String} {row : Conversion}

theorem Kept.sold (h : Kept books) {input : RecordSaleInput}
    (hok : recordSale books input id = .ok (row, books')) : Kept books' := by
  obtain ⟨split, rfl, ⟨hnew, hinsert⟩, group, hbalanced, hlegs, hledger⟩ := recordSale_ok hok
  have hmem : ∀ c, c ∈ books'.conversions ↔ c ∈ books.conversions ∨ c = input.row id split := by
    intro c
    rw [hinsert]
    exact Table.mem_insert
  refine ⟨?_, ?_, ?_, ?_⟩
  · intro group' hgroup
    rw [hledger] at hgroup
    rcases List.mem_append.mp hgroup with hgroup | hgroup
    · exact h.balanced group' hgroup
    · rw [List.mem_singleton.mp hgroup]
      exact hbalanced
  · intro sale hsale hentry column
    rcases (hmem sale).mp hsale with hsale | rfl
    · exact h.nonneg sale hsale hentry column
    · have hnonneg := hbalanced.2
      rw [hlegs] at hnonneg
      obtain ⟨hnet, hagent, hfee⟩ := saleLegs_nonneg hnonneg
      have hcommission := split.commission
      have hgross := split.gross
      show 0 ≤ split.at column
      cases column <;> simp only [Amounts.at] <;> omega
  · intro r hr hreversal
    rcases (hmem r).mp hr with hr | rfl
    · obtain ⟨sale, hsale, hsaleEntry, hstatus, hnegates⟩ := h.parent r hr hreversal
      exact ⟨sale, (hmem sale).mpr (.inl hsale), hsaleEntry, hstatus, hnegates⟩
    · cases hreversal
  · intro sale hsale hentry hstatus
    rcases (hmem sale).mp hsale with hsale | rfl
    · obtain ⟨r, hr, hreverses⟩ := h.reversed sale hsale hentry hstatus
      exact ⟨r, (hmem r).mpr (.inl hr), hreverses⟩
    · cases hstatus

/-- A reversal of a sale in the book. -/
theorem Kept.reversalInserted (h : Kept books) (hsale : sale ∈ books.conversions)
    (hentry : sale.entryType = .SALE) (hversion : sale.Version parent) (reversalReference : String)
    (hnew : books.conversions.find? id = none) {group : EntryGroup} (hbalanced : group.Balanced) :
    Kept ⟨refundRow (books.conversions.insert (reversalRow parent reversalReference id) hnew) parent.id,
      books.ledger ++ [group]⟩ := by
  have hid : parent.id = sale.id := by
    rw [hversion]
  have hne : ∀ c ∈ books.conversions, c.id ≠ id := Table.find?_eq_none.mp hnew
  -- the rows are those there were, with the sale refunded, and the reversal
  have hmem : ∀ c, c ∈ refundRow (books.conversions.insert (reversalRow parent reversalReference id) hnew)
      parent.id ↔ c = sale.refund ∨ (c ∈ books.conversions ∧ c.id ≠ sale.id) ∨
        c = reversalRow parent reversalReference id := by
    intro c
    unfold refundRow
    rw [Table.mem_update, hid]
    constructor
    · rintro (⟨c, hc, hcId, rfl⟩ | ⟨hc, hcId⟩)
      · rcases Table.mem_insert.mp hc with hc | rfl
        · rw [Table.eq_of_key hc hsale hcId]
          exact .inl rfl
        · exact absurd hcId.symm (hne sale hsale)
      · rcases Table.mem_insert.mp hc with hc | rfl
        · exact .inr (.inl ⟨hc, hcId⟩)
        · exact .inr (.inr rfl)
    · rintro (rfl | ⟨hc, hcId⟩ | rfl)
      · exact .inl ⟨sale, Table.mem_insert.mpr (.inl hsale), rfl, rfl⟩
      · exact .inr ⟨Table.mem_insert.mpr (.inl hc), hcId⟩
      · exact .inr ⟨Table.mem_insert.mpr (.inr rfl), fun heq => hne sale hsale heq.symm⟩
  have hrefund : sale.refund = { sale with status := .REFUNDED } := by
    unfold Conversion.refund
    rw [if_pos hentry]
  have hnegates : Negates sale.refund (reversalRow parent reversalReference id) := by
    rw [hrefund, hversion]
    exact ⟨rfl, rfl, rfl, rfl⟩
  refine ⟨?_, ?_, ?_, ?_⟩
  · intro group' hgroup
    rcases List.mem_append.mp hgroup with hgroup | hgroup
    · exact h.balanced group' hgroup
    · rw [List.mem_singleton.mp hgroup]
      exact hbalanced
  · intro c hc hcEntry column
    rcases (hmem c).mp hc with rfl | ⟨hc, -⟩ | rfl
    · rw [hrefund]
      exact h.nonneg sale hsale hentry column
    · exact h.nonneg c hc hcEntry column
    · cases hcEntry
  · intro r hr hreversal
    have hsame : sale.refund ∈
        refundRow (books.conversions.insert (reversalRow parent reversalReference id) hnew) parent.id :=
      (hmem _).mpr (.inl rfl)
    rcases (hmem r).mp hr with rfl | ⟨hr, -⟩ | rfl
    · rw [hrefund] at hreversal
      exact absurd (hentry.symm.trans hreversal) (by decide)
    · obtain ⟨sale', hsale', hsaleEntry, hstatus, hnegates'⟩ := h.parent r hr hreversal
      by_cases heq : sale'.id = sale.id
      · -- one more reversal of a sale that is refunded already
        have := Table.eq_of_key hsale' hsale heq
        subst this
        refine ⟨sale'.refund, hsame, ?_, ?_, ?_⟩ <;> rw [hrefund]
        · exact hentry
        · exact ⟨hnegates'.parent, hnegates'.agentId, hnegates'.currency, hnegates'.split⟩
      · exact ⟨sale', (hmem _).mpr (.inr (.inl ⟨hsale', heq⟩)), hsaleEntry, hstatus, hnegates'⟩
    · refine ⟨sale.refund, hsame, ?_, ?_, hnegates⟩ <;> rw [hrefund]
      exact hentry
  · intro c hc hcEntry hstatus
    rcases (hmem c).mp hc with rfl | ⟨hc, hcId⟩ | rfl
    · exact ⟨_, (hmem _).mpr (.inr (.inr rfl)), reverses_iff.mpr ⟨rfl, hnegates.parent⟩⟩
    · obtain ⟨r, hr, hreverses⟩ := h.reversed c hc hcEntry hstatus
      refine ⟨r, (hmem r).mpr (.inr (.inl ⟨hr, fun heq => ?_⟩)), hreverses⟩
      -- the reversal is no sale
      rw [Table.eq_of_key hr hsale heq, reverses_iff, hentry] at hreverses
      cases hreverses.1
    · cases hcEntry

/-- **Every change keeps it**, when only sales of the book are reversed. -/
theorem Kept.change {c : Call} (h : Kept db.toBooks) (hchange : Change db c db')
    (hparent : ∀ parent reversalReference memo, c = .recordReversal parent reversalReference memo →
      ∃ sale ∈ db.conversions, sale.entryType = .SALE ∧ sale.Version parent) : Kept db'.toBooks := by
  cases hchange with
  | same => exact h
  | sold hok => exact h.sold hok
  | settled conversionId chargeId => exact h.settled conversionId chargeId
  | @reversed parent _ reversalReference _ _ _ hok =>
    rcases recordReversal_ok hok with rfl | ⟨-, ⟨hnew, hconversions⟩, group, hbalanced, hledger⟩
    · exact h
    · obtain ⟨sale, hsale, hentry, hversion⟩ := hparent _ _ _ rfl
      have hkept := h.reversalInserted hsale hentry hversion reversalReference hnew hbalanced
      rwa [← hconversions, ← hledger] at hkept
  | account input => exact h
  | claimed hok =>
    rw [books_claim hok]
    exact h
  | paid hok =>
    have hconversions := conversions_markPaid hok
    exact ⟨balanced_markPaid hok h.balanced, hconversions ▸ h.nonneg, hconversions ▸ h.parent,
      hconversions ▸ h.reversed⟩
  | failed hok =>
    rw [books_markFailed hok]
    exact h

/-! ## How often a sale is reversed -/

/-- A sale is reversed once at most, or is for nothing. -/
def OnceEach (conversions : Conversions) : Prop :=
  ∀ sale ∈ conversions, sale.entryType = .SALE →
    (reversalsOf conversions sale.id).length ≤ 1 ∨ sale.split.grossAmountCents = 0

theorem reverses_of_version {c c' : Conversion} (h : c.Version c') (saleId : String) :
    c'.reverses saleId = c.reverses saleId := by
  rw [h]
  rfl

theorem length_reversalsOf_modify (hf : ∀ c, (f c).id = c.id) (hversion : ∀ c : Conversion, c.Version (f c))
    (saleId : String) :
    (reversalsOf (conversions.modify f hf) saleId).length = (reversalsOf conversions saleId).length := by
  unfold reversalsOf
  show ((conversions.rows.map f).filter _).length = _
  rw [List.filter_map, List.length_map]
  refine congrArg List.length (List.filter_congr fun c _ => ?_)
  exact reverses_of_version (hversion c) saleId

theorem reversalsOf_insert {hnew : conversions.find? row.id = none} :
    reversalsOf (conversions.insert row hnew) saleId =
      reversalsOf conversions saleId ++ if row.reverses saleId then [row] else [] := by
  unfold reversalsOf
  show (conversions.rows ++ [row]).filter _ = _
  rw [List.filter_append]
  congr 1
  split
  · rename_i hreverses
    exact List.filter_cons_of_pos hreverses
  · rename_i hreverses
    exact List.filter_cons_of_neg hreverses

theorem OnceEach.modify (hf : ∀ c, (f c).id = c.id) (hversion : ∀ c : Conversion, c.Version (f c)) :
    OnceEach (conversions.modify f hf) ↔ OnceEach conversions := by
  constructor
  · intro h sale hsale hentry
    have hmodified := h (f sale) ((Table.mem_modify hf).mpr ⟨sale, hsale, rfl⟩) (by rw [hversion]; exact hentry)
    rw [length_reversalsOf_modify hf hversion, hf, hversion sale] at hmodified
    exact hmodified
  · intro h sale hsale hentry
    obtain ⟨c, hc, rfl⟩ := (Table.mem_modify hf).mp hsale
    rw [hversion c] at hentry
    rw [length_reversalsOf_modify hf hversion, hf, hversion c]
    exact h c hc hentry

theorem Kept.onceEach_sold (h : Kept books) (honce : OnceEach books.conversions) {input : RecordSaleInput}
    (hok : recordSale books input id = .ok (row, books')) : OnceEach books'.conversions := by
  obtain ⟨split, rfl, ⟨hnew, hinsert⟩, -⟩ := recordSale_ok hok
  have hsame : ∀ saleId, reversalsOf books'.conversions saleId = reversalsOf books.conversions saleId := by
    intro saleId
    rw [hinsert, reversalsOf_insert, if_neg, List.append_nil]
    exact fun hreverses => by cases (reverses_iff.mp hreverses).1
  intro sale hsale hentry
  rw [hsame]
  rw [hinsert] at hsale
  rcases Table.mem_insert.mp hsale with hsale | rfl
  · exact honce sale hsale hentry
  · refine .inl ?_
    have hnil : reversalsOf books.conversions id = [] := by
      refine List.eq_nil_iff_forall_not_mem.mpr fun r hr => ?_
      obtain ⟨hr, hreverses⟩ := mem_reversalsOf.mp hr
      obtain ⟨hreversal, hparent⟩ := reverses_iff.mp hreverses
      obtain ⟨parent, hmem, -, -, hnegates⟩ := h.parent r hr hreversal
      have hid : parent.id = id := Option.some.inj (hnegates.parent.symm.trans hparent)
      exact Table.find?_eq_none.mp hnew parent hmem hid
    show (reversalsOf books.conversions id).length ≤ 1
    rw [hnil]
    exact Nat.zero_le 1

variable {reversalReference : String}

/-- **One more reversal** is one too many exactly when the sale is refunded, and for something. -/
theorem Kept.onceEach_reversed (h : Kept books) (honce : OnceEach books.conversions)
    (hsale : sale ∈ books.conversions) (hentry : sale.entryType = .SALE) (hversion : sale.Version parent)
    (hnew : books.conversions.find? (reversalRow parent reversalReference id).id = none) :
    OnceEach (refundRow (books.conversions.insert (reversalRow parent reversalReference id) hnew) parent.id) ↔
      sale.status ≠ .REFUNDED ∨ sale.split.grossAmountCents = 0 := by
  have hid : parent.id = sale.id := by
    rw [hversion]
  have hcount : ∀ saleId, (reversalsOf (books.conversions.insert (reversalRow parent reversalReference id) hnew)
      saleId).length = (reversalsOf books.conversions saleId).length + if sale.id = saleId then 1 else 0 := by
    intro saleId
    rw [reversalsOf_insert, List.length_append]
    congr 1
    have hreverses : (reversalRow parent reversalReference id).reverses saleId ↔ sale.id = saleId := by
      rw [reverses_iff, ← hid]
      exact ⟨fun h => Option.some.inj h.2, fun h => ⟨rfl, congrArg some h⟩⟩
    by_cases heq : sale.id = saleId
    · rw [if_pos (hreverses.mpr heq), if_pos heq]
      rfl
    · rw [if_neg (fun hr => heq (hreverses.mp hr)), if_neg heq]
      rfl
  have hstatus := h.refunded_iff hsale hentry
  unfold refundRow Table.update
  rw [OnceEach.modify _ fun c => ?_]
  · constructor
    · intro hafter
      rcases hafter sale (Table.mem_insert.mpr (.inl hsale)) hentry with hlength | hzero
      · rw [hcount, if_pos rfl] at hlength
        refine .inl fun hrefunded => ?_
        have := hstatus.mp hrefunded
        omega
      · exact .inr hzero
    · intro hone c hc hcEntry
      rcases Table.mem_insert.mp hc with hc | rfl
      · rw [hcount]
        by_cases heq : sale.id = c.id
        · have := Table.eq_of_key hsale hc heq
          subst this
          rcases hone with hopen | hzero
          · have hnone := mt hstatus.mpr hopen
            refine .inl ?_
            rw [if_pos rfl]
            omega
          · exact .inr hzero
        · rw [if_neg heq, Nat.add_zero]
          exact honce c hc hcEntry
      · cases hcEntry
  · split
    · exact version_refund c
    · exact .refl c

/-! ## Runs -/

/-- Whether a call is made at all. -/
def Fault.made : Fault → Bool
  | .before _ => false
  | _ => true

theorem Fault.not_before {fault : Fault} (h : fault.made = true) (code : String) : fault ≠ .before code := by
  rintro rfl
  cases h

/-- The call writes a reversal, unless the ledger or a key refuses it. -/
def writesReversal (w : World) (parent : Conversion) (reversalReference : String) (o : Outside) : Prop :=
  o.fault.made = true ∧ w.db.conversions.find? o.id = none ∧
    ∀ c ∈ w.db.conversions, c.externalOrderId ≠ (reversalRow parent reversalReference o.id).externalOrderId

/-- **The condition**: a sale that is reversed is not refunded yet, or was for nothing. -/
def Once (m : GatewayStage) : GatewayAction → Prop
  | .call _ (.recordReversal parent reversalReference _) o =>
    writesReversal m.world parent reversalReference o → ∀ sale ∈ m.world.db.conversions, sale.id = parent.id →
      sale.status ≠ .REFUNDED ∨ sale.split.grossAmountCents = 0
  | _ => True

instance (w : World) (parent : Conversion) (reversalReference : String) (o : Outside) :
    Decidable (writesReversal w parent reversalReference o) :=
  inferInstanceAs (Decidable (_ ∧ _ ∧ ∀ c ∈ w.db.conversions.rows, _))

instance (m : GatewayStage) (a : GatewayAction) : Decidable (Once m a) :=
  match a with
  | .call _ (.recordReversal ..) _ =>
    inferInstanceAs (Decidable (_ → ∀ sale ∈ m.world.db.conversions.rows, _ = _ → _ ∨ _))
  | .start _ | .env _ => .isTrue trivial
  | .call _ (.recordSale _) _ | .call _ (.findById _) _ | .call _ (.findSaleByStripeReference _) _
  | .call _ (.markSettled ..) _ | .call _ (.setIfAbsent _) _ | .call _ (.del _) _ | .call _ (.claimEvent ..) _
  | .call _ (.completeEvent ..) _ | .call _ (.releaseEvent _) _ | .call _ (.upsertAgentAccount _) _
  | .call _ (.findAgentAccount _) _ | .call _ .pendingBalances _ | .call _ (.claim ..) _
  | .call _ (.transfer _) _ | .call _ (.markPaid _) _ | .call _ (.markFailed ..) _ => .isTrue trivial

variable {m : GatewayStage} {i : Nat} {c : Call} {o : Outside} {w : World}

theorem Kept.perform (h : Kept m.world.db.toBooks) (howes : owes i c m) (o : Outside) :
    Kept (m.perform exec i c o).world.db.toBooks := by
  refine h.change (change_after c o m.world) ?_
  rintro parent reversalReference memo rfl
  exact howes

theorem balanced_reversal (h : Kept books) (hsale : sale ∈ books.conversions) (hentry : sale.entryType = .SALE)
    (conversionId merchantId currency memo : String) :
    EntryGroup.Balanced ⟨conversionId, merchantId, currency, memo, reversalLegs sale.split⟩ := by
  have hgross : 0 ≤ sale.split.grossAmountCents := h.nonneg sale hsale hentry .grossAmountCents
  have hnet : 0 ≤ sale.split.merchantNetCents := h.nonneg sale hsale hentry .merchantNetCents
  have hagent : 0 ≤ sale.split.agentPayoutCents := h.nonneg sale hsale hentry .agentPayoutCents
  have hfee : 0 ≤ sale.split.aislFeeCents := h.nonneg sale hsale hentry .aislFeeCents
  have hcommission := sale.split.commission
  have hsum := sale.split.gross
  constructor
  · show sumOf .DEBIT (reversalLegs sale.split) = sumOf .CREDIT (reversalLegs sale.split)
    simp [sumOf, reversalLegs, saleLegs, LedgerDirection.other]
    omega
  · show ∀ leg ∈ reversalLegs sale.split, 0 ≤ leg.amountCents
    simp [reversalLegs, saleLegs]
    omega

theorem insertRow_of_free (hnew : conversions.find? row.id = none)
    (hfree : ∀ c ∈ conversions, c.externalOrderId ≠ row.externalOrderId) :
    insertRow conversions row = some (conversions.insert row hnew) := by
  unfold insertRow
  rw [dif_pos hnew, if_neg]
  intro hany
  obtain ⟨c, hc, heq⟩ := List.any_eq_true.mp hany
  exact hfree c hc (by simpa using heq)

/-- **A reversal that nothing refuses.** -/
theorem recordReversal_new (h : Kept books) (hsale : sale ∈ books.conversions) (hentry : sale.entryType = .SALE)
    (hversion : sale.Version parent) (reversalReference memo id : String)
    (hnew : books.conversions.find? (reversalRow parent reversalReference id).id = none)
    (hfree : ∀ c ∈ books.conversions, c.externalOrderId ≠ (reversalRow parent reversalReference id).externalOrderId) :
    ∃ books', recordReversal books parent reversalReference memo id =
        .ok (reversalRow parent reversalReference id, books') ∧ books'.conversions =
        refundRow (books.conversions.insert (reversalRow parent reversalReference id) hnew) parent.id := by
  have hid : parent.id = sale.id := by
    rw [hversion]
  have hsplit : parent.split = sale.split := by
    rw [hversion]
  have hnone : books.conversions.rows.find?
      (·.externalOrderId = (reversalRow parent reversalReference id).externalOrderId) = none := by
    refine List.find?_eq_none.mpr fun c hc heq => hfree c hc ?_
    simpa using heq
  have hfound : (books.conversions.find? parent.id).isNone = false := by
    rw [hid, Table.find?_key hsale]
    rfl
  have hbalanced := balanced_reversal h hsale hentry (reversalRow parent reversalReference id).id
    parent.merchantId parent.currency memo
  rw [← hsplit] at hbalanced
  obtain ⟨ledger, hledger⟩ : ∃ ledger, insertLedgerGroup books.ledger _ = .ok ledger :=
    ⟨_, insertLedgerGroup_eq_ok.mpr ⟨hbalanced, rfl⟩⟩
  refine ⟨⟨refundRow (books.conversions.insert (reversalRow parent reversalReference id) hnew) parent.id, ledger⟩,
    ?_, rfl⟩
  unfold recordReversal
  simp only [hnone, hfound, insertRow_of_free hnew hfree, hledger]
  rfl

/-- **What a reversal that is written does.** -/
theorem conversions_reversed (h : Kept m.world.db.toBooks) (hsale : sale ∈ m.world.db.conversions)
    (hentry : sale.entryType = .SALE) (hversion : sale.Version parent) (memo : String)
    (hwrites : writesReversal m.world parent reversalReference o) :
    ∃ hnew : m.world.db.conversions.find? (reversalRow parent reversalReference o.id).id = none,
      (m.perform exec i (.recordReversal parent reversalReference memo) o).world.db.conversions =
        refundRow (m.world.db.conversions.insert (reversalRow parent reversalReference o.id) hnew)
          parent.id := by
  obtain ⟨hmade, hnew, hfree⟩ := hwrites
  obtain ⟨books, hok, hconversions⟩ :=
    recordReversal_new h hsale hentry hversion reversalReference memo o.id hnew hfree
  have hrun : run o m.world (.recordReversal parent reversalReference memo) =
      .ok (reversalRow parent reversalReference o.id, { m.world with db := { m.world.db with toBooks := books } }) := by
    show World.onBooks _ (recordReversal _ _ _ _ _) = _
    rw [hok]
    rfl
  refine ⟨hnew, ?_⟩
  show (Exec.after exec _ o m.world).db.conversions = _
  rw [after_of_run (Fault.not_before hmade) hrun]
  exact hconversions

theorem conversions_not_reversed {memo : String} (hwrites : ¬ writesReversal m.world parent reversalReference o) :
    (m.perform exec i (.recordReversal parent reversalReference memo) o).world.db.conversions =
      m.world.db.conversions := by
  show (Exec.after exec _ o m.world).db.conversions = _
  by_cases hmade : o.fault.made = true
  · rcases after_cases (.recordReversal parent reversalReference memo) o m.world with hsame | ⟨r, hrun⟩
    · rw [hsame]
    · obtain ⟨books, hok, hworld⟩ := onBooks_ok hrun
      rw [hworld]
      rcases recordReversal_ok hok with rfl | ⟨hfree, ⟨hnew, -⟩, -⟩
      · rfl
      · exact absurd ⟨hmade, hnew, hfree⟩ hwrites
  · cases hfault : o.fault with
    | before code => rw [after_of_before hfault]
    | none =>
      rw [hfault] at hmade
      exact absurd rfl hmade
    | after code =>
      rw [hfault] at hmade
      exact absurd rfl hmade

theorem onceEach_change (h : Kept db.toBooks) (honce : OnceEach db.conversions) (hchange : Change db c db')
    (hplain : c.plain) : OnceEach db'.conversions := by
  cases hchange with
  | same => exact honce
  | sold hok => exact h.onceEach_sold honce hok
  | settled conversionId chargeId =>
    show OnceEach (markSettled db.toBooks conversionId chargeId).2.conversions
    rcases conversions_markSettled db.toBooks conversionId chargeId with heq | heq
    · rw [heq]
      exact honce
    · rw [heq]
      refine (OnceEach.modify _ fun c => ?_).mpr honce
      split
      · exact version_settle chargeId c
      · exact .refl c
  | reversed hok => exact absurd hplain id
  | account input => exact honce
  | claimed hok =>
    rw [books_claim hok]
    exact honce
  | paid hok =>
    rw [conversions_markPaid hok]
    exact honce
  | failed hok =>
    rw [books_markFailed hok]
    exact honce

/-- **One step.** A call leaves every sale reversed once at most exactly when it meets the
    condition. -/
theorem once_iff (h : Kept m.world.db.toBooks) (howes : owes i c m) (honce : OnceEach m.world.db.conversions) :
    Once m (.call i c o) ↔ OnceEach (m.perform exec i c o).world.db.conversions := by
  have hchange : Change m.world.db c (m.perform exec i c o).world.db := change_after c o m.world
  cases c with
  | recordReversal parent reversalReference memo =>
    obtain ⟨sale, hsale, hentry, hversion⟩ := howes
    have hid : parent.id = sale.id := by
      rw [hversion]
    by_cases hwrites : writesReversal m.world parent reversalReference o
    · obtain ⟨hnew, hconversions⟩ := conversions_reversed (i := i) h hsale hentry hversion memo hwrites
      rw [hconversions, h.onceEach_reversed honce hsale hentry hversion]
      constructor
      · intro hstep
        exact hstep hwrites sale hsale hid.symm
      · intro hopen _ sale' hsale' hid'
        rw [Table.eq_of_key hsale' hsale (hid'.trans hid)]
        exact hopen
    · rw [conversions_not_reversed hwrites]
      exact iff_of_true (fun hwrites' => absurd hwrites' hwrites) honce
  | _ => exact iff_of_true trivial (onceEach_change h honce hchange trivial)

theorem kept_empty : Kept {} where
  balanced group hgroup := by cases hgroup
  nonneg sale hsale := absurd hsale (Table.not_mem_empty sale)
  parent r hr := absurd hr (Table.not_mem_empty r)
  reversed sale hsale := absurd hsale (Table.not_mem_empty sale)

/-- **Sales are reversed at most in full exactly when no refunded sale is reversed again.** -/
theorem sales_reversed_once_iff (hw : w.db.toBooks = {}) {steps : List (GatewayStage × GatewayAction)}
    {s : Pool GatewayCalls World} (run : Run (gateway Serves) w steps s) :
    (∀ m ∈ visited steps s, Reversible m.world.db.toBooks) ↔ Meets Once steps := by
  have hkept : ∀ m ∈ visited steps s, Kept m.world.db.toBooks := by
    intro m hm
    obtain ⟨before, s', run', rfl, -⟩ := run.visited hm
    refine Discipline.run_invariant (K := fun _ _ => True) book_covers trivial
      (J := fun m => Kept m.world.db.toBooks) ?_ ?_ ?_ run' fun _ _ => trivial
    · show Kept w.db.toBooks
      rw [hw]
      exact kept_empty
    · exact fun m i c o h _ howes _ => h.perform howes o
    · rintro m _ h ⟨keeps, rfl⟩
      exact h
  have honce : (∀ m ∈ visited steps s, OnceEach m.world.db.conversions) ↔ Meets Once steps := by
    refine Discipline.run_always_iff book_covers trivial (J := fun m => Kept m.world.db.toBooks) ?_ ?_
      (fun _ _ => trivial) ?_ ?_ ?_ ?_ run
    · show Kept w.db.toBooks
      rw [hw]
      exact kept_empty
    · show OnceEach w.db.conversions
      rw [hw]
      exact fun sale hsale => absurd hsale (Table.not_mem_empty sale)
    · exact fun m i c o h _ howes => h.perform howes o
    · exact fun m i c o h howes honce => once_iff h howes honce
    · rintro m _ h ⟨keeps, rfl⟩
      exact h
    · rintro m _ h ⟨keeps, rfl⟩
      exact ⟨trivial, h⟩
  rw [← honce]
  exact forall₂_congr fun m hm => (hkept m hm).reversible_iff

/-! ## A sale that is refunded and disputed -/

def order : RecordSaleInput :=
  ⟨"click_1", "merchant_1", "agent_1", "order_1", "usd", some "pi_1", some "ch_1", ⟨1000, 100, 20, 80, 900⟩⟩

def refunded : StripeEvent := ⟨"evt_1", "charge.refunded", { object := "charge", id := some "ch_1" }⟩

def disputed : StripeEvent := ⟨"evt_2", "charge.dispute.created", { object := "dispute", charge := some "ch_1" }⟩

/-- The first worker records the sale. -/
def sells : List (Move GatewayCalls World Outside) :=
  [.start (Request.recordSale order).program, .call 0 { id := "conversion_1" }]

/-- A worker handles one delivery of an event. -/
def delivers (worker : Nat) (event : StripeEvent) (id : String) : List (Move GatewayCalls World Outside) :=
  .start (Request.webhook event).program :: List.replicate 5 (.call worker { id := id })

/-- The gateway as it is deployed: nobody uses a repository directly. -/
abbrev deployed : System GatewayCalls World Outside := gateway (·.served)

theorem delivers_allowed (worker : Nat) (event : StripeEvent) (id : String) :
    ∀ x ∈ delivers worker event id, x.Allowed deployed := by
  intro x hx
  rcases List.mem_cons.mp hx with rfl | hx
  · exact ⟨.webhook event, rfl, rfl⟩
  · rw [List.eq_of_mem_replicate hx]
    trivial

theorem sells_allowed : ∀ x ∈ sells, x.Allowed deployed := by
  intro x hx
  rcases List.mem_cons.mp hx with rfl | hx
  · exact ⟨.recordSale order, rfl, rfl⟩
  · rw [List.mem_singleton.mp hx]
    trivial

theorem refunds_allowed : ∀ x ∈ sells ++ delivers 1 refunded "conversion_2", x.Allowed deployed :=
  List.forall_mem_append.mpr ⟨sells_allowed, delivers_allowed _ _ _⟩

theorem disputes_allowed :
    ∀ x ∈ sells ++ delivers 1 refunded "conversion_2" ++ delivers 2 disputed "conversion_3", x.Allowed deployed :=
  List.forall_mem_append.mpr ⟨refunds_allowed, delivers_allowed _ _ _⟩

/-- A refund alone reverses the sale in full. -/
theorem reversible_refunded :
    Reversible (play deployed (Pool.init {}) (sells ++ delivers 1 refunded "conversion_2")).2.stage.world.db.toBooks :=
  (sales_reversed_once_iff rfl (play_run refunds_allowed)).mpr (by decide +kernel) _ (stage_mem_visited _ _)

/-- The dispute of the charge that was refunded reverses the sale once more. -/
theorem not_reversible :
    ¬ ∀ steps s, Run deployed {} steps s → ∀ m ∈ visited steps s, Reversible m.world.db.toBooks := by
  intro h
  have hreversible := h _ _ (play_run disputes_allowed) _ (stage_mem_visited _ _)
  have hbroken : (play deployed (Pool.init {}) (sells ++ delivers 1 refunded "conversion_2" ++
      delivers 2 disputed "conversion_3")).2.stage.world.db.conversions.rows.any
        (fun sale => sale.entryType = .SALE && standing (play deployed (Pool.init {}) (sells ++
          delivers 1 refunded "conversion_2" ++ delivers 2 disputed "conversion_3")).2.stage.world.db.conversions
            sale .grossAmountCents < 0) = true := by
    decide +kernel
  obtain ⟨sale, hsale, hnegative⟩ := List.any_eq_true.mp hbroken
  rw [Bool.and_eq_true, decide_eq_true_eq, decide_eq_true_eq] at hnegative
  exact absurd (hreversible.nonneg sale hsale hnegative.1 .grossAmountCents) (not_le.mpr hnegative.2)

end Commerce
