import WPanel.Billing.InvoiceMoves
import WPanel.Site.Changes

namespace WPanel.Site

open WPanel.Lib WPanel.Billing WPanel.Orders WPanel.Renewals

/-!
# Invoices of one line

A change is invoiced by a document of one line, some of whose price a credit may cover.  What
billing refuses of such a document is a matter of its amounts, of the client's currency and of the
next number.

* `oneLineTotals`, `compute_one` — the figures of the document;
* `Billable` — what billing asks of it;
* `invoiceChange_oneLine_iff` — exactly then the change is invoiced.
-/

/-! ### The figures -/

/-- The figures of a client's document with one line, some of whose price a credit covers: the
    client's tax is on what is left. -/
def oneLineTotals (env : Env) (client : ℕ) (price credit : ℤ) : DocumentTotals :=
  let tax := taxAmount (price - max 0 credit) (ratePercent (taxRuleForClient env client))
  { lines := [⟨price, max 0 credit, tax⟩], subtotal := price, discountTotal := max 0 credit
    taxTotal := tax }

section

variable {env : Env} {client : ℕ} {price credit : ℤ}

theorem compute_one (hprice : 0 ≤ price) (hle : credit ≤ price) :
    compute [dec price] [true] (dec (max 0 credit)) (ratePercent (taxRuleForClient env client))
      = .ok (oneLineTotals env client price credit) := by
  have hsum : ([price] : List ℤ).sum = price := List.sum_singleton
  obtain ⟨t, _, hcompute, hbalanced, hamounts, hdiscount', htax⟩ := compute_eq_distribute_whole
    [true] (show ∀ a ∈ [price], 0 ≤ a by simpa) rfl (by simp) (le_max_left 0 credit)
    (hsum.symm ▸ max_le hprice hle) (ratePercent_nonneg (taxRuleForClient env client))
  -- the figures are the sums of the lines, and there is one line
  obtain ⟨line, hline⟩ : ∃ line, t.lines = [line] :=
    List.length_eq_one_iff.mp (by simpa using congrArg List.length hamounts)
  obtain ⟨hsubtotal, hdiscounts, htaxes, _⟩ := hbalanced.toSums
  rw [hline] at hamounts hsubtotal hdiscounts htaxes
  simp only [List.map_cons, List.map_nil, List.sum_singleton, List.cons.injEq, and_true]
    at hamounts hsubtotal hdiscounts htaxes
  rw [hsum] at htax
  rw [hdiscount'] at hdiscounts
  rw [htax] at htaxes
  refine hcompute.trans (congrArg _ ?_)
  cases t
  cases line
  simp_all [oneLineTotals]

/-- The credit of an upgrade is taken off its price. -/
theorem discount_creditDiscount (hle : credit ≤ price) :
    Billing.discount (creditDiscount credit) price = .ok (max 0 credit) := by
  unfold creditDiscount
  split
  · next hpos =>
    have hdec : dec credit ≠ 0 := (dec_pos.mpr hpos).ne'
    have hnonneg : 0 ≤ dec credit := dec_nonneg hpos.le
    have hdecle : dec credit ≤ dec price := by
      unfold dec
      gcongr
    simp [Billing.discount, enteredDiscount, discountKind, decimalOf, ensure, hnonneg, hdec, hdecle,
      discountAmount, hpos.le, hle, ok_bind]
  · next hneg => rw [max_eq_left (not_lt.mp hneg)]; rfl

theorem cleanLines_oneLine_iff {description : String} {discount : RawDiscount} {lines : List Line} :
    cleanLines (oneLine description price discount).lines = .ok lines
      ↔ (strip description ≠ "" ∧ (strip description).toList.length ≤ 255)
        ∧ (0 ≤ price ∧ price ≤ maxAmount)
        ∧ lines = [⟨strip description, 1, price, price, true⟩] := by
  have hrange : 0 ≤ dec price ∧ dec price ≤ dec maxAmount ↔ 0 ≤ price ∧ price ≤ maxAmount := by
    rw [dec_nonneg_iff]
    refine and_congr_right fun _ => ?_
    unfold dec
    rw [div_le_div_iff_of_pos_right (by norm_num)]
    exact Int.cast_le
  simp only [cleanLines, oneLine, cleanLine, List.zipIdx_cons, List.zipIdx_nil, List.mapM_cons,
    List.mapM_nil, bind_eq_ok, ensure_eq_ok, pure_eq_ok, wholeNumber, decimalOf, exists_and_left,
    exists_const, Except.ok.injEq]
  constructor
  · rintro ⟨_, _, _, _, _, ⟨hdescription, hlength, _, rfl, _, _, rfl, hprice, _, rfl⟩, _, rfl, rfl⟩
    exact ⟨⟨hdescription, hlength⟩, hrange.mp hprice, by simp⟩
  · rintro ⟨⟨hdescription, hlength⟩, hprice, rfl⟩
    refine ⟨(), rfl, (), rfl, _, ⟨hdescription, hlength, 1, rfl, by decide, _, rfl,
      hrange.mpr hprice, ?_, rfl⟩, _, rfl, ?_⟩
    · simpa using hprice.2
    · simp

/-- What a document of one line with the credit of an upgrade comes to. -/
theorem computeDocument_oneLine_iff {description : String} {r : DocumentTotals × Option TaxRule}
    (hprice : 0 ≤ price) (hle : credit ≤ price) :
    computeDocument env client [⟨description, 1, price, price, true⟩] (creditDiscount credit)
        = .ok r
      ↔ r = (oneLineTotals env client price credit, taxRuleForClient env client)
        ∧ r.1.total ≤ maxAmount := by
  simp only [computeDocument, List.map_cons, List.map_nil, List.sum_singleton, bind_eq_ok,
    discount_creditDiscount hle, Except.ok.injEq, liftCalc_eq_ok, ensure_eq_ok, pure_eq_ok,
    exists_eq_left', compute_one hprice hle, exists_and_left, exists_const]
  constructor
  · rintro ⟨htotal, rfl⟩
    exact ⟨rfl, htotal⟩
  · rintro ⟨rfl, htotal⟩
    exact ⟨htotal, rfl⟩

end

/-! ### What billing asks of it -/

/-- The price of the line, and the total of the document with its tax, fit their columns. -/
structure Fits (env : Env) (client : ℕ) (price credit : ℤ) : Prop where
  unit : 0 ≤ price ∧ price ≤ maxAmount
  total : (oneLineTotals env client price credit).total ≤ maxAmount

/-- The client has a currency that fits its column. -/
def CurrencyFits (env : Env) (client : ℕ) : Prop :=
  (env.clients client).currency ≠ "" ∧ (env.clients client).currency.toList.length ≤ 3

/-- The next invoice number fits its column and is not taken. -/
def NextNumberFree (env : Env) (s : Billing.Store) : Prop :=
  let number := numberAfter env.settings.invoicePrefix s.invoiceSequence
  number.toList.length ≤ 30 ∧ number ∉ s.invoiceNumbers s.invoices.nextPk

/-- The draft of one line. -/
def oneLineLedger (env : Env) (client : ℕ) (description : String) (price credit : ℤ) : Ledger :=
  let rule := taxRuleForClient env client
  let totals := oneLineTotals env client price credit
  let invoice : Invoice := { client, currency := (env.clients client).currency }
  { invoice := invoice.applyTotals totals (ratePercent rule)
    items := buildItems [⟨description, 1, price, price, true⟩] totals }

/-- An invoice that asks for the figures of the document, and nothing of which was paid. -/
structure AsksFor (env : Env) (client : ℕ) (price credit : ℤ) (invoice : Invoice) : Prop where
  figures : invoice.figures = (oneLineTotals env client price credit).figures
  rate : invoice.taxRate = ratePercent (taxRuleForClient env client)
  currency : invoice.currency = (env.clients client).currency
  paid : invoice.amountPaid = 0
  refunded : invoice.amountRefunded = 0

theorem ratePercent_le (rule : Option TaxRule) : ratePercent rule ≤ 100 := by
  cases rule with
  | none => exact Nat.ofNat_nonneg 100
  | some rule => exact rule.rate_valid.2

section

variable {env : Env} {client : ℕ} {description : String} {price credit : ℤ} {s : Billing.Store}
  {pk : ℕ}

/-- Every amount of the document fits. -/
theorem Fits.amounts (h : Fits env client price credit) (hle : credit ≤ price) :
    let totals := oneLineTotals env client price credit
    ∀ amount ∈ [price, totals.discountTotal, totals.taxTotal, totals.total, 0],
      0 ≤ amount ∧ amount ≤ maxAmount := by
  obtain ⟨hunit, htotal⟩ := h
  have hleft : 0 ≤ price - max 0 credit := sub_nonneg.mpr (max_le hunit.1 hle)
  have htax : 0 ≤ taxAmount (price - max 0 credit) (ratePercent (taxRuleForClient env client)) :=
    taxAmount_nonneg hleft (ratePercent_nonneg _)
  simp only [oneLineTotals, DocumentTotals.total, List.forall_mem_cons, List.not_mem_nil,
    false_implies, implies_true, and_true] at htotal ⊢
  generalize taxAmount _ _ = tax at *
  omega

/-- The line of the document is accepted. -/
theorem Fits.items_clean (h : Fits env client price credit) (hle : credit ≤ price)
    (hdescription : description ≠ "" ∧ description.toList.length ≤ 255) :
    fullCleanItems "InvoiceItem" (oneLineLedger env client description price credit).items
      = .ok () := by
  refine fullCleanItems_eq_ok.mpr fun item hitem => ?_
  cases List.mem_singleton.mp hitem
  have hfields : ∀ amount ∈ [price, price, (oneLineTotals env client price credit).discountTotal,
      (oneLineTotals env client price credit).taxTotal,
      (oneLineTotals env client price credit).total], 0 ≤ amount ∧ amount ≤ maxAmount := by
    intro amount hamount
    refine h.amounts hle amount ?_
    simp only [List.mem_cons, List.not_mem_nil, or_false] at hamount ⊢
    tauto
  unfold LineItem.invalidFields
  rw [if_pos hdescription, if_pos (le_refl 1)]
  exact invalidAmounts_eq_nil.mpr hfields

/-- The invoice is accepted under a number exactly when the number and the currency are. -/
theorem Fits.invoice_clean_iff (h : Fits env client price credit) (hle : credit ≤ price)
    {invoice : Invoice} {taken : List String} (hinvoice : AsksFor env client price credit invoice) :
    invoice.invalidFields taken = []
      ↔ (invoice.number.toList.length ≤ 30 ∧ (invoice.number = "" ∨ invoice.number ∉ taken))
        ∧ CurrencyFits env client := by
  obtain ⟨hfigures, hrate, hcurrency, hpaid, hrefunded⟩ := hinvoice
  obtain ⟨hsubtotal, hdiscount, htax, htotal⟩ := Figures.mk.inj hfigures
  have hamounts : ∀ amount ∈ [invoice.subtotal, invoice.discountTotal, invoice.taxTotal,
      invoice.total, invoice.amountPaid, invoice.amountRefunded],
      0 ≤ amount ∧ amount ≤ maxAmount := by
    rw [hsubtotal, hdiscount, htax, htotal, hpaid, hrefunded]
    intro amount hamount
    refine h.amounts hle amount ?_
    simp only [List.mem_cons, List.not_mem_nil, or_false] at hamount ⊢
    tauto
  rw [invoice_invalidFields_eq_nil, hrate, hcurrency]
  exact ⟨fun ⟨hnumber, hcur, _⟩ => ⟨hnumber, hcur⟩, fun ⟨hnumber, hcur⟩ => ⟨hnumber, hcur,
    ⟨ratePercent_nonneg _, ratePercent_le _⟩, hamounts⟩⟩

/-- **A draft of one line is saved** exactly when its amounts and the client's currency fit. -/
theorem createDraft_oneLine_iff {r : ℕ × Billing.Store} (hle : credit ≤ price)
    (hdescription : strip description ≠ "" ∧ (strip description).toList.length ≤ 255) :
    createDraftInvoice env client (oneLine description price (creditDiscount credit)) s = .ok r
      ↔ Fits env client price credit ∧ CurrencyFits env client
        ∧ r = (s.invoices.nextPk, { s with
            invoices := s.invoices.insert
              (oneLineLedger env client (strip description) price credit) }) := by
  have hcurrency : documentCurrency "" (env.clients client).currency
      = .ok (env.clients client).currency := by simp [documentCurrency]
  have hclean (hfits : Fits env client price credit) :
      (oneLineLedger env client (strip description) price credit).invoice.invalidFields
          (s.invoiceNumbers s.invoices.nextPk) = [] ↔ CurrencyFits env client := by
    rw [hfits.invoice_clean_iff hle ⟨rfl, rfl, rfl, rfl, rfl⟩]
    exact and_iff_right ⟨Nat.zero_le 30, .inl rfl⟩
  constructor
  · intro h
    simp only [createDraftInvoice, saveInvoice, bind_eq_ok, cleanLines_oneLine_iff, Prod.exists,
      fullClean_eq_ok, pure_eq_ok] at h
    obtain ⟨_, ⟨_, hunit, rfl⟩, totals, rule, hcompute, c, hc, _, hinvoice, _, _, rfl⟩ := h
    obtain ⟨heq, htotal⟩ := (computeDocument_oneLine_iff hunit.1 hle).mp hcompute
    cases heq
    cases hcurrency.symm.trans hc
    exact ⟨⟨hunit, htotal⟩, (hclean ⟨hunit, htotal⟩).mp hinvoice, rfl⟩
  · rintro ⟨hfits, hcur, rfl⟩
    unfold createDraftInvoice
    rw [cleanLines_oneLine_iff.mpr ⟨hdescription, hfits.unit, rfl⟩, ok_bind]
    show (computeDocument _ _ _ (creditDiscount credit) >>= _) = _
    rw [(computeDocument_oneLine_iff hfits.unit.1 hle).mpr ⟨rfl, hfits.total⟩, ok_bind]
    show (documentCurrency "" _ >>= _) = _
    rw [hcurrency, ok_bind]
    show (fullClean _ ((oneLineLedger env client (strip description) price
      credit).invoice.invalidFields _) >>= _) = _
    rw [fullClean_bind ((hclean hfits).mpr hcur)]
    show (fullCleanItems _ (oneLineLedger env client (strip description) price credit).items
      >>= _) = _
    rw [hfits.items_clean hle hdescription, ok_bind]
    rfl

/-- Working the totals out again changes nothing. -/
theorem issueDraft_oneLine (hle : credit ≤ price) (hfits : Fits env client price credit)
    (hdescription : description ≠ "" ∧ description.toList.length ≤ 255)
    (hl : s.invoices.get? pk = some (oneLineLedger env client description price credit)) :
    issueDraftInvoice env pk s
      = issue env pk (oneLineLedger env client description price credit) s := by
  have hdiscount : min (max 0 credit) ([price] : List ℤ).sum = max 0 credit := by
    rw [List.sum_singleton]
    exact min_eq_left (max_le hfits.unit.1 hle)
  unfold issueDraftInvoice
  rw [lockInvoice_eq_ok.mpr hl, ok_bind]
  show (liftCalc (compute [dec price] [true] (dec (min (max 0 credit) ([price] : List ℤ).sum)) _)
    >>= _) = _
  rw [hdiscount, liftCalc_eq_ok.mpr (compute_one hfits.unit.1 hle), ok_bind]
  show (fullCleanItems _ (oneLineLedger env client description price credit).items >>= _) = _
  rw [hfits.items_clean hle hdescription, ok_bind]
  rfl

/-- Nobody refuses to hear that an invoice without an order is paid. -/
theorem dispatch_paid {w : World} {panel : Panel} {l : Ledger} {signals : List Signal}
    (hl : panel.billing.invoices.get? pk = some l) (horder : l.invoice.order = none)
    (hsignals : signals = [] ∨ signals = [.invoicePaid pk]) :
    ∃ r, dispatch w signals panel = .ok r := by
  rcases hsignals with rfl | rfl
  · exact ⟨_, rfl⟩
  · simp only [dispatch, receive, markOrderPaid, lockInvoice_eq_ok.mpr hl, horder, ok_bind]
    exact ⟨_, rfl⟩

/-- **A draft of one line is opened** exactly when the next number is free; whoever hears of it
    has nothing to refuse, for no order hangs on it. -/
theorem bill_oneLine_iff {w : World} {panel : Panel} (hle : credit ≤ price)
    (hfits : Fits w.env client price credit) (hcur : CurrencyFits w.env client)
    (hdescription : description ≠ "" ∧ description.toList.length ≤ 255)
    (hbilling : panel.billing = { s with
      invoices := s.invoices.insert (oneLineLedger w.env client description price credit) }) :
    (∃ r, bill w (issueDraftInvoice w.env s.invoices.nextPk) panel = .ok r)
      ↔ NextNumberFree w.env s := by
  have hl : panel.billing.invoices.get? s.invoices.nextPk
      = some (oneLineLedger w.env client description price credit) := by
    rw [hbilling]
    exact Table.get?_insert_self _ _
  have hothers : panel.billing.invoiceNumbers s.invoices.nextPk
      = s.invoiceNumbers s.invoices.nextPk := by
    rw [hbilling]
    simp [Store.invoiceNumbers]
  have hsequence : panel.billing.invoiceSequence = s.invoiceSequence := by rw [hbilling]
  have hissued : ∀ invoice : Invoice,
      invoice.number = numberAfter w.env.settings.invoicePrefix panel.billing.invoiceSequence →
      AsksFor w.env client price credit invoice →
      (invoice.invalidFields (panel.billing.invoiceNumbers s.invoices.nextPk) = []
        ↔ NextNumberFree w.env s) := by
    intro invoice hnumber hasks
    rw [hfits.invoice_clean_iff hle hasks, hnumber, hothers, hsequence, and_iff_left hcur]
    exact and_congr_right fun _ => or_iff_right (numberAfter_ne_empty _ _)
  unfold bill
  rw [issueDraft_oneLine hle hfits hdescription hl]
  constructor
  · rintro ⟨r, h⟩
    simp only [issue, bind_eq_ok, fullClean_eq_ok, Prod.exists] at h
    obtain ⟨_, _, ⟨_, hclean, _⟩, _⟩ := h
    refine (hissued _ ?_ ?_).mp hclean
    · rfl
    · exact ⟨rfl, rfl, rfl, rfl, rfl⟩
  · intro hfree
    unfold issue
    rw [fullClean_bind]
    · simp only [pure_bind]
      refine dispatch_paid (Table.get?_put_self hl _) rfl ?_
      split
      · exact .inr rfl
      · exact .inl rfl
    · refine (hissued _ ?_ ?_).mpr hfree
      · rfl
      · exact ⟨rfl, rfl, rfl, rfl, rfl⟩

end

/-- Everything billing asks of an invoice of one line, some of whose price a credit covers. -/
structure Billable (env : Env) (client : ℕ) (price credit : ℤ) (s : Billing.Store) : Prop extends
    Fits env client price credit where
  currency : CurrencyFits env client
  number : NextNumberFree env s

/-- **A change is invoiced** exactly when billing accepts the invoice and its months fit. -/
theorem invoiceChange_oneLine_iff {w : World} {panel : Panel} {client : ℕ} {description : String}
    {price credit : ℤ} {change : ℕ → ServiceChange} (hle : credit ≤ price)
    (hdescription : strip description ≠ "" ∧ (strip description).toList.length ≤ 255)
    (hvalue : ∀ q, (change q).paidValue = price) :
    (∃ r, invoiceChange w client (oneLine description price (creditDiscount credit)) change panel
        = .ok r)
      ↔ Billable w.env client price credit panel.billing
        ∧ (change panel.billing.invoices.nextPk).periodMonths ≤ 32767 := by
  have hsaved : (0 ≤ price ∧ price ≤ maxAmount) →
      ((change panel.billing.invoices.nextPk).invalidFields = []
        ↔ (change panel.billing.invoices.nextPk).periodMonths ≤ 32767) := by
    intro hunit
    have habs : |price| ≤ maxAmount := by
      rw [abs_of_nonneg hunit.1]
      exact hunit.2
    simp [ServiceChange.invalidFields, hvalue, habs]
  constructor
  · rintro ⟨r, h⟩
    simp only [invoiceChange, saveChange, bind_eq_ok, createDraft_oneLine_iff hle hdescription,
      fullClean_eq_ok, pure_eq_ok, Prod.exists] at h
    obtain ⟨_, _, ⟨hfits, hcur, heq⟩, _, _, ⟨_, hchange, _⟩, hbill⟩ := h
    cases heq
    exact ⟨⟨hfits, hcur, (bill_oneLine_iff hle hfits hcur hdescription rfl).mp ⟨r, hbill⟩⟩,
      (hsaved hfits.unit).mp hchange⟩
  · rintro ⟨⟨hfits, hcur, hnumber⟩, hmonths⟩
    unfold invoiceChange saveChange
    rw [(createDraft_oneLine_iff hle hdescription).mpr ⟨hfits, hcur, rfl⟩, ok_bind]
    dsimp only
    rw [fullClean_bind ((hsaved hfits.unit).mpr hmonths)]
    exact (bill_oneLine_iff hle hfits hcur hdescription rfl).mpr hnumber

end WPanel.Site
