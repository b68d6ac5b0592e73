import WPanel.Billing.Allocation
import WPanel.Billing.PaymentMoves
import WPanel.Billing.Quotes

namespace WPanel.Billing

open WPanel.Lib

/-!
# What the invoicing services do to the invoices

First, a document built by `Documents` agrees with its lines: `linesAgree_buildItems`.  Then
one lemma for each function of `Invoicing` and `Quotes`: when it returns, the invoices have
made `Moves`, and the quotes still have lines whose price times quantity is their amount
(`Priced`), which is what the invoice of an accepted quote relies on.

Cancelling is described exactly (`cancelInvoiceInternal_cases`), since it also accepts
drafts.
-/

/-! ### Documents agree with their lines -/

/-- The figures of computed totals. -/
def DocumentTotals.figures (t : DocumentTotals) : Figures :=
  ⟨t.subtotal, t.discountTotal, t.taxTotal, t.total⟩

/-- A price in whole cents, taken once, is its own amount. -/
theorem money_once (cents : ℤ) : money (dec cents * ((1 : ℕ) : ℚ)) = cents := by
  rw [Nat.cast_one, mul_one, money_dec]

/-- The price times the quantity of a line is its amount. -/
def Priced (unitPrice : ℤ) (quantity : ℕ) (amount : ℤ) : Prop :=
  money (dec unitPrice * quantity) = amount

theorem zip_lines {lines : List Line} {results : List LineResult}
    (h : results.map LineResult.amount = lines.map (·.amount)) :
    results.length = lines.length ∧ ∀ p ∈ lines.zip results, p.2.amount = p.1.amount := by
  have hlen : results.length = lines.length := by simpa using congrArg List.length h
  refine ⟨hlen, fun p hp => ?_⟩
  obtain ⟨i, hi, rfl⟩ := List.getElem_of_mem hp
  simp only [List.length_zip] at hi
  have hget := congrArg (fun l : List ℤ => l[i]?) h
  simp only [List.getElem?_map, List.getElem?_eq_getElem (show i < results.length by omega),
    List.getElem?_eq_getElem (show i < lines.length by omega), Option.map_some,
    Option.some.injEq] at hget
  simpa using hget

/-- The stored lines of a document, summed along one of their amounts. -/
private theorem sum_zip_snd {α : Type} {lines : List α} {results : List LineResult}
    (hlen : results.length = lines.length) (f : LineResult → ℤ) :
    ((lines.zip results).map fun p => f p.2).sum = (results.map f).sum := by
  have : (lines.zip results).map (fun p => f p.2) = ((lines.zip results).map Prod.snd).map f := by
    simp [List.map_map, Function.comp_def]
  rw [this, List.map_snd_zip (by omega)]

/-- **Built documents agree with their lines.** -/
theorem linesAgree_buildItems {lines : List Line} {totals : DocumentTotals} (hsums : totals.Sums)
    (hamounts : totals.lines.map LineResult.amount = lines.map (·.amount))
    (hpriced : ∀ line ∈ lines, Priced line.unitPrice line.quantity line.amount) :
    LinesAgree totals.figures (buildItems lines totals) := by
  obtain ⟨hlen, hzip⟩ := zip_lines hamounts
  refine ⟨?_, ?_, ?_, ?_, rfl, ?_, ?_⟩
  · rw [buildItems, List.map_map]
    exact (sum_zip_snd hlen _).trans hsums.subtotal
  · rw [buildItems, List.map_map]
    exact (sum_zip_snd hlen _).trans hsums.discountTotal
  · rw [buildItems, List.map_map]
    exact (sum_zip_snd hlen _).trans hsums.taxTotal
  · rw [buildItems, List.map_map]
    exact (sum_zip_snd hlen _).trans hsums.total
  · intro item hitem
    obtain ⟨p, hp, rfl⟩ := List.mem_map.mp hitem
    show money (dec p.1.unitPrice * p.1.quantity) = p.2.amount
    rw [hzip p hp]
    exact hpriced p.1 (List.of_mem_zip hp).1
  · intro item hitem
    obtain ⟨p, _, rfl⟩ := List.mem_map.mp hitem
    rfl

/-- The lines of a built document keep their prices. -/
theorem priced_buildItems {lines : List Line} {totals : DocumentTotals}
    (hamounts : totals.lines.map LineResult.amount = lines.map (·.amount))
    (hpriced : ∀ line ∈ lines, Priced line.unitPrice line.quantity line.amount) :
    ∀ item ∈ buildItems lines totals, Priced item.unitPrice item.quantity item.amount := by
  intro item hitem
  obtain ⟨p, hp, rfl⟩ := List.mem_map.mp hitem
  show Priced p.1.unitPrice p.1.quantity p.2.amount
  rw [(zip_lines hamounts).2 p hp]
  exact hpriced p.1 (List.of_mem_zip hp).1

/-- A cleaned line is priced. -/
theorem cleanLine_priced {raw : RawLine} {position : ℕ} {line : Line}
    (h : cleanLine raw position = .ok line) : Priced line.unitPrice line.quantity line.amount := by
  unfold cleanLine at h
  simp only [bind_eq_ok, ensure_eq_ok, exists_and_left, exists_const, pure_eq_ok] at h
  obtain ⟨_, _, quantity, _, _, unitPrice, _, _, _, rfl⟩ := h
  rfl

theorem cleanLines_priced {raws : List RawLine} {lines : List Line}
    (h : cleanLines raws = .ok lines) :
    ∀ line ∈ lines, Priced line.unitPrice line.quantity line.amount := by
  unfold cleanLines at h
  simp only [bind_eq_ok, ensure_eq_ok, exists_and_left, exists_const] at h
  intro line hline
  obtain ⟨⟨raw, position⟩, _, hclean⟩ := mapM_eq_ok h.2.2 line hline
  exact cleanLine_priced hclean

/-- The totals of a manually built document add up and keep the amounts of its lines. -/
theorem computeDocument_sums {env : Env} {client : ℕ} {lines : List Line} {raw : RawDiscount}
    {totals : DocumentTotals} {rule : Option TaxRule}
    (h : computeDocument env client lines raw = .ok (totals, rule)) :
    totals.Sums ∧ totals.lines.map LineResult.amount = lines.map (·.amount) := by
  unfold computeDocument at h
  simp only [bind_eq_ok, liftCalc_eq_ok, ensure_eq_ok, exists_and_left, exists_const, pure_eq_ok,
    Prod.mk.injEq] at h
  obtain ⟨_, _, totals', hcompute, _, rfl, _⟩ := h
  obtain ⟨hsums, hamounts, _⟩ := compute_sums (by simp) hcompute
  refine ⟨hsums, ?_⟩
  rw [hamounts, List.map_map]
  exact List.map_congr_left fun line _ => money_dec line.amount

/-! ### What `full_clean` accepts -/

theorem fullClean_eq_ok {model : String} {fields : List String} {u : Unit} :
    fullClean model fields = .ok u ↔ fields = [] := ensure_eq_ok

theorem fullClean_bind {α : Type} {model : String} {fields : List String}
    {f : Unit → Except Err α} (h : fields = []) : (fullClean model fields >>= f) = f () := by
  rw [(fullClean_eq_ok (u := ())).mpr h, ok_bind]

theorem fullCleanItems_eq_ok {model : String} {items : List LineItem} {u : Unit} :
    fullCleanItems model items = .ok u ↔ ∀ item ∈ items, item.invalidFields = [] := by
  induction items with
  | nil => simp [fullCleanItems]
  | cons item items ih => simp [fullCleanItems, bind_eq_ok, fullClean_eq_ok, ih]

/-- An amount is accepted that is not negative and fits its column. -/
theorem invalidAmounts_eq_nil {fields : List (String × ℤ)} :
    invalidAmounts fields = []
      ↔ ∀ amount ∈ fields.map Prod.snd, 0 ≤ amount ∧ amount ≤ maxAmount := by
  unfold invalidAmounts
  rw [List.map_eq_nil_iff, List.filter_eq_nil_iff, List.forall_mem_map]
  simp only [decide_eq_true_eq, not_or, not_lt]

/-- What `full_clean` accepts of an invoice. -/
theorem invoice_invalidFields_eq_nil {invoice : Invoice} {taken : List String} :
    invoice.invalidFields taken = []
      ↔ (invoice.number.toList.length ≤ 30 ∧ (invoice.number = "" ∨ invoice.number ∉ taken))
        ∧ (invoice.currency ≠ "" ∧ invoice.currency.toList.length ≤ 3)
        ∧ (0 ≤ invoice.taxRate ∧ invoice.taxRate ≤ 100)
        ∧ ∀ amount ∈ [invoice.subtotal, invoice.discountTotal, invoice.taxTotal, invoice.total,
          invoice.amountPaid, invoice.amountRefunded], 0 ≤ amount ∧ amount ≤ maxAmount := by
  unfold Invoice.invalidFields
  simp only [List.append_eq_nil_iff, ite_eq_left_iff, List.cons_ne_nil, imp_false, not_not,
    invalidAmounts_eq_nil, List.map_cons, List.map_nil, and_assoc]

/-- An accepted invoice has a discount, a total and a tax that are not negative. -/
theorem nonneg_of_invoice_clean {invoice : Invoice} {taken : List String}
    (h : invoice.invalidFields taken = []) :
    0 ≤ invoice.discountTotal ∧ 0 ≤ invoice.total ∧ 0 ≤ invoice.taxTotal := by
  obtain ⟨_, _, _, hamounts⟩ := invoice_invalidFields_eq_nil.mp h
  exact ⟨(hamounts _ (by simp)).1, (hamounts _ (by simp)).1, (hamounts _ (by simp)).1⟩

/-! ### Saving, issuing and editing -/

section

variable {env : Env} {actor : Actor} {pk client : ℕ} {s s' : Store} {out : List Signal}

/-- Saving a draft inserts a born invoice. -/
theorem saveInvoice_eq_ok {invoice : Invoice} {items : List LineItem}
    (h : saveInvoice s invoice items = .ok (pk, s')) :
    pk = s.invoices.nextPk ∧ s' = { s with invoices := s.invoices.insert { invoice, items } }
      ∧ 0 ≤ invoice.total ∧ 0 ≤ invoice.taxTotal := by
  unfold saveInvoice at h
  simp only [bind_eq_ok, fullClean_eq_ok, exists_and_left, exists_const, pure_eq_ok,
    Prod.mk.injEq] at h
  obtain ⟨hclean, _, _, rfl, rfl⟩ := h
  exact ⟨rfl, rfl, (nonneg_of_invoice_clean hclean).2⟩

/-- A new draft with these totals is born. -/
theorem born_of_totals {lines : List Line} {totals : DocumentTotals} (hsums : totals.Sums)
    (hamounts : totals.lines.map LineResult.amount = lines.map (·.amount))
    (hpriced : ∀ line ∈ lines, Priced line.unitPrice line.quantity line.amount)
    {invoice : Invoice} (hstatus : invoice.status = .draft) (hnumber : invoice.number = "")
    (hpaid : invoice.amountPaid = 0) (hrefunded : invoice.amountRefunded = 0) {rate : Decimal}
    (htotal : 0 ≤ (invoice.applyTotals totals rate).total)
    (htax : 0 ≤ (invoice.applyTotals totals rate).taxTotal) :
    Born { invoice := invoice.applyTotals totals rate, items := buildItems lines totals } :=
  ⟨hstatus, hnumber, rfl, hpaid, hrefunded, linesAgree_buildItems hsums hamounts hpriced,
    htotal, htax⟩

/-- A new draft has the cleaned lines, and belongs to no order. -/
theorem createDraftInvoice_step {draft : Draft}
    (h : createDraftInvoice env client draft s = .ok (pk, s')) :
    ∃ l lines, pk = s.invoices.nextPk ∧ s'.invoices = s.invoices.insert l ∧ s'.quotes = s.quotes
      ∧ Born l ∧ l.invoice.order = none ∧ cleanLines draft.lines = .ok lines
      ∧ (l.items.map (·.amount)).sum = (lines.map (·.amount)).sum := by
  unfold createDraftInvoice at h
  simp only [bind_eq_ok, Prod.exists] at h
  obtain ⟨lines, hlines, totals, rule, hcompute, currency, _, hsave⟩ := h
  obtain ⟨rfl, rfl, htotal, htax⟩ := saveInvoice_eq_ok hsave
  obtain ⟨hsums, hamounts⟩ := computeDocument_sums hcompute
  have hborn :=
    born_of_totals hsums hamounts (cleanLines_priced hlines) rfl rfl rfl rfl htotal htax
  refine ⟨_, lines, rfl, rfl, rfl, hborn, rfl, hlines, ?_⟩
  rw [hborn.lines.subtotal, ← hamounts]
  exact hsums.subtotal.symm

theorem createInvoice_moves {draft : Draft}
    (h : createInvoice env actor client draft s = .ok (pk, s')) : Leaves Plain s s' [] := by
  unfold createInvoice createDraftInvoice at h
  simp only [bind_eq_ok, requirePerm_eq_ok, exists_and_left, exists_const, Prod.exists] at h
  obtain ⟨_, lines, hlines, totals, rule, hcompute, currency, _, hsave⟩ := h
  obtain ⟨rfl, rfl, htotal, htax⟩ := saveInvoice_eq_ok hsave
  obtain ⟨hsums, hamounts⟩ := computeDocument_sums hcompute
  have hborn :=
    born_of_totals hsums hamounts (cleanLines_priced hlines) rfl rfl rfl rfl htotal htax
  exact ⟨.create hborn ⟨⟨⟨by decide, fun h => (by cases h), fun _ => rfl⟩, by decide⟩, by decide⟩,
    rfl, rfl⟩

theorem requireDraft_eq_ok {invoice : Invoice} {u : Unit} :
    requireDraft invoice = .ok u ↔ invoice.status = .draft := ensure_eq_ok

theorem updateInvoice_moves {draft : Draft}
    (h : updateInvoice env actor pk draft s = .ok s') : Leaves Plain s s' [] := by
  unfold updateInvoice at h
  simp only [bind_eq_ok, requirePerm_eq_ok, lockInvoice_eq_ok, requireDraft_eq_ok, Prod.exists,
    fullClean_eq_ok, exists_and_left, exists_const, pure_eq_ok] at h
  obtain ⟨_, l, hl, hdraft, lines, hlines, totals, rule, hcompute, currency, _, hclean, _, _,
    rfl⟩ := h
  obtain ⟨hsums, hamounts⟩ := computeDocument_sums hcompute
  exact .of_step hl (.edit hdraft (linesAgree_buildItems hsums hamounts (cleanLines_priced hlines))
    (nonneg_of_invoice_clean hclean).2.1 (nonneg_of_invoice_clean hclean).2.2) (by decide)

theorem deleteDraftInvoice_moves (h : deleteDraftInvoice actor pk s = .ok s') :
    Leaves Plain s s' [] := by
  unfold deleteDraftInvoice at h
  simp only [bind_eq_ok, requirePerm_eq_ok, lockInvoice_eq_ok, requireDraft_eq_ok, ensure_eq_ok,
    exists_and_left, exists_const, pure_eq_ok] at h
  obtain ⟨_, l, hl, hdraft, _, rfl⟩ := h
  exact ⟨.delete hl hdraft, rfl, rfl⟩

theorem numberAfter_ne_empty (pre : String) (last : ℕ) : numberAfter pre last ≠ "" := by
  intro h
  have hlen := le_length_zeroPad 6 (last + 1)
  have hnil : (numberAfter pre last).toList = [] := by rw [h]; rfl
  rw [numberAfter, String.toList_append, List.append_eq_nil_iff] at hnil
  rw [hnil.2] at hlen
  simp at hlen

/-- Issuing a draft whose stored figures were just written. -/
theorem issue_step {l : Ledger} {doc : Figures} {currency : String} {rate : Decimal}
    {items : List LineItem} (hdraft : l.invoice.status = .draft) (hlines : LinesAgree doc items)
    (h : issue env pk { l with invoice := l.invoice.withFigures doc currency rate, items } s
      = .ok (s', out)) :
    ∃ l', Step pk .issue l l' out ∧ l'.invoice.figures = doc ∧ 0 ≤ l'.invoice.discountTotal
      ∧ s'.invoices = s.invoices.put pk l' ∧ s'.quotes = s.quotes := by
  unfold issue at h
  simp only [bind_eq_ok, fullClean_eq_ok, exists_and_left, exists_const, pure_eq_ok,
    Prod.mk.injEq] at h
  obtain ⟨hclean, rfl, rfl⟩ := h
  obtain ⟨hdiscount, htotal, htax⟩ := nonneg_of_invoice_clean hclean
  exact ⟨_, .issue hdraft hlines htotal (numberAfter_ne_empty _ _) htax, rfl, hdiscount, rfl, rfl⟩

/-- Sharing new totals out over stored lines builds the document of those lines again. -/
theorem restate_items {items : List LineItem} {totals : DocumentTotals}
    (hamounts : totals.lines.map LineResult.amount = (items.map LineItem.line).map (·.amount)) :
    ((items.zip totals.lines).map fun (item, result) => { item with
      discountAmount := result.discount, taxAmount := result.tax, total := result.total })
      = buildItems (items.map LineItem.line) totals := by
  rw [buildItems, List.zip_map_left, List.map_map]
  refine List.map_congr_left fun p hp => ?_
  have hmem : (p.1.line, p.2) ∈ (items.map LineItem.line).zip totals.lines := by
    rw [List.zip_map_left]
    exact List.mem_map_of_mem hp
  have hamount : p.2.amount = p.1.amount := (zip_lines hamounts).2 _ hmem
  simp only [Function.comp_apply, Prod.map, LineItem.line, id, hamount]

/-- Issuing a draft: its subtotal is again the sum of its lines. -/
theorem issueDraftInvoice_step
    (hsound : s.invoices.Forall fun _ l => LinesAgree l.invoice.figures l.items)
    (h : issueDraftInvoice env pk s = .ok (s', out)) :
    ∃ l l', s.invoices.get? pk = some l ∧ Step pk .issue l l' out
      ∧ s'.invoices = s.invoices.put pk l' ∧ s'.quotes = s.quotes
      ∧ l'.invoice.subtotal = (l.items.map (·.amount)).sum ∧ 0 ≤ l'.invoice.discountTotal := by
  unfold issueDraftInvoice at h
  simp only [bind_eq_ok, lockInvoice_eq_ok, requireDraft_eq_ok, ensure_eq_ok, liftCalc_eq_ok,
    exists_and_left, exists_const] at h
  obtain ⟨l, hl, hdraft, _, totals, hcompute, _, _, hissue⟩ := h
  obtain ⟨hsums, hamounts, hsubtotal, _⟩ := compute_sums (by simp) hcompute
  have hamounts' : totals.lines.map LineResult.amount
      = (l.items.map LineItem.line).map (·.amount) := by
    rw [hamounts, List.map_map, List.map_map]
    exact List.map_congr_left fun item _ => money_dec item.amount
  have hpriced : ∀ line ∈ l.items.map LineItem.line,
      Priced line.unitPrice line.quantity line.amount := by
    intro line hline
    obtain ⟨item, hitem, rfl⟩ := List.mem_map.mp hline
    exact (hsound pk l hl).amount item hitem
  rw [restate_items hamounts'] at hissue
  obtain ⟨l', hstep, hfigures, hdiscount, hinvoices, hquotes⟩ :=
    issue_step hdraft (linesAgree_buildItems hsums hamounts' hpriced) hissue
  refine ⟨l, l', hl, hstep, hinvoices, hquotes, ?_, hdiscount⟩
  calc l'.invoice.subtotal
      = totals.subtotal := congrArg Figures.subtotal hfigures
    _ = (l.items.map (·.amount)).sum := by
      rw [hsubtotal, List.map_map]
      exact congrArg List.sum (List.map_congr_left fun item _ => money_dec item.amount)

theorem issueDraftInvoice_moves
    (hsound : s.invoices.Forall fun _ l => LinesAgree l.invoice.figures l.items)
    (h : issueDraftInvoice env pk s = .ok (s', out)) :
    Moves Moneyless s.invoices s'.invoices out ∧ s'.quotes = s.quotes := by
  obtain ⟨l, l', hl, hstep, hinvoices, hquotes, _⟩ := issueDraftInvoice_step hsound h
  rw [hinvoices]
  exact ⟨.step hl hstep (moneyless (by decide)), hquotes⟩

theorem issueInvoice_moves
    (hsound : s.invoices.Forall fun _ l => LinesAgree l.invoice.figures l.items)
    (h : issueInvoice env actor pk s = .ok (s', out)) :
    Moves Moneyless s.invoices s'.invoices out ∧ s'.quotes = s.quotes := by
  unfold issueInvoice at h
  simp only [bind_eq_ok, requirePerm_eq_ok, exists_and_left, exists_const] at h
  exact issueDraftInvoice_moves hsound h.2

/-- A document saved and issued in one go: a born invoice `l` and the step that opens it. -/
structure SavedAndIssued (s s' : Store) (pk : ℕ) (l l' : Ledger) (out : List Signal) : Prop where
  key : pk = s.invoices.nextPk
  born : Born l
  step : Step pk .issue l l' out
  invoices : s'.invoices = (s.invoices.insert l).put pk l'
  quotes : s'.quotes = s.quotes

theorem SavedAndIssued.moves {l l' : Ledger} {may : Policy} (h : SavedAndIssued s s' pk l l' out)
    (hcreate : may pk .create l) (hissue : may pk .issue l) :
    Moves may s.invoices s'.invoices out := by
  obtain ⟨rfl, hborn, hstep, hinvoices, _⟩ := h
  rw [hinvoices]
  exact (Moves.create hborn hcreate).after (.step (Table.get?_insert_self _ _) hstep hissue)

theorem saveAndIssue_steps {lines : List Line} {totals : DocumentTotals} {invoice : Invoice}
    {rate : Decimal} {s₁ : Store} (hsums : totals.Sums)
    (hamounts : totals.lines.map LineResult.amount = lines.map (·.amount))
    (hpriced : ∀ line ∈ lines, Priced line.unitPrice line.quantity line.amount)
    (hstatus : invoice.status = .draft) (hnumber : invoice.number = "")
    (hpaid : invoice.amountPaid = 0) (hrefunded : invoice.amountRefunded = 0)
    (hsave : saveInvoice s (invoice.applyTotals totals rate) (buildItems lines totals)
      = .ok (pk, s₁))
    (hissue : issue env pk
      { invoice := invoice.applyTotals totals rate, items := buildItems lines totals } s₁
        = .ok (s', out)) :
    ∃ l l', SavedAndIssued s s' pk l l' out ∧ l.invoice.order = invoice.order
      ∧ l'.invoice.figures = totals.figures := by
  obtain ⟨rfl, rfl, htotal, htax⟩ := saveInvoice_eq_ok hsave
  have hlines := linesAgree_buildItems hsums hamounts hpriced
  have hborn := born_of_totals hsums hamounts hpriced hstatus hnumber hpaid hrefunded htotal htax
  obtain ⟨l', hstep, hfigures, _, hinvoices, hquotes⟩ := issue_step hborn.status hlines hissue
  exact ⟨_, l', ⟨rfl, hborn, hstep, hinvoices, hquotes⟩, rfl, hfigures⟩

/-! ### Cancelling -/

/-- Cancelling does nothing to a cancelled invoice, and cancels a draft or unpaid one. -/
theorem cancelInvoiceInternal_cases {reason : String}
    (h : cancelInvoiceInternal pk reason s = .ok (s', out)) :
    ∃ l, s.invoices.get? pk = some l ∧ s'.quotes = s.quotes
      ∧ s'.invoiceSequence = s.invoiceSequence
      ∧ ((l.invoice.status = .cancelled ∧ s' = s ∧ out = []) ∨
        ∃ l', Step pk .cancel l l' out ∧ s'.invoices = s.invoices.put pk l') := by
  unfold cancelInvoiceInternal at h
  simp only [bind_eq_ok, lockInvoice_eq_ok] at h
  obtain ⟨l, hl, h⟩ := h
  refine ⟨l, hl, ?_⟩
  split at h
  · rename_i hcancelled
    simp only [pure_eq_ok, Prod.mk.injEq] at h
    obtain ⟨rfl, rfl⟩ := h
    exact ⟨rfl, rfl, .inl ⟨hcancelled, rfl, rfl⟩⟩
  · simp only [bind_eq_ok, ensure_eq_ok, exists_and_left, exists_const, pure_eq_ok,
      Prod.mk.injEq] at h
    obtain ⟨hstatus, ⟨hpaid, hnone⟩, rfl, rfl⟩ := h
    exact ⟨rfl, rfl, .inr ⟨_, .cancel hstatus hpaid hnone, rfl⟩⟩

/-- Cancelling under a policy that allows it. -/
theorem cancelInvoiceInternal_moves {may : Policy} {reason : String}
    (hmay : ∀ l, s.invoices.get? pk = some l → may pk .cancel l)
    (h : cancelInvoiceInternal pk reason s = .ok (s', out)) : Leaves may s s' out := by
  obtain ⟨l, hl, hquotes, hsequence, ⟨_, rfl, rfl⟩ | ⟨l', hstep, hinvoices⟩⟩ :=
    cancelInvoiceInternal_cases h
  · exact ⟨.refl _, rfl, rfl⟩
  · exact ⟨hinvoices ▸ .step hl hstep (hmay l hl), hquotes, hsequence⟩

theorem cancelInvoice_eq_ok {reason : String} :
    cancelInvoice actor pk reason s = .ok (s', out) ↔
      actor.hasPerm .manageBilling = true ∧ cancelInvoiceInternal pk reason s = .ok (s', out) := by
  unfold cancelInvoice
  simp only [bind_eq_ok, requirePerm_eq_ok, exists_and_left, exists_const]

/-! ### Orders, billable items and quotes -/

theorem orderTotals_eq_ok {order : OrderFigures} {totals : DocumentTotals} :
    orderTotals order = .ok totals ↔
      distribute (order.lines.map fun line => dec line.amount) (order.lines.map (·.taxable))
          (dec order.discountTotal) (dec order.taxTotal) = .ok totals
        ∧ totals.subtotal = order.subtotal ∧ totals.total = order.total := by
  unfold orderTotals
  simp only [bind_eq_ok, mapError_eq_ok, ensure_eq_ok, exists_and_left, exists_const, pure_eq_ok]
  constructor
  · rintro ⟨totals', h, hsum, rfl⟩
    exact ⟨h, hsum⟩
  · rintro ⟨h, hsum⟩
    exact ⟨totals, h, hsum, rfl⟩

theorem OrderFigures.lines_priced (order : OrderFigures) :
    ∀ line ∈ order.lines, Priced line.unitPrice line.quantity line.amount := by
  intro line hline
  obtain ⟨charge, _, hmem⟩ := List.mem_flatMap.mp hline
  unfold OrderCharge.lines at hmem
  rcases List.mem_cons.mp hmem with rfl | hmem
  · exact money_once _
  · split at hmem
    · cases hmem
    · rw [List.mem_singleton.mp hmem]
      exact money_once _

/-- The amounts of cleaned or stored lines survive the distribution of totals over them. -/
theorem distribute_amounts {lines : List Line} {discountTotal taxTotal : ℤ}
    {totals : DocumentTotals}
    (h : distribute (lines.map fun line => dec line.amount) (lines.map (·.taxable))
      (dec discountTotal) (dec taxTotal) = .ok totals) :
    totals.Sums ∧ totals.lines.map LineResult.amount = lines.map (·.amount) := by
  obtain ⟨hsums, hamounts, _⟩ := distribute_sums (by simp) h
  refine ⟨hsums, ?_⟩
  rw [hamounts, List.map_map]
  exact List.map_congr_left fun line _ => money_dec line.amount

/-- The invoice for an order points at the order, asks for the order's figures, and is opened
    at once. -/
theorem createInvoiceForOrder_steps {order : OrderFigures}
    (h : createInvoiceForOrder env order s = .ok (pk, s', out)) :
    ∃ totals l l', orderTotals order = .ok totals ∧ SavedAndIssued s s' pk l l' out
      ∧ l.invoice.order = some order.pk ∧ l'.invoice.figures = totals.figures := by
  unfold createInvoiceForOrder at h
  simp only [bind_eq_ok, Prod.exists, pure_eq_ok, Prod.mk.injEq] at h
  obtain ⟨totals, htotals, pk', s₁, hsave, s₂, out', hissue, rfl, rfl, rfl⟩ := h
  obtain ⟨hsums, hamounts⟩ := distribute_amounts (orderTotals_eq_ok.mp htotals).1
  obtain ⟨l, l', hsaved, horder, hfigures⟩ :=
    saveAndIssue_steps hsums hamounts order.lines_priced rfl rfl rfl rfl hsave hissue
  exact ⟨totals, l, l', htotals, hsaved, horder, hfigures⟩

/-- The quotes of the store have priced lines. -/
def QuotesPriced (s : Store) : Prop :=
  s.quotes.Forall fun _ quote =>
    ∀ item ∈ quote.items, Priced item.unitPrice item.quantity item.amount

theorem lockQuote_eq_ok {quote : Quote} :
    lockQuote s pk = .ok quote ↔ s.quotes.get? pk = some quote := by
  unfold lockQuote
  cases s.quotes.get? pk <;> simp

theorem acceptQuote_moves {quotePk : ℕ} (hpriced : QuotesPriced s)
    (h : acceptQuote env actor quotePk s = .ok (pk, s', out)) :
    Moves Moneyless s.invoices s'.invoices out ∧ QuotesPriced s' := by
  unfold acceptQuote lockQuoteForDecision at h
  simp only [bind_eq_ok, lockQuote_eq_ok, requireClientAccess_eq_ok, ensure_eq_ok, liftCalc_eq_ok,
    exists_and_left, exists_const, pure_eq_ok, Prod.exists, Prod.mk.injEq] at h
  obtain ⟨_, ⟨quote, hquote, _, _, _, rfl⟩, totals, hdist, pk', s₁, hsave, s₂, out', hissue,
    rfl, rfl, rfl⟩ := h
  obtain ⟨hsums, hamounts⟩ := distribute_amounts hdist
  have hitems := hpriced quotePk quote hquote
  have hlines : ∀ line ∈ quote.items.map LineItem.line,
      Priced line.unitPrice line.quantity line.amount := by
    intro line hline
    obtain ⟨item, hitem, rfl⟩ := List.mem_map.mp hline
    exact hitems item hitem
  obtain ⟨l, l', hsaved, horder, _⟩ :=
    saveAndIssue_steps hsums hamounts hlines rfl rfl rfl rfl hsave hissue
  refine ⟨hsaved.moves ⟨⟨by decide, (fun h => by cases h), fun _ => horder⟩, by decide⟩
    (moneyless (by decide)), ?_⟩
  rw [QuotesPriced, hsaved.quotes]
  exact hpriced.put hitems

/-- The invoices are left alone, and the quotes stay priced. -/
structure Requoted (s s' : Store) : Prop where
  invoices : s'.invoices = s.invoices
  sequence : s'.invoiceSequence = s.invoiceSequence
  priced : QuotesPriced s → QuotesPriced s'

theorem createQuote_requoted {draft : Draft} {validUntil : Option ℕ}
    (h : createQuote env actor client draft validUntil s = .ok (pk, s')) : Requoted s s' := by
  unfold createQuote at h
  simp only [bind_eq_ok, requirePerm_eq_ok, Prod.exists, exists_and_left, exists_const, pure_eq_ok,
    Prod.mk.injEq] at h
  obtain ⟨_, lines, hlines, totals, rule, hcompute, currency, _, _, _, _, rfl⟩ := h
  obtain ⟨_, hamounts⟩ := computeDocument_sums hcompute
  exact ⟨rfl, rfl, fun hpriced =>
    hpriced.insert (priced_buildItems hamounts (cleanLines_priced hlines))⟩

theorem updateQuote_requoted {draft : Draft} {validUntil : Option ℕ}
    (h : updateQuote env actor pk draft validUntil s = .ok s') : Requoted s s' := by
  unfold updateQuote at h
  simp only [bind_eq_ok, requirePerm_eq_ok, lockQuote_eq_ok, Prod.exists, exists_and_left,
    exists_const, pure_eq_ok] at h
  obtain ⟨_, quote, _, _, _, lines, hlines, totals, rule, hcompute, currency, _, _, _, rfl⟩ := h
  obtain ⟨_, hamounts⟩ := computeDocument_sums hcompute
  exact ⟨rfl, rfl, fun hpriced =>
    hpriced.put (priced_buildItems hamounts (cleanLines_priced hlines))⟩

theorem sendQuote_requoted (h : sendQuote env actor pk s = .ok s') : Requoted s s' := by
  unfold sendQuote at h
  simp only [bind_eq_ok, requirePerm_eq_ok, lockQuote_eq_ok, ensure_eq_ok, fullClean_eq_ok,
    exists_and_left, exists_const, pure_eq_ok] at h
  obtain ⟨_, quote, hquote, _, _, _, _, _, rfl⟩ := h
  exact ⟨rfl, rfl, fun hpriced => hpriced.put (hpriced pk quote hquote)⟩

theorem declineQuote_requoted (h : declineQuote env actor pk s = .ok s') : Requoted s s' := by
  unfold declineQuote lockQuoteForDecision at h
  simp only [bind_eq_ok, lockQuote_eq_ok, pure_eq_ok] at h
  obtain ⟨_, ⟨quote, hquote, _, _, _, _, _, _, rfl⟩, rfl⟩ := h
  exact ⟨rfl, rfl, fun hpriced => hpriced.put (hpriced pk quote hquote)⟩

theorem deleteDraftQuote_requoted
    (h : deleteDraftQuote actor pk s = .ok s') : Requoted s s' := by
  unfold deleteDraftQuote at h
  simp only [bind_eq_ok, pure_eq_ok] at h
  obtain ⟨_, _, quote, _, _, _, rfl⟩ := h
  exact ⟨rfl, rfl, fun hpriced => hpriced.erase pk⟩

theorem cancelQuote_requoted (h : cancelQuote actor pk s = .ok s') : Requoted s s' := by
  unfold cancelQuote at h
  simp only [bind_eq_ok, lockQuote_eq_ok, pure_eq_ok] at h
  obtain ⟨_, _, quote, hquote, _, _, rfl⟩ := h
  exact ⟨rfl, rfl, fun hpriced => hpriced.put (hpriced pk quote hquote)⟩

theorem invoiceBillableItems_moves {chosen : Option (List ℕ)}
    (h : invoiceBillableItems env actor client chosen s = .ok (pk, s')) : Leaves Plain s s' [] := by
  unfold invoiceBillableItems at h
  simp only [bind_eq_ok, Prod.exists, pure_eq_ok, Prod.mk.injEq] at h
  obtain ⟨_, _, _, _, pk', s₁, hcreate, _, rfl⟩ := h
  obtain ⟨hmoves, hquotes, hsequence⟩ := createInvoice_moves hcreate
  exact ⟨hmoves, hquotes, hsequence⟩

theorem createBillableItem_unchanged {raw : RawLine}
    (h : createBillableItem actor client raw s = .ok (pk, s')) : Requoted s s' := by
  unfold createBillableItem at h
  simp only [bind_eq_ok, pure_eq_ok, Prod.mk.injEq] at h
  obtain ⟨_, _, _, _, _, _, _, rfl⟩ := h
  exact ⟨rfl, rfl, id⟩

theorem deleteBillableItem_unchanged (h : deleteBillableItem actor pk s = .ok s') :
    Requoted s s' := by
  unfold deleteBillableItem at h
  simp only [bind_eq_ok, pure_eq_ok] at h
  obtain ⟨_, _, _, _, _, _, rfl⟩ := h
  exact ⟨rfl, rfl, id⟩

end

end WPanel.Billing
