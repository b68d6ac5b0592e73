import WPanel.Site.Machine

namespace WPanel.Site

open WPanel.Lib WPanel.Billing WPanel.Orders

/-!
# The invoice of a cart

A cart is taxed as a whole; the invoice of its order has a line for every plan and every setup
fee, with a share of the discount and of the tax each.  This file shows that the two never
differ by a cent.

* `orderTotals_priced` — the figures of an order written from a cart that priced in strict mode
  spread over its charge lines, and are what `compute` makes of these lines;
* `createInvoiceForOrder_refused`, `createInvoiceForOrder_stored` — what the invoice service
  can raise, and what it stores;
* `order_invoiced` — both together.
-/

/-! ### The charge lines of an order -/

/-- The lines of one item add up to its price and setup fee. -/
theorem sum_chargeLines (charge : OrderCharge) :
    (charge.lines.map (·.amount)).sum = charge.unitPrice + charge.setupFee := by
  unfold OrderCharge.lines
  split
  · next h => simp [h]
  · simp

/-- The lines of an order add up to the prices and setup fees of its items. -/
theorem sum_orderLines (charges : List OrderCharge) :
    ((charges.flatMap OrderCharge.lines).map (·.amount)).sum
      = (charges.map fun charge => charge.unitPrice + charge.setupFee).sum := by
  induction charges with
  | nil => rfl
  | cons charge charges ih =>
    rw [List.flatMap_cons, List.map_append, List.sum_append, ih, sum_chargeLines, List.map_cons,
      List.sum_cons]

/-- Every line of an order is taxable. -/
theorem taxable_chargeLines {charge : OrderCharge} {line : Line} (h : line ∈ charge.lines) :
    line.taxable = true := by
  unfold OrderCharge.lines at h
  rcases List.mem_cons.mp h with rfl | h
  · rfl
  · split at h
    · cases h
    · rw [List.mem_singleton.mp h]

/-- No line of an order whose prices are not negative is negative. -/
theorem amount_chargeLines_nonneg {charge : OrderCharge} (hprice : 0 ≤ charge.unitPrice)
    (hfee : 0 ≤ charge.setupFee) {line : Line} (h : line ∈ charge.lines) : 0 ≤ line.amount := by
  unfold OrderCharge.lines at h
  rcases List.mem_cons.mp h with rfl | h
  · exact hprice
  · split at h
    · cases h
    · rw [List.mem_singleton.mp h]
      exact hfee

/-! ### The order of a cart -/

section

variable {shop : Shop} {actor : Actor} {client pk : ℕ} {method : PaymentMethod}
  {priced : PricedCart}

/-- The charges of an order are those of the lines of its cart. -/
theorem charges_orderOf :
    ((orderFigures pk (orderOf shop actor client method priced)).charges.map fun charge =>
      (charge.unitPrice, charge.setupFee))
      = priced.lines.map fun line => (line.unitPrice, line.setupFee) := by
  show (((priced.lines.zipIdx.map _).map _).map _) = _
  rw [List.map_map, List.map_map]
  calc priced.lines.zipIdx.map _
      = (priced.lines.zipIdx.map Prod.fst).map fun line => (line.unitPrice, line.setupFee) := by
        rw [List.map_map]
        rfl
    _ = priced.lines.map fun line => (line.unitPrice, line.setupFee) := by
        rw [List.zipIdx_map_fst]

/-- **An order written from a cart can be invoiced.**  Its stored discount and tax spread over
    its charge lines, the document has the figures of the order, and it is the one `compute`
    makes of the lines at the discount and the rate of the order. -/
theorem orderTotals_priced (hpriced : priced.Settled) :
    let order := orderOf shop actor client method priced
    let lines := (orderFigures pk order).lines
    ∃ t, orderTotals (orderFigures pk order) = .ok t
      ∧ compute (lines.map fun line => dec line.amount) (lines.map (·.taxable))
          (dec order.discountTotal) order.taxRate = .ok t
      ∧ t.figures = ⟨order.subtotal, order.discountTotal, order.taxTotal, order.total⟩ := by
  intro order lines
  set figures := orderFigures pk order with hfigures
  have hcharges : figures.charges.map (fun charge => (charge.unitPrice, charge.setupFee))
      = priced.lines.map fun line => (line.unitPrice, line.setupFee) := charges_orderOf
  -- the lines are not negative and add up to the subtotal of the cart
  have hnonneg : ∀ a ∈ lines.map (·.amount), 0 ≤ a := by
    intro a hmem
    obtain ⟨line, hline, rfl⟩ := List.mem_map.mp hmem
    obtain ⟨charge, hcharge, hline⟩ := List.mem_flatMap.mp hline
    have hpair : (charge.unitPrice, charge.setupFee)
        ∈ priced.lines.map fun line => (line.unitPrice, line.setupFee) :=
      hcharges ▸ List.mem_map_of_mem hcharge
    obtain ⟨pricedLine, hmem, heq⟩ := List.mem_map.mp hpair
    obtain ⟨hprice, hfee⟩ := hpriced.prices_nonneg pricedLine hmem
    obtain ⟨hprice', hfee'⟩ := Prod.mk.inj heq
    exact amount_chargeLines_nonneg (hprice' ▸ hprice) (hfee' ▸ hfee) hline
  have hsum : (lines.map (·.amount)).sum = priced.subtotal := by
    calc (lines.map (·.amount)).sum
        = ((figures.charges.map fun charge => (charge.unitPrice, charge.setupFee)).map
            fun pair => pair.1 + pair.2).sum := by
          rw [List.map_map]
          exact sum_orderLines figures.charges
      _ = (priced.lines.map PricedLine.total).sum := by
          rw [hcharges, List.map_map]
          rfl
      _ = priced.subtotal := hpriced.subtotal_eq.symm
  have hall : ∀ flag ∈ lines.map (·.taxable), flag = true := by
    intro flag hmem
    obtain ⟨line, hline, rfl⟩ := List.mem_map.mp hmem
    obtain ⟨charge, _, hline⟩ := List.mem_flatMap.mp hline
    exact taxable_chargeLines hline
  obtain ⟨t, hdistribute, hcompute, hbalanced, hamounts, hdiscount, htax⟩ :=
    compute_eq_distribute_whole (lines.map (·.taxable)) hnonneg (by simp) hall
      hpriced.discount_bounds.1 (by rw [hsum]; exact hpriced.discount_bounds.2)
      hpriced.rate_nonneg
  rw [List.map_map] at hdistribute hcompute
  rw [hsum, ← hpriced.tax_eq] at hdistribute htax
  have hsubtotal : t.subtotal = priced.subtotal := by
    rw [← hbalanced.subtotal, hamounts, hsum]
  have htotal : t.total = priced.total := by
    rw [DocumentTotals.total, hsubtotal, hdiscount, htax, hpriced.total_eq]
  refine ⟨t, orderTotals_eq_ok.mpr ⟨hdistribute, hsubtotal, htotal⟩, hcompute, ?_⟩
  show Figures.mk t.subtotal t.discountTotal t.taxTotal t.total = _
  rw [hsubtotal, hdiscount, htax, htotal]
  rfl

end

/-! ### Its invoice -/

section

variable {env : Env} {order : OrderFigures} {b b' : Billing.Store} {signals : List Signal}

theorem fullCleanItems_eq_error {model : String} {items : List LineItem} {e : Err}
    (h : fullCleanItems model items = .error e) : ∃ fields, e = .invalid model fields := by
  induction items with
  | nil => cases h
  | cons item items ih =>
    rw [fullCleanItems, bind_eq_error] at h
    rcases h with h | ⟨_, _, h⟩
    · exact ⟨_, (ensure_eq_error.mp h).2.symm⟩
    · exact ih h

theorem saveInvoice_eq_error {invoice : Invoice} {items : List LineItem} {e : Err}
    (h : saveInvoice b invoice items = .error e) : ∃ model fields, e = .invalid model fields := by
  rw [saveInvoice, bind_eq_error] at h
  rcases h with h | ⟨_, _, h⟩
  · exact ⟨_, _, (ensure_eq_error.mp h).2.symm⟩
  · rw [bind_eq_error] at h
    rcases h with h | ⟨_, _, h⟩
    · exact ⟨_, fullCleanItems_eq_error h⟩
    · cases h

theorem issue_eq_error {q : ℕ} {l : Ledger} {e : Err} (h : issue env q l b = .error e) :
    ∃ model fields, e = .invalid model fields := by
  simp only [issue, bind_eq_error] at h
  rcases h with h | ⟨_, _, h⟩
  · exact ⟨_, _, (ensure_eq_error.mp h).2.symm⟩
  · cases h

/-- Once the totals of an order are known, its invoice can only be refused for a field of the
    invoice or of a line. -/
theorem createInvoiceForOrder_refused {t : DocumentTotals} {e : Err}
    (htotals : orderTotals order = .ok t) (h : createInvoiceForOrder env order b = .error e) :
    ∃ model fields, e = .invalid model fields := by
  rw [createInvoiceForOrder, htotals, ok_bind, bind_eq_error] at h
  rcases h with h | ⟨⟨q, b₁⟩, _, h⟩
  · exact saveInvoice_eq_error h
  · rcases bind_eq_error.mp h with h | ⟨_, _, h⟩
    · exact issue_eq_error h
    · cases h

/-- The invoice an order gets has the totals of the order, spread over its charge lines. -/
theorem createInvoiceForOrder_stored {q : ℕ}
    (h : createInvoiceForOrder env order b = .ok (q, b', signals)) :
    ∃ t l, orderTotals order = .ok t ∧ b'.invoices.get? q = some l
      ∧ l.invoice.figures = t.figures ∧ l.items = buildItems order.lines t := by
  unfold createInvoiceForOrder at h
  simp only [bind_eq_ok, Prod.exists, pure_eq_ok, Prod.mk.injEq] at h
  obtain ⟨t, htotals, q', b₁, hsave, b₂, signals', hissue, rfl, rfl, rfl⟩ := h
  obtain ⟨rfl, rfl, _, _⟩ := saveInvoice_eq_ok hsave
  unfold issue at hissue
  simp only [bind_eq_ok, pure_eq_ok, Prod.mk.injEq] at hissue
  obtain ⟨_, _, rfl, _⟩ := hissue
  refine ⟨t, _, htotals, Table.get?_put_self (Table.get?_insert_self _ _) _, rfl, rfl⟩

end

/-- **The cart and the invoice never differ by a cent.**  For every cart that prices in strict
    mode, `compute` on the charge lines of its order, at the discount and the rate of the order,
    gives the figures of the order; `create_invoice_for_order` never raises
    `order_not_invoiceable`, and what it stores has these figures and these lines. -/
theorem order_invoiced {env : Env} {shop : Shop} {s : Orders.Store} {cartPk : ℕ} {cart : Cart}
    {verify : Bool} {country : String} {priced : PricedCart}
    (h : priceCart env shop s cartPk cart true verify country = .ok priced)
    (actor : Actor) (client pk : ℕ) (method : PaymentMethod) :
    let order := orderOf shop actor client method priced
    let figures := orderFigures pk order
    ∃ t, compute (figures.lines.map fun line => dec line.amount) (figures.lines.map (·.taxable))
        (dec order.discountTotal) order.taxRate = .ok t
      ∧ t.figures = ⟨order.subtotal, order.discountTotal, order.taxTotal, order.total⟩
      ∧ (∀ env b message status, createInvoiceForOrder env figures b
          ≠ .error (.service message "order_not_invoiceable" status))
      ∧ ∀ env b q b' signals, createInvoiceForOrder env figures b = .ok (q, b', signals) →
          ∃ l, b'.invoices.get? q = some l ∧ l.items = buildItems figures.lines t
            ∧ l.invoice.figures
              = ⟨order.subtotal, order.discountTotal, order.taxTotal, order.total⟩ := by
  intro order figures
  obtain ⟨t, htotals, hcompute, hfigures⟩ := orderTotals_priced (priceCart_settled h)
  refine ⟨t, hcompute, hfigures, ?_, ?_⟩
  · intro env b message status hraised
    obtain ⟨model, fields, he⟩ := createInvoiceForOrder_refused htotals hraised
    cases he
  · intro env b q b' signals hcreate
    obtain ⟨t', l, htotals', hl, hl', hitems⟩ := createInvoiceForOrder_stored hcreate
    obtain rfl : t = t' := Except.ok.inj (htotals.symm.trans htotals')
    exact ⟨l, hl, hitems, hl'.trans hfigures⟩

/-! ### A cart with a setup fee, a coupon and a tax -/

/-- A plan for 49.99 with a setup fee of 10.00, a coupon for 15 percent, and a tax of 17
    percent. -/
def taxedEnv : Env := { smallEnv with
  taxRules := [{ country := "", rate := 17, isActive := true, name := "GST"
                 rate_valid := by decide +kernel }] }

def couponShop : Shop := { smallWorld.shop with
  products := fun _ => some { monthlyPlan "Starter" 4999 with
    prices := [{ billingCycle := .monthly, price := 4999, setupFee := 1000
                 price_nonneg := by decide, setupFee_nonneg := by decide }] }
  coupons := fun _ => some { code := "SPRING", discountType := .percent, value := 15 } }

def couponCart : Cart := { user := some 0, client := some 0, coupon := some 0 }

def couponStore : Orders.Store where
  carts := Table.insert {} couponCart
  cartItems := Table.insert {} { cart := 0, kind := .hosting, product := some 0
                                 domainName := "example.com", billingCycle := "monthly" }

/-- 49.99 and 10.00, less 9.00, and 8.67 of tax: the order asks for 59.66, and its invoice is
    never refused. -/
theorem order_invoiced_coupon :
    ∃ priced, priceCart taxedEnv couponShop couponStore 0 couponCart true = .ok priced
      ∧ priced.total = 5966
      ∧ ∀ env b message status, createInvoiceForOrder env
          (orderFigures 0 (orderOf couponShop staff 0
            { code := "bank", name := "Bank transfer", isActive := true, provider := none } priced))
          b ≠ .error (.service message "order_not_invoiceable" status) := by
  have htotal : (priceCart taxedEnv couponShop couponStore 0 couponCart true).map
      PricedCart.total = .ok 5966 := by decide +kernel
  obtain ⟨priced, hpriced, htotal⟩ := map_eq_ok.mp htotal
  obtain ⟨_, _, _, hnever, _⟩ := order_invoiced hpriced staff 0 0
    { code := "bank", name := "Bank transfer", isActive := true, provider := none }
  exact ⟨priced, hpriced, htotal, hnever⟩

end WPanel.Site
