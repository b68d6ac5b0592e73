import WPanel.Billing.Invoicing
import WPanel.Orders.Lifecycle
import WPanel.Renewals.AddonOrders

namespace WPanel.Site

open WPanel.Lib WPanel.Billing WPanel.Orders WPanel.Renewals

/-!
# The panel

The billing, order and renewal records together, and the signals that couple them: when an
invoice is paid or cancelled, the order, the service changes and the extras that hang on it are told
(`orders/signals.py`, `renewals/signals.py`).

* `Panel` — every record of the three parts;
* `World` — what the surroundings of a call say;
* `receive`, `dispatch` — the receivers of one signal, and of each signal in turn;
* `bill` — a billing service, with the signals it sends.
-/

/-- Every record. -/
structure Panel where
  billing : Billing.Store := {}
  orders : Orders.Store := {}
  renewals : Renewals.Store := {}
  deriving DecidableEq

/-- What the surroundings of a call say: settings and time, the shop, and what hosting servers
    and registrars answer. -/
structure World where
  env : Env
  shop : Shop
  changePackage : ℕ → String → Except ProviderError Unit
  renewDomain : ℕ → ℕ → Except ProviderError Moment

/-- The world as the renewals see it. -/
def World.providers (w : World) : Providers where
  products := w.shop.products
  tldPricings := w.shop.tldPricings
  changePackage := w.changePackage
  renewDomain := w.renewDomain

/-- What a call leaves behind: the signals of billing and the record of the renewals. -/
inductive Event where
  | billing (signal : Signal)
  | renewals (event : Renewals.Event)
  deriving DecidableEq, Repr

/-- The receivers of one signal. -/
def receive (w : World) (panel : Panel) : Signal → Except Err (Panel × List Event)
  | .invoicePaid pk => do
    let l ← lockInvoice panel.billing pk
    let orders ← markOrderPaid l.invoice panel.orders
    let (renewals, events) := applyPaidInvoice w.env w.providers pk l.invoice panel.renewals
    let renewals := applyPaidAddonOrders w.env.now pk renewals
    return ({ panel with orders, renewals }, events.map .renewals)
  | .invoiceCancelled pk => do
    let l ← lockInvoice panel.billing pk
    let orders ← cancelUnpaidOrder l.invoice l.invoice.cancelReason panel.orders
    let renewals := voidAddonOrders pk (voidChanges pk panel.renewals)
    return ({ panel with orders, renewals }, [])
  | .invoiceRefunded _ => .ok (panel, [])

/-- The receivers of each signal in turn. -/
def dispatch (w : World) : List Signal → Panel → Except Err (Panel × List Event)
  | [], panel => .ok (panel, [])
  | signal :: rest, panel => do
    let (panel, events) ← receive w panel signal
    let (panel, events') ← dispatch w rest panel
    return (panel, .billing signal :: events ++ events')

/-- A billing service, and then the receivers of the signals it sends. -/
def bill (w : World) (service : Billing.Store → Except Err (Billing.Store × List Signal))
    (panel : Panel) : Except Err (Panel × List Event) := do
  let (billing, signals) ← service panel.billing
  dispatch w signals { panel with billing }

end WPanel.Site
