import WPanel.Billing.Models
import WPanel.Catalogue

namespace WPanel.Renewals

open WPanel.Lib WPanel.Billing

/-!
# Services and their changes

The hosting accounts and domains a client pays for (`hosting/models.py`,
`domains/models.py`), as far as their paid terms go, and the changes that are invoiced for
them (`renewals/models.py`).

What the panel does to a service outside its term (provisioning, suspending, moving it to
another server) is not modelled: the columns it writes may change at any time.  The
breakdown of a proration stored with a change (`calculation`) decides nothing and is left
out.
-/

inductive HostingStatus where
  | pending
  | active
  | suspended
  | terminated
  | cancelled
  | failed
  deriving DecidableEq, Repr

def HostingStatus.label : HostingStatus → String
  | .pending => "Pending Provisioning"
  | .active => "Active"
  | .suspended => "Suspended"
  | .terminated => "Terminated"
  | .cancelled => "Cancelled"
  | .failed => "Failed"

/-- The paid term of a hosting account; no dates until it has been set. -/
structure Term where
  billingCycle : String := ""
  customMonths : ℕ := 0
  termStart : Option Moment := none
  expiresAt : Option Moment := none
  /-- What was paid for the current term, excluding tax and setup fees. -/
  termPaid : ℤ := 0
  deriving DecidableEq, Repr

/-- What the hosting services write of an account. -/
structure Placement where
  product : ℕ
  server : Option ℕ
  status : HostingStatus
  /-- A cancellation request is pending or approved. -/
  cancelling : Bool := false
  deriving DecidableEq, Repr

structure HostingAccount where
  client : ℕ
  domain : String
  placement : Placement
  term : Term := {}
  deriving DecidableEq, Repr

inductive DomainStatus where
  | pendingRegistration
  | pendingTransferIn
  | active
  | expired
  | cancelled
  | failed
  deriving DecidableEq, Repr

/-- What the domain services write of a domain. -/
structure Registration where
  status : DomainStatus
  expiresAt : Option Moment
  cancelling : Bool := false
  deriving DecidableEq, Repr

structure Domain where
  client : ℕ
  name : String
  tld : String
  registration : Registration
  deriving DecidableEq, Repr

/-! ### Changes -/

inductive ChangeKind where
  | renewal
  | upgrade
  deriving DecidableEq, Repr

def ChangeKind.label : ChangeKind → String
  | .renewal => "Renewal"
  | .upgrade => "Upgrade"

inductive ChangeStatus where
  | pending
  | applied
  | failed
  | void
  deriving DecidableEq, Repr

/-- The one service a change is about. -/
inductive Service where
  | hosting (account : ℕ)
  | domain (domain : ℕ)
  deriving DecidableEq, Repr

/-- A renewal or upgrade of one service, tied to the invoice that pays for it.  Its figures
    are frozen when it is invoiced. -/
structure ServiceChange where
  client : ℕ
  invoice : ℕ
  kind : ChangeKind
  status : ChangeStatus := .pending
  service : Service
  fromProduct : Option ℕ := none
  toProduct : Option ℕ := none
  billingCycle : String := ""
  customMonths : ℕ := 0
  /-- Length of the term this change buys. -/
  periodMonths : ℕ
  /-- What this change adds to the paid value of the term. -/
  paidValue : ℤ
  /-- The service's expiry when this was invoiced. -/
  expectedExpiresAt : Option Moment
  appliedAt : Option Moment := none
  error : String := ""
  deriving DecidableEq, Repr

/-! ### Extras -/

inductive AddonOrderStatus where
  | pending
  | paid
  | done
  | void
  deriving DecidableEq, Repr

/-- An extra bought for a service the customer already has: one invoice and, once it is paid,
    a person sets it up. -/
structure AddonOrder where
  client : ℕ
  invoice : ℕ
  addon : ℕ
  service : Service
  status : AddonOrderStatus := .pending
  price : ℤ
  periodLabel : String
  paidAt : Option Moment := none
  doneAt : Option Moment := none
  doneBy : Option ℕ := none
  deriving DecidableEq, Repr

/-- Every service, every change and every extra. -/
structure Store where
  accounts : Table HostingAccount := {}
  domains : Table Domain := {}
  changes : Table ServiceChange := {}
  addonOrders : Table AddonOrder := {}
  deriving DecidableEq

/-! ### The outside -/

/-- What a hosting server or a registrar answers instead of doing what it was asked. -/
inductive ProviderError where
  /-- `HostingError` or `RegistrarError`. -/
  | refused (message : String)
  /-- Any other exception. -/
  | crashed
  deriving DecidableEq, Repr

/-- The catalogue and the outside services at the time of a call. -/
structure Providers where
  products : ℕ → Option Product
  tldPricings : List TldPricing
  /-- `adapter.change_package(account, package)`. -/
  changePackage : ℕ → String → Except ProviderError Unit
  /-- `adapter.renew_domain(domain, years)`: the new expiry. -/
  renewDomain : ℕ → ℕ → Except ProviderError Moment

/-- What the renewals leave behind for the record. -/
inductive Event where
  /-- A paid term was started, or set by staff, for which this was paid. -/
  | termStarted (account : ℕ) (paid : ℤ)
  /-- A change was applied; whether the service's term began anew with it, what its invoice
      charged for it without tax, and the credit the invoice shows as its discount. -/
  | applied (change : ℕ) (service : Service) (fresh : Bool) (charged credit : ℤ)
  deriving DecidableEq, Repr

end WPanel.Renewals
