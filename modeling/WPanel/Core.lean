import WPanel.Lib.Calendar
import WPanel.Lib.Checked
import WPanel.Lib.Text
import Mathlib.Data.Rat.Defs
import Mathlib.Algebra.Order.Ring.Unbundled.Rat

namespace WPanel

open WPanel.Lib

/-!
# What every service shares

The errors the services raise, the person on whose behalf a service runs, and the forms in
which numbers arrive and are shown.
-/

/-- What a service raises. -/
inductive Err where
  /-- `ServiceError(message, code=…, status_code=…)`. -/
  | service (message code : String) (statusCode : Nat)
  /-- `ValidationError(message)`. -/
  | validation (message : String)
  /-- `ValidationError({field: message})`. -/
  | field (field message : String)
  /-- `full_clean()` refused these fields of a record. -/
  | invalid (model : String) (fields : List String)
  /-- `Model.DoesNotExist`. -/
  | doesNotExist (model : String)
  /-- A row that others still point at was to be deleted. -/
  | protectedError (model : String)
  /-- `ValueError` or `RuntimeError` of the billing arithmetic. -/
  | arithmetic (message : String)
  /-- `WebhookVerificationError`. -/
  | webhookVerification (message : String)
  /-- An exception that no service raises on purpose. -/
  | unexpected (message : String)
  deriving DecidableEq, Repr

/-- `ServiceError(message, code=code)`, with its default HTTP status. -/
def serviceError (message code : String) : Err := .service message code 400

/-- The permissions the modelled services ask for. -/
inductive Permission where
  | viewBilling
  | manageBilling
  | viewOrders
  | manageOrders
  | manageHosting
  | manageDomains
  | manageAffiliates
  deriving DecidableEq, Repr

/-- A signed-in person, as the services see them during one call. -/
structure Actor where
  pk : Nat
  hasPerm : Permission → Bool
  /-- The clients this person is a contact of (`contact_role(actor, client) is not None`). -/
  contactOf : Nat → Bool
  isStaff : Bool

/-- `_denied()`. -/
def denied : Err :=
  .service "You do not have permission to perform this action." "permission_denied" 403

/-- The guard at the head of a staff action. -/
def requirePerm (actor : Actor) (p : Permission) : Except Err Unit :=
  ensure (actor.hasPerm p = true) denied

/-- What `Decimal(str(value).strip())` makes of a value a person typed. -/
inductive Typed where
  | notANumber
  | notFinite
  | number (value : ℚ)
  deriving DecidableEq

/-- An amount in cents as `Decimal` prints it. -/
def amountText (cents : ℤ) : String :=
  (if cents < 0 then "-" else "") ++ toString (cents.natAbs / 100) ++ "."
    ++ zeroPad 2 (cents.natAbs % 100)

example : amountText 123456 = "1234.56" := by decide +kernel

@[simp] theorem requirePerm_eq_ok {actor : Actor} {p : Permission} {u : Unit} :
    requirePerm actor p = .ok u ↔ actor.hasPerm p = true := ensure_eq_ok

end WPanel
