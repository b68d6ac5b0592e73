import Mathlib.Algebra.Order.Group.Abs
import WPanel.Billing.Calculations
import WPanel.Lib.Bytes
import WPanel.Lib.Numerals

namespace WPanel.Billing.Gateways

open WPanel.Lib

/-!
# Reading a gateway's message

`TestGatewayAdapter.parse_webhook` of `billing/gateways.py`: the signature header is taken apart,
the signature is compared with the one the secret gives, and the body is read as an event.
Anybody can send the header and the body.

* `Library` — what the code takes from the standard library: the signature, the reading of JSON
  and of decimal numbers;
* `parseWebhook` — the code, with every exception it can raise;
* `Authentic` — the header carries the signature of its timestamp and of the body, and is fresh;
* `Answered` — an event of an authentic message, or `WebhookVerificationError`;
* `parseWebhook_answered_iff` — exactly when a message is answered.
-/

/-! ### The standard library -/

/-- What `json.loads` returns. -/
inductive Json where
  | null
  | bool (b : Bool)
  | int (n : ℤ)
  /-- A float, as `str` writes it, and whether it is zero. -/
  | float (text : String) (isZero : Bool)
  | str (s : String)
  | arr (items : List Json)
  | obj (fields : List (String × Json))

/-- What `json.loads` raises: `ValueError`, or `RecursionError` for a text nested too deeply. -/
inductive LoadError where
  | value
  | recursion
  deriving DecidableEq, Repr

/-- The functions of the standard library; `δ` are the decimal numbers. -/
structure Library (δ : Type) where
  /-- `hmac.new(secret, message, sha256).hexdigest()`. -/
  hexdigest : String → Bytes → String
  hexdigest_ascii : ∀ secret message, (hexdigest secret message).toList.all (·.toNat < 128) = true
  /-- `json.loads(body)`. -/
  loads : Bytes → Except LoadError Json
  /-- `str(value)` of a float, a list or a dictionary. -/
  repr : Json → String
  /-- `Decimal(text)`, or `InvalidOperation`. -/
  decimal : String → Option δ
  /-- `text.upper()`. -/
  upper : String → String

/-- What can be raised. -/
inductive Raised where
  | webhookVerificationError (message : String)
  | valueError
  | keyError
  | typeError
  | attributeError
  | invalidOperation
  | overflowError
  | recursionError
  deriving DecidableEq, Repr

variable {δ : Type} (lib : Library δ)

/-! ### The body -/

structure Event (δ : Type) where
  eventId : String
  type : String
  externalId : String := ""
  amount : Option δ := none
  currency : String := ""
  reason : String := ""

/-- `bool(value)`. -/
def Json.truthy : Json → Bool
  | .null => false
  | .bool b => b
  | .int n => n ≠ 0
  | .float _ isZero => !isZero
  | .str s => s ≠ ""
  | .arr items => !items.isEmpty
  | .obj fields => !fields.isEmpty

/-- `str(value)`. -/
def pyStr : Json → String
  | .null => "None"
  | .bool true => "True"
  | .bool false => "False"
  | .int n => intText n
  | .str s => s
  | value => lib.repr value

/-- `value.get(key)`: only a dictionary has it. -/
def Json.get (key : String) : Json → Except Raised (Option Json)
  | .obj fields => .ok (fields.lookup key)
  | _ => .error .attributeError

/-- `value[key]`. -/
def Json.item (key : String) (value : Json) : Except Raised Json := do
  match ← value.get key with
  | some found => .ok found
  | none => .error .keyError

/-- `str(value.get(key, ""))`. -/
def textOf (value : Json) (key : String) : Except Raised String := do
  match ← value.get key with
  | some found => return pyStr lib found
  | none => return ""

/-- The amount of the event, where it names one. -/
def amountOf (data : Json) : Except Raised (Option δ) := do
  match ← data.get "amount" with
  | none | some .null | some (.str "") => return none
  | some value =>
    match lib.decimal (pyStr lib value) with
    | some amount => return some amount
    | none => .error .invalidOperation

/-- `json.loads(body)`, with what it raises. -/
def loadBody (body : Bytes) : Except Raised Json :=
  match lib.loads body with
  | .ok value => .ok value
  | .error .value => .error .valueError
  | .error .recursion => .error .recursionError

/-- The event of a body. -/
def readEvent (body : Bytes) : Except Raised (Event δ) := do
  let payload ← loadBody lib body
  let found ← payload.get "data"
  let data := (found.filter Json.truthy).getD (.obj [])
  let eventId ← payload.item "id"
  let type ← textOf lib payload "type"
  let externalId ← textOf lib data "payment_id"
  let currency ← textOf lib data "currency"
  let reason ← textOf lib data "reason"
  let amount ← amountOf lib data
  return {
    eventId := clip 128 (pyStr lib eventId), type := clip 100 type
    externalId := clip 128 externalId, amount, currency := lib.upper currency
    reason := clip 500 reason }

/-- `(ValueError, KeyError, TypeError, AttributeError, InvalidOperation)`. -/
def Raised.isCaught : Raised → Bool
  | .valueError | .keyError | .typeError | .attributeError | .invalidOperation => true
  | .webhookVerificationError _ | .overflowError | .recursionError => false

/-- The `except` clause around the reading of the body. -/
def exceptMalformed {α : Type} : Except Raised α → Except Raised α
  | .ok a => .ok a
  | .error e =>
    if e.isCaught then .error (.webhookVerificationError "The event body is malformed.")
    else .error e

/-! ### The header -/

/-- `SIGNATURE_HEADER`. -/
def signatureHeader : String := "X-Test-Signature"

/-- `SIGNATURE_TOLERANCE_SECONDS`. -/
def signatureToleranceSeconds : ℚ := 300

/-- `header_value(headers, name)`. -/
def headerValue (headers : List (String × String)) (name : String) : String :=
  ((headers.find? fun header => lower header.1 = lower name).map (·.2)).getD ""

/-- `dict(part.split("=", 1) for part in header.split(",") if "=" in part)`. -/
def partsOf (header : String) : List (String × String) :=
  ((splitOn ',' header).filter fun part => '=' ∈ part.toList).map (partition '=')

/-- `parts.get(key, "")`: of two parts under one key the later one counts. -/
def partOf (header key : String) : String := ((partsOf header).reverse.lookup key).getD ""

/-- `int(parts.get("t", ""))`. -/
def timestampOf (header : String) : Except Raised ℤ :=
  match parseInt (partOf header "t") with
  | some timestamp => .ok timestamp
  | none => .error (.webhookVerificationError "Missing or malformed signature.")

/-- `f"{timestamp}.".encode() + body`. -/
def signedMessage (timestamp : ℤ) (body : Bytes) : Bytes :=
  (intText timestamp ++ ".").toUTF8.toList ++ body

def isAscii (s : String) : Bool := s.toList.all (·.toNat < 128)

/-- `hmac.compare_digest`, of two strings. -/
def compareDigest (a b : String) : Except Raised Bool :=
  if isAscii a && isAscii b then .ok (a = b) else .error .typeError

/-- The first whole number too large for a float. -/
def floatLimit : ℕ := 2 ^ 1024 - 2 ^ 970

/-- `time.time() - timestamp`. -/
def ageOf (now : ℚ) (timestamp : ℤ) : Except Raised ℚ :=
  if timestamp.natAbs < floatLimit then .ok (now - timestamp) else .error .overflowError

/-- `parse_webhook(body, headers)`. -/
def parseWebhook (secret : String) (now : ℚ) (body : Bytes) (headers : List (String × String)) :
    Except Raised (Event δ) := do
  ensure (secret ≠ "")
    (.webhookVerificationError "No webhook secret is configured for this provider.")
  let header := headerValue headers signatureHeader
  let timestamp ← timestampOf header
  let expected := lib.hexdigest secret (signedMessage timestamp body)
  let same ← compareDigest expected (partOf header "v1")
  ensure (same = true) (.webhookVerificationError "Signature does not match.")
  let age ← ageOf now timestamp
  ensure (|age| ≤ signatureToleranceSeconds)
    (.webhookVerificationError "The signature timestamp is outside the allowed window.")
  exceptMalformed (readEvent lib body)

/-! ### Answers -/

/-- The header carries the signature of its timestamp and of the body, and the timestamp is
    within the tolerance. -/
def Authentic (secret : String) (now : ℚ) (body : Bytes) (header : String) : Prop :=
  ∃ timestamp, parseInt (partOf header "t") = some timestamp
    ∧ partOf header "v1" = lib.hexdigest secret (signedMessage timestamp body)
    ∧ |now - timestamp| ≤ signatureToleranceSeconds

/-- An event, and then of an authentic message, or `WebhookVerificationError`. -/
def Answered (secret : String) (now : ℚ) (body : Bytes) (headers : List (String × String)) : Prop :=
  (∃ event, parseWebhook lib secret now body headers = .ok event
      ∧ Authentic lib secret now body (headerValue headers signatureHeader))
    ∨ ∃ message, parseWebhook lib secret now body headers
        = .error (.webhookVerificationError message)

/-- Nothing the code does not expect: with a secret and a timestamp that is a number, the
    signature is ASCII; and where it is the right one, the timestamp fits into a float and a
    body that is fresh is not nested too deeply. -/
def Expected (secret : String) (now : ℚ) (body : Bytes) (header : String) : Prop :=
  ∀ timestamp, secret ≠ "" → parseInt (partOf header "t") = some timestamp →
    isAscii (partOf header "v1") = true
      ∧ (partOf header "v1" = lib.hexdigest secret (signedMessage timestamp body) →
          timestamp.natAbs < floatLimit
            ∧ (|now - timestamp| ≤ signatureToleranceSeconds →
                lib.loads body ≠ .error .recursion))

/-! ### What reading the body raises -/

/-- Only what the `except` clause names is raised. -/
def Caught {α : Type} (x : Except Raised α) : Prop := ∀ e, x = .error e → e.isCaught = true

theorem Caught.ok {α : Type} (a : α) : Caught (.ok a : Except Raised α) := by
  intro e h
  cases h

theorem Caught.error {α : Type} {e : Raised} (h : e.isCaught = true) :
    Caught (.error e : Except Raised α) := by
  intro e' h'
  obtain rfl := Except.error.inj h'
  exact h

theorem Caught.bind {α β : Type} {x : Except Raised α} {f : α → Except Raised β}
    (hx : Caught x) (hf : ∀ a, Caught (f a)) : Caught (x >>= f) := by
  intro e h
  rcases bind_eq_error.mp h with hfirst | ⟨a, -, hrest⟩
  · exact hx e hfirst
  · exact hf a e hrest

theorem caught_get (key : String) (value : Json) : Caught (value.get key) := by
  unfold Json.get
  split
  · exact .ok _
  · exact .error rfl

theorem caught_item (key : String) (value : Json) : Caught (value.item key) := by
  unfold Json.item
  refine (caught_get key value).bind fun found => ?_
  cases found with
  | none => exact .error rfl
  | some found => exact .ok _

theorem caught_textOf (value : Json) (key : String) : Caught (textOf lib value key) := by
  unfold textOf
  refine (caught_get key value).bind fun found => ?_
  cases found with
  | none => exact .ok _
  | some found => exact .ok _

theorem caught_amountOf (data : Json) : Caught (amountOf lib data) := by
  unfold amountOf
  refine (caught_get "amount" data).bind fun found => ?_
  split
  · exact .ok _
  · exact .ok _
  · exact .ok _
  · split
    · exact .ok _
    · exact .error rfl

/-- A body that can be loaded raises nothing else. -/
theorem caught_readEvent {body : Bytes} (h : lib.loads body ≠ .error .recursion) :
    Caught (readEvent lib body) := by
  have hload : Caught (loadBody lib body) := by
    unfold loadBody
    split
    · exact .ok _
    · exact .error rfl
    · next hrecursion => exact absurd hrecursion h
  unfold readEvent
  refine hload.bind fun payload => (caught_get "data" payload).bind fun found => ?_
  dsimp only
  generalize (found.filter Json.truthy).getD (.obj []) = data
  refine (caught_item "id" payload).bind fun _ => ?_
  refine (caught_textOf lib payload "type").bind fun _ => ?_
  refine (caught_textOf lib data "payment_id").bind fun _ => ?_
  refine (caught_textOf lib data "currency").bind fun _ => ?_
  refine (caught_textOf lib data "reason").bind fun _ => ?_
  exact (caught_amountOf lib data).bind fun _ => .ok _

/-- **Reading the body** gives an event or the verification error, -/
theorem exceptMalformed_of_loaded {body : Bytes} (h : lib.loads body ≠ .error .recursion) :
    (∃ event, exceptMalformed (readEvent lib body) = .ok event)
      ∨ ∃ message, exceptMalformed (readEvent lib body)
          = .error (.webhookVerificationError message) := by
  cases hread : readEvent lib body with
  | ok event => exact .inl ⟨event, rfl⟩
  | error e =>
    refine .inr ⟨"The event body is malformed.", ?_⟩
    unfold exceptMalformed
    dsimp only
    rw [if_pos (caught_readEvent lib h e hread)]

/-- unless it is nested too deeply. -/
theorem exceptMalformed_of_deep {body : Bytes} (h : lib.loads body = .error .recursion) :
    exceptMalformed (readEvent lib body) = .error .recursionError := by
  unfold readEvent loadBody
  rw [h]
  rfl

/-! ### When a message is answered -/

/-- A message refused on the way is answered. -/
theorem Answered.of_refused {secret : String} {now : ℚ} {body : Bytes}
    {headers : List (String × String)} {message : String}
    (h : parseWebhook lib secret now body headers = .error (.webhookVerificationError message)) :
    Answered lib secret now body headers := .inr ⟨message, h⟩

/-- A message on which the code fails in another way is not. -/
theorem not_answered_of_raised {secret : String} {now : ℚ} {body : Bytes}
    {headers : List (String × String)} {e : Raised}
    (he : ∀ message, e ≠ .webhookVerificationError message)
    (h : parseWebhook lib secret now body headers = .error e) :
    ¬Answered lib secret now body headers := by
  rintro (⟨event, hok, -⟩ | ⟨message, herror⟩)
  · rw [h] at hok
    cases hok
  · exact he message (Except.error.inj (h.symm.trans herror))

section Signed

variable {secret : String} {headers : List (String × String)} {timestamp : ℤ}

/-- With a secret and a timestamp, the signatures are compared. -/
theorem parseWebhook_of_timestamp (now : ℚ) (body : Bytes) (hsecret : secret ≠ "")
    (htimestamp : parseInt (partOf (headerValue headers signatureHeader) "t") = some timestamp) :
    parseWebhook lib secret now body headers = (do
      let same ← compareDigest (lib.hexdigest secret (signedMessage timestamp body))
        (partOf (headerValue headers signatureHeader) "v1")
      ensure (same = true) (.webhookVerificationError "Signature does not match.")
      let age ← ageOf now timestamp
      ensure (|age| ≤ signatureToleranceSeconds)
        (.webhookVerificationError "The signature timestamp is outside the allowed window.")
      exceptMalformed (readEvent lib body)) := by
  have hread : timestampOf (headerValue headers signatureHeader) = .ok timestamp := by
    unfold timestampOf
    rw [htimestamp]
  unfold parseWebhook
  rw [ensure, if_pos hsecret, ok_bind]
  dsimp only
  rw [hread, ok_bind]

/-- The right signature of a timestamp that fits is followed by the check of its age. -/
theorem parseWebhook_of_signature (now : ℚ) {body : Bytes} (hsecret : secret ≠ "")
    (htimestamp : parseInt (partOf (headerValue headers signatureHeader) "t") = some timestamp)
    (hsignature : partOf (headerValue headers signatureHeader) "v1"
      = lib.hexdigest secret (signedMessage timestamp body)) :
    parseWebhook lib secret now body headers = (do
      let age ← ageOf now timestamp
      ensure (|age| ≤ signatureToleranceSeconds)
        (.webhookVerificationError "The signature timestamp is outside the allowed window.")
      exceptMalformed (readEvent lib body)) := by
  have hascii : isAscii (lib.hexdigest secret (signedMessage timestamp body)) = true :=
    lib.hexdigest_ascii _ _
  rw [parseWebhook_of_timestamp lib now body hsecret htimestamp, hsignature, compareDigest, hascii,
    Bool.and_self, if_pos rfl, ok_bind, ensure, if_pos (by simp), ok_bind]

end Signed

/-- **When a message is answered.** A signature that is not ASCII cannot be compared; the other
    two ways to fail need the right signature. -/
theorem parseWebhook_answered_iff (secret : String) (now : ℚ) (body : Bytes)
    (headers : List (String × String)) :
    Answered lib secret now body headers
      ↔ Expected lib secret now body (headerValue headers signatureHeader) := by
  by_cases hsecret : secret = ""
  · -- no secret
    have hrefused : parseWebhook lib secret now body headers = .error (.webhookVerificationError
        "No webhook secret is configured for this provider.") := by
      unfold parseWebhook
      rw [ensure, if_neg (not_not.mpr hsecret), error_bind]
    exact iff_of_true (.of_refused lib hrefused) fun _ h _ => absurd hsecret h
  cases htimestamp : parseInt (partOf (headerValue headers signatureHeader) "t") with
  | none =>
    -- no timestamp
    have hrefused : parseWebhook lib secret now body headers
        = .error (.webhookVerificationError "Missing or malformed signature.") := by
      unfold parseWebhook timestampOf
      rw [ensure, if_pos hsecret, ok_bind]
      dsimp only
      rw [htimestamp]
      rfl
    refine iff_of_true (.of_refused lib hrefused) fun timestamp _ h => ?_
    rw [htimestamp] at h
    cases h
  | some timestamp =>
    have hexpected : Expected lib secret now body (headerValue headers signatureHeader)
        ↔ isAscii (partOf (headerValue headers signatureHeader) "v1") = true
          ∧ (partOf (headerValue headers signatureHeader) "v1"
              = lib.hexdigest secret (signedMessage timestamp body) →
            timestamp.natAbs < floatLimit
              ∧ (|now - timestamp| ≤ signatureToleranceSeconds →
                  lib.loads body ≠ .error .recursion)) := by
      constructor
      · intro h
        exact h timestamp hsecret htimestamp
      · intro h timestamp' _ htimestamp'
        obtain rfl := Option.some.inj (htimestamp.symm.trans htimestamp')
        exact h
    rw [hexpected]
    by_cases hsignature : partOf (headerValue headers signatureHeader) "v1"
        = lib.hexdigest secret (signedMessage timestamp body)
    · -- the right signature
      have hascii : isAscii (partOf (headerValue headers signatureHeader) "v1") = true := by
        rw [hsignature]
        exact lib.hexdigest_ascii _ _
      have hparse := parseWebhook_of_signature lib now hsecret htimestamp hsignature
      rw [and_iff_right hascii, forall_prop_of_true hsignature]
      by_cases hfits : timestamp.natAbs < floatLimit
      · rw [ageOf, if_pos hfits, ok_bind] at hparse
        rw [and_iff_right hfits]
        by_cases hfresh : |now - timestamp| ≤ signatureToleranceSeconds
        · rw [ensure, if_pos hfresh, ok_bind] at hparse
          rw [forall_prop_of_true hfresh]
          by_cases hload : lib.loads body = .error .recursion
          · have hraised := hparse.trans (exceptMalformed_of_deep lib hload)
            exact iff_of_false (not_answered_of_raised lib (by simp) hraised) fun h => h hload
          · refine iff_of_true ?_ hload
            rcases exceptMalformed_of_loaded lib hload with ⟨event, hevent⟩ | ⟨message, hmessage⟩
            · exact .inl ⟨event, hparse.trans hevent, timestamp, htimestamp, hsignature, hfresh⟩
            · exact .of_refused lib (hparse.trans hmessage)
        · rw [ensure, if_neg hfresh, error_bind] at hparse
          exact iff_of_true (.of_refused lib hparse) fun h => absurd h hfresh
      · rw [ageOf, if_neg hfits, error_bind] at hparse
        exact iff_of_false (not_answered_of_raised lib (by simp) hparse) fun h => hfits h.1
    · -- another signature
      have hparse := parseWebhook_of_timestamp lib now body hsecret htimestamp
      by_cases hascii : isAscii (partOf (headerValue headers signatureHeader) "v1") = true
      · have hdigest : isAscii (lib.hexdigest secret (signedMessage timestamp body)) = true :=
          lib.hexdigest_ascii _ _
        rw [compareDigest, hascii, hdigest, Bool.and_self, if_pos rfl, ok_bind, ensure,
          if_neg (by simpa using fun h => hsignature h.symm), error_bind] at hparse
        exact iff_of_true (.of_refused lib hparse) ⟨hascii, fun h => absurd h hsignature⟩
      · rw [compareDigest, Bool.eq_false_iff.mpr hascii, Bool.and_false, if_neg (by simp),
          error_bind] at hparse
        exact iff_of_false (not_answered_of_raised lib (by simp) hparse) fun h => hascii h.1

/-! ### A signature that is not ASCII -/

/-- A library under which every message has one signature and no body is JSON. -/
def bareLibrary : Library Unit where
  hexdigest := fun _ _ => "00"
  hexdigest_ascii := fun _ _ => rfl
  loads := fun _ => .error .value
  repr := fun _ => ""
  decimal := fun _ => none
  upper := fun text => text

example : parseWebhook bareLibrary "secret" 1000 [] [("x-test-signature", "t=1000,v1=01")]
    = .error (.webhookVerificationError "Signature does not match.") := rfl

/-- **A signature with an accent stops the code**: `compare_digest` raises `TypeError`. -/
theorem not_parseWebhook_answered :
    ¬∀ (lib : Library Unit) (secret : String) (now : ℚ) (body : Bytes)
        (headers : List (String × String)), Answered lib secret now body headers := by
  intro h
  have hraised : parseWebhook bareLibrary "secret" 1000 [] [("X-Test-Signature", "t=1,v1=é")]
      = .error .typeError := rfl
  exact not_answered_of_raised bareLibrary (by simp) hraised (h _ _ _ _ _)

end WPanel.Billing.Gateways
