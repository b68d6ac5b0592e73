import WPanel.Billing.PaymentMoves
import WPanel.Lib.Delivery
import Mathlib.Data.Set.Insert

namespace WPanel.Billing

open WPanel.Lib

/-!
# Gateway events in any order

The gateway may deliver its events in any order and more than once.  This file shows that only
the set of events matters for where transactions and invoices end.

* `Standing` — what of an invoice the events decide: its transactions, what they add up to and
  its status; `Standing.hear` is what one event does to it;
* `View.hear` — the receiver: an event id it has seen changes nothing;
* `View.hear_orderFree` — the receiver does not care about the order;
* `view_deliver` — `handle_webhook` is that receiver;
* `deliveries_agree` — two deliveries of the same events end alike.
-/

/-! ### What an event does to a transaction -/

/-- The fields of a transaction that decide what an event does to it, and what it counts. -/
structure Row where
  type : TransactionType
  amount : ℤ
  currency : String
  status : TransactionStatus

def Transaction.row (tx : Transaction) : Row := ⟨tx.type, tx.amount, tx.currency, tx.status⟩

/-- What an event says about a transaction. -/
inductive Verdict where
  | confirmed
  | failed
  | nothing

def Row.verdict (event : PaymentEvent) (row : Row) : Verdict :=
  if event.type = "payment.failed" then .failed
  else if event.type = "payment.succeeded" ∧ event.amount.map money = some row.amount
      ∧ event.currency = row.currency then .confirmed
  else .nothing

/-- A pending payment fails, a confirmed one succeeds; nothing else changes. -/
def TransactionStatus.hear : Verdict → TransactionStatus → TransactionStatus
  | .confirmed, _ => .succeeded
  | .failed, .pending => .failed
  | _, status => status

def Row.hear (event : PaymentEvent) (row : Row) : Row :=
  { row with status := row.status.hear (row.verdict event) }

/-- What a transaction counts: nothing, until it has succeeded. -/
def Row.counted (row : Row) : Option (TransactionType × ℤ) :=
  if row.status = .succeeded then some (row.type, row.amount) else none

theorem TransactionStatus.hear_comm (v v' : Verdict) (status : TransactionStatus) :
    (status.hear v).hear v' = (status.hear v').hear v := by
  cases v <;> cases v' <;> cases status <;> rfl

/-- What has succeeded stays so. -/
theorem TransactionStatus.hear_succeeded (v : Verdict) :
    TransactionStatus.succeeded.hear v = .succeeded := by
  cases v <;> rfl

/-- Two events can change places: neither changes what the other is compared with. -/
theorem Row.hear_comm (a b : PaymentEvent) (row : Row) :
    (row.hear a).hear b = (row.hear b).hear a :=
  congrArg (Row.mk row.type row.amount row.currency) (TransactionStatus.hear_comm _ _ _)

/-- A row that counts keeps counting the same. -/
theorem Row.counted_hear {row : Row} (event : PaymentEvent) (h : row.status = .succeeded) :
    (row.hear event).counted = row.counted := by
  unfold Row.counted Row.hear
  rw [h, TransactionStatus.hear_succeeded]

/-- Where a second event leaves a row counting what it did at first, so did the event before. -/
theorem Row.counted_hear_of_back {a b : PaymentEvent} {row : Row}
    (h : ((row.hear a).hear b).counted = row.counted) : (row.hear a).counted = row.counted := by
  by_cases hrow : row.status = .succeeded
  · exact row.counted_hear a hrow
  · by_cases ha : (row.hear a).status = .succeeded
    · rw [← h, Row.counted_hear b ha]
    · rw [Row.counted, Row.counted, if_neg hrow, if_neg ha]

/-! ### What an event does to an invoice -/

/-- What of an invoice the events decide. -/
structure Standing where
  rows : List Row
  total : ℤ
  amountPaid : ℤ
  status : InvoiceStatus

def Ledger.standing (l : Ledger) : Standing where
  rows := l.transactions.map Transaction.row
  total := l.invoice.total
  amountPaid := l.invoice.amountPaid
  status := l.invoice.status

/-- What counts towards `type`. -/
def sumOf (type : TransactionType) (counted : List (Option (TransactionType × ℤ))) : ℤ :=
  ((counted.map fun row => (row.filter (·.1 = type)).elim 0 Prod.snd)).sum

/-- The invoice with other rows; its position is derived again when they count differently. -/
def Standing.settle (st : Standing) (rows : List Row) : Standing :=
  let counted := rows.map Row.counted
  if counted = st.rows.map Row.counted then { st with rows }
  else { st with
    rows
    amountPaid := sumOf .payment counted
    status := if st.status ≠ .draft ∧ st.status ≠ .cancelled then
        statusFor (sumOf .payment counted) (sumOf .refund counted) st.total
      else st.status }

/-- The row at `index` hears an event. -/
def Standing.hear (event : PaymentEvent) (index : ℕ) (st : Standing) : Standing :=
  st.settle (st.rows.modify index (Row.hear event))

theorem statusFor_ne (paid refunded total : ℤ) :
    statusFor paid refunded total ≠ .draft ∧ statusFor paid refunded total ≠ .cancelled := by
  unfold statusFor
  split_ifs <;> decide

/-- Two changes of the rows are one, unless the second takes back what the first counted. -/
theorem Standing.settle_settle {st : Standing} {rows rows' : List Row}
    (hback : rows'.map Row.counted = st.rows.map Row.counted →
      rows.map Row.counted = st.rows.map Row.counted) :
    (st.settle rows).settle rows' = st.settle rows' := by
  by_cases h : rows.map Row.counted = st.rows.map Row.counted
  · -- the first change counted nothing
    have hfirst : st.settle rows = { st with rows } := if_pos h
    rw [hfirst]
    unfold Standing.settle
    simp only [h]
  · have hback' : ¬rows'.map Row.counted = st.rows.map Row.counted := fun hb => h (hback hb)
    unfold Standing.settle
    simp only [if_neg h, if_neg hback']
    by_cases h' : rows'.map Row.counted = rows.map Row.counted
    · rw [if_pos h', h']
    · rw [if_neg h']
      by_cases hst : st.status ≠ .draft ∧ st.status ≠ .cancelled
      · have hne := statusFor_ne (sumOf .payment (rows.map Row.counted))
          (sumOf .refund (rows.map Row.counted)) st.total
        rw [if_pos hst, if_pos hst, if_pos hne]
      · rw [if_neg hst, if_neg hst]

/-- A row that counts the same after an event leaves its invoice counting the same. -/
theorem counted_modify {rows : List Row} {event : PaymentEvent} {i : ℕ} {row : Row}
    (hrow : rows[i]? = some row) (h : (row.hear event).counted = row.counted) :
    (rows.modify i (Row.hear event)).map Row.counted = rows.map Row.counted := by
  apply List.ext_getElem?
  intro k
  simp only [List.getElem?_map, List.getElem?_modify, Option.map_eq_map]
  by_cases hk : i = k
  · subst hk
    simp [hrow, h]
  · simp [hk]

/-- Rows heard one after the other: what the last leaves as it was, so did the first. -/
theorem counted_modify_of_back {rows : List Row} {a b : PaymentEvent} {i j : ℕ}
    (h : ((rows.modify i (Row.hear a)).modify j (Row.hear b)).map Row.counted
      = rows.map Row.counted) :
    (rows.modify i (Row.hear a)).map Row.counted = rows.map Row.counted := by
  apply List.ext_getElem?
  intro k
  have hk := congrArg (fun counted => counted[k]?) h
  simp only [List.getElem?_map, List.getElem?_modify, Option.map_eq_map] at hk ⊢
  cases hrow : rows[k]? with
  | none => simp
  | some row =>
    rw [hrow] at hk
    by_cases hi : i = k
    · simp only [hi, if_true, Option.map_some] at hk ⊢
      by_cases hj : j = k
      · simp only [hj, if_true, Option.some.injEq] at hk
        rw [Row.counted_hear_of_back hk]
      · simpa [hj] using hk
    · simp [hi]

/-- **Two events can change places on an invoice.** -/
theorem Standing.hear_comm (a b : PaymentEvent) (i j : ℕ) (st : Standing) :
    (st.hear a i).hear b j = (st.hear b j).hear a i := by
  have hrows : ∀ (st : Standing) rows, (st.settle rows).rows = rows := by
    intro st rows
    unfold Standing.settle
    simp only
    split <;> rfl
  have hswap : (st.rows.modify i (Row.hear a)).modify j (Row.hear b)
      = (st.rows.modify j (Row.hear b)).modify i (Row.hear a) := by
    by_cases hij : i = j
    · subst hij
      rw [List.modify_modify_eq, List.modify_modify_eq]
      congr 1
      funext row
      exact Row.hear_comm a b row
    · exact List.modify_modify_ne _ _ _ hij
  unfold Standing.hear
  rw [hrows, hrows, Standing.settle_settle counted_modify_of_back,
    Standing.settle_settle counted_modify_of_back, hswap]

/-- An event that leaves its row as it is leaves the invoice as it is. -/
theorem Standing.hear_of_same {event : PaymentEvent} {index : ℕ} {st : Standing}
    (h : ∀ row, st.rows[index]? = some row → row.hear event = row) : st.hear event index = st := by
  have hrows : st.rows.modify index (Row.hear event) = st.rows := by
    apply List.ext_getElem?
    intro k
    rw [List.getElem?_modify]
    by_cases hk : index = k
    · subst hk
      cases hrow : st.rows[index]? with
      | none => rfl
      | some row => simp [h row hrow]
    · simp [hk]
  unfold Standing.hear
  rw [hrows]
  exact if_pos rfl

/-! ### The receiver -/

/-- The payment a gateway means by an external id. -/
abbrev Locate := ℕ → String → Option TxId

/-- Where every invoice stands, and the event ids that were received. -/
structure View where
  standing : ℕ → Option Standing
  seen : Set (ℕ × String)

/-- A message of a gateway: its key and the event. -/
abbrev Message := ℕ × PaymentEvent

def Message.key (message : Message) : ℕ × String := (message.1, message.2.eventId)

/-- The invoices after one of them heard an event about its transaction `id`. -/
def afterEvent (id : Option TxId) (event : PaymentEvent) (standing : ℕ → Option Standing) :
    ℕ → Option Standing :=
  match id with
  | none => standing
  | some id => Function.update standing id.invoice
      ((standing id.invoice).map (Standing.hear event id.index))

open Classical in
/-- A message is heard once; its event id is kept. -/
noncomputable def View.hear (locate : Locate) (view : View) (message : Message) : View :=
  if message.key ∈ view.seen then view
  else {
    standing := afterEvent (locate message.1 message.2.externalId) message.2 view.standing
    seen := insert message.key view.seen }

theorem afterEvent_comm (id id' : Option TxId) (a b : PaymentEvent)
    (standing : ℕ → Option Standing) :
    afterEvent id' b (afterEvent id a standing) = afterEvent id a (afterEvent id' b standing) := by
  cases id with
  | none => rfl
  | some id =>
    cases id' with
    | none => rfl
    | some id' =>
      unfold afterEvent
      by_cases hq : id'.invoice = id.invoice
      · simp only [hq, Function.update_self, Function.update_idem, Option.map_map]
        congr 2
        funext st
        exact Standing.hear_comm a b id.index id'.index st
      · simp only [Function.update_of_ne hq, Function.update_of_ne (Ne.symm hq)]
        exact (Function.update_comm (Ne.symm hq) _ _ _)

theorem View.hear_seen {locate : Locate} {view : View} {message : Message}
    (h : message.key ∈ view.seen) : view.hear locate message = view := if_pos h

theorem View.hear_new {locate : Locate} {view : View} {message : Message}
    (h : message.key ∉ view.seen) :
    view.hear locate message = {
      standing := afterEvent (locate message.1 message.2.externalId) message.2 view.standing
      seen := insert message.key view.seen } := if_neg h

/-- **The receiver does not care about the order**, nor about repetitions, where an event id
    stands for one event. -/
theorem View.hear_orderFree {locate : Locate} {S : Message → Prop}
    (hids : ∀ a b, S a → S b → a.key = b.key → a = b) : OrderFree (View.hear locate) S := by
  constructor
  · intro view a b ha hb
    by_cases hab : a = b
    · rw [hab]
    have hkey : a.key ≠ b.key := fun h => hab (hids a b ha hb h)
    by_cases hseenA : a.key ∈ view.seen
    · rw [View.hear_seen hseenA]
      by_cases hseenB : b.key ∈ view.seen
      · rw [View.hear_seen hseenB, View.hear_seen hseenA]
      · rw [View.hear_new hseenB, View.hear_seen (Set.mem_insert_of_mem _ hseenA)]
    · rw [View.hear_new hseenA]
      by_cases hseenB : b.key ∈ view.seen
      · rw [View.hear_seen hseenB, View.hear_seen (Set.mem_insert_of_mem _ hseenB),
          View.hear_new hseenA]
      · -- both are new: each is heard, whichever comes first
        have hA : a.key ∉ insert b.key view.seen := by simp [hseenA, hkey]
        have hB : b.key ∉ insert a.key view.seen := by simp [hseenB, hkey.symm]
        rw [View.hear_new hB, View.hear_new hseenB, View.hear_new hA, afterEvent_comm,
          Set.insert_comm]
  · intro view a _
    by_cases hseen : a.key ∈ view.seen
    · rw [View.hear_seen hseen, View.hear_seen hseen]
    · rw [View.hear_new hseen, View.hear_seen (Set.mem_insert _ _)]

/-! ### `handle_webhook` is that receiver -/

def Store.view (s : Store) : View where
  standing := fun pk => (s.invoices.get? pk).map Ledger.standing
  seen := {key | ∃ w ∈ s.webhookEvents, (w.provider, w.eventId) = key}

theorem sumOf_rows (type : TransactionType) (txs : List Transaction) :
    sumOf type ((txs.map Transaction.row).map Row.counted) = succeededTotal type txs := by
  unfold sumOf succeededTotal
  induction txs with
  | nil => rfl
  | cons tx txs ih =>
    rw [List.map_cons, List.map_cons, List.map_cons, List.sum_cons, ih, List.filter_cons]
    by_cases hstatus : tx.status = .succeeded <;> by_cases htype : tx.type = type <;>
      simp [Row.counted, Transaction.row, hstatus, htype, Option.filter]

/-- Reading the booked invoice is settling its rows anew. -/
theorem standing_book {l : Ledger} {now : Moment} {pk : ℕ} {txs : List Transaction}
    (h : (txs.map Transaction.row).map Row.counted
      ≠ (l.transactions.map Transaction.row).map Row.counted) :
    (l.book now pk txs).1.standing = l.standing.settle (txs.map Transaction.row) := by
  have hnew : l.standing.settle (txs.map Transaction.row) = _ := if_neg h
  rw [hnew, sumOf_rows, sumOf_rows]
  rfl

/-- A transaction written over is the row at its place changed. -/
theorem rows_set {txs : List Transaction} {index : ℕ} {tx tx' : Transaction} {f : Row → Row}
    (htx : txs[index]? = some tx) (hrow : tx'.row = f tx.row) :
    (txs.set index tx').map Transaction.row = (txs.map Transaction.row).modify index f := by
  obtain ⟨hlt, hget⟩ := List.getElem?_eq_some_iff.mp htx
  apply List.ext_getElem?
  intro k
  simp only [List.getElem?_map, List.getElem?_modify, List.getElem?_set, Option.map_eq_map]
  by_cases hk : index = k
  · subst hk
    simp [hlt, hget, hrow]
  · simp [hk, Function.comp_def]

section

variable {s : Store} {l l' : Ledger} {id : TxId}

/-- Writing an invoice moves its standing only. -/
theorem standing_putInvoice (hl : s.invoices.get? id.invoice = some l) :
    (s.putInvoice id.invoice l').view.standing
      = Function.update s.view.standing id.invoice (some l'.standing) := by
  funext q
  show ((s.invoices.put id.invoice l').get? q).map Ledger.standing = _
  rw [Table.get?_put hl, Function.update_apply]
  split <;> rfl

/-- A gateway finds its payment where it was while what it looks for is unchanged. -/
theorem findPayment_putInvoice (hl : s.invoices.get? id.invoice = some l)
    (htxs : (l'.transactions.map fun tx => (tx.provider, tx.externalId, tx.type))
      = l.transactions.map fun tx => (tx.provider, tx.externalId, tx.type))
    (provider : ℕ) (externalId : String) :
    findPayment (s.putInvoice id.invoice l') provider externalId
      = findPayment s provider externalId := by
  -- what the query reads of a transaction, with its key
  let read : TxId × Transaction → TxId × Option ℕ × String × TransactionType :=
    fun p => (p.1, p.2.provider, p.2.externalId, p.2.type)
  have hfind : ∀ rows : List (TxId × Transaction),
      (rows.find? fun p => p.2.provider = some provider ∧ p.2.externalId = externalId
        ∧ p.2.type = .payment).map Prod.fst
      = ((rows.map read).find? fun p => p.2.1 = some provider ∧ p.2.2.1 = externalId
        ∧ p.2.2.2 = .payment).map Prod.fst := by
    intro rows
    rw [List.find?_map, Option.map_map]
    rfl
  have hread : (s.putInvoice id.invoice l').transactions.map read = s.transactions.map read := by
    unfold Store.transactions Store.putInvoice
    rw [List.map_flatMap, List.map_flatMap]
    apply Table.flatMap_entries_put hl
    simp only [List.map_map]
    have hzip : ∀ txs : List Transaction,
        txs.zipIdx.map (read ∘ fun entry => (⟨id.invoice, entry.2⟩, entry.1))
          = (txs.map fun tx => (tx.provider, tx.externalId, tx.type)).zipIdx.map
              fun entry => (⟨id.invoice, entry.2⟩, entry.1) := by
      intro txs
      rw [List.zipIdx_map, List.map_map]
      rfl
    have hsame := (hzip l'.transactions).trans (htxs ▸ (hzip l.transactions).symm)
    exact hsame
  unfold findPayment
  rw [hfind, hfind, hread]

/-- An invoice that heard an event, written back. -/
private theorem afterEvent_putInvoice {event : PaymentEvent}
    (hl : s.invoices.get? id.invoice = some l)
    (hstanding : l'.standing = l.standing.hear event id.index) :
    (s.putInvoice id.invoice l').view.standing = afterEvent (some id) event s.view.standing := by
  have hbefore : s.view.standing id.invoice = some l.standing := by simp [Store.view, hl]
  rw [standing_putInvoice hl, hstanding, afterEvent, hbefore, Option.map_some]

section

variable {tx tx' : Transaction} {event : PaymentEvent}

/-- A transaction that heard an event and counts what it did. -/
private theorem standing_set (htx : l.transactions[id.index]? = some tx)
    (hrow : tx'.row = tx.row.hear event) (hcounted : tx'.row.counted = tx.row.counted) :
    ({ l with transactions := l.transactions.set id.index tx' } : Ledger).standing
      = l.standing.hear event id.index := by
  have hplace : l.standing.rows[id.index]? = some tx.row := by
    show (l.transactions.map Transaction.row)[id.index]? = _
    rw [List.getElem?_map, htx]
    rfl
  rw [hrow] at hcounted
  rw [Standing.hear, Standing.settle, if_pos (counted_modify hplace hcounted),
    show l.standing.rows = l.transactions.map Transaction.row from rfl, ← rows_set htx hrow]
  rfl

/-- A transaction that heard an event and counts from now on. -/
private theorem standing_set_book {now : Moment} {pk : ℕ}
    (htx : l.transactions[id.index]? = some tx) (hrow : tx'.row = tx.row.hear event)
    (hcounted : tx'.row.counted ≠ tx.row.counted) :
    (l.book now pk (l.transactions.set id.index tx')).1.standing
      = l.standing.hear event id.index := by
  rw [Standing.hear, show l.standing.rows = l.transactions.map Transaction.row from rfl,
    ← rows_set htx hrow]
  apply standing_book
  intro hsame
  apply hcounted
  have hplace := congrArg (fun counted => counted[id.index]?) hsame
  obtain ⟨hlt, hget⟩ := List.getElem?_eq_some_iff.mp htx
  simpa [hlt, hget] using hplace

/-- Writing a transaction over leaves what gateways look for. -/
private theorem named_set (htx : l.transactions[id.index]? = some tx)
    (hprovider : tx'.provider = tx.provider) (hexternal : tx'.externalId = tx.externalId)
    (htype : tx'.type = tx.type) :
    ((l.transactions.set id.index tx').map fun tx => (tx.provider, tx.externalId, tx.type))
      = l.transactions.map fun tx => (tx.provider, tx.externalId, tx.type) := by
  obtain ⟨hlt, hget⟩ := List.getElem?_eq_some_iff.mp htx
  apply List.ext_getElem?
  intro k
  simp only [List.getElem?_map, List.getElem?_set]
  by_cases hk : id.index = k
  · subst hk
    simp [hlt, hget, hprovider, hexternal, htype]
  · simp [hk]

end

/-- A transaction that an event tells nothing new leaves every invoice where it stands. -/
private theorem afterEvent_same {tx : Transaction} {event : PaymentEvent}
    (hl : s.invoices.get? id.invoice = some l) (htx : l.transactions[id.index]? = some tx)
    (hsame : tx.row.hear event = tx.row) :
    s.view.standing = afterEvent (some id) event s.view.standing := by
  have hstanding : s.view.standing id.invoice = some l.standing := by simp [Store.view, hl]
  have hhear : l.standing.hear event id.index = l.standing := by
    apply Standing.hear_of_same
    intro row hrow
    have : (l.transactions.map Transaction.row)[id.index]? = some tx.row := by
      rw [List.getElem?_map, htx]
      rfl
    obtain rfl : row = tx.row := Option.some.inj (hrow.symm.trans this)
    exact hsame
  rw [afterEvent, hstanding, Option.map_some, hhear, ← hstanding, Function.update_eq_self]

end

/-- What `_apply_event` leaves behind. -/
structure Applied (s s' : Store) (provider : ℕ) (event : PaymentEvent) : Prop where
  standing : s'.view.standing
    = afterEvent (findPayment s provider event.externalId) event s.view.standing
  webhookEvents : s'.webhookEvents = s.webhookEvents
  findPayment : ∀ provider externalId, findPayment s' provider externalId
    = findPayment s provider externalId

/-- **`_apply_event` never raises, and its event is heard.** -/
theorem applyEvent_applied (env : Env) (provider : ℕ) (event : PaymentEvent) (s : Store) :
    ∃ status detail s' out, applyEvent env provider event s = .ok (status, detail, s', out)
      ∧ Applied s s' provider event := by
  have hunchanged : s.view.standing = afterEvent (findPayment s provider event.externalId) event
      s.view.standing → Applied s s provider event := fun h => ⟨h, rfl, fun _ _ => rfl⟩
  cases hfind : findPayment s provider event.externalId with
  | none =>
    have happlied := hunchanged (by rw [hfind]; rfl)
    unfold applyEvent
    split
    · exact ⟨_, _, _, _, rfl, happlied⟩
    · simp only [hfind]
      exact ⟨_, _, _, _, rfl, happlied⟩
  | some id =>
    obtain ⟨l, tx, ⟨hl, htx⟩, _, _, htype⟩ := findPayment_some hfind
    have hsame : tx.row.hear event = tx.row → Applied s s provider event := fun h =>
      hunchanged (by rw [hfind]; exact afterEvent_same hl htx h)
    have hverdict : ∀ v, tx.row.verdict event = v → tx.row.hear event
        = { tx.row with status := tx.status.hear v } := fun v h => by rw [Row.hear, h]; rfl
    unfold applyEvent
    split
    · -- an event of another type
      next htypes =>
      have hnothing : tx.row.verdict event = .nothing := by
        simp [Row.verdict, htypes.1, htypes.2]
      exact ⟨_, _, _, _, rfl, hsame (by rw [hverdict _ hnothing]; rfl)⟩
    · next htypes =>
      simp only [hfind, lockInvoice_eq_ok.mpr hl, lockTransaction_eq_ok.mpr htx, ok_bind]
      by_cases hfailed : event.type = "payment.failed"
      · have hfails : tx.row.verdict event = .failed := if_pos hfailed
        rw [if_pos hfailed]
        by_cases hpending : tx.status = .pending
        · rw [if_neg (not_not.mpr hpending)]
          have hhear : tx.row.hear event = { tx.row with status := .failed } := by
            rw [hverdict _ hfails, hpending]
            rfl
          refine ⟨_, _, _, _, rfl,
            ⟨?_, rfl, findPayment_putInvoice hl (named_set htx rfl rfl rfl)⟩⟩
          rw [hfind]
          apply afterEvent_putInvoice hl
          apply standing_set htx hhear.symm
          -- a failed payment counts no more than a pending one
          simp [Row.counted, Transaction.row, hpending]
        · rw [if_pos hpending]
          refine ⟨_, _, _, _, rfl, hsame ?_⟩
          rw [hverdict _ hfails]
          have hstays : tx.status.hear .failed = tx.status := by
            cases hstatus : tx.status with
            | pending => exact absurd hstatus hpending
            | succeeded => rfl
            | failed => rfl
          rw [hstays]
          rfl
      · rw [if_neg hfailed]
        have hsucceeded : event.type = "payment.succeeded" := by
          by_contra hne
          exact htypes ⟨hne, hfailed⟩
        by_cases hdone : tx.status = .succeeded
        · rw [if_pos hdone]
          refine ⟨_, _, _, _, rfl, hsame ?_⟩
          rw [hverdict _ rfl, hdone, TransactionStatus.hear_succeeded, ← hdone]
          rfl
        · rw [if_neg hdone]
          split
          · next hmatch =>
            have hnothing : tx.row.verdict event = .nothing := by
              rw [Row.verdict, if_neg hfailed, if_neg]
              rintro ⟨_, hamount, hcurrency⟩
              exact hmatch.elim (· hamount) (· hcurrency)
            exact ⟨_, _, _, _, rfl, hsame (by rw [hverdict _ hnothing]; rfl)⟩
          · next hmatch =>
            push Not at hmatch
            have hconfirmed : tx.row.verdict event = .confirmed := by
              rw [Row.verdict, if_neg hfailed, if_pos ⟨hsucceeded, hmatch⟩]
            have hhear : tx.row.hear event = { tx.row with status := .succeeded } :=
              hverdict _ hconfirmed
            refine ⟨_, _, _, _, rfl,
              ⟨?_, rfl, findPayment_putInvoice hl (named_set htx rfl rfl rfl)⟩⟩
            rw [hfind]
            apply afterEvent_putInvoice hl
            apply standing_set_book htx hhear.symm
            -- the payment had not succeeded before
            simp [Row.counted, Transaction.row, hdone]

/-! ### Deliveries -/

/-- A verified event that reaches the panel at some moment. -/
structure Delivery where
  env : Env
  provider : ℕ
  event : PaymentEvent

def Delivery.message (d : Delivery) : Message := (d.provider, d.event)

/-- `handle_webhook` on a verified event; a request that raises changes nothing. -/
def deliver (s : Store) (d : Delivery) : Store :=
  match handleWebhook d.env d.provider (.ok (.ok d.event)) s with
  | .ok (_, s', _) => s'
  | .error _ => s

/-- Deliveries one after the other. -/
def deliverAll (s : Store) (ds : List Delivery) : Store := ds.foldl deliver s

theorem received_iff {s : Store} {d : Delivery} :
    Received s d.provider d.event ↔ d.message.key ∈ s.view.seen := by
  constructor
  · rintro ⟨w, hw, hprovider, hid⟩
    exact ⟨w, hw, Prod.ext hprovider hid⟩
  · rintro ⟨w, hw, hkey⟩
    exact ⟨w, hw, congrArg Prod.fst hkey, congrArg Prod.snd hkey⟩

/-- **`handle_webhook` takes every verified event**, and is the receiver of `View`. -/
theorem view_deliver (s : Store) (d : Delivery) :
    (handleWebhook d.env d.provider (.ok (.ok d.event)) s).isOk = true
      ∧ (deliver s d).view = s.view.hear (findPayment s) d.message
      ∧ findPayment (deliver s d) = findPayment s := by
  by_cases hrec : Received s d.provider d.event
  · have hrun : handleWebhook d.env d.provider (.ok (.ok d.event)) s
        = .ok (.duplicate, s, []) := by
      unfold handleWebhook
      exact if_pos hrec
    have hdeliver : deliver s d = s := by rw [deliver, hrun]
    rw [hdeliver, hrun, View.hear_seen (received_iff.mp hrec)]
    exact ⟨rfl, rfl, rfl⟩
  · obtain ⟨status, detail, s', out, happly, happlied⟩ :=
      applyEvent_applied d.env d.provider d.event s
    let w : WebhookEvent := {
      provider := d.provider, eventId := d.event.eventId, eventType := d.event.type, status
      detail := clip 500 detail }
    have hrun : handleWebhook d.env d.provider (.ok (.ok d.event)) s = .ok (.applied status detail,
        { s' with webhookEvents := s'.webhookEvents ++ [w] }, out) := by
      unfold handleWebhook
      refine (if_neg hrec).trans ?_
      rw [happly]
      rfl
    have hdeliver : deliver s d = { s' with webhookEvents := s'.webhookEvents ++ [w] } := by
      rw [deliver, hrun]
    have hseen : (deliver s d).view.seen = insert d.message.key s.view.seen := by
      rw [hdeliver]
      ext key
      simp only [Store.view, happlied.webhookEvents, List.mem_append, List.mem_singleton,
        Set.mem_ofPred_eq, Set.mem_insert_iff]
      constructor
      · rintro ⟨w', hw' | rfl, rfl⟩
        · exact .inr ⟨w', hw', rfl⟩
        · exact .inl rfl
      · rintro (rfl | ⟨w', hw', rfl⟩)
        · exact ⟨w, .inr rfl, rfl⟩
        · exact ⟨w', .inl hw', rfl⟩
    refine ⟨by rw [hrun]; rfl, ?_, ?_⟩
    · rw [View.hear_new (fun h => hrec (received_iff.mpr h))]
      have hstanding : (deliver s d).view.standing
          = afterEvent (findPayment s d.provider d.event.externalId) d.event s.view.standing := by
        rw [hdeliver]
        exact happlied.standing
      calc (deliver s d).view
          = ⟨(deliver s d).view.standing, (deliver s d).view.seen⟩ := rfl
        _ = _ := by rw [hstanding, hseen]; rfl
    · rw [hdeliver]
      funext provider externalId
      exact happlied.findPayment provider externalId

/-- A run of deliveries is a run of the receiver. -/
theorem view_deliverAll (s : Store) (ds : List Delivery) :
    (deliverAll s ds).view
      = (ds.map Delivery.message).foldl (View.hear (findPayment s)) s.view := by
  induction ds generalizing s with
  | nil => rfl
  | cons d ds ih =>
    obtain ⟨_, hview, hfind⟩ := view_deliver s d
    show (deliverAll (deliver s d) ds).view = _
    rw [ih, hview, hfind]
    rfl

/-! ### Every amount counts once -/

/-- The same transactions for the same amounts, and a position that adds them up still does. -/
structure Standing.Tallied (st st' : Standing) : Prop where
  rows : (st'.rows.map fun row => (row.type, row.amount))
    = st.rows.map fun row => (row.type, row.amount)
  paid : st.amountPaid = sumOf .payment (st.rows.map Row.counted) →
    st'.amountPaid = sumOf .payment (st'.rows.map Row.counted)

theorem Standing.Tallied.trans {st st' st'' : Standing} (h : st.Tallied st')
    (h' : st'.Tallied st'') : st.Tallied st'' :=
  ⟨h'.rows.trans h.rows, fun hpaid => h'.paid (h.paid hpaid)⟩

theorem Standing.hear_tallied (event : PaymentEvent) (index : ℕ) (st : Standing) :
    st.Tallied (st.hear event index) := by
  have hrows : ((st.rows.modify index (Row.hear event)).map fun row => (row.type, row.amount))
      = st.rows.map fun row => (row.type, row.amount) := by
    apply List.ext_getElem?
    intro k
    simp only [List.getElem?_map, List.getElem?_modify, Option.map_eq_map]
    cases st.rows[k]? with
    | none => rfl
    | some row =>
      by_cases hk : index = k
      · simp [hk, Row.hear]
      · simp [hk]
  unfold Standing.hear Standing.settle
  simp only
  split
  · next h => exact ⟨hrows, fun hpaid => hpaid.trans (congrArg _ h.symm)⟩
  · exact ⟨hrows, fun _ => rfl⟩

theorem View.hear_tallied {locate : Locate} {view : View} {message : Message} {pk : ℕ}
    {st : Standing} (h : view.standing pk = some st) :
    ∃ st', (view.hear locate message).standing pk = some st' ∧ st.Tallied st' := by
  by_cases hseen : message.key ∈ view.seen
  · rw [View.hear_seen hseen]
    exact ⟨st, h, rfl, id⟩
  · rw [View.hear_new hseen]
    show ∃ st', afterEvent _ _ _ pk = some st' ∧ _
    cases locate message.1 message.2.externalId with
    | none => exact ⟨st, h, rfl, id⟩
    | some id' =>
      rw [afterEvent, Function.update_apply]
      split
      · next hpk =>
        rw [← hpk, h]
        exact ⟨_, rfl, st.hear_tallied message.2 id'.index⟩
      · exact ⟨st, h, rfl, id⟩

theorem View.foldl_tallied {locate : Locate} (messages : List Message) {view : View} {pk : ℕ}
    {st : Standing} (h : view.standing pk = some st) :
    ∃ st', (messages.foldl (View.hear locate) view).standing pk = some st' ∧ st.Tallied st' := by
  induction messages generalizing view st with
  | nil => exact ⟨st, h, rfl, id⟩
  | cons message messages ih =>
    obtain ⟨st', h', htallied⟩ := View.hear_tallied h
    obtain ⟨st'', h'', htallied'⟩ := ih h'
    exact ⟨st'', h'', htallied.trans htallied'⟩

/-! ### Two deliveries of the same events -/

/-- **Only the set of events matters.**  Whatever the order, the moments and the repetitions:
    every transaction ends in the same status, and every invoice with the same amount paid and
    the same status.  The invoice has the same transactions as before, and what it counts as
    paid is what the succeeded ones add up to, each once. -/
theorem deliveries_agree (s : Store) {ds ds' : List Delivery}
    (hsame : ∀ message, message ∈ ds.map Delivery.message ↔ message ∈ ds'.map Delivery.message)
    (hids : ∀ d ∈ ds, ∀ d' ∈ ds, d.provider = d'.provider →
      d.event.eventId = d'.event.eventId → d.event = d'.event) :
    ∀ pk l, s.invoices.get? pk = some l → ∃ l₁ l₂,
      (deliverAll s ds).invoices.get? pk = some l₁
      ∧ (deliverAll s ds').invoices.get? pk = some l₂
      ∧ l₁.transactions.map (·.status) = l₂.transactions.map (·.status)
      ∧ l₁.invoice.amountPaid = l₂.invoice.amountPaid
      ∧ l₁.invoice.status = l₂.invoice.status
      ∧ (l₁.transactions.map fun tx => (tx.type, tx.amount))
          = l.transactions.map (fun tx => (tx.type, tx.amount))
      ∧ (l.invoice.amountPaid = l.paidTotal → l₁.invoice.amountPaid = l₁.paidTotal) := by
  intro pk l hl
  have hfree : OrderFree (View.hear (findPayment s)) (· ∈ ds.map Delivery.message) := by
    apply View.hear_orderFree
    intro a b ha hb hkey
    obtain ⟨d, hd, rfl⟩ := List.mem_map.mp ha
    obtain ⟨d', hd', rfl⟩ := List.mem_map.mp hb
    obtain ⟨hprovider, hid⟩ := Prod.mk.inj hkey
    exact Prod.ext hprovider (hids d hd d' hd' hprovider hid)
  have hview : (deliverAll s ds).view = (deliverAll s ds').view := by
    rw [view_deliverAll, view_deliverAll]
    exact foldl_eq_of_mem_iff hfree (fun _ h => h) hsame s.view
  have hstanding : s.view.standing pk = some l.standing := by simp [Store.view, hl]
  obtain ⟨st, hst, htallied⟩ := View.foldl_tallied
    (ds.map Delivery.message) hstanding
  rw [← view_deliverAll] at hst
  have hst' := hview ▸ hst
  obtain ⟨l₁, hl₁, rfl⟩ := Option.map_eq_some_iff.mp hst
  obtain ⟨l₂, hl₂, heq⟩ := Option.map_eq_some_iff.mp hst'
  refine ⟨l₁, l₂, hl₁, hl₂, ?_, congrArg Standing.amountPaid heq.symm,
    congrArg Standing.status heq.symm, ?_, ?_⟩
  · have hrows := congrArg (fun st => st.rows.map Row.status) heq.symm
    simpa [Ledger.standing, Function.comp_def, Transaction.row] using hrows
  · simpa [Ledger.standing, Function.comp_def, Transaction.row] using htallied.rows
  · have hpaid := htallied.paid
    simp only [Ledger.standing, sumOf_rows] at hpaid
    exact hpaid

/-! ### An online payment and four messages -/

def webhookEnv (second : ℕ) : Env where
  now := ⟨⟨2026, 1, 1, by decide, by decide⟩, second⟩
  localdate := fun moment => moment.date.toOrdinal
  isoDay := fun _ => "2026-01-01"
  clients := fun _ => { currency := "USD" }

/-- An open invoice of 100.00 with one payment started through the gateway `7`. -/
def startedOnline : Store where
  invoices := Table.insert {} {
    invoice := { client := 0, currency := "USD", status := .unpaid, number := "INV-000001"
                 subtotal := 10000, total := 10000 }
    items := []
    transactions := [{ type := .payment, status := .pending, amount := 10000, currency := "USD"
                       provider := some 7, externalId := "pay_1"
                       occurredAt := (webhookEnv 0).now }] }

def declined : PaymentEvent :=
  { eventId := "evt_1", type := "payment.failed", externalId := "pay_1" }

def paidShort : PaymentEvent :=
  { eventId := "evt_2", type := "payment.succeeded", externalId := "pay_1", amount := some 90
    currency := "USD" }

def paidInFull : PaymentEvent :=
  { eventId := "evt_3", type := "payment.succeeded", externalId := "pay_1", amount := some 100
    currency := "USD" }

/-- Declined, a wrong amount, paid — or paid first, the rest late, and the payment told twice. -/
def inOrder : List Delivery :=
  [⟨webhookEnv 1, 7, declined⟩, ⟨webhookEnv 2, 7, paidShort⟩, ⟨webhookEnv 3, 7, paidInFull⟩]

def outOfOrder : List Delivery :=
  [⟨webhookEnv 1, 7, paidInFull⟩, ⟨webhookEnv 2, 7, paidShort⟩, ⟨webhookEnv 3, 7, paidInFull⟩,
    ⟨webhookEnv 4, 7, declined⟩]

theorem deliveries_agree_declined :
    ∃ l₁ l₂, (deliverAll startedOnline inOrder).invoices.get? 0 = some l₁
      ∧ (deliverAll startedOnline outOfOrder).invoices.get? 0 = some l₂
      ∧ l₁.transactions.map (·.status) = l₂.transactions.map (·.status)
      ∧ l₁.invoice.amountPaid = l₂.invoice.amountPaid
      ∧ l₁.invoice.status = l₂.invoice.status := by
  have hsame : ∀ message, message ∈ inOrder.map Delivery.message
      ↔ message ∈ outOfOrder.map Delivery.message := by
    intro message
    simp only [inOrder, outOfOrder, Delivery.message, List.map_cons, List.map_nil, List.mem_cons,
      List.not_mem_nil, or_false]
    tauto
  have hids : ∀ d ∈ inOrder, ∀ d' ∈ inOrder, d.provider = d'.provider →
      d.event.eventId = d'.event.eventId → d.event = d'.event := by
    simp [inOrder, declined, paidShort, paidInFull]
  obtain ⟨l₁, l₂, h₁, h₂, hstatuses, hpaid, hstatus, _⟩ :=
    deliveries_agree startedOnline hsame hids 0 _ (Table.get?_insert_self _ _)
  exact ⟨l₁, l₂, h₁, h₂, hstatuses, hpaid, hstatus⟩

end WPanel.Billing
