import WPanel.Core
import WPanel.Lib.Interleaving

namespace WPanel.Clients

open WPanel.Lib

/-!
# The last owner of a client

`change_contact_role` and `remove_contact` of `clients/services.py`.  Each runs in a transaction
that locks the contact it changes, counts the owners that are committed, and then writes: the
count is about other rows, which it does not lock.

* `Transaction`, `contactChanges` — the transactions, step by step and in any order, while
  contacts are invited;
* `HasOwner` — a client has an owner;
* `NoRace` — the owners of a client are not counted while somebody else, who has counted them,
  is about to take one away;
* `owner_remains` — in a run without such a race a client that has an owner keeps one;
* `no_owner_left` — two who demote each other's contact at once leave none.
-/

inductive ContactRole where
  | owner
  | billing
  | technical
  deriving DecidableEq, Repr

/-- A user's membership of a client account. -/
structure ClientContact where
  client : ℕ
  user : ℕ
  role : ContactRole := .technical
  deriving DecidableEq, Repr

/-- The committed contacts, and the rows that transactions hold. -/
structure Store where
  contacts : Table ClientContact := {}
  locked : List ℕ := []
  deriving DecidableEq

/-- The owners of a client. -/
def owners (client : ℕ) (contacts : Table ClientContact) : List (ℕ × ClientContact) :=
  contacts.entries.filter fun entry => entry.2.client = client ∧ entry.2.role = .owner

/-- `_owner_count`. -/
def ownerCount (client : ℕ) (contacts : Table ClientContact) : ℕ := (owners client contacts).length

/-! ### The transactions -/

/-- What is asked for; none stands for a value that is no role. -/
inductive Change where
  | assign (role : Option ContactRole)
  | remove
  deriving DecidableEq, Repr

inductive Phase where
  /-- The permission and the role were checked. -/
  | asked
  /-- The contact is locked, and was read under the lock. -/
  | locked (row : ClientContact)
  /-- The owners were counted, and there are enough. -/
  | counted (row : ClientContact)
  | over
  deriving DecidableEq, Repr

structure Transaction where
  contact : ℕ
  change : Change
  phase : Phase
  deriving DecidableEq, Repr

inductive Transaction.Step where
  | lock
  | count
  | commit
  /-- The connection was lost, say. -/
  | rollback
  deriving DecidableEq, Repr

/-- A step that is not due. -/
def notDue : Err := .unexpected "This step is not due."

/-- The checks before anything is read; `permitted` says that the actor may manage clients. -/
def Transaction.start (permitted : Bool) (contact : ℕ) (change : Change) (s : Store) :
    Except Err (Store × Transaction) := do
  ensure (permitted = true) denied
  ensure (change ≠ .assign none) (serviceError "Unknown contact role." "invalid_role")
  return (s, ⟨contact, change, .asked⟩)

/-- The transaction ends, and its lock with it. -/
def Transaction.finish (s : Store) (t : Transaction) : Store × Transaction :=
  ({ s with locked := s.locked.erase t.contact }, { t with phase := .over })

/-- What is written. -/
def Change.apply (change : Change) (contact : ℕ) (row : ClientContact)
    (contacts : Table ClientContact) : Table ClientContact :=
  match change with
  | .assign (some role) => contacts.put contact { row with role := role }
  | .assign none => contacts
  | .remove => contacts.erase contact

/-- `A client must keep at least one owner.` -/
def lastOwner (row : ClientContact) (contacts : Table ClientContact) : Bool :=
  row.role = .owner ∧ ownerCount row.client contacts = 1

def Transaction.next (step : Transaction.Step) (s : Store) (t : Transaction) :
    Except Err (Store × Transaction) :=
  match step, t.phase with
  | .lock, .asked => do
    ensure (t.contact ∉ s.locked) notDue
    match s.contacts.get? t.contact with
    | none => return (s, { t with phase := .over })
    | some row =>
      -- a contact that has the role already is returned as it is
      if t.change = .assign (some row.role) then return (s, { t with phase := .over })
      else return ({ s with locked := t.contact :: s.locked }, { t with phase := .locked row })
  | .count, .locked row =>
    if lastOwner row s.contacts then .ok (t.finish s)
    else .ok (s, { t with phase := .counted row })
  | .commit, .counted row =>
    .ok (t.finish { s with contacts := t.change.apply t.contact row s.contacts })
  | .rollback, .locked _ => .ok (t.finish s)
  | .rollback, .counted _ => .ok (t.finish s)
  | _, _ => .error notDue

/-- `invite_contact`, once its checks are passed. -/
def invite (contact : ClientContact) (s : Store) : Except Err Store := do
  ensure (¬∃ entry ∈ s.contacts.entries, entry.2.client = contact.client
      ∧ entry.2.user = contact.user)
    (serviceError "This person is already on this account." "duplicate_contact")
  return { s with contacts := s.contacts.insert contact }

/-- Transactions on any contacts, in any order of their steps. -/
def contactChanges : Interleaving Store Transaction (Bool × ℕ × Change) Transaction.Step
    ClientContact Err where
  start b s := Transaction.start b.1 b.2.1 b.2.2 s
  step := Transaction.next
  outside := invite
  absent := notDue

/-! ### An owner remains -/

/-- The client has an owner. -/
def HasOwner (client : ℕ) (contacts : Table ClientContact) : Prop :=
  ∃ pk row, contacts.get? pk = some row ∧ row.client = client ∧ row.role = .owner

/-- The row a transaction holds. -/
def Transaction.holds (t : Transaction) : Option ClientContact :=
  match t.phase with
  | .locked row => some row
  | .counted row => some row
  | _ => none

/-- The client whose owner a transaction, that has counted the owners, takes away. -/
def Transaction.takes (t : Transaction) : Option ℕ :=
  match t.phase with
  | .counted row => if row.role = .owner then some row.client else none
  | _ => none

/-- The client whose owners a transaction is about to count. -/
def Transaction.counts (t : Transaction) : Option ℕ :=
  match t.phase with
  | .locked row => if row.role = .owner then some row.client else none
  | _ => none

/-- The owners of a client are not counted while another transaction is about to take one
    away. -/
def NoRace : Discipline Store Transaction Transaction.Step ClientContact where
  step _ t a other := match a with
    | .count => ∀ client ∈ t.counts, other.takes ≠ some client
    | _ => True
  outside _ _ _ := True

instance (s : Store) (t : Transaction) (a : Transaction.Step) (other : Transaction) :
    Decidable (NoRace.step s t a other) :=
  match a with
  | .count => inferInstanceAs (Decidable (∀ client ∈ t.counts, other.takes ≠ some client))
  | .lock => isTrue trivial
  | .commit => isTrue trivial
  | .rollback => isTrue trivial

instance (s : Store) (contact : ClientContact) (other : Transaction) :
    Decidable (NoRace.outside s contact other) := isTrue trivial

/-- Another contact than `pk` owns the client. -/
def OtherOwner (client pk : ℕ) (contacts : Table ClientContact) : Prop :=
  ∃ q row, q ≠ pk ∧ contacts.get? q = some row ∧ row.client = client ∧ row.role = .owner

/-- A transaction holds the lock of its contact, so its copy is what is committed; and the client
    whose owner it takes away has another. -/
structure Transaction.Knows (s : Store) (t : Transaction) : Prop where
  current : ∀ row ∈ t.holds, t.contact ∈ s.locked ∧ s.contacts.get? t.contact = some row
  other : ∀ client ∈ t.takes, OtherOwner client t.contact s.contacts

/-- Two transactions hold different contacts, and do not both take an owner of one client away. -/
structure Transaction.Apart (t t' : Transaction) : Prop where
  contact : t.holds.isSome → t'.holds.isSome → t.contact ≠ t'.contact
  takes : ∀ client ∈ t.takes, t'.takes ≠ some client

/-- What a step of a transaction does. -/
inductive Did : Transaction.Step → Store → Transaction → Store → Transaction → Prop
  | gone {s : Store} {t : Transaction} : Did .lock s t s { t with phase := .over }
  | locked {s : Store} {t : Transaction} {row : ClientContact} :
      t.contact ∉ s.locked → s.contacts.get? t.contact = some row →
      Did .lock s t { s with locked := t.contact :: s.locked } { t with phase := .locked row }
  | counted {s : Store} {t : Transaction} {row : ClientContact} :
      t.phase = .locked row → lastOwner row s.contacts = false →
      Did .count s t s { t with phase := .counted row }
  | ended {s : Store} {t : Transaction} {row : ClientContact} {step : Transaction.Step} :
      t.holds = some row → Did step s t (t.finish s).1 (t.finish s).2
  | committed {s : Store} {t : Transaction} {row : ClientContact} : t.phase = .counted row →
      Did .commit s t (t.finish { s with contacts := t.change.apply t.contact row s.contacts }).1
        (t.finish { s with contacts := t.change.apply t.contact row s.contacts }).2

section

variable {s s' : Store} {t t' other : Transaction} {client : ℕ}

theorem Transaction.Apart.symm (h : t.Apart t') : t'.Apart t where
  contact := fun h' h'' => (h.contact h'' h').symm
  takes := fun _ hclient hother => h.takes _ hother hclient

theorem Transaction.apart_of_idle (hholds : t.holds = none) (htakes : t.takes = none) :
    t.Apart other where
  contact := fun h => by rw [hholds] at h; cases h
  takes := fun _ h => by rw [htakes] at h; cases h

/-- What is not the last owner is not the only one. -/
theorem otherOwner_of_count {pk : ℕ} {row : ClientContact} {contacts : Table ClientContact}
    (hrow : contacts.get? pk = some row) (howner : row.role = .owner)
    (hcount : ownerCount row.client contacts ≠ 1) : OtherOwner row.client pk contacts := by
  have hmem : (pk, row) ∈ owners row.client contacts :=
    List.mem_filter.mpr ⟨Table.mem_entries.mpr hrow, by simp [howner]⟩
  by_contra hnone
  -- all the owners are this one, and a key occurs once
  have hall : ∀ entry ∈ owners row.client contacts, entry.1 = pk := by
    intro entry hentry
    by_contra hne
    obtain ⟨hin, hp⟩ := List.mem_filter.mp hentry
    simp only [decide_eq_true_eq] at hp
    exact hnone ⟨entry.1, entry.2, hne, Table.mem_entries.mp hin, hp.1, hp.2⟩
  have hnodup : ((owners row.client contacts).map Prod.fst).Nodup :=
    (Table.nodup_keys_entries contacts).sublist (List.filter_sublist.map _)
  have hsame : (owners row.client contacts).map Prod.fst
      = List.replicate (ownerCount row.client contacts) pk :=
    List.eq_replicate_iff.mpr ⟨by simp [ownerCount], fun q hq => by
      obtain ⟨entry, hentry, rfl⟩ := List.mem_map.mp hq
      exact hall entry hentry⟩
  rw [hsame, List.nodup_replicate] at hnodup
  have hpos : 0 < ownerCount row.client contacts := List.length_pos_of_mem hmem
  omega

/-! ### What the steps keep -/

theorem Transaction.did {a : Transaction.Step} (h : Transaction.next a s t = .ok (s', t')) :
    Did a s t s' t' := by
  unfold Transaction.next at h
  split at h
  · obtain ⟨_, hfree, h⟩ := bind_eq_ok.mp h
    have hfree := ensure_eq_ok.mp hfree
    split at h
    · cases (pure_eq_ok _ _).mp h
      exact .gone
    · next row hrow =>
      split at h
      · cases (pure_eq_ok _ _).mp h
        exact .gone
      · cases (pure_eq_ok _ _).mp h
        exact .locked hfree hrow
  · next row hphase =>
    split at h
    · cases h
      exact .ended (by rw [Transaction.holds, hphase])
    · next hlast =>
      cases h
      exact .counted hphase (by simpa using hlast)
  · next row hphase =>
    cases h
    exact .committed hphase
  · next row hphase =>
    cases h
    exact .ended (by rw [Transaction.holds, hphase])
  · next row hphase =>
    cases h
    exact .ended (by rw [Transaction.holds, hphase])
  · cases h

/-- A change writes its own contact. -/
theorem get?_apply {change : Change} {pk q : ℕ} {row : ClientContact}
    {contacts : Table ClientContact} (h : q ≠ pk) :
    (change.apply pk row contacts).get? q = contacts.get? q := by
  unfold Change.apply
  split
  · exact Table.get?_put_of_ne h _
  · rfl
  · rw [Table.get?_erase, if_neg h]

/-- The lock of another transaction is kept when this one ends. -/
theorem mem_locked_finish (h : other.contact ∈ s.locked) (hne : t.contact ≠ other.contact) :
    other.contact ∈ (t.finish s).1.locked :=
  (List.mem_erase_of_ne hne.symm).mpr h

/-- What a transaction knows is kept while another one, apart from it, takes a step. -/
theorem Transaction.Knows.of_did {a : Transaction.Step} (h : other.Knows s) (hdid : Did a s t s' t')
    (ht : t.Knows s) (hapart : t.Apart other) : other.Knows s' := by
  have hne : ∀ row ∈ other.holds, t.holds.isSome → t.contact ≠ other.contact :=
    fun row hrow hholds => hapart.contact hholds (by rw [Option.mem_def.mp hrow]; rfl)
  cases hdid with
  | gone => exact h
  | locked _ _ =>
    exact ⟨fun row hrow => ⟨List.mem_cons_of_mem _ (h.current row hrow).1, (h.current row hrow).2⟩,
      h.other⟩
  | counted _ _ => exact h
  | ended hholds =>
    refine ⟨fun row hrow => ?_, h.other⟩
    obtain ⟨hlocked, hget⟩ := h.current row hrow
    exact ⟨mem_locked_finish hlocked (hne row hrow (by rw [hholds]; rfl)), hget⟩
  | @committed _ _ mine hphase =>
    have hholds : t.holds = some mine := by rw [Transaction.holds, hphase]
    refine ⟨fun row hrow => ?_, fun c hc => ?_⟩
    · obtain ⟨hlocked, hget⟩ := h.current row hrow
      have hapart := hne row hrow (by rw [hholds]; rfl)
      exact ⟨mem_locked_finish hlocked hapart, (get?_apply hapart.symm).trans hget⟩
    · obtain ⟨q, row, hq, hget, hclient, howner⟩ := h.other c hc
      refine ⟨q, row, hq, (get?_apply fun hsame => ?_).trans hget, hclient, howner⟩
      -- the other owner is the one this transaction takes away
      subst hsame
      have hmine : row = mine := by
        have hcurrent := (ht.current mine hholds).2
        rw [hget] at hcurrent
        exact Option.some.inj hcurrent
      refine hapart.takes c ?_ hc
      show t.takes = some c
      rw [Transaction.takes, hphase]
      dsimp only
      rw [← hmine, if_pos howner, hclient]

/-- A transaction knows what it has locked, and what it has counted. -/
theorem Transaction.Knows.did {a : Transaction.Step} (hdid : Did a s t s' t') (h : t.Knows s) :
    t'.Knows s' := by
  cases hdid with
  | gone => exact ⟨nofun, nofun⟩
  | @locked _ _ row _ hrow =>
    refine ⟨fun row' hrow' => ?_, nofun⟩
    cases hrow'
    exact ⟨List.mem_cons_self, hrow⟩
  | @counted _ _ row hphase hlast =>
    have hholds : t.holds = some row := by rw [Transaction.holds, hphase]
    have hrow := h.current row hholds
    refine ⟨fun row' hrow' => ?_, fun c hc => ?_⟩
    · cases hrow'
      exact hrow
    · have hc : (if row.role = .owner then some row.client else none) = some c := hc
      split at hc
      · next howner =>
        cases hc
        refine otherOwner_of_count hrow.2 howner fun hcount => ?_
        simp [lastOwner, howner, hcount] at hlast
      · cases hc
  | ended _ => exact ⟨nofun, nofun⟩
  | committed _ => exact ⟨nofun, nofun⟩

/-- A transaction stays apart, where it does not count while the other is about to take. -/
theorem Transaction.Apart.did {a : Transaction.Step} (hdid : Did a s t s' t')
    (hapart : t.Apart other)
    (hother : other.Knows s) (hrace : NoRace.step s t a other) : t'.Apart other := by
  cases hdid with
  | gone => exact Transaction.apart_of_idle rfl rfl
  | locked hfree _ =>
    refine ⟨fun _ hholds hsame => ?_, nofun⟩
    obtain ⟨row, hrow⟩ := Option.isSome_iff_exists.mp hholds
    exact hfree (hsame ▸ (hother.current row hrow).1)
  | @counted _ _ row hphase _ =>
    refine ⟨fun _ => hapart.contact (by rw [Transaction.holds, hphase]; rfl), fun c hc => ?_⟩
    refine hrace c ?_
    show t.counts = some c
    rw [Transaction.counts, hphase]
    exact hc
  | ended _ => exact Transaction.apart_of_idle rfl rfl
  | committed _ => exact Transaction.apart_of_idle rfl rfl

/-- **A step keeps an owner**: what a transaction takes away, it knows another of. -/
theorem HasOwner.did {a : Transaction.Step} (hdid : Did a s t s' t') (h : t.Knows s)
    (howner : HasOwner client s.contacts) : HasOwner client s'.contacts := by
  cases hdid with
  | @committed _ _ mine hphase =>
    have hcurrent := (h.current mine (by rw [Transaction.holds, hphase]; rfl)).2
    obtain ⟨q, row, hq, hget, hclient, hrole⟩ : OtherOwner client t.contact s.contacts := by
      obtain ⟨pk, row, hget, hclient, hrole⟩ := howner
      by_cases hpk : pk = t.contact
      · rw [hpk, hcurrent] at hget
        cases hget
        refine h.other client ?_
        show t.takes = some client
        rw [Transaction.takes, hphase]
        exact (if_pos hrole).trans (congrArg some hclient)
      · exact ⟨pk, row, hpk, hget, hclient, hrole⟩
    exact ⟨q, row, (get?_apply hq).trans hget, hclient, hrole⟩
  | _ => exact howner

/-- Why a client keeps an owner. -/
def ownerOutline (client : ℕ) : Outline contactChanges NoRace where
  shared s := HasOwner client s.contacts
  own s t := t.Knows s
  pair := Transaction.Apart
  pair_symm := fun _ _ h => h.symm
  start_own := by
    intro b s s' t h hs
    obtain ⟨_, _, h⟩ := bind_eq_ok.mp h
    obtain ⟨_, _, h⟩ := bind_eq_ok.mp h
    cases (pure_eq_ok _ _).mp h
    exact ⟨hs, nofun, nofun⟩
  start_other := by
    intro b s s' t other h _ hother
    obtain ⟨_, _, h⟩ := bind_eq_ok.mp h
    obtain ⟨_, _, h⟩ := bind_eq_ok.mp h
    cases (pure_eq_ok _ _).mp h
    exact ⟨hother, Transaction.apart_of_idle rfl rfl⟩
  step_own := by
    intro a s s' t t' h hs ht
    have hdid := Transaction.did h
    exact ⟨hs.did hdid ht, ht.did hdid⟩
  step_other := by
    intro a s s' t t' other h _ ht hother hapart hrace
    have hdid := Transaction.did h
    exact ⟨hother.of_did hdid ht hapart, hapart.did hdid hother hrace⟩
  outside_shared := by
    intro contact s s' h hs
    obtain ⟨_, _, h⟩ := bind_eq_ok.mp h
    cases (pure_eq_ok _ _).mp h
    obtain ⟨pk, row, hget, hrest⟩ := hs
    exact ⟨pk, row, Table.get?_insert_of_some hget, hrest⟩
  outside_other := by
    intro contact s s' other h _ hother _
    obtain ⟨_, _, h⟩ := bind_eq_ok.mp h
    cases (pure_eq_ok _ _).mp h
    refine ⟨fun row hrow => ⟨(hother.current row hrow).1,
      Table.get?_insert_of_some (hother.current row hrow).2⟩, fun c hc => ?_⟩
    obtain ⟨q, row, hq, hget, hrest⟩ := hother.other c hc
    exact ⟨q, row, hq, Table.get?_insert_of_some hget, hrest⟩

end

/-- **A client that has an owner keeps one** in every state of a run in which its owners are not
    counted while another transaction is about to take one away. -/
theorem owner_remains (client : ℕ)
    (turns : List (Turn (Bool × ℕ × Change) Transaction.Step ClientContact))
    (contacts : Table ClientContact) (hstart : HasOwner client contacts)
    (hrace : contactChanges.machine.EachStep (fun s turn _ => NoRace.Respected s turn) turns
      ⟨{ contacts }, {}⟩) :
    contactChanges.machine.Always (fun s => HasOwner client s.shared.contacts) turns
      ⟨{ contacts }, {}⟩ :=
  (ownerOutline client).always (fun _ h => h.shared) turns _ (.start _ hstart) hrace

/-- A client with two owners. -/
def twoOwners : Table ClientContact :=
  ⟨[some { client := 0, user := 0, role := .owner },
    some { client := 0, user := 1, role := .owner }]⟩

theorem hasOwner_twoOwners : HasOwner 0 twoOwners := ⟨0, _, rfl, rfl, rfl⟩

/-- Two removals one after the other: the second is refused. -/
theorem owner_remains_twoOwners : contactChanges.machine.Always
    (fun s => HasOwner 0 s.shared.contacts)
    [.start (true, 0, .remove), .step 0 .lock, .step 0 .count, .step 0 .commit,
      .start (true, 1, .remove), .step 1 .lock, .step 1 .count, .step 1 .commit]
    ⟨{ contacts := twoOwners }, {}⟩ :=
  owner_remains 0 _ twoOwners hasOwner_twoOwners (Machine.eachStep_of_trace (by decide +kernel))

/-- **Two owners who are removed at once**: each count still sees the other. -/
theorem no_owner_left : HasOwner 0 twoOwners
    ∧ ¬contactChanges.machine.Always (fun s => HasOwner 0 s.shared.contacts)
      [.start (true, 0, .remove), .start (true, 1, .remove), .step 0 .lock, .step 1 .lock,
        .step 0 .count, .step 1 .count, .step 0 .commit, .step 1 .commit]
      ⟨{ contacts := twoOwners }, {}⟩ := by
  refine ⟨hasOwner_twoOwners, fun h => ?_⟩
  obtain ⟨pk, row, hrow, -, howner⟩ := h.last
  have hnone : (contactChanges.machine.run
      [.start (true, 0, .remove), .start (true, 1, .remove), .step 0 .lock, .step 1 .lock,
        .step 0 .count, .step 1 .count, .step 0 .commit, .step 1 .commit]
      ⟨{ contacts := twoOwners }, {}⟩).shared.contacts.Forall fun _ row => row.role ≠ .owner := by
    decide +kernel
  exact hnone pk row hrow howner

end WPanel.Clients
