import WPanel.Core
import WPanel.Lib.Interleaving
import Mathlib.Data.List.Perm.Subperm

namespace WPanel.Accounts

open WPanel.Lib

/-!
# Sign-in codes by email

`send_code` and `verify_code` of `accounts/devices.py`, for one person.  Sending spends the codes
that are unused and then creates one; verifying reads the newest usable code, saves one more try
on its copy, compares, and saves the use on its copy.  Each query and each save is a step.

* `SignInRequest`, `signingIn` — the two requests step by step, in any order, while time passes;
* `OneWayIn` — no code lets the person in twice, or is compared more than `MAX_TRIES` times, or
  lets in once a newer one was sent or its time is over;
* `Current` — a request that saves a code finds it as its copy says;
* `Undisturbed` — nobody spends codes while another request is between spending and creating, no
  code is created while another request holds one, and no code that a request holds runs out;
* `oneWayIn` — a run that keeps to both keeps the three bounds;
* `not_oneWayIn` — requests that read the same row let in twice, and compare a sixth time.
-/

/-! ### The codes of one person -/

/-- `CODE_MINUTES`, in seconds. -/
def CODE_SECONDS : ℕ := 10 * 60

def MAX_TRIES : ℕ := 5

def RESEND_SECONDS : ℕ := 30

def MAX_PER_HOUR : ℕ := 5

/-- `EmailSignInCode`. -/
structure SignInCode where
  codeHash : String
  createdAt : ℕ
  expiresAt : ℕ
  tries : ℕ := 0
  usedAt : Option ℕ := none
  deriving DecidableEq, Repr

/-- It is unused, and its time is not over. -/
def SignInCode.usable (now : ℕ) (row : SignInCode) : Bool :=
  row.usedAt = none && now < row.expiresAt

/-- One more try on a copy; the last one spends the code. -/
def SignInCode.tried (now : ℕ) (row : SignInCode) : SignInCode :=
  { row with
    tries := row.tries + 1
    usedAt := if MAX_TRIES ≤ row.tries + 1 then some now else row.usedAt }

/-- The clock and the codes; which codes were compared, at which try, and which let the person
    in, and which of those when a newer one had been sent or their time was over. -/
structure SignInStore where
  now : ℕ
  codes : Table SignInCode := {}
  compared : List (ℕ × ℕ) := []
  accepted : List ℕ := []
  late : List ℕ := []
  deriving DecidableEq

/-! ### The requests -/

/-- How far `send_code` has come, with the time it began. -/
inductive Sending where
  | begun
  /-- It does not come too soon after the last one. -/
  | waited (now : ℕ)
  /-- There are not too many in this hour. -/
  | allowed (now : ℕ)
  /-- The older codes are spent. -/
  | cleared (now : ℕ)
  | over
  deriving DecidableEq, Repr

/-- How far `verify_code` has come, with its copy of the code. -/
inductive Entering where
  | begun
  /-- The person is not locked out. -/
  | unlocked
  | read (pk : ℕ) (row : SignInCode)
  /-- The try is saved. -/
  | counted (pk : ℕ) (row : SignInCode)
  /-- What was typed is the code. -/
  | matched (pk : ℕ) (row : SignInCode)
  | over
  deriving DecidableEq, Repr

inductive SignInRequest where
  | send (resend : Bool) (phase : Sending)
  | verify (typed : String) (phase : Entering)
  deriving DecidableEq, Repr

/-- The steps of the two requests. -/
inductive SignInRequest.Step where
  /-- The newest code is looked at. -/
  | last
  /-- The codes of the last hour are counted. -/
  | limit
  /-- The unused codes are spent. -/
  | spend
  /-- A code is created. -/
  | create (hash : String)
  /-- `is_locked_out`, with its answer. -/
  | look (locked : Bool)
  /-- The query for the newest usable code; which one, if two are equally new, is open. -/
  | read (pk : Option ℕ)
  /-- The try is saved. -/
  | tally
  /-- `check_password`. -/
  | compare
  /-- The use is saved. -/
  | accept
  deriving DecidableEq, Repr

/-- `(code or "").strip().replace(" ", "")`. -/
def typedCode (code : String) : String := String.ofList ((strip code).toList.filter (· ≠ ' '))

/-- When the newest code was created. -/
def SignInStore.lastCreated (s : SignInStore) : Option ℕ :=
  (s.codes.entries.map (·.2.createdAt)).max?

/-- The codes that were created within the hour before `now`. -/
def SignInStore.inHour (s : SignInStore) (now : ℕ) : ℕ :=
  (s.codes.entries.filter fun entry => now ≤ entry.2.createdAt + 3600).length

/-- A step of `send_code`. -/
def Sending.next (resend : Bool) (s : SignInStore) :
    SignInRequest.Step → Sending → Except Err (SignInStore × Sending)
  | .last, .begun =>
    pure (s, if resend && s.lastCreated.any (s.now < · + RESEND_SECONDS) then .over
      else .waited s.now)
  | .limit, .waited now => pure (s, if MAX_PER_HOUR ≤ s.inHour now then .over else .allowed now)
  | .spend, .allowed now =>
    pure ({ s with codes := s.codes.updateWhere (·.usedAt = none) ({ · with usedAt := some now }) },
      .cleared now)
  | .create hash, .cleared now =>
    pure ({ s with
      codes := s.codes.insert
        { codeHash := hash, createdAt := s.now, expiresAt := now + CODE_SECONDS } }, .over)
  | _, _ => throw (.unexpected "not the next step")

section

-- `check_password`, of the typed code against a stored hash
variable (checkPassword : String → String → Bool)

/-- A step of `verify_code`.  A save writes the fields it names, from the copy, onto the row there
    is. -/
def Entering.next (typed : String) (s : SignInStore) :
    SignInRequest.Step → Entering → Except Err (SignInStore × Entering)
  | .look locked, .begun => pure (s, if locked then .over else .unlocked)
  | .read none, .unlocked => do
    ensure (∀ entry ∈ s.codes.entries, entry.2.usable s.now = false)
      (.unexpected "there is a usable code")
    return (s, .over)
  | .read (some pk), .unlocked =>
    match s.codes.get? pk with
    | none => throw (.unexpected "there is no such code")
    | some row => do
      ensure (row.usable s.now = true ∧ ∀ entry ∈ s.codes.entries,
        entry.2.usable s.now = true → entry.2.createdAt ≤ row.createdAt)
        (.unexpected "not the newest usable code")
      return (s, .read pk row)
  | .tally, .read pk copy =>
    match s.codes.get? pk with
    | none => pure (s, .over)
    | some row =>
      pure ({ s with codes := s.codes.put pk { row with
          tries := (copy.tried s.now).tries, usedAt := (copy.tried s.now).usedAt } },
        .counted pk (copy.tried s.now))
  | .compare, .counted pk copy =>
    if typedCode typed = "" then pure (s, .over)
    else pure ({ s with compared := (pk, copy.tries) :: s.compared },
      if checkPassword (typedCode typed) copy.codeHash && copy.tries ≤ MAX_TRIES
      then .matched pk copy else .over)
  | .accept, .matched pk _ =>
    match s.codes.get? pk with
    | none => pure (s, .over)
    | some row =>
      pure ({ s with
        codes := s.codes.put pk { row with usedAt := some s.now }
        accepted := pk :: s.accepted
        late := if row.expiresAt ≤ s.now ∨ (∃ entry ∈ s.codes.entries, pk < entry.1)
          then pk :: s.late else s.late }, .over)
  | _, _ => throw (.unexpected "not the next step")

def SignInRequest.next (a : SignInRequest.Step) (s : SignInStore) :
    SignInRequest → Except Err (SignInStore × SignInRequest)
  | .send resend phase => do
    let (s', phase') ← phase.next resend s a
    return (s', .send resend phase')
  | .verify typed phase => do
    let (s', phase') ← phase.next checkPassword typed s a
    return (s', .verify typed phase')

/-- What a request is sent with: a code that was typed, or the wish for another one. -/
inductive SignInAsked where
  | send (resend : Bool)
  | verify (typed : String)
  deriving DecidableEq, Repr

def SignInAsked.start : SignInAsked → SignInRequest
  | .send resend => .send resend .begun
  | .verify typed => .verify typed .begun

/-- The requests of one person, step by step and in any order, while time passes. -/
def signingIn : Interleaving SignInStore SignInRequest SignInAsked SignInRequest.Step ℕ Err where
  start asked s := pure (s, asked.start)
  step a s request := request.next checkPassword a s
  outside now s := do
    ensure (s.now ≤ now) (.unexpected "time does not go back")
    return { s with now }
  absent := .unexpected "there is no such request"

end

/-! ### The three bounds -/

/-- A code lets the person in at most once, is compared at most `MAX_TRIES` times, and does not
    let in once a newer one was sent or its time is over. -/
structure OneWayIn (s : System SignInStore SignInRequest) : Prop where
  once : s.shared.accepted.Nodup
  tries : ∀ pk, (s.shared.compared.filter (·.1 = pk)).length ≤ MAX_TRIES
  inTime : s.shared.late = []

/-- The code a request holds, with its copy. -/
def SignInRequest.holds : SignInRequest → Option (ℕ × SignInCode)
  | .verify _ (.read pk row) => some (pk, row)
  | .verify _ (.counted pk row) => some (pk, row)
  | .verify _ (.matched pk row) => some (pk, row)
  | _ => none

/-- The older codes are spent, and the new one is not created yet. -/
def SignInRequest.isCleared : SignInRequest → Bool
  | .send _ (.cleared _) => true
  | _ => false

/-- A request that saves a code finds it as its copy says. -/
def Current (s : SignInStore) (request : SignInRequest) (a : SignInRequest.Step) : Prop :=
  a = .tally ∨ a = .accept → ∀ held ∈ request.holds, s.codes.get? held.1 = some held.2

instance (s : SignInStore) (request : SignInRequest) (a : SignInRequest.Step) :
    Decidable (Current s request a) :=
  inferInstanceAs (Decidable (_ → _))

/-- Nobody spends codes while another request is between spending and creating, no code is created
    while another request holds one, and no code that a request holds runs out. -/
def Undisturbed : Discipline SignInStore SignInRequest SignInRequest.Step ℕ where
  step _ _ a other := match a with
    | .spend => other.isCleared = false
    | .create _ => other.holds = none
    | _ => True
  outside _ now other := ∀ held ∈ other.holds, now < held.2.expiresAt

instance (s : SignInStore) (request : SignInRequest) (a : SignInRequest.Step)
    (other : SignInRequest) : Decidable (Undisturbed.step s request a other) := by
  unfold Undisturbed
  dsimp only
  split <;> infer_instance

instance (s : SignInStore) (now : ℕ) (other : SignInRequest) :
    Decidable (Undisturbed.outside s now other) :=
  inferInstanceAs (Decidable (∀ held ∈ other.holds, now < held.2.expiresAt))

/-! ### Why they hold -/

/-- The try a request has saved. -/
def SignInRequest.saved : SignInRequest → Option (ℕ × SignInCode)
  | .verify _ (.counted pk row) => some (pk, row)
  | .verify _ (.matched pk row) => some (pk, row)
  | _ => none

/-- What is known of the codes: only the newest may be unused, its tries are not used up, and what
    was accepted or compared shows in the row. -/
structure SignInStore.Sound (s : SignInStore) : Prop where
  newest : s.codes.Forall fun pk row => row.usedAt = none → pk + 1 = s.codes.nextPk
  fewer : s.codes.Forall fun _ row => row.usedAt = none → row.tries < MAX_TRIES
  once : s.accepted.Nodup
  spent : ∀ pk ∈ s.accepted, ∃ row, s.codes.get? pk = some row ∧ row.usedAt ≠ none
  distinct : s.compared.Nodup
  range : ∀ entry ∈ s.compared, 0 < entry.2 ∧ entry.2 ≤ MAX_TRIES
    ∧ ∃ row, s.codes.get? entry.1 = some row ∧ entry.2 ≤ row.tries
  inTime : s.late = []

/-- What a request knows of the code it holds: it is the newest, its time is not over, and the
    try that was saved is neither compared yet nor that of a request that was let in. -/
structure SignInRequest.Knows (s : SignInStore) (request : SignInRequest) : Prop where
  holds : ∀ held ∈ request.holds, held.1 + 1 = s.codes.nextPk ∧ s.now < held.2.expiresAt
    ∧ ∃ row, s.codes.get? held.1 = some row ∧ row.expiresAt = held.2.expiresAt
  unused : ∀ typed pk row, request = .verify typed (.read pk row) →
    row.usedAt = none ∧ row.tries < MAX_TRIES
  saved : ∀ held ∈ request.saved, 0 < held.2.tries ∧ held.2.tries ≤ MAX_TRIES
    ∧ (∀ row ∈ s.codes.get? held.1, held.2.tries ≤ row.tries)
    ∧ (held.1 ∈ s.accepted → s.codes.get? held.1 ≠ some held.2)
  uncompared : ∀ typed pk row, request = .verify typed (.counted pk row) →
    (pk, row.tries) ∉ s.compared
  cleared : request.isCleared = true → s.codes.Forall fun _ row => row.usedAt ≠ none

/-- Two requests have not saved the same try, and have not both spent the older codes. -/
structure SignInRequest.Apart (request other : SignInRequest) : Prop where
  saved : ∀ held ∈ request.saved, ∀ held' ∈ other.saved,
    held.1 = held'.1 → held.2.tries ≠ held'.2.tries
  cleared : request.isCleared = true → other.isCleared = false

/-- What a step of a request does. -/
inductive SignInRequest.Did :
    SignInRequest.Step → SignInStore → SignInRequest → SignInStore → SignInRequest → Prop
  /-- It writes nothing, and holds nothing. -/
  | quiet {a : SignInRequest.Step} {s : SignInStore} {request request' : SignInRequest} :
      request'.holds = none → request'.isCleared = false → Did a s request s request'
  | read {s : SignInStore} {typed : String} {pk : ℕ} {row : SignInCode} :
      s.codes.get? pk = some row → row.usedAt = none → s.now < row.expiresAt →
      Did (.read (some pk)) s (.verify typed .unlocked) s (.verify typed (.read pk row))
  | tallied {s : SignInStore} {typed : String} {pk : ℕ} {copy row : SignInCode} :
      s.codes.get? pk = some row →
      Did .tally s (.verify typed (.read pk copy))
        { s with
          codes := s.codes.put pk { row with
            tries := (copy.tried s.now).tries, usedAt := (copy.tried s.now).usedAt } }
        (.verify typed (.counted pk (copy.tried s.now)))
  | compared {s : SignInStore} {typed : String} {pk : ℕ} {copy : SignInCode} {phase : Entering} :
      phase = .matched pk copy ∨ phase = .over →
      Did .compare s (.verify typed (.counted pk copy))
        { s with compared := (pk, copy.tries) :: s.compared } (.verify typed phase)
  | accepted {s : SignInStore} {typed : String} {pk : ℕ} {copy row : SignInCode} :
      s.codes.get? pk = some row →
      Did .accept s (.verify typed (.matched pk copy))
        { s with
          codes := s.codes.put pk { row with usedAt := some s.now }
          accepted := pk :: s.accepted
          late := if row.expiresAt ≤ s.now ∨ (∃ entry ∈ s.codes.entries, pk < entry.1)
            then pk :: s.late else s.late } (.verify typed .over)
  | spent {s : SignInStore} {resend : Bool} {now : ℕ} :
      Did .spend s (.send resend (.allowed now))
        { s with codes := s.codes.updateWhere (·.usedAt = none) ({ · with usedAt := some now }) }
        (.send resend (.cleared now))
  | created {s : SignInStore} {resend : Bool} {now : ℕ} {hash : String} :
      Did (.create hash) s (.send resend (.cleared now))
        { s with
          codes := s.codes.insert
            { codeHash := hash, createdAt := s.now, expiresAt := now + CODE_SECONDS } }
        (.send resend .over)

section

variable {checkPassword : String → String → Bool} {s s' : SignInStore}
  {request request' other : SignInRequest} {a : SignInRequest.Step} {typed : String} {resend : Bool}

private theorem Sending.did {phase phase' : Sending}
    (h : phase.next resend s a = .ok (s', phase')) :
    SignInRequest.Did a s (.send resend phase) s' (.send resend phase') := by
  unfold Sending.next at h
  split at h
  · cases (pure_eq_ok _ _).mp h
    refine .quiet rfl ?_
    split <;> rfl
  · cases (pure_eq_ok _ _).mp h
    refine .quiet rfl ?_
    split <;> rfl
  · cases (pure_eq_ok _ _).mp h
    exact .spent
  · cases (pure_eq_ok _ _).mp h
    exact .created
  · cases h

private theorem Entering.did {phase phase' : Entering}
    (h : phase.next checkPassword typed s a = .ok (s', phase')) :
    SignInRequest.Did a s (.verify typed phase) s' (.verify typed phase') := by
  unfold Entering.next at h
  split at h
  · cases (pure_eq_ok _ _).mp h
    refine .quiet ?_ rfl
    split <;> rfl
  · obtain ⟨_, _, h⟩ := bind_eq_ok.mp h
    cases (pure_eq_ok _ _).mp h
    exact .quiet rfl rfl
  · split at h
    · cases h
    · next row hrow =>
      obtain ⟨_, hread, h⟩ := bind_eq_ok.mp h
      obtain ⟨husable, -⟩ := ensure_eq_ok.mp hread
      cases (pure_eq_ok _ _).mp h
      simp only [SignInCode.usable, Bool.and_eq_true, decide_eq_true_eq] at husable
      exact .read hrow husable.1 husable.2
  · split at h
    · cases (pure_eq_ok _ _).mp h
      exact .quiet rfl rfl
    · next hrow =>
      cases (pure_eq_ok _ _).mp h
      exact .tallied hrow
  · split at h
    · cases (pure_eq_ok _ _).mp h
      exact .quiet rfl rfl
    · cases (pure_eq_ok _ _).mp h
      refine .compared ?_
      split
      · exact .inl rfl
      · exact .inr rfl
  · split at h
    · cases (pure_eq_ok _ _).mp h
      exact .quiet rfl rfl
    · next hrow =>
      cases (pure_eq_ok _ _).mp h
      exact .accepted hrow
  · cases h

theorem SignInRequest.did (h : request.next checkPassword a s = .ok (s', request')) :
    SignInRequest.Did a s request s' request' := by
  cases request with
  | send resend phase =>
    obtain ⟨⟨_, _⟩, hnext, h⟩ := bind_eq_ok.mp h
    cases (pure_eq_ok _ _).mp h
    exact Sending.did hnext
  | verify typed phase =>
    obtain ⟨⟨_, _⟩, hnext, h⟩ := bind_eq_ok.mp h
    cases (pure_eq_ok _ _).mp h
    exact Entering.did hnext

/-- A row after the unused ones were spent. -/
private theorem get?_spent {now pk : ℕ} {row' : SignInCode}
    (h : (s.codes.updateWhere (·.usedAt = none) ({ · with usedAt := some now })).get? pk
      = some row') :
    row'.usedAt ≠ none ∧ ∃ row, s.codes.get? pk = some row ∧ row'.tries = row.tries
      ∧ row'.expiresAt = row.expiresAt := by
  rw [Table.get?_updateWhere] at h
  obtain ⟨row, hrow, rfl⟩ := Option.map_eq_some_iff.mp h
  by_cases hused : row.usedAt = none
  · rw [if_pos (decide_eq_true hused)]
    exact ⟨nofun, row, hrow, rfl, rfl⟩
  · rw [if_neg (by simpa using hused)]
    exact ⟨hused, row, hrow, rfl, rfl⟩

private theorem get?_spent_of_some {now pk : ℕ} {row : SignInCode}
    (h : s.codes.get? pk = some row) :
    ∃ row', (s.codes.updateWhere (·.usedAt = none) ({ · with usedAt := some now })).get? pk
      = some row' ∧ row'.tries = row.tries ∧ row'.expiresAt = row.expiresAt
      ∧ (row.usedAt ≠ none → row' = row) := by
  rw [Table.get?_updateWhere, h]
  refine ⟨_, rfl, ?_⟩
  dsimp only
  by_cases hused : row.usedAt = none
  · rw [if_pos (decide_eq_true hused)]
    exact ⟨rfl, rfl, fun hne => absurd hused hne⟩
  · rw [if_neg (by simpa using hused)]
    exact ⟨rfl, rfl, fun _ => rfl⟩

/-- A code that was let in is used, so it is not a copy that was read. -/
private theorem SignInStore.Sound.not_accepted (h : s.Sound) {pk : ℕ} {copy : SignInCode}
    (hrow : s.codes.get? pk = some copy) (hunused : copy.usedAt = none) : pk ∉ s.accepted := by
  intro hmem
  obtain ⟨row, hget, hused⟩ := h.spent pk hmem
  rw [hrow] at hget
  cases hget
  exact hused hunused

/-- **What a step keeps of the codes**, where it saves what is current. -/
theorem SignInStore.Sound.did (h : s.Sound) (hknows : request.Knows s)
    (hcurrent : Current s request a) (hdid : SignInRequest.Did a s request s' request') :
    s'.Sound := by
  cases hdid with
  | quiet _ _ => exact h
  | read _ _ _ => exact h
  | @tallied _ _ pk copy row hrow =>
    have hcopy : s.codes.get? pk = some copy := hcurrent (.inl rfl) _ rfl
    obtain rfl : row = copy := Option.some.inj (hrow.symm.trans hcopy)
    obtain ⟨hunused, hfewer⟩ := hknows.unused _ _ _ rfl
    -- a code that still has tries was not accepted
    have hnew := h.not_accepted hrow hunused
    refine ⟨?_, ?_, h.once, ?_, h.distinct, ?_, h.inTime⟩
    · intro q other hother hunused
      show q + 1 = (Table.put _ _ _).nextPk
      rw [Table.nextPk_put]
      rw [Table.get?_put hrow] at hother
      split at hother
      · next hq =>
        rw [hq]
        exact (hknows.holds _ rfl).1
      · exact h.newest q other hother hunused
    · refine h.fewer.put fun hnone => ?_
      simp only [SignInCode.tried] at hnone ⊢
      split at hnone
      · cases hnone
      · omega
    · intro q hq
      have hne : q ≠ pk := fun hsame => hnew (hsame ▸ hq)
      rw [Table.get?_put_of_ne hne]
      exact h.spent q hq
    · rintro ⟨q, k⟩ hentry
      obtain ⟨hpos, hmax, hheld⟩ := h.range _ hentry
      exact ⟨hpos, hmax, Table.exists_put hrow Nat.le_succ_of_le hheld⟩
  | @compared _ _ pk copy _ _ =>
    obtain ⟨hpos, hmax, hle, -⟩ := hknows.saved _ rfl
    obtain ⟨-, -, row, hrow, -⟩ := hknows.holds _ rfl
    refine ⟨h.newest, h.fewer, h.once, h.spent, ?_, ?_, h.inTime⟩
    · exact List.nodup_cons.mpr ⟨hknows.uncompared _ _ _ rfl, h.distinct⟩
    · intro entry hentry
      rcases List.mem_cons.mp hentry with rfl | hentry
      · exact ⟨hpos, hmax, row, hrow, hle row hrow⟩
      · exact h.range entry hentry
  | @accepted _ _ pk copy row hrow =>
    have hcopy : s.codes.get? pk = some copy := hcurrent (.inr rfl) _ rfl
    obtain rfl : row = copy := Option.some.inj (hrow.symm.trans hcopy)
    obtain ⟨-, -, -, hother⟩ := hknows.saved _ rfl
    obtain ⟨hnewest, halive, -⟩ := hknows.holds _ rfl
    have hnew : pk ∉ s.accepted := fun hmem => hother hmem hcopy
    -- the accepted code is used, and no code after it is about
    refine ⟨?_, h.fewer.put nofun, List.nodup_cons.mpr ⟨hnew, h.once⟩, ?_, h.distinct, ?_, ?_⟩
    · intro q other hother hunused
      show q + 1 = (Table.put _ _ _).nextPk
      rw [Table.nextPk_put]
      rw [Table.get?_put hrow] at hother
      split at hother
      · cases hother
        cases hunused
      · exact h.newest q other hother hunused
    · intro q hq
      rw [Table.get?_put hrow]
      split
      · exact ⟨_, rfl, nofun⟩
      · next hne =>
        rcases List.mem_cons.mp hq with hq | hq
        · exact absurd hq hne
        · exact h.spent q hq
    · intro entry hentry
      obtain ⟨hpos, hmax, hheld⟩ := h.range _ hentry
      exact ⟨hpos, hmax, Table.exists_put hrow id hheld⟩
    · -- the code is the newest, and its time is not over
      rw [if_neg]
      · exact h.inTime
      · rintro (hover | ⟨⟨q, other⟩, hentry, hlt⟩)
        · exact Nat.not_lt_of_le hover halive
        · have hlt' := Table.lt_nextPk (Table.mem_entries.mp hentry)
          dsimp only at hnewest hlt
          omega
  | spent =>
    refine ⟨fun q row hrow hunused => absurd hunused (get?_spent hrow).1,
      fun q row hrow hunused => absurd hunused (get?_spent hrow).1, h.once, ?_, h.distinct, ?_,
      h.inTime⟩
    · intro q hq
      obtain ⟨row, hrow, hused⟩ := h.spent q hq
      obtain ⟨row', hrow', -, -, hsame⟩ := get?_spent_of_some hrow
      exact ⟨row', hrow', hsame hused ▸ hused⟩
    · intro entry hentry
      obtain ⟨hpos, hmax, row, hrow, hle⟩ := h.range _ hentry
      obtain ⟨row', hrow', htries, -⟩ := get?_spent_of_some hrow
      exact ⟨hpos, hmax, row', hrow', htries ▸ hle⟩
  | created =>
    -- the codes before the new one were all spent
    have hcleared := hknows.cleared rfl
    refine ⟨?_, ?_, h.once, ?_, h.distinct, ?_, h.inTime⟩
    · intro q row hrow hunused
      show q + 1 = (Table.insert _ _).nextPk
      rw [Table.nextPk_insert]
      rw [Table.get?_insert] at hrow
      split at hrow
      · next hq => rw [hq]
      · exact absurd hunused (hcleared q row hrow)
    · exact h.fewer.insert fun _ => Nat.zero_lt_succ _
    · intro q hq
      obtain ⟨row, hrow, hused⟩ := h.spent q hq
      exact ⟨row, Table.get?_insert_of_some hrow, hused⟩
    · intro entry hentry
      obtain ⟨hpos, hmax, row, hrow, hle⟩ := h.range _ hentry
      exact ⟨hpos, hmax, row, Table.get?_insert_of_some hrow, hle⟩

/-- A saved try is of a code that is held. -/
private theorem SignInRequest.holds_of_saved {held : ℕ × SignInCode} (h : held ∈ request.saved) :
    held ∈ request.holds := by
  unfold SignInRequest.saved at h
  split at h
  · exact h
  · exact h
  · cases h

/-- A request that holds nothing knows nothing. -/
private theorem SignInRequest.knows_of_idle (hholds : request.holds = none)
    (hcleared : request.isCleared = false) : request.Knows s where
  holds := fun _ hheld => by rw [hholds] at hheld; cases hheld
  unused := by rintro _ _ _ rfl; cases hholds
  saved := fun _ hheld => by
    have hheld := holds_of_saved hheld
    rw [hholds] at hheld
    cases hheld
  uncompared := by rintro _ _ _ rfl; cases hholds
  cleared := fun h => by rw [hcleared] at h; cases h

/-- **What a request knows after its own step.** -/
theorem SignInRequest.Knows.did (h : request.Knows s) (hs : s.Sound)
    (hcurrent : Current s request a) (hdid : SignInRequest.Did a s request s' request') :
    request'.Knows s' := by
  cases hdid with
  | quiet hholds hcleared => exact knows_of_idle hholds hcleared
  | @read _ _ pk row hrow hunused halive =>
    refine ⟨?_, ?_, nofun, nofun, nofun⟩
    · rintro _ ⟨⟩
      exact ⟨hs.newest pk row hrow hunused, halive, row, hrow, rfl⟩
    · rintro _ _ _ ⟨⟩
      exact ⟨hunused, hs.fewer pk row hrow hunused⟩
  | @tallied _ _ pk copy row hrow =>
    have hcopy : s.codes.get? pk = some copy := hcurrent (.inl rfl) _ rfl
    obtain rfl : row = copy := Option.some.inj (hrow.symm.trans hcopy)
    obtain ⟨hunused, hfewer⟩ := h.unused _ _ _ rfl
    obtain ⟨hnewest, halive, -⟩ := h.holds _ rfl
    refine ⟨?_, nofun, ?_, ?_, nofun⟩
    · rintro _ ⟨⟩
      refine ⟨?_, halive, _, Table.get?_put_self hrow _, rfl⟩
      show pk + 1 = (Table.put _ _ _).nextPk
      rw [Table.nextPk_put]
      exact hnewest
    · rintro _ ⟨⟩
      refine ⟨Nat.succ_pos _, hfewer, fun other hother => ?_, fun hmem => ?_⟩
      · have hother := Option.mem_def.mp hother
        rw [Table.get?_put_self hrow] at hother
        cases hother
        exact Nat.le_refl _
      · exact absurd hmem (hs.not_accepted hrow hunused)
    · rintro _ _ _ ⟨⟩ hmem
      obtain ⟨-, -, other, hother, hle⟩ := hs.range _ hmem
      rw [hrow] at hother
      cases hother
      exact Nat.not_succ_le_self _ hle
  | @compared _ _ pk copy phase hphase =>
    rcases hphase with rfl | rfl
    · exact ⟨h.holds, nofun, h.saved, nofun, nofun⟩
    · exact knows_of_idle rfl rfl
  | accepted _ => exact knows_of_idle rfl rfl
  | spent =>
    exact ⟨nofun, nofun, nofun, nofun, fun _ q row hrow => (get?_spent hrow).1⟩
  | created => exact knows_of_idle rfl rfl

/-- What a request holds it still holds once a row was written, for the same time. -/
private theorem SignInRequest.Knows.holds_put {pk : ℕ} {row new : SignInCode} (h : request.Knows s)
    (hrow : s.codes.get? pk = some row) (hexpires : new.expiresAt = row.expiresAt) :
    ∀ held ∈ request.holds, held.1 + 1 = (s.codes.put pk new).nextPk ∧ s.now < held.2.expiresAt
      ∧ ∃ row, (s.codes.put pk new).get? held.1 = some row
        ∧ row.expiresAt = held.2.expiresAt := by
  intro held hheld
  obtain ⟨hnewest, halive, hkept⟩ := h.holds held hheld
  rw [Table.nextPk_put]
  exact ⟨hnewest, halive, Table.exists_put hrow hexpires.trans hkept⟩

/-- A saved try is among those of its code once a row was written, with no fewer tries. -/
private theorem SignInRequest.Knows.tries_put {pk : ℕ} {row new : SignInCode} (h : request.Knows s)
    (hrow : s.codes.get? pk = some row) (htries : row.tries ≤ new.tries) {held : ℕ × SignInCode}
    (hheld : held ∈ request.saved) :
    ∀ old ∈ (s.codes.put pk new).get? held.1, held.2.tries ≤ old.tries := by
  obtain ⟨-, -, hle, -⟩ := h.saved held hheld
  intro old hold
  rcases Table.get?_put_cases hrow hold with ⟨hq, rfl⟩ | ⟨-, hold⟩
  · exact (hle row (hq ▸ hrow)).trans htries
  · exact hle old hold

/-- **What a request knows after another one's step.** -/
theorem SignInRequest.Knows.of_did (h : other.Knows s) (hs : s.Sound) (hrequest : request.Knows s)
    (hapart : request.Apart other) (hcurrent : Current s request a)
    (hundisturbed : Undisturbed.step s request a other)
    (hdid : SignInRequest.Did a s request s' request') : other.Knows s' := by
  cases hdid with
  | quiet _ _ => exact h
  | read _ _ _ => exact h
  | @tallied _ _ pk copy row hrow =>
    have hcopy : s.codes.get? pk = some copy := hcurrent (.inl rfl) _ rfl
    obtain rfl : row = copy := Option.some.inj (hrow.symm.trans hcopy)
    obtain ⟨hunused, -⟩ := hrequest.unused _ _ _ rfl
    refine ⟨h.holds_put hrow rfl, h.unused, fun held hheld => ?_, h.uncompared,
      fun hcleared => ?_⟩
    · obtain ⟨hpos, hmax, -, hlost⟩ := h.saved held hheld
      refine ⟨hpos, hmax, h.tries_put hrow (Nat.le_succ _) hheld, fun hmem => ?_⟩
      have hne : held.1 ≠ pk := fun hq => hs.not_accepted hrow hunused (hq ▸ hmem)
      rw [Table.get?_put_of_ne hne]
      exact hlost hmem
    · exact absurd hunused (h.cleared hcleared pk row hrow)
  | @compared _ _ pk copy phase _ =>
    refine ⟨h.holds, h.unused, h.saved, fun typed' q row hrequest' hmem => ?_, h.cleared⟩
    rcases List.mem_cons.mp hmem with hsame | hmem
    · obtain ⟨hq, htries⟩ := Prod.mk.inj hsame
      refine hapart.saved (pk, copy) rfl (q, row) ?_ hq.symm htries.symm
      rw [hrequest']
      rfl
    · exact h.uncompared _ _ _ hrequest' hmem
  | @accepted _ _ pk copy row hrow =>
    have hcopy : s.codes.get? pk = some copy := hcurrent (.inr rfl) _ rfl
    obtain rfl : row = copy := Option.some.inj (hrow.symm.trans hcopy)
    refine ⟨h.holds_put hrow rfl, h.unused, fun held hheld => ?_, h.uncompared,
      fun hcleared => ?_⟩
    · obtain ⟨hpos, hmax, -, hlost⟩ := h.saved held hheld
      refine ⟨hpos, hmax, h.tries_put hrow (by rfl) hheld, fun hmem hget => ?_⟩
      rcases Table.get?_put_cases hrow hget with ⟨hq, hsame⟩ | ⟨hq, hget⟩
      · -- it saved another try than the one that is let in
        exact hapart.saved (pk, row) rfl held hheld hq.symm (congrArg SignInCode.tries hsame).symm
      · rcases List.mem_cons.mp hmem with hmem | hmem
        · exact hq hmem
        · exact hlost hmem hget
    · exact (h.cleared hcleared).put nofun
  | spent =>
    refine ⟨fun held hheld => ?_, h.unused, fun held hheld => ?_, h.uncompared, fun hcleared => ?_⟩
    · obtain ⟨hnewest, halive, old, hold, hexpires⟩ := h.holds held hheld
      obtain ⟨new, hnew, -, hkept, -⟩ := get?_spent_of_some hold
      refine ⟨?_, halive, new, hnew, hkept.trans hexpires⟩
      show held.1 + 1 = (Table.updateWhere _ _ _).nextPk
      rw [Table.nextPk_updateWhere]
      exact hnewest
    · obtain ⟨hpos, hmax, hle, hlost⟩ := h.saved held hheld
      refine ⟨hpos, hmax, fun new hnew => ?_, fun hmem hget => ?_⟩
      · obtain ⟨-, old, hold, htries, -⟩ := get?_spent hnew
        exact htries ▸ hle old hold
      · obtain ⟨old, hold, hused⟩ := hs.spent held.1 hmem
        obtain ⟨new, hnew, -, -, hsame⟩ := get?_spent_of_some hold
        rw [hnew, hsame hused] at hget
        exact hlost hmem (hold.trans hget)
    · rw [show other.isCleared = false from hundisturbed] at hcleared
      cases hcleared
  | created =>
    have hholds : other.holds = none := hundisturbed
    exact knows_of_idle hholds (hapart.cleared rfl)

/-- Requests stay apart. -/
theorem SignInRequest.Apart.did (h : request.Apart other) (hother : other.Knows s)
    (hcurrent : Current s request a) (hundisturbed : Undisturbed.step s request a other)
    (hdid : SignInRequest.Did a s request s' request') : request'.Apart other := by
  cases hdid with
  | quiet hholds hcleared =>
    refine ⟨fun held hheld => ?_, fun h => ?_⟩
    · have hheld := holds_of_saved hheld
      rw [hholds] at hheld
      cases hheld
    · rw [hcleared] at h
      cases h
  | read _ _ _ => exact ⟨nofun, nofun⟩
  | @tallied _ _ pk copy row hrow =>
    have hcopy : s.codes.get? pk = some copy := hcurrent (.inl rfl) _ rfl
    refine ⟨?_, nofun⟩
    rintro _ ⟨⟩ held hheld hq
    have hle := (hother.saved held hheld).2.2.1 copy (hq ▸ hcopy)
    exact Nat.ne_of_gt (Nat.lt_succ_of_le hle)
  | @compared _ _ pk copy phase hphase =>
    rcases hphase with rfl | rfl
    · exact ⟨h.saved, nofun⟩
    · exact ⟨nofun, nofun⟩
  | accepted _ => exact ⟨nofun, nofun⟩
  | spent => exact ⟨nofun, fun _ => hundisturbed⟩
  | created => exact ⟨nofun, nofun⟩

theorem SignInRequest.Apart.symm (h : request.Apart other) : other.Apart request where
  saved := fun held hheld held' hheld' hq htries =>
    h.saved held' hheld' held hheld hq.symm htries.symm
  cleared := fun hother => by
    cases hrequest : request.isCleared with
    | false => rfl
    | true =>
      rw [h.cleared hrequest] at hother
      cases hother

end

/-- Why the bounds hold. -/
def signInOutline (checkPassword : String → String → Bool) :
    Outline ((signingIn checkPassword).under Current) Undisturbed where
  shared := SignInStore.Sound
  own s request := request.Knows s
  pair := SignInRequest.Apart
  pair_symm := fun _ _ h => h.symm
  start_own := by
    intro asked s s' request h hs
    cases (pure_eq_ok _ _).mp h
    exact ⟨hs, SignInRequest.knows_of_idle (by cases asked <;> rfl) (by cases asked <;> rfl)⟩
  start_other := by
    intro asked s s' request other h _ hother
    cases (pure_eq_ok _ _).mp h
    refine ⟨hother, ?_⟩
    cases asked <;> exact ⟨nofun, nofun⟩
  step_own := by
    intro a s s' request request' h hs hknows
    obtain ⟨hcurrent, h⟩ := Interleaving.under_step_eq_ok.mp h
    have hdid := SignInRequest.did h
    exact ⟨hs.did hknows hcurrent hdid, hknows.did hs hcurrent hdid⟩
  step_other := by
    intro a s s' request request' other h hs hknows hother hapart hundisturbed
    obtain ⟨hcurrent, h⟩ := Interleaving.under_step_eq_ok.mp h
    have hdid := SignInRequest.did h
    exact ⟨hother.of_did hs hknows hapart hcurrent hundisturbed hdid,
      hapart.did hother hcurrent hundisturbed hdid⟩
  outside_shared := by
    intro now s s' h hs
    obtain ⟨_, _, h⟩ := bind_eq_ok.mp h
    cases (pure_eq_ok _ _).mp h
    exact ⟨hs.newest, hs.fewer, hs.once, hs.spent, hs.distinct, hs.range, hs.inTime⟩
  outside_other := by
    intro now s s' other h _ hother hundisturbed
    obtain ⟨_, _, h⟩ := bind_eq_ok.mp h
    cases (pure_eq_ok _ _).mp h
    refine ⟨fun held hheld => ?_, hother.unused, hother.saved, hother.uncompared, hother.cleared⟩
    obtain ⟨hnewest, -, hrow⟩ := hother.holds held hheld
    exact ⟨hnewest, hundisturbed held hheld, hrow⟩

/-- Distinct tries of one code are no more than the code has. -/
private theorem length_compared_le {s : SignInStore} (h : s.Sound) (pk : ℕ) :
    (s.compared.filter (·.1 = pk)).length ≤ MAX_TRIES := by
  have hmem : ∀ entry ∈ s.compared.filter (·.1 = pk),
      entry ∈ (List.range MAX_TRIES).map fun k => (pk, k + 1) := by
    rintro ⟨q, k⟩ hentry
    obtain ⟨hin, hq⟩ := List.mem_filter.mp hentry
    obtain ⟨hpos, hmax, -⟩ := h.range _ hin
    obtain rfl : q = pk := of_decide_eq_true hq
    refine List.mem_map.mpr ⟨k - 1, List.mem_range.mpr ?_, ?_⟩
    · dsimp only at hpos hmax
      omega
    · exact congrArg (Prod.mk q) (Nat.sub_add_cancel hpos)
  have hle := (List.subperm_of_subset (h.distinct.filter _) hmem).length_le
  rwa [List.length_map, List.length_range] at hle

/-- **The three bounds hold** in every state of a run in which every save finds the code as it was
    read, and no request makes a code, or lets one run out, while another is about its codes. -/
theorem oneWayIn (checkPassword : String → String → Bool)
    (turns : List (Turn SignInAsked SignInRequest.Step ℕ)) (now : ℕ)
    (hcondition : (signingIn checkPassword).machine.EachStep
      (fun s turn _ => turn.Meets Current s ∧ Undisturbed.Respected s turn) turns ⟨{ now }, {}⟩) :
    (signingIn checkPassword).machine.Always OneWayIn turns ⟨{ now }, {}⟩ := by
  refine (signInOutline checkPassword).always_under
    (fun s h => ⟨h.shared.once, length_compared_le h.shared, h.shared.inTime⟩)
    turns _ (.start _ ?_) hcondition
  exact ⟨.empty, .empty, .nil, nofun, .nil, nofun, rfl⟩

private abbrev SignInTurns : Type := List (Turn SignInAsked SignInRequest.Step ℕ)

/-- A code is asked for, and created. -/
def sendOne (request : ℕ) (hash : String) : List (Turn SignInAsked SignInRequest.Step ℕ) :=
  [.start (.send false), .step request .last, .step request .limit, .step request .spend,
    .step request (.create hash)]

/-- A code is typed wrong, and then right. -/
theorem oneWayIn_retyped : (signingIn (· == ·)).machine.Always OneWayIn
    (sendOne 0 "123456" ++ ([.outside 60, .start (.verify "123 465"), .step 1 (.look false),
      .step 1 (.read (some 0)), .step 1 .tally, .step 1 .compare, .start (.verify "123 456"),
      .step 2 (.look false), .step 2 (.read (some 0)), .step 2 .tally, .step 2 .compare,
      .step 2 .accept] : SignInTurns))
    ⟨{ now := 0 }, {}⟩ :=
  oneWayIn _ _ 0 (Machine.eachStep_of_trace (by decide +kernel))

/-- The code that was sent, typed by so many requests at once. -/
def typedAtOnce (typed : String) (requests : ℕ) : List (Turn SignInAsked SignInRequest.Step ℕ) :=
  sendOne 0 "123456" ++ List.replicate requests (Turn.start (SignInAsked.verify typed))
    ++ (([.look false, .read (some 0), .tally, .compare] : List SignInRequest.Step).map fun a =>
      (List.range requests).map fun i => Turn.step (i + 1) a).flatten

/-- **Two requests that read the same row** are both let in, and six that do are all compared. -/
theorem not_oneWayIn :
    ¬(signingIn (· == ·)).machine.Always OneWayIn
      (typedAtOnce "123456" 2 ++ ([.step 1 .accept, .step 2 .accept] : SignInTurns))
      ⟨{ now := 0 }, {}⟩
    ∧ ¬(signingIn (· == ·)).machine.Always OneWayIn (typedAtOnce "000000" 6)
      ⟨{ now := 0 }, {}⟩ := by
  constructor
  · intro h
    have htwice : ¬((signingIn (· == ·)).machine.run
        (typedAtOnce "123456" 2 ++ ([.step 1 .accept, .step 2 .accept] : SignInTurns))
        ⟨{ now := 0 }, {}⟩).shared.accepted.Nodup := by decide +kernel
    exact htwice h.last.once
  · intro h
    have hsix : ¬(((signingIn (· == ·)).machine.run (typedAtOnce "000000" 6)
        ⟨{ now := 0 }, {}⟩).shared.compared.filter (·.1 = 0)).length ≤ MAX_TRIES := by
      decide +kernel
    exact hsix (h.last.tries 0)

end WPanel.Accounts
