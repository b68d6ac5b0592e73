import WPanel.Core
import WPanel.Lib.Interleaving

namespace WPanel.Accounts

open WPanel.Lib

/-!
# Recovery codes

`mfa_verify_code_or_recovery`, `mfa_regenerate_recovery_codes` and `_replace_recovery_codes` of
`accounts/services.py`.  A request reads the unused codes of the account in one query, checks the
typed code against one hash after the other, and then writes `used_at` on the code that matched.
Regenerating deletes the codes of the account and adds ten new ones in one transaction.

* `CodeRequest`, `recovering` — the requests step by step and in any order;
* `SingleUse` — no code has let anybody in twice, and none after it was replaced;
* `OneByOne` — no code is written while another request of the account has read its unused codes
  and not yet come to its end, and no codes are looked up for replacement while another request is
  replacing them;
* `singleUse` — a run that keeps to this uses each code once;
* `not_singleUse` — two requests that read one code as unused are both let in, and two
  replacements at once leave the codes of the first alive.
-/

/-! ### The codes -/

/-- `RECOVERY_CODE_COUNT`. -/
def RECOVERY_CODE_COUNT : ℕ := 10

/-- `normalize_recovery_code`. -/
def normalizeRecoveryCode (code : String) : String :=
  String.ofList ((lower code).toList.filter fun c => !isSpace c && c != '-')

example : normalizeRecoveryCode " A7K9-h3mn-8pqr" = "a7k9h3mn8pqr" := by decide +kernel

/-- `MFARecoveryCode`. -/
structure RecoveryCode where
  user : ℕ
  codeHash : String
  usedAt : Option ℕ := none
  deriving DecidableEq, Repr

/-- The codes, the rows that open transactions have deleted, and what became of each code: whom
    it let in, whether it was replaced, and whether it let somebody in after that. -/
structure RecoveryStore where
  codes : Table RecoveryCode := {}
  locked : List ℕ := []
  accepted : List ℕ := []
  replaced : List ℕ := []
  late : List ℕ := []
  deriving DecidableEq

/-- The codes of an account, with their keys. -/
def RecoveryStore.codesOf (s : RecoveryStore) (user : ℕ) : List (ℕ × RecoveryCode) :=
  s.codes.entries.filter fun entry => entry.2.user = user

/-! ### The requests -/

/-- How far `mfa_verify_code_or_recovery` has come. -/
inductive Verifying where
  | begun
  /-- The account is not locked. -/
  | unlocked
  /-- What was typed is no authenticator code. -/
  | recovery
  /-- The unused codes were read, and these are left to be checked. -/
  | checking (rows : List (ℕ × RecoveryCode))
  /-- The typed code matched this one. -/
  | matched (pk : ℕ)
  | over
  deriving DecidableEq, Repr

/-- How far `mfa_regenerate_recovery_codes` has come. -/
inductive Replacing where
  | begun
  /-- The rows its deletion is about. -/
  | found (pks : List ℕ)
  /-- They are deleted, and not yet committed. -/
  | deleted (pks : List ℕ)
  | over
  deriving DecidableEq, Repr

/-- A request about the codes of an account. -/
inductive CodeRequest where
  | verify (user : ℕ) (code : String) (phase : Verifying)
  | regenerate (user : ℕ) (phase : Replacing)
  deriving DecidableEq, Repr

/-- The steps of the two requests. -/
inductive CodeRequest.Step where
  /-- `is_locked_out`, with its answer. -/
  | look (locked : Bool)
  /-- `mfa_lib.verify`, with its answer. -/
  | totp (right : Bool)
  /-- The query for the unused codes. -/
  | read
  /-- `check_password` on the next code. -/
  | check
  /-- `used_at` is written. -/
  | save (now : ℕ)
  /-- The deletion looks up the codes of the account. -/
  | find
  /-- It has every row to itself. -/
  | delete
  /-- Ten new codes are added, and everything is committed. -/
  | create (hashes : List String)
  | rollback
  /-- The request is cut off. -/
  | die
  deriving DecidableEq, Repr

section

-- `check_password`, of the typed code against a stored hash
variable (checkPassword : String → String → Bool)

/-- A step of `mfa_verify_code_or_recovery`. -/
def Verifying.next (user : ℕ) (code : String) (s : RecoveryStore) :
    CodeRequest.Step → Verifying → Except Err (RecoveryStore × Verifying)
  | .look locked, .begun => pure (s, if locked then .over else .unlocked)
  | .totp right, .unlocked =>
    pure (s, if right || normalizeRecoveryCode code = "" then .over else .recovery)
  | .read, .recovery =>
    pure (s, .checking ((s.codesOf user).filter fun entry => entry.2.usedAt = none))
  | .check, .checking [] => pure (s, .over)
  | .check, .checking ((pk, row) :: rows) =>
    pure (s, if checkPassword (normalizeRecoveryCode code) row.codeHash then .matched pk
      else .checking rows)
  | .save now, .matched pk => do
    ensure (pk ∉ s.locked) (.unexpected "waiting for the row")
    match s.codes.get? pk with
    | none => return (s, .over)  -- nothing to update: `save` raises
    | some row =>
      return ({ s with
        codes := s.codes.put pk { row with usedAt := some now }
        accepted := pk :: s.accepted
        late := if pk ∈ s.replaced then pk :: s.late else s.late }, .over)
  | .die, _ => pure (s, .over)
  | _, _ => throw (.unexpected "not the next step")

/-- A step of `mfa_regenerate_recovery_codes`.  The rows a deletion is about are those it finds
    when it begins; it then waits for the ones that another transaction holds. -/
def Replacing.next (user : ℕ) (s : RecoveryStore) :
    CodeRequest.Step → Replacing → Except Err (RecoveryStore × Replacing)
  | .find, .begun => pure (s, .found ((s.codesOf user).map Prod.fst))
  | .delete, .found pks => do
    ensure (∀ pk ∈ pks, pk ∉ s.locked) (.unexpected "waiting for the rows")
    return ({ s with locked := pks ++ s.locked }, .deleted pks)
  | .create hashes, .deleted pks => do
    ensure (hashes.length = RECOVERY_CODE_COUNT) (.unexpected "ten codes are made")
    return ({ s with
      codes := (s.codes.eraseKeys pks).insertAll
        (hashes.map fun hash => { user, codeHash := hash })
      locked := s.locked.filter (· ∉ pks)
      replaced := (s.codesOf user).map Prod.fst ++ s.replaced }, .over)
  | .rollback, .found _ => pure (s, .over)
  | .rollback, .deleted pks => pure ({ s with locked := s.locked.filter (· ∉ pks) }, .over)
  | _, _ => throw (.unexpected "not the next step")

def CodeRequest.next (a : CodeRequest.Step) (s : RecoveryStore) :
    CodeRequest → Except Err (RecoveryStore × CodeRequest)
  | .verify user code phase => do
    let (s', phase') ← phase.next checkPassword user code s a
    return (s', .verify user code phase')
  | .regenerate user phase => do
    let (s', phase') ← phase.next user s a
    return (s', .regenerate user phase')

/-- What a request is sent with. -/
inductive Asked where
  | verify (user : ℕ) (code : String)
  | regenerate (user : ℕ) (passwordRight mfaEnabled : Bool)
  deriving DecidableEq, Repr

def Asked.start : Asked → Except Err CodeRequest
  | .verify user code => pure (.verify user code .begun)
  | .regenerate user passwordRight mfaEnabled => do
    ensure (passwordRight = true)
      (serviceError "Current password is incorrect." "invalid_password")
    ensure (mfaEnabled = true) (serviceError "Two-factor sign-in is not on." "mfa_not_enabled")
    return .regenerate user .begun

/-- The requests of all accounts, step by step and in any order. -/
def recovering : Interleaving RecoveryStore CodeRequest Asked CodeRequest.Step Empty Err where
  start asked s := do
    let request ← asked.start
    return (s, request)
  step a s request := request.next checkPassword a s
  outside c := nomatch c
  absent := .unexpected "there is no such request"

end

/-! ### Single use -/

/-- No code has let anybody in twice, and none has after it was replaced. -/
def SingleUse (s : System RecoveryStore CodeRequest) : Prop :=
  s.shared.accepted.Nodup ∧ s.shared.late = []

instance (s : System RecoveryStore CodeRequest) : Decidable (SingleUse s) :=
  inferInstanceAs (Decidable (_ ∧ _))

/-- The account whose unused codes a request has read, one of which it may still write. -/
def CodeRequest.reads : CodeRequest → Option ℕ
  | .verify user _ (.checking _) => some user
  | .verify user _ (.matched _) => some user
  | _ => none

/-- The account whose codes a request has looked up for replacement. -/
def CodeRequest.replaces : CodeRequest → Option ℕ
  | .regenerate user (.found _) => some user
  | .regenerate user (.deleted _) => some user
  | _ => none

/-- No code is written while another request of the account has read the unused ones and not yet
    come to its end; and no codes are looked up for replacement while another request is replacing
    them. -/
def OneByOne : Discipline RecoveryStore CodeRequest CodeRequest.Step Empty where
  step _ request a other := match a, request with
    | .save _, .verify user _ _ => other.reads ≠ some user
    | .find, .regenerate user _ => other.replaces ≠ some user
    | _, _ => True
  outside _ c _ := nomatch c

instance (s : RecoveryStore) (request : CodeRequest) (a : CodeRequest.Step) (other : CodeRequest) :
    Decidable (OneByOne.step s request a other) := by
  unfold OneByOne
  dsimp only
  split <;> infer_instance

instance (s : RecoveryStore) (c : Empty) (other : CodeRequest) :
    Decidable (OneByOne.outside s c other) := nomatch c

/-! ### Why a code is used once -/

/-- What is known of the codes: one that let somebody in is used, and one that was replaced is
    gone. -/
structure RecoveryStore.Sound (s : RecoveryStore) : Prop where
  nodup : s.accepted.Nodup
  used : ∀ pk ∈ s.accepted, pk < s.codes.nextPk ∧ ∀ row ∈ s.codes.get? pk, row.usedAt ≠ none
  gone : ∀ pk ∈ s.replaced, pk < s.codes.nextPk ∧ s.codes.get? pk = none
  late : s.late = []

/-- The keys a replacement has looked up. -/
def CodeRequest.found : CodeRequest → Option (List ℕ)
  | .regenerate _ (.found pks) => some pks
  | .regenerate _ (.deleted pks) => some pks
  | _ => none

/-- A replacement is about every code of its account. -/
def CodeRequest.Covers (s : RecoveryStore) (request : CodeRequest) : Prop :=
  ∀ user ∈ request.replaces, ∀ pks ∈ request.found, ∀ pk row,
    s.codes.get? pk = some row → row.user = user → pk ∈ pks

/-- The codes a request may still write. -/
def CodeRequest.holding : CodeRequest → List ℕ
  | .verify _ _ (.checking rows) => rows.map Prod.fst
  | .verify _ _ (.matched pk) => [pk]
  | _ => []

/-- A code is there or was deleted, and where it is there it is unused and of the account. -/
structure RecoveryStore.Unused (s : RecoveryStore) (account : Option ℕ) (pk : ℕ) : Prop where
  lt : pk < s.codes.nextPk
  unused : ∀ row ∈ s.codes.get? pk, row.usedAt = none
  mine : ∀ row ∈ s.codes.get? pk, account = some row.user

/-- What a request has read as unused still is. -/
def CodeRequest.Fresh (s : RecoveryStore) (request : CodeRequest) : Prop :=
  ∀ pk ∈ request.holding, s.Unused request.reads pk

/-- Two requests do not replace the codes of one account. -/
def CodeRequest.Apart (request other : CodeRequest) : Prop :=
  ∀ user ∈ request.replaces, other.replaces ≠ some user

/-- What a step of a request does. -/
inductive CodeRequest.Did :
    CodeRequest.Step → RecoveryStore → CodeRequest → RecoveryStore → CodeRequest → Prop
  /-- It changes no code, replaces what it replaced before, and holds what it held before or has
      just read. -/
  | quiet {a : CodeRequest.Step} {s : RecoveryStore} {request request' : CodeRequest}
      {locked : List ℕ} :
      request'.replaces = none ∨ (request'.replaces = request.replaces
        ∧ request'.found = request.found) →
      (∀ pk ∈ request'.holding, (pk ∈ request.holding ∧ request'.reads = request.reads)
        ∨ s.Unused request'.reads pk) →
      Did a s request { s with locked } request'
  | saved {now : ℕ} {s : RecoveryStore} {user pk : ℕ} {code : String} {row : RecoveryCode} :
      s.codes.get? pk = some row →
      Did (.save now) s (.verify user code (.matched pk))
        { s with
          codes := s.codes.put pk { row with usedAt := some now }
          accepted := pk :: s.accepted
          late := if pk ∈ s.replaced then pk :: s.late else s.late } (.verify user code .over)
  | found {s : RecoveryStore} {user : ℕ} :
      Did .find s (.regenerate user .begun) s
        (.regenerate user (.found ((s.codesOf user).map Prod.fst)))
  | created {s : RecoveryStore} {user : ℕ} {pks : List ℕ} {hashes : List String} :
      Did (.create hashes) s (.regenerate user (.deleted pks))
        { s with
          codes := (s.codes.eraseKeys pks).insertAll
            (hashes.map fun hash => { user, codeHash := hash })
          locked := s.locked.filter (· ∉ pks)
          replaced := (s.codesOf user).map Prod.fst ++ s.replaced }
        (.regenerate user .over)

section

variable {checkPassword : String → String → Bool} {s s' : RecoveryStore}
  {request request' other : CodeRequest} {a : CodeRequest.Step} {user : ℕ} {code : String}

/-- What the query for the unused codes reads. -/
private theorem unused_of_read {pk : ℕ}
    (h : pk ∈ ((s.codesOf user).filter fun entry => entry.2.usedAt = none).map Prod.fst) :
    s.Unused (some user) pk := by
  obtain ⟨⟨_, row⟩, hmem, rfl⟩ := List.mem_map.mp h
  obtain ⟨hmem, hunused⟩ := List.mem_filter.mp hmem
  obtain ⟨hentry, huser⟩ := List.mem_filter.mp hmem
  have hrow := Table.mem_entries.mp hentry
  refine ⟨Table.lt_nextPk hrow, fun row' hrow' => ?_, fun row' hrow' => ?_⟩
  · cases hrow.symm.trans hrow'
    exact of_decide_eq_true hunused
  · cases hrow.symm.trans hrow'
    exact congrArg some (of_decide_eq_true huser).symm

private theorem Verifying.did {phase phase' : Verifying}
    (h : phase.next checkPassword user code s a = .ok (s', phase')) :
    CodeRequest.Did a s (.verify user code phase) s' (.verify user code phase') := by
  -- a request that is over holds nothing
  have hover : CodeRequest.Did a s (.verify user code phase) s (.verify user code .over) :=
    .quiet (.inl rfl) nofun
  unfold Verifying.next at h
  split at h
  · cases (pure_eq_ok _ _).mp h
    exact .quiet (.inl rfl) (by split <;> exact nofun)
  · cases (pure_eq_ok _ _).mp h
    exact .quiet (.inl rfl) (by split <;> exact nofun)
  · cases (pure_eq_ok _ _).mp h
    exact .quiet (.inl rfl) fun pk hpk => .inr (unused_of_read hpk)
  · cases (pure_eq_ok _ _).mp h
    exact hover
  · cases (pure_eq_ok _ _).mp h
    refine .quiet (.inl rfl) fun pk hpk => .inl ?_
    split at hpk
    · next hright =>
      rw [if_pos hright]
      exact ⟨List.mem_map.mpr ⟨_, List.mem_cons_self, (List.mem_singleton.mp hpk).symm⟩, rfl⟩
    · next hwrong =>
      rw [if_neg hwrong]
      exact ⟨List.mem_cons_of_mem _ hpk, rfl⟩
  · obtain ⟨_, _, h⟩ := bind_eq_ok.mp h
    split at h
    · cases (pure_eq_ok _ _).mp h
      exact hover
    · next hrow =>
      cases (pure_eq_ok _ _).mp h
      exact .saved hrow
  · cases (pure_eq_ok _ _).mp h
    exact hover
  · cases h

private theorem Replacing.did {phase phase' : Replacing}
    (h : phase.next user s a = .ok (s', phase')) :
    CodeRequest.Did a s (.regenerate user phase) s' (.regenerate user phase') := by
  unfold Replacing.next at h
  split at h
  · cases (pure_eq_ok _ _).mp h
    exact .found
  · obtain ⟨_, _, h⟩ := bind_eq_ok.mp h
    cases (pure_eq_ok _ _).mp h
    exact .quiet (.inr ⟨rfl, rfl⟩) nofun
  · obtain ⟨_, _, h⟩ := bind_eq_ok.mp h
    cases (pure_eq_ok _ _).mp h
    exact .created
  · cases (pure_eq_ok _ _).mp h
    exact .quiet (.inl rfl) nofun
  · cases (pure_eq_ok _ _).mp h
    exact .quiet (.inl rfl) nofun
  · cases h

theorem CodeRequest.did (h : request.next checkPassword a s = .ok (s', request')) :
    CodeRequest.Did a s request s' request' := by
  cases request with
  | verify user code phase =>
    obtain ⟨⟨_, _⟩, hnext, h⟩ := bind_eq_ok.mp h
    cases (pure_eq_ok _ _).mp h
    exact Verifying.did hnext
  | regenerate user phase =>
    obtain ⟨⟨_, _⟩, hnext, h⟩ := bind_eq_ok.mp h
    cases (pure_eq_ok _ _).mp h
    exact Replacing.did hnext

/-- The codes of an account are those its query lists. -/
theorem RecoveryStore.mem_codesOf {pk : ℕ} {row : RecoveryCode}
    (hrow : s.codes.get? pk = some row) (huser : row.user = user) :
    pk ∈ (s.codesOf user).map Prod.fst :=
  List.mem_map.mpr ⟨(pk, row), List.mem_filter.mpr
    ⟨Table.mem_entries.mpr hrow, decide_eq_true huser⟩, rfl⟩

/-- A code after ten new ones were added was there, or is new. -/
private theorem get?_created {pks : List ℕ} {hashes : List String} {pk : ℕ} {row : RecoveryCode}
    (h : ((s.codes.eraseKeys pks).insertAll
      (hashes.map fun hash => { user, codeHash := hash })).get? pk = some row) :
    (pk ∉ pks ∧ s.codes.get? pk = some row)
      ∨ (s.codes.nextPk ≤ pk ∧ row.user = user ∧ row.usedAt = none) := by
  rcases Table.get?_insertAll_eq_some h with hold | ⟨hge, hnew⟩
  · rw [Table.get?_eraseKeys] at hold
    split at hold
    · cases hold
    · next hpk => exact .inl ⟨hpk, hold⟩
  · obtain ⟨hash, -, rfl⟩ := List.mem_map.mp hnew
    rw [Table.nextPk_eraseKeys] at hge
    exact .inr ⟨hge, rfl, rfl⟩

/-- **What a step keeps of the codes**: it writes a code that nobody has used, and replaces all
    codes of the account. -/
theorem RecoveryStore.Sound.did (h : s.Sound) (hcovers : request.Covers s)
    (hfresh : request.Fresh s) (hdid : CodeRequest.Did a s request s' request') : s'.Sound := by
  cases hdid with
  | quiet _ _ => exact ⟨h.nodup, h.used, h.gone, h.late⟩
  | @saved now _ _ pk _ row hrow =>
    have hunused : row.usedAt = none := (hfresh pk (List.mem_singleton.mpr rfl)).unused row hrow
    have hnew : pk ∉ s.accepted := fun hmem => (h.used pk hmem).2 row hrow hunused
    have hlive : pk ∉ s.replaced := fun hmem => by
      rw [(h.gone pk hmem).2] at hrow
      cases hrow
    refine ⟨List.nodup_cons.mpr ⟨hnew, h.nodup⟩, ?_, ?_, ?_⟩
    · intro q hq
      rw [Table.nextPk_put, Table.get?_put hrow]
      rcases List.mem_cons.mp hq with rfl | hq
      · rw [if_pos rfl]
        refine ⟨Table.lt_nextPk hrow, fun row' hrow' => ?_⟩
        cases hrow'
        exact nofun
      · refine ⟨(h.used q hq).1, ?_⟩
        rw [if_neg fun hsame : q = pk => hnew (hsame ▸ hq)]
        exact (h.used q hq).2
    · intro q hq
      have hne : q ≠ pk := fun hsame => hlive (hsame ▸ hq)
      rw [Table.nextPk_put, Table.get?_put_of_ne hne]
      exact h.gone q hq
    · rw [if_neg hlive]
      exact h.late
  | found => exact h
  | @created _ user pks hashes =>
    refine ⟨h.nodup, fun pk hpk => ?_, fun pk hpk => ?_, h.late⟩
    · obtain ⟨hlt, hused⟩ := h.used pk hpk
      rw [Table.nextPk_insertAll, Table.nextPk_eraseKeys]
      refine ⟨by omega, fun row hrow => ?_⟩
      rcases get?_created hrow with ⟨-, hrow⟩ | ⟨hge, -⟩
      · exact hused row hrow
      · omega
    · have hbefore : pk < s.codes.nextPk ∧ (pk ∈ pks ∨ s.codes.get? pk = none) := by
        rcases List.mem_append.mp hpk with hpk | hpk
        · obtain ⟨⟨_, row⟩, hentry, rfl⟩ := List.mem_map.mp hpk
          obtain ⟨hrow, huser⟩ := List.mem_filter.mp hentry
          have hrow := Table.mem_entries.mp hrow
          exact ⟨Table.lt_nextPk hrow, .inl
            (hcovers user rfl pks rfl _ row hrow (of_decide_eq_true huser))⟩
        · exact ⟨(h.gone pk hpk).1, .inr (h.gone pk hpk).2⟩
      obtain ⟨hlt, hgone⟩ := hbefore
      rw [Table.nextPk_insertAll, Table.nextPk_eraseKeys]
      refine ⟨by omega, ?_⟩
      rw [Table.get?_insertAll_of_lt (by rw [Table.nextPk_eraseKeys]; exact hlt),
        Table.get?_eraseKeys]
      split
      · rfl
      · next hpks => exact hgone.resolve_left hpks

/-- A replacement covers the codes it has looked up. -/
theorem CodeRequest.Covers.did (h : request.Covers s)
    (hdid : CodeRequest.Did a s request s' request') : request'.Covers s' := by
  cases hdid with
  | quiet hsame _ =>
    intro user huser pks hpks
    rcases hsame with hnone | ⟨hreplaces, hfound⟩
    · rw [hnone] at huser
      cases huser
    · rw [hreplaces] at huser
      rw [hfound] at hpks
      exact h user huser pks hpks
  | saved _ => exact nofun
  | found =>
    rintro _ ⟨⟩ _ ⟨⟩ pk row hrow huser
    exact RecoveryStore.mem_codesOf hrow huser
  | created => exact nofun

/-- It still does after a step of a request that does not replace the codes of its account. -/
theorem CodeRequest.Covers.of_did (h : other.Covers s) (hapart : request.Apart other)
    (hdid : CodeRequest.Did a s request s' request') : other.Covers s' := by
  cases hdid with
  | quiet _ _ => exact h
  | @saved _ _ _ pk _ old hrow =>
    intro u hu pks hpks q row hget huser
    rw [Table.get?_put hrow] at hget
    split at hget
    · next hq =>
      cases hget
      exact h u hu pks hpks q old (hq ▸ hrow) huser
    · exact h u hu pks hpks q row hget huser
  | found => exact h
  | created =>
    intro u hu pks hpks q row hget huser
    rcases get?_created hget with ⟨-, hold⟩ | ⟨-, hmine, -⟩
    · exact h u hu pks hpks q row hold huser
    · exact absurd (hmine.symm.trans huser ▸ hu) (hapart _ rfl)

/-- A request holds what it has just read, or part of what it held. -/
theorem CodeRequest.Fresh.did (h : request.Fresh s)
    (hdid : CodeRequest.Did a s request s' request') : request'.Fresh s' := by
  cases hdid with
  | quiet _ hholding =>
    intro pk hpk
    rcases hholding pk hpk with ⟨hheld, hreads⟩ | ⟨hlt, hunused, hmine⟩
    · obtain ⟨hlt, hunused, hmine⟩ := h pk hheld
      exact ⟨hlt, hunused, hreads ▸ hmine⟩
    · exact ⟨hlt, hunused, hmine⟩
  | saved _ => exact nofun
  | found => exact nofun
  | created => exact nofun

/-- What a request has read as unused stays so, where no other of the account writes a code
    meanwhile. -/
theorem CodeRequest.Fresh.of_did (h : other.Fresh s) (hmine : request.Fresh s)
    (hdid : CodeRequest.Did a s request s' request')
    (halone : OneByOne.step s request a other) : other.Fresh s' := by
  cases hdid with
  | quiet _ _ => exact fun pk hpk => ⟨(h pk hpk).lt, (h pk hpk).unused, (h pk hpk).mine⟩
  | @saved now _ user pk code row hrow =>
    intro q hq
    obtain ⟨hlt, hunused, hother⟩ := h q hq
    -- the code that is written is of this account, those the other holds are of another
    have hne : q ≠ pk := by
      rintro rfl
      have huser := (hmine q (List.mem_singleton.mpr rfl)).mine row hrow
      exact halone ((hother row hrow).trans huser.symm)
    have hget : (s.codes.put pk { row with usedAt := some now }).get? q = s.codes.get? q :=
      Table.get?_put_of_ne hne _
    exact ⟨hlt.trans_eq (Table.nextPk_put _ _ _).symm, fun row' hrow' =>
      hunused row' (hget ▸ hrow'), fun row' hrow' => hother row' (hget ▸ hrow')⟩
  | found => exact h
  | created =>
    intro q hq
    obtain ⟨hlt, hunused, hother⟩ := h q hq
    refine ⟨?_, fun row hrow => ?_, fun row hrow => ?_⟩
    · rw [Table.nextPk_insertAll, Table.nextPk_eraseKeys]
      omega
    · rcases get?_created hrow with ⟨-, hold⟩ | ⟨-, -, hnew⟩
      · exact hunused row hold
      · exact hnew
    · rcases get?_created hrow with ⟨-, hold⟩ | ⟨hge, -, -⟩
      · exact hother row hold
      · exact absurd hge (by omega)

/-- Requests stay apart, where codes are not looked up while another replaces them. -/
theorem CodeRequest.Apart.did (h : request.Apart other)
    (hdid : CodeRequest.Did a s request s' request')
    (halone : OneByOne.step s request a other) : request'.Apart other := by
  cases hdid with
  | quiet hsame _ =>
    intro user huser
    rcases hsame with hnone | ⟨hreplaces, -⟩
    · rw [hnone] at huser
      cases huser
    · exact h user (hreplaces ▸ huser)
  | saved _ => exact nofun
  | found =>
    rintro _ ⟨⟩
    exact halone
  | created => exact nofun

theorem CodeRequest.Apart.symm (h : request.Apart other) : other.Apart request :=
  fun user hother hrequest => h user hrequest hother

/-- A request that is sent has looked nothing up. -/
theorem Asked.replaces_start {asked : Asked} (h : asked.start = .ok request) :
    request.replaces = none ∧ request.holding = [] := by
  cases asked with
  | verify user code =>
    cases (pure_eq_ok _ _).mp h
    exact ⟨rfl, rfl⟩
  | regenerate user passwordRight mfaEnabled =>
    obtain ⟨_, _, h⟩ := bind_eq_ok.mp h
    obtain ⟨_, _, h⟩ := bind_eq_ok.mp h
    cases (pure_eq_ok _ _).mp h
    exact ⟨rfl, rfl⟩

end

/-- Why a code is used once. -/
def recoveryOutline (checkPassword : String → String → Bool) :
    Outline (recovering checkPassword) OneByOne where
  shared := RecoveryStore.Sound
  own s request := request.Covers s ∧ request.Fresh s
  pair := CodeRequest.Apart
  pair_symm := fun _ _ h => h.symm
  start_own := by
    intro asked s s' request h hs
    obtain ⟨_, hstart, h⟩ := bind_eq_ok.mp h
    cases (pure_eq_ok _ _).mp h
    obtain ⟨hreplaces, hholding⟩ := Asked.replaces_start hstart
    refine ⟨hs, fun user huser => ?_, fun pk hpk => ?_⟩
    · rw [hreplaces] at huser
      cases huser
    · rw [hholding] at hpk
      cases hpk
  start_other := by
    intro asked s s' request other h _ hother
    obtain ⟨_, hstart, h⟩ := bind_eq_ok.mp h
    cases (pure_eq_ok _ _).mp h
    refine ⟨hother, fun user huser => ?_⟩
    rw [(Asked.replaces_start hstart).1] at huser
    cases huser
  step_own := by
    intro a s s' request request' h hs hown
    obtain ⟨hcovers, hfresh⟩ := hown
    have hdid := CodeRequest.did h
    exact ⟨hs.did hcovers hfresh hdid, hcovers.did hdid, hfresh.did hdid⟩
  step_other := by
    intro a s s' request request' other h _ hown hother hapart halone
    have hdid := CodeRequest.did h
    exact ⟨⟨hother.1.of_did hapart hdid, hother.2.of_did hown.2 hdid halone⟩,
      hapart.did hdid halone⟩
  outside_shared := nofun
  outside_other := nofun

/-- **A recovery code is used once**, and not after it was replaced, in a run in which the requests
    of an account that write its codes do not overlap. -/
theorem singleUse (checkPassword : String → String → Bool)
    (turns : List (Turn Asked CodeRequest.Step Empty)) (codes : Table RecoveryCode)
    (hcondition : (recovering checkPassword).machine.EachStep
      (fun s turn _ => OneByOne.Respected s turn) turns ⟨{ codes }, {}⟩) :
    (recovering checkPassword).machine.Always SingleUse turns ⟨{ codes }, {}⟩ := by
  refine (recoveryOutline checkPassword).always (fun _ h => ⟨h.shared.nodup, h.shared.late⟩)
    turns _ (.start _ ?_) hcondition
  exact ⟨.nil, nofun, nofun, rfl⟩

/-- A hasher that marks what it hashes. -/
def markedHash (typed hash : String) : Bool := hash == "hashed " ++ typed

/-- An account with one recovery code. -/
def oneCode : Table RecoveryCode := ⟨[some { user := 0, codeHash := "hashed a7k9h3mn8pqr" }]⟩

private abbrev RecoveryTurns : Type := List (Turn Asked CodeRequest.Step Empty)

/-- The steps by which a request gets to write a code. -/
def spend (request : ℕ) : List (Turn Asked CodeRequest.Step Empty) :=
  [.step request (.look false), .step request (.totp false), .step request .read,
    .step request .check]

/-- Two requests have read the code, one is cut off and the other uses it; then all codes are
    replaced. -/
theorem singleUse_oneCode : (recovering markedHash).machine.Always SingleUse
    (([.start (.verify 0 "A7K9-h3mn-8pqr"), .start (.verify 0 "A7K9-h3mn-8pqr")] : RecoveryTurns)
      ++ spend 1 ++ spend 0 ++ ([.step 1 .die, .step 0 (.save 1),
      .start (.regenerate 0 true true), .step 2 .find, .step 2 .delete,
      .step 2 (.create (List.replicate 10 "hashed b"))] : RecoveryTurns))
    ⟨{ codes := oneCode }, {}⟩ :=
  singleUse markedHash _ oneCode (Machine.eachStep_of_trace (by decide +kernel))

/-- Two requests with one code, at once. -/
def spentTwice : List (Turn Asked CodeRequest.Step Empty) :=
  ([.start (.verify 0 "A7K9-h3mn-8pqr"), .start (.verify 0 "a7k9h3mn8pqr")] : RecoveryTurns)
    ++ spend 0 ++ spend 1 ++ ([.step 0 (.save 1), .step 1 (.save 2)] : RecoveryTurns)

/-- Two replacements at once, and a code of the first afterwards. -/
def replacedTwice : List (Turn Asked CodeRequest.Step Empty) :=
  ([.start (.regenerate 0 true true), .start (.regenerate 0 true true),
    .step 0 .find, .step 1 .find, .step 0 .delete, .step 0 (.create (List.replicate 10 "hashed a")),
    .step 1 .delete, .step 1 (.create (List.replicate 10 "hashed b")),
    .start (.verify 0 "a")] : RecoveryTurns) ++ spend 2 ++ ([.step 2 (.save 1)] : RecoveryTurns)

/-- **Two requests that read one code as unused are both let in**; and a code that was replaced
    while it was being made lets somebody in. -/
theorem not_singleUse :
    ¬(recovering markedHash).machine.Always SingleUse spentTwice ⟨{ codes := oneCode }, {}⟩
    ∧ ¬(recovering markedHash).machine.Always SingleUse replacedTwice
      ⟨{ codes := oneCode }, {}⟩ := by
  constructor
  · intro h
    have hlast : ¬SingleUse ((recovering markedHash).machine.run spentTwice
        ⟨{ codes := oneCode }, {}⟩) := by decide +kernel
    exact hlast h.last
  · intro h
    have hlast : ¬SingleUse ((recovering markedHash).machine.run replacedTwice
        ⟨{ codes := oneCode }, {}⟩) := by decide +kernel
    exact hlast h.last

end WPanel.Accounts
