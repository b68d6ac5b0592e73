import WPanel.Accounts.Roles
import WPanel.Lib.Interleaving

namespace WPanel.Accounts

open WPanel.Lib

/-!
# The last Super Admin

Nobody changes their own role or status, and only a Super Admin changes that of an admin.  Each
request goes by the rows of its actor and of the other person as it read them when it began, and
no row is locked.

* `Request`, `administering` — `assign_role` and `set_account_status`, step by step and in any
  order, while the other staff actions go on;
* `User.Standing` — an active Super Admin;
* `StillStanding` — whoever changes an active Super Admin is one at that moment;
* `stillStanding_alone` — the checks see to that where no other commit comes between them and the
  change;
* `administrator_remains` — in a run of such changes one Super Admin remains;
* `no_administrator_left` — two who demote each other at once leave none.
-/

/-! ### The requests -/

/-- What is asked for; none stands for a value that is no role or no status. -/
inductive Change where
  | assign (role : Option Role)
  | setStatus (status : Option AccountStatus)
  deriving DecidableEq, Repr

/-- The checks of `assign_role` and `set_account_status`. -/
def Change.check (change : Change) (actor target : ℕ) (a u : User) : Except Err User :=
  match change with
  | .assign role => assignRole actor target role a u
  | .setStatus status => setAccountStatus actor target status a u

/-- `save(update_fields=…)`: the column that was asked for, and what is derived, which is derived
    from the copy.  Nothing is written when the copy has the value already. -/
def Change.write (change : Change) (copy row : User) : User :=
  match change with
  | .assign (some role) =>
    if copy.role = role then row else
      let saved := User.derived { copy with role := role }
      { row with
        role := role, group := some role
        isActive := saved.isActive, isStaff := saved.isStaff, isSuperuser := saved.isSuperuser }
  | .setStatus (some status) =>
    if copy.status = status then row else
      let saved := User.derived { copy with status := status }
      { row with
        status := status
        isActive := saved.isActive, isStaff := saved.isStaff, isSuperuser := saved.isSuperuser }
  | .assign none => row
  | .setStatus none => row

inductive Progress where
  | read
  | allowed
  | over
  deriving DecidableEq, Repr

/-- A request, with the copies it goes by. -/
structure Request where
  actor : ℕ
  target : ℕ
  change : Change
  actorCopy : User
  targetCopy : User
  progress : Progress
  deriving DecidableEq, Repr

inductive Request.Step where
  | check
  | commit
  deriving DecidableEq, Repr

/-- A step that is not due. -/
def notDue : Err := .unexpected "This step is not due."

/-- A request reads both rows when it begins. -/
def Request.start (actor target : ℕ) (change : Change) (users : Users) :
    Except Err (Users × Request) :=
  match users.get? actor, users.get? target with
  | some a, some u => .ok (users, ⟨actor, target, change, a, u, .read⟩)
  | _, _ => .error (.doesNotExist "User")

/-- The permissions are looked up when they are asked for; whether the actor is active, and
    whether a Super Admin, was read before. -/
def Request.asking (request : Request) (users : Users) : User :=
  let row := (users.get? request.actor).getD request.actorCopy
  { row with
    isActive := request.actorCopy.isActive, isSuperuser := request.actorCopy.isSuperuser }

def Request.next (step : Request.Step) (users : Users) (request : Request) :
    Except Err (Users × Request) :=
  match step, request.progress with
  | .check, .read => do
    let _ ← request.change.check request.actor request.target (request.asking users)
      request.targetCopy
    return (users, { request with progress := .allowed })
  | .commit, .allowed =>
    match users.get? request.target with
    | none => .error (.doesNotExist "User")
    | some row => .ok (users.put request.target (request.change.write request.targetCopy row),
        { request with progress := .over })
  | _, _ => .error notDue

/-- The calls that write neither role nor status. -/
def StaffCall.keepsRoles : StaffCall → Bool
  | .assignRole .. => false
  | .setAccountStatus .. => false
  | _ => true

/-- Requests of any actors, in any order of their steps, and the other staff actions. -/
def administering : Interleaving Users Request (ℕ × ℕ × Change) Request.Step StaffCall Err where
  start b users := Request.start b.1 b.2.1 b.2.2 users
  step := Request.next
  outside call users := do
    ensure (call.keepsRoles = true) notDue
    call.exec users
  absent := notDue

/-! ### One remains -/

/-- An active Super Admin. -/
def User.Standing (user : User) : Prop :=
  user.role = .superAdmin ∧ user.status = .active ∧ user.isActive = true ∧ user.isSuperuser = true

instance (user : User) : Decidable user.Standing := inferInstanceAs (Decidable (_ ∧ _))

/-- There is an active Super Admin. -/
def HasAdministrator (users : Users) : Prop :=
  ∃ pk user, users.get? pk = some user ∧ user.Standing

/-- A change to an active Super Admin is committed while its actor is one. -/
def StillStanding (s : System Users Request) :
    Turn (ℕ × ℕ × Change) Request.Step StaffCall → Prop
  | .step i .commit => ∀ request ∈ s.workers.get? i, ∀ user ∈ s.shared.get? request.target,
      user.Standing → ∃ a ∈ s.shared.get? request.actor, a.Standing
  | _ => True

instance (s : System Users Request) (turn : Turn (ℕ × ℕ × Change) Request.Step StaffCall) :
    Decidable (StillStanding s turn) :=
  match turn with
  | .step _ .commit => inferInstanceAs (Decidable (∀ _ ∈ _, ∀ _ ∈ _, _ → ∃ _ ∈ _, _))
  | .step _ .check => isTrue trivial
  | .start _ => isTrue trivial
  | .outside _ => isTrue trivial

section

variable {users users' : Users} {request request' : Request}

/-- A request that was allowed is about another person. -/
def Request.AboutAnother (request : Request) : Prop :=
  request.progress = .allowed → request.actor ≠ request.target

theorem check_eq_ok {change : Change} {actor target : ℕ} {a u u' : User}
    (h : change.check actor target a u = .ok u') : actor ≠ target := by
  cases change with
  | assign role =>
    obtain ⟨-, -, hself, -⟩ := assignRole_eq_ok h
    exact hself.symm
  | setStatus status =>
    obtain ⟨-, -, hself, -⟩ := setAccountStatus_eq_ok h
    exact hself.symm

/-- Only a Super Admin passes the checks of a change to one. -/
theorem superuser_of_check {change : Change} {actor target : ℕ} {a u u' : User}
    (h : change.check actor target a u = .ok u') (hu : u.role = .superAdmin) :
    a.isActive = true ∧ a.isSuperuser = true := by
  have hprivileged : u.role ∈ privilegedRoles := by
    rw [hu]
    decide
  have hactive : ∀ codename, a.hasPerm codename = true → a.isActive = true :=
    fun codename hperm => ((Bool.and_eq_true _ _).mp hperm).1
  cases change with
  | assign role =>
    obtain ⟨r, -, -, hperm, hprivilege, -⟩ := assignRole_eq_ok h
    exact ⟨hactive _ hperm, hprivilege (.inr hprivileged)⟩
  | setStatus status =>
    obtain ⟨st, -, -, hperm, hprivilege, -⟩ := setAccountStatus_eq_ok h
    exact ⟨hactive _ hperm, hprivilege hprivileged⟩

theorem start_eq_ok {actor target : ℕ} {change : Change}
    (h : Request.start actor target change users = .ok (users', request)) :
    users' = users ∧ request.progress = .read
      ∧ users.get? request.actor = some request.actorCopy
      ∧ users.get? request.target = some request.targetCopy := by
  unfold Request.start at h
  split at h
  · next ha hu =>
    cases h
    exact ⟨rfl, rfl, ha, hu⟩
  · cases h

/-- What a step does: it allows the request, or writes the row of the other person. -/
theorem next_cases {step : Request.Step}
    (h : Request.next step users request = .ok (users', request')) :
    (step = .check ∧ users' = users ∧ request'.progress = .allowed
        ∧ request'.actor = request.actor ∧ request'.target = request.target
        ∧ ∃ u', request.change.check request.actor request.target (request.asking users)
          request.targetCopy = .ok u')
      ∨ (step = .commit ∧ request.progress = .allowed ∧ request'.progress = .over
        ∧ ∃ row, users.get? request.target = some row
          ∧ users' = users.put request.target (request.change.write request.targetCopy row)) := by
  unfold Request.next at h
  split at h
  · obtain ⟨u', hcheck, hpure⟩ := bind_eq_ok.mp h
    cases (pure_eq_ok _ _).mp hpure
    exact .inl ⟨rfl, rfl, rfl, rfl, rfl, u', hcheck⟩
  · next hallowed =>
    split at h
    · cases h
    · next row hrow =>
      cases h
      exact .inr ⟨rfl, hallowed, rfl, row, hrow, rfl⟩
  · cases h

/-- What `save` derives says who is an active Super Admin. -/
theorem standing_of_derived {user : User} (hderived : User.derived user = user)
    (hactive : user.isActive = true) (hsuperuser : user.isSuperuser = true) : user.Standing := by
  rw [← hderived] at hactive hsuperuser
  exact ⟨of_decide_eq_true hsuperuser, of_decide_eq_true hactive, hderived ▸ hactive,
    hderived ▸ hsuperuser⟩

/-- **The checks see to it that whoever changes an active Super Admin is one**, where a request
    commits before any other does. -/
theorem stillStanding_alone {s s₁ s₂ : System Users Request} {b : ℕ × ℕ × Change}
    {out out' : List PUnit} (hrows : s.shared.Forall fun _ => Consistent)
    (hstart : administering.machine.Commits (.start b) s s₁ out)
    (hcheck : administering.machine.Commits (.step s.workers.nextPk .check) s₁ s₂ out') :
    StillStanding s₂ (.step s.workers.nextPk .commit) := by
  obtain ⟨request, hrequest, hinsert⟩ := Interleaving.start_eq_ok hstart
  obtain ⟨hshared, -, ha, hu⟩ := start_eq_ok hrequest
  obtain ⟨read, request', hget, hnext, hput⟩ := Interleaving.step_eq_ok hcheck
  rw [hinsert, Table.get?_insert_self] at hget
  cases hget
  replace hnext : Request.next .check s.shared request = .ok (s₂.shared, request') :=
    hshared ▸ hnext
  intro allowed hallowed user huser hstanding
  rw [hput, hinsert, Option.mem_def, Table.get?_put_self (Table.get?_insert_self _ _)] at hallowed
  cases hallowed
  obtain ⟨-, hsame, -, hactor, htarget, u', hchecked⟩ | ⟨hstep, -⟩ := next_cases hnext
  · rw [hsame, htarget, Option.mem_def, hu] at huser
    cases huser
    -- the rows are those that were read, so that the checks look at the rows themselves
    have hasking : request.asking s.shared = request.actorCopy := by
      simp only [Request.asking, ha, Option.getD_some]
    rw [hasking] at hchecked
    obtain ⟨hactive, hsuperuser⟩ := superuser_of_check hchecked hstanding.1
    refine ⟨request.actorCopy, ?_, standing_of_derived (hrows _ _ ha).derived hactive hsuperuser⟩
    rw [hsame, hactor]
    exact ha
  · cases hstep

/-- The other staff actions leave every active Super Admin one. -/
theorem standing_of_exec {call : StaffCall} (hkeeps : call.keepsRoles = true)
    (h : call.exec users = .ok users') (hadmin : HasAdministrator users) :
    HasAdministrator users' := by
  obtain ⟨pk, user, huser, hstanding⟩ := hadmin
  have hput : ∀ target old row, users.get? target = some old →
      (old.Standing → row.Standing) → HasAdministrator (users.put target row) := by
    intro target old row hold hrow
    by_cases hpk : pk = target
    · subst hpk
      rw [huser] at hold
      cases hold
      exact ⟨pk, row, Table.get?_put_self huser row, hrow hstanding⟩
    · exact ⟨pk, user, (Table.get?_put_of_ne hpk row).trans huser, hstanding⟩
  cases call with
  | createStaffUser actor email valid role =>
    obtain ⟨-, rfl⟩ := createStaffUser_eq_ok h
    exact ⟨pk, user, Table.get?_insert_of_some huser, hstanding⟩
  | setExtraPermissions actor target codenames =>
    obtain ⟨a, old, row, -, hold, hrun, rfl⟩ := withUsers_eq_ok h
    obtain ⟨-, rfl⟩ := setExtraPermissions_eq_ok hrun
    exact hput target old _ hold fun h => h
  | setPermissionAccess actor target allow hide =>
    obtain ⟨a, old, row, -, hold, hrun, rfl⟩ := withUsers_eq_ok h
    obtain ⟨-, hidden, rfl⟩ := setPermissionAccess_eq_ok hrun
    exact hput target old _ hold fun h => h
  | assignRole => cases hkeeps
  | setAccountStatus => cases hkeeps

/-- A change leaves a Super Admin: one whom it does not touch, or its actor. -/
theorem standing_of_commit (habout : request.actor ≠ request.target) {row : User}
    (hrow : users.get? request.target = some row) (hadmin : HasAdministrator users)
    (hstill : row.Standing → ∃ a, users.get? request.actor = some a ∧ a.Standing) (row' : User) :
    HasAdministrator (users.put request.target row') := by
  obtain ⟨pk, user, huser, hstanding⟩ := hadmin
  by_cases hpk : pk = request.target
  · rw [hpk, hrow] at huser
    cases huser
    obtain ⟨a, ha, hactor⟩ := hstill hstanding
    exact ⟨request.actor, a, (Table.get?_put_of_ne habout row').trans ha, hactor⟩
  · exact ⟨pk, user, (Table.get?_put_of_ne hpk row').trans huser, hstanding⟩

end

/-- **One active Super Admin remains** in every state of a run in which whoever changes an active
    Super Admin is one when the change is committed. -/
theorem administrator_remains (turns : List (Turn (ℕ × ℕ × Change) Request.Step StaffCall))
    (users : Users) (hstart : HasAdministrator users)
    (hstill : administering.machine.EachStep (fun s turn _ => StillStanding s turn) turns
      ⟨users, {}⟩) :
    administering.machine.Always (fun s => HasAdministrator s.shared) turns ⟨users, {}⟩ := by
  let Inv : System Users Request → Prop := fun s =>
    HasAdministrator s.shared ∧ s.workers.Forall fun _ => Request.AboutAnother
  refine Machine.always_of_eachStep (I := Inv) (fun _ h => h.1) ?_ turns _ ⟨hstart, .empty⟩ hstill
  rintro turn s s' out ⟨hadmin, hworkers⟩ hcommits hstep
  cases turn with
  | start b =>
    obtain ⟨request, hrequest, hinsert⟩ := Interleaving.start_eq_ok hcommits
    obtain ⟨hshared, hread, -⟩ := start_eq_ok hrequest
    refine ⟨hshared ▸ hadmin, hinsert ▸ hworkers.insert fun hallowed => ?_⟩
    rw [hread] at hallowed
    cases hallowed
  | step i a =>
    obtain ⟨request, request', hget, hnext, hput⟩ := Interleaving.step_eq_ok hcommits
    rcases next_cases hnext with
      ⟨-, hshared, -, hactor, htarget, _, hchecked⟩ | ⟨rfl, hallowed, hover, row, hrow, hshared⟩
    · refine ⟨hshared ▸ hadmin, hput ▸ hworkers.put fun _ => ?_⟩
      rw [hactor, htarget]
      exact check_eq_ok hchecked
    · refine ⟨?_, hput ▸ hworkers.put fun hagain => ?_⟩
      · rw [hshared]
        exact standing_of_commit (hworkers i request hget hallowed) hrow hadmin
          (hstep request hget row hrow) _
      · rw [hover] at hagain
        cases hagain
  | outside call =>
    obtain ⟨hexec, hsame⟩ := Interleaving.outside_eq_ok hcommits
    obtain ⟨_, hkeeps, hexec⟩ := bind_eq_ok.mp hexec
    exact ⟨standing_of_exec (ensure_eq_ok.mp hkeeps) hexec hadmin, hsame ▸ hworkers⟩

/-- Two Super Admins. -/
def pair : Users :=
  ⟨[some { User.derived { email := "root@example.com", role := .superAdmin } with
      group := some .superAdmin },
    some { User.derived { email := "second@example.com", role := .superAdmin } with
      group := some .superAdmin }]⟩

theorem hasAdministrator_pair : HasAdministrator pair := ⟨0, _, rfl, by decide +kernel⟩

/-- One of the two demotes the other. -/
theorem administrator_remains_pair : administering.machine.Always
    (fun s => HasAdministrator s.shared)
    [.start (0, 1, .assign (some .customer)), .step 0 .check, .step 0 .commit] ⟨pair, {}⟩ := by
  refine administrator_remains _ pair hasAdministrator_pair (Machine.eachStep_of_trace ?_)
  decide +kernel

/-- **Two who demote each other at once** leave no Super Admin. -/
theorem no_administrator_left : HasAdministrator pair
    ∧ ¬administering.machine.Always (fun s => HasAdministrator s.shared)
      [.start (0, 1, .assign (some .customer)), .start (1, 0, .assign (some .customer)),
        .step 0 .check, .step 1 .check, .step 0 .commit, .step 1 .commit] ⟨pair, {}⟩ := by
  refine ⟨hasAdministrator_pair, fun h => ?_⟩
  obtain ⟨pk, user, huser, hstanding⟩ := h.last
  have hnone : (administering.machine.run
      [.start (0, 1, .assign (some .customer)), .start (1, 0, .assign (some .customer)),
        .step 0 .check, .step 1 .check, .step 0 .commit, .step 1 .commit]
      ⟨pair, {}⟩).shared.Forall fun _ user => ¬user.Standing := by decide +kernel
  exact hnone pk user huser hstanding

end WPanel.Accounts
