import WPanel.Core
import WPanel.Lib.Machine
import WPanel.Lib.Table
import Mathlib.Data.List.Dedup
import Mathlib.Data.String.Basic

namespace WPanel.Accounts

open WPanel.Lib

/-!
# Roles and portal permissions

Where a person's permissions come from — the group of their role, what was given to them on top
and what was hidden from them — and the staff actions of `accounts/services.py` that change them.

* `Role`, `rolePermissions` — the roles, and what each gives;
* `User.hasPerm` — `has_perm` of `PortalBackend`;
* `StaffCall` — `create_staff_user`, `assign_role`, `set_extra_permissions`,
  `set_permission_access` and `set_account_status`;
* `NoPortalAccess` — no customer has a portal permission;
* `Stripped` — a staff member who becomes a customer, and a customer who is let in again, holds no
  permission that is not hidden;
* `noPortalAccess_iff` — a run keeps the one exactly when each of its calls meets the other.
-/

inductive Role where
  | customer
  | supportAgent
  | technical
  | manager
  | admin
  | superAdmin
  deriving DecidableEq, Repr

def staffRoles : List Role := [.supportAgent, .technical, .manager, .admin, .superAdmin]

/-- Only a Super Admin may grant or revoke these roles. -/
def privilegedRoles : List Role := [.admin, .superAdmin]

def areas : List String :=
  ["users", "clients", "products", "orders", "billing", "domains", "hosting", "support",
    "affiliates", "reports", "providers", "settings"]

/-- `_view(*areas)`. -/
def viewAreas (areas : List String) : List String := areas.map ("view_" ++ ·)

/-- `_manage(*areas)`. -/
def manageAreas (areas : List String) : List String := areas.map ("manage_" ++ ·)

def allCodenames : List String :=
  viewAreas areas ++ manageAreas areas ++ ["assign_roles", "view_audit_log"]

/-- `ROLE_PERMISSIONS`, which `sync_roles` gives to the group of each role. -/
def rolePermissions : Role → List String
  | .customer => []
  | .supportAgent =>
    viewAreas ["clients", "orders", "billing", "domains", "hosting", "support"]
      ++ manageAreas ["support"]
  | .technical =>
    viewAreas ["clients", "orders", "domains", "hosting", "support"]
      ++ manageAreas ["domains", "hosting", "support"]
  | .manager =>
    viewAreas (areas.filter (· ∉ ["providers", "settings"]))
      ++ manageAreas ["users", "clients", "products", "orders", "billing", "domains", "hosting",
        "support", "affiliates"]
      ++ ["view_audit_log"]
  | .admin => allCodenames
  | .superAdmin => allCodenames

inductive AccountStatus where
  | active
  | suspended
  | closed
  deriving DecidableEq, Repr

structure User where
  email : String
  role : Role := .customer
  status : AccountStatus := .active
  /-- Derived from `status` and `role` on save; never set directly. -/
  isActive : Bool := true
  isStaff : Bool := false
  isSuperuser : Bool := false
  /-- The role whose group the person is in. -/
  group : Option Role := none
  /-- `user_permissions`: given to this person beyond what the role gives. -/
  extra : List String := []
  /-- `hidden_permissions`: taken away from this person although the role gives it. -/
  hidden : List String := []
  deriving DecidableEq, Repr

/-- `User.save`: what is derived is derived again. -/
def User.derived (user : User) : User :=
  { user with
    isActive := user.status = .active
    isStaff := user.role ∈ staffRoles
    isSuperuser := user.role = .superAdmin }

/-- `ModelBackend.get_all_permissions`: of the person and of their group. -/
def User.given (user : User) : List String :=
  user.extra ++ (user.group.map rolePermissions).getD []

/-- `has_perm`, for a portal permission. -/
def User.hasPerm (user : User) (codename : String) : Bool :=
  user.isActive && (user.isSuperuser || codename ∈ user.given && codename ∉ user.hidden)

/-! ### The staff actions -/

abbrev Users := Table User

/-- A call that reads the rows of its actor and of another person. -/
def withUsers (users : Users) (actor target : ℕ) (run : User → User → Except Err User) :
    Except Err Users :=
  match users.get? actor, users.get? target with
  | some a, some u => (run a u).map (users.put target)
  | _, _ => .error (.doesNotExist "User")

/-- `_require`. -/
def requireCodename (actor : User) (codename : String) : Except Err Unit :=
  ensure (actor.hasPerm codename = true) denied

/-- Only a Super Admin may do this to an admin. -/
def requirePrivilege (actor : User) (roles : List Role) (message : String) : Except Err Unit :=
  ensure ((∃ role ∈ roles, role ∈ privilegedRoles) → actor.isSuperuser = true)
    (.service message "permission_denied" 403)

/-- `create_staff_user`; `valid` is what `validate_email` says of the address. -/
def createStaffUser (actor : ℕ) (email : String) (valid : Bool) (role : Role) (users : Users) :
    Except Err Users :=
  match users.get? actor with
  | none => .error (.doesNotExist "User")
  | some a => do
    requireCodename a "manage_users"
    requireCodename a "assign_roles"
    ensure (valid = true) (serviceError "Enter a valid email address." "invalid_email")
    ensure (role ∈ staffRoles) (serviceError "Choose a staff role." "invalid_role")
    requirePrivilege a [role] "Only a Super Admin can create admin accounts."
    ensure (¬∃ entry ∈ users.entries, lower entry.2.email = lower (strip email))
      (serviceError "Someone with that email address already has an account." "email_taken")
    return users.insert
      { User.derived { email := lower (strip email), role := role } with group := some role }

/-- `assign_role`, on the rows as they were read; `role` is none for a value that is no role. -/
def assignRole (actor target : ℕ) (role : Option Role) (a u : User) : Except Err User := do
  requireCodename a "assign_roles"
  match role with
  | none => .error (serviceError "Unknown role." "invalid_role")
  | some role => do
    ensure (target ≠ actor) (serviceError "You cannot change your own role." "self_action")
    requirePrivilege a [role, u.role] "Only a Super Admin can grant or revoke admin roles."
    return if u.role = role then u
      else { User.derived { u with role := role } with group := some role }

/-- What is said of codenames that are none: `sorted(set(codenames) - set(ALL_CODENAMES))`. -/
def unknownPermissions (codenames : List String) : Err :=
  let unknown := (codenames.filter (· ∉ allCodenames)).dedup.insertionSort (· ≤ ·)
  serviceError ("Unknown permission(s): " ++ String.intercalate ", " unknown ++ ".")
    "invalid_permission"

/-- `set_extra_permissions`. -/
def setExtraPermissions (actor target : ℕ) (codenames : List String) (a u : User) :
    Except Err User := do
  requireCodename a "assign_roles"
  ensure (target ≠ actor)
    (serviceError "You cannot change your own extra permissions." "self_action")
  ensure (u.role ∈ staffRoles)
    (serviceError "Only a staff member can hold portal permissions." "not_staff")
  requirePrivilege a [u.role] "Only a Super Admin can change an admin's permissions."
  ensure (codenames ⊆ allCodenames) (unknownPermissions codenames)
  return { u with extra := allCodenames.filter (· ∈ codenames) }

/-- `set_permission_access`. -/
def setPermissionAccess (actor target : ℕ) (allow hide : List String) (a u : User) :
    Except Err User := do
  ensure (∀ codename ∈ allow, codename ∉ hide)
    (serviceError "A permission cannot be both allowed and hidden." "invalid_permission")
  ensure (u.isSuperuser = false)
    (.service "A Super Admin always has full access." "permission_denied" 403)
  ensure (allow ++ hide ⊆ allCodenames) (unknownPermissions (allow ++ hide))
  let u ← setExtraPermissions actor target allow a u
  return { u with hidden := u.hidden.filter (· ∈ hide) ++ hide.filter (· ∉ u.hidden) }

/-- `set_account_status`, on the rows as they were read; `status` is none for a value that is no
    status. -/
def setAccountStatus (actor target : ℕ) (status : Option AccountStatus) (a u : User) :
    Except Err User := do
  requireCodename a "manage_users"
  match status with
  | none => .error (serviceError "Unknown account status." "invalid_status")
  | some status => do
    ensure (target ≠ actor)
      (serviceError "You cannot change the status of your own account." "self_action")
    requirePrivilege a [u.role] "Only a Super Admin can change the status of an admin account."
    return if u.status = status then u else User.derived { u with status := status }

/-- A call, by any actor. -/
inductive StaffCall where
  | createStaffUser (actor : ℕ) (email : String) (valid : Bool) (role : Role)
  | assignRole (actor target : ℕ) (role : Option Role)
  | setExtraPermissions (actor target : ℕ) (codenames : List String)
  | setPermissionAccess (actor target : ℕ) (allow hide : List String)
  | setAccountStatus (actor target : ℕ) (status : Option AccountStatus)
  deriving DecidableEq, Repr

def StaffCall.exec (call : StaffCall) (users : Users) : Except Err Users :=
  match call with
  | .createStaffUser actor email valid role => Accounts.createStaffUser actor email valid role users
  | .assignRole actor target role =>
    withUsers users actor target (Accounts.assignRole actor target role)
  | .setExtraPermissions actor target codenames =>
    withUsers users actor target (Accounts.setExtraPermissions actor target codenames)
  | .setPermissionAccess actor target allow hide =>
    withUsers users actor target (Accounts.setPermissionAccess actor target allow hide)
  | .setAccountStatus actor target status =>
    withUsers users actor target (Accounts.setAccountStatus actor target status)

/-- One call after the other. -/
def staffActions : Machine Users StaffCall PUnit Err where
  exec call users := (call.exec users).map fun users => (users, [])

/-! ### What a call writes -/

section

variable {a u u' : User} {actor target : ℕ}

theorem assignRole_eq_ok {role : Option Role} (h : assignRole actor target role a u = .ok u') :
    ∃ r, role = some r ∧ target ≠ actor ∧ a.hasPerm "assign_roles" = true
      ∧ (r ∈ privilegedRoles ∨ u.role ∈ privilegedRoles → a.isSuperuser = true)
      ∧ u' = if u.role = r then u else
        { User.derived { u with role := r } with group := some r } := by
  cases role with
  | none => simp [assignRole, bind_eq_ok] at h
  | some r =>
    simp only [assignRole, requireCodename, requirePrivilege, bind_eq_ok, ensure_eq_ok,
      pure_eq_ok] at h
    obtain ⟨_, hperm, _, hself, _, hprivilege, rfl⟩ := h
    refine ⟨r, rfl, hself, hperm, fun h => hprivilege ?_, rfl⟩
    rcases h with h | h
    · exact ⟨r, by simp, h⟩
    · exact ⟨u.role, by simp, h⟩

theorem setAccountStatus_eq_ok {status : Option AccountStatus}
    (h : setAccountStatus actor target status a u = .ok u') :
    ∃ st, status = some st ∧ target ≠ actor ∧ a.hasPerm "manage_users" = true
      ∧ (u.role ∈ privilegedRoles → a.isSuperuser = true)
      ∧ u' = if u.status = st then u else User.derived { u with status := st } := by
  cases status with
  | none => simp [setAccountStatus, bind_eq_ok] at h
  | some st =>
    simp only [setAccountStatus, requireCodename, requirePrivilege, bind_eq_ok, ensure_eq_ok,
      pure_eq_ok] at h
    obtain ⟨_, hperm, _, hself, _, hprivilege, rfl⟩ := h
    exact ⟨st, rfl, hself, hperm, fun h => hprivilege ⟨u.role, by simp, h⟩, rfl⟩

theorem setExtraPermissions_eq_ok {codenames : List String}
    (h : setExtraPermissions actor target codenames a u = .ok u') :
    u.role ∈ staffRoles ∧ u' = { u with extra := allCodenames.filter (· ∈ codenames) } := by
  simp only [setExtraPermissions, requireCodename, requirePrivilege, bind_eq_ok, ensure_eq_ok,
    pure_eq_ok] at h
  obtain ⟨_, _, _, _, _, hstaff, _, _, _, _, rfl⟩ := h
  exact ⟨hstaff, rfl⟩

theorem setPermissionAccess_eq_ok {allow hide : List String}
    (h : setPermissionAccess actor target allow hide a u = .ok u') :
    u.role ∈ staffRoles ∧ ∃ hidden, u' = { u with
      extra := allCodenames.filter (· ∈ allow), hidden := hidden } := by
  simp only [setPermissionAccess, bind_eq_ok, ensure_eq_ok, pure_eq_ok] at h
  obtain ⟨_, _, _, _, _, _, u₁, hextra, rfl⟩ := h
  obtain ⟨hstaff, rfl⟩ := setExtraPermissions_eq_ok hextra
  exact ⟨hstaff, _, rfl⟩

theorem createStaffUser_eq_ok {users users' : Users} {email : String} {valid : Bool} {role : Role}
    (h : createStaffUser actor email valid role users = .ok users') :
    role ∈ staffRoles ∧ users' = users.insert
      { User.derived { email := lower (strip email), role := role } with group := some role } := by
  unfold createStaffUser at h
  split at h
  · cases h
  · simp only [requireCodename, requirePrivilege, bind_eq_ok, ensure_eq_ok, pure_eq_ok] at h
    obtain ⟨_, _, _, _, _, _, _, hstaff, _, _, _, _, rfl⟩ := h
    exact ⟨hstaff, rfl⟩

theorem withUsers_eq_ok {users users' : Users} {run : User → User → Except Err User}
    (h : withUsers users actor target run = .ok users') :
    ∃ a u u', users.get? actor = some a ∧ users.get? target = some u ∧ run a u = .ok u'
      ∧ users' = users.put target u' := by
  unfold withUsers at h
  split at h
  · next a u ha hu =>
    cases hrun : run a u with
    | error e =>
      rw [hrun] at h
      cases h
    | ok u' =>
      rw [hrun] at h
      exact ⟨a, u, u', ha, hu, hrun, (Except.ok.inj h).symm⟩
  · cases h

end

/-! ### Customers -/

/-- What is derived is in step, the group is that of the role, and what was given are portal
    permissions. -/
structure Consistent (user : User) : Prop where
  derived : User.derived user = user
  group : user.group = some user.role
  extra : user.extra ⊆ allCodenames

instance (user : User) : Decidable (Consistent user) :=
  decidable_of_iff (User.derived user = user ∧ user.group = some user.role
      ∧ user.extra ⊆ allCodenames)
    ⟨fun h => ⟨h.1, h.2.1, h.2.2⟩, fun h => ⟨h.derived, h.group, h.extra⟩⟩

/-- A customer has no portal permission. -/
def User.Shut (user : User) : Prop :=
  user.role = .customer → ∀ codename ∈ allCodenames, user.hasPerm codename = false

instance (user : User) : Decidable user.Shut :=
  inferInstanceAs (Decidable (_ → _))

/-- No customer has a portal permission. -/
def NoPortalAccess (users : Users) : Prop := users.Forall fun _ user => user.Shut

instance (users : Users) : Decidable (NoPortalAccess users) :=
  inferInstanceAs (Decidable (Table.Forall _ _))

/-- Someone who becomes a customer while active, and a customer who becomes active, holds no
    permission of their own that is not hidden from them. -/
def Stripped (users : Users) : StaffCall → Prop
  | .assignRole _ target (some .customer) => ∀ user, users.get? target = some user →
      user.status = .active → user.extra ⊆ user.hidden
  | .setAccountStatus _ target (some .active) => ∀ user, users.get? target = some user →
      user.role = .customer → user.extra ⊆ user.hidden
  | _ => True

/-- All that is left to a customer is what was given to them beyond a role. -/
theorem Consistent.shut_iff {user : User} (h : Consistent user) :
    user.Shut ↔ (user.role = .customer → user.status = .active → user.extra ⊆ user.hidden) := by
  have hactive : user.isActive = decide (user.status = .active) := by
    rw [← h.derived]
    rfl
  have hsuper : user.isSuperuser = decide (user.role = .superAdmin) := by
    rw [← h.derived]
    rfl
  constructor
  · intro hshut hrole hstatus codename hextra
    have hno := hshut hrole codename (h.extra hextra)
    simpa [User.hasPerm, User.given, hactive, hsuper, hstatus, hrole, hextra] using hno
  · intro hextra hrole codename _
    by_cases hstatus : user.status = .active
    · have hsub := hextra hrole hstatus
      have hgiven : user.given = user.extra := by
        simp [User.given, h.group, hrole, rolePermissions]
      simp only [User.hasPerm, hactive, hsuper, hstatus, hrole, hgiven]
      simpa using fun hmem => hsub hmem
    · simp [User.hasPerm, hactive, hstatus]

section

variable {users users' : Users} {user user' : User}

theorem shut_of_staff (h : user.role ∈ staffRoles) : user.Shut := by
  intro hrole
  rw [hrole] at h
  exact absurd h (by decide)

/-- A change of role, and what it leaves of a customer. -/
theorem shut_assignRole {actor target : ℕ} {role : Option Role} {a : User}
    (h : assignRole actor target role a user = .ok user') (huser : users.get? target = some user)
    (hc : Consistent user) :
    Consistent user' ∧ (user'.Shut ↔ Stripped users (.assignRole actor target role)) := by
  obtain ⟨r, rfl, -, -, -, hu'⟩ := assignRole_eq_ok h
  obtain ⟨hc', hrole, hstatus, hextra, hhidden⟩ : Consistent user' ∧ user'.role = r
      ∧ user'.status = user.status ∧ user'.extra = user.extra ∧ user'.hidden = user.hidden := by
    rw [hu']
    split
    · next hsame => exact ⟨hc, hsame, rfl, rfl, rfl⟩
    · exact ⟨⟨rfl, rfl, hc.extra⟩, rfl, rfl, rfl, rfl⟩
  refine ⟨hc', ?_⟩
  rw [hc'.shut_iff, hrole, hstatus, hextra, hhidden]
  cases r with
  | customer =>
    constructor
    · intro h other hother
      rw [huser] at hother
      cases hother
      exact h rfl
    · exact fun h _ => h user huser
  | _ => exact iff_of_true nofun trivial

/-- A change of status, and what it leaves of a customer. -/
theorem shut_setAccountStatus {actor target : ℕ} {status : Option AccountStatus} {a : User}
    (h : setAccountStatus actor target status a user = .ok user')
    (huser : users.get? target = some user) (hc : Consistent user) :
    Consistent user' ∧ (user'.Shut ↔ Stripped users (.setAccountStatus actor target status)) := by
  obtain ⟨st, rfl, -, -, -, hu'⟩ := setAccountStatus_eq_ok h
  obtain ⟨hc', hstatus, hrole, hextra, hhidden⟩ : Consistent user' ∧ user'.status = st
      ∧ user'.role = user.role ∧ user'.extra = user.extra ∧ user'.hidden = user.hidden := by
    rw [hu']
    split
    · next hsame => exact ⟨hc, hsame, rfl, rfl, rfl⟩
    · exact ⟨⟨rfl, hc.group, hc.extra⟩, rfl, rfl, rfl, rfl⟩
  refine ⟨hc', ?_⟩
  rw [hc'.shut_iff, hstatus, hrole, hextra, hhidden]
  cases st with
  | active =>
    constructor
    · intro h other hother hrole
      rw [huser] at hother
      cases hother
      exact h hrole rfl
    · exact fun h hrole _ => h user huser hrole
  | _ => exact iff_of_true (fun _ => nofun) trivial

/-- What a call writes: a new member of staff, or one row. -/
theorem exec_cases {call : StaffCall} (h : call.exec users = .ok users') :
    (∃ user', user'.role ∈ staffRoles ∧ Consistent user' ∧ users' = users.insert user'
        ∧ Stripped users call)
      ∨ ∃ target user user', users.get? target = some user ∧ users' = users.put target user'
        ∧ (Consistent user → Consistent user' ∧ (user'.Shut ↔ Stripped users call)) := by
  cases call with
  | createStaffUser actor email valid role =>
    obtain ⟨hstaff, rfl⟩ := createStaffUser_eq_ok h
    exact .inl ⟨_, hstaff, ⟨rfl, rfl, List.nil_subset _⟩, rfl, trivial⟩
  | assignRole actor target role =>
    obtain ⟨a, user, user', -, huser, hrun, rfl⟩ := withUsers_eq_ok h
    exact .inr ⟨target, user, user', huser, rfl, shut_assignRole hrun huser⟩
  | setExtraPermissions actor target codenames =>
    obtain ⟨a, user, user', -, huser, hrun, rfl⟩ := withUsers_eq_ok h
    obtain ⟨hstaff, rfl⟩ := setExtraPermissions_eq_ok hrun
    refine .inr ⟨target, user, _, huser, rfl, fun hc => ⟨⟨?_, hc.group, ?_⟩, ?_⟩⟩
    · exact congrArg (fun user : User => { user with
        extra := allCodenames.filter (· ∈ codenames) }) hc.derived
    · exact fun _ h => (List.mem_filter.mp h).1
    · exact iff_of_true (shut_of_staff hstaff) trivial
  | setPermissionAccess actor target allow hide =>
    obtain ⟨a, user, user', -, huser, hrun, rfl⟩ := withUsers_eq_ok h
    obtain ⟨hstaff, hidden, rfl⟩ := setPermissionAccess_eq_ok hrun
    refine .inr ⟨target, user, _, huser, rfl, fun hc => ⟨⟨?_, hc.group, ?_⟩, ?_⟩⟩
    · exact congrArg (fun user : User => { user with
        extra := allCodenames.filter (· ∈ allow), hidden := hidden }) hc.derived
    · exact fun _ h => (List.mem_filter.mp h).1
    · exact iff_of_true (shut_of_staff hstaff) trivial
  | setAccountStatus actor target status =>
    obtain ⟨a, user, user', -, huser, hrun, rfl⟩ := withUsers_eq_ok h
    exact .inr ⟨target, user, user', huser, rfl, shut_setAccountStatus hrun huser⟩

theorem commits_iff {call : StaffCall} {out : List PUnit}
    (h : staffActions.Commits call users users' out) : call.exec users = .ok users' := by
  obtain ⟨_, hexec, hsame⟩ := map_eq_ok.mp h
  rw [hexec, (Prod.mk.inj hsame).1]

end

/-- **No customer has a portal permission** in any state of a run exactly when nobody becomes a
    customer while active, and no customer becomes active, with a permission of their own that is
    not hidden from them. -/
theorem noPortalAccess_iff (calls : List StaffCall) (users : Users)
    (hconsistent : users.Forall fun _ => Consistent) (hstart : NoPortalAccess users) :
    staffActions.Always NoPortalAccess calls users
      ↔ staffActions.EachStep (fun users call _ => Stripped users call) calls users := by
  let Inv : Users → Prop := fun users => (users.Forall fun _ => Consistent) ∧ NoPortalAccess users
  refine Machine.always_iff_eachStep (I := Inv) (fun _ h => h.2) ?_ ?_ calls users
    ⟨hconsistent, hstart⟩
  · rintro call users users' out ⟨hc, hshut⟩ hcommits hstripped
    rcases exec_cases (commits_iff hcommits) with
      ⟨user', hstaff, hc', rfl, -⟩ | ⟨target, user, user', huser, rfl, hchange⟩
    · exact ⟨hc.insert hc', hshut.insert (shut_of_staff hstaff)⟩
    · obtain ⟨hc', hiff⟩ := hchange (hc target user huser)
      exact ⟨hc.put hc', hshut.put (hiff.mpr hstripped)⟩
  · rintro call users users' out ⟨hc, -⟩ hcommits hshut'
    rcases exec_cases (commits_iff hcommits) with
      ⟨user', -, -, -, hstripped⟩ | ⟨target, user, user', huser, rfl, hchange⟩
    · exact hstripped
    · obtain ⟨-, hiff⟩ := hchange (hc target user huser)
      exact hiff.mp (hshut' target user' (Table.get?_put_self huser user'))

/-- A Super Admin, and a support agent with a permission of their own. -/
def helpdesk : Users :=
  ⟨[some { User.derived { email := "root@example.com", role := .superAdmin } with
      group := some .superAdmin },
    some { User.derived { email := "agent@example.com", role := .supportAgent } with
      group := some .supportAgent, extra := ["manage_billing"] }]⟩

/-- The agent's own permission is taken back first: then they may become a customer. -/
theorem noPortalAccess_revoked : staffActions.Always NoPortalAccess
    [.setExtraPermissions 0 1 [], .assignRole 0 1 (some .customer)] helpdesk := by
  refine (noPortalAccess_iff _ helpdesk (by decide +kernel) (by decide +kernel)).mpr ?_
  refine ⟨fun _ _ _ => trivial, fun _ _ _ user huser _ => ?_, trivial⟩
  have hrow : (staffActions.next (.setExtraPermissions 0 1 []) helpdesk).get? 1
      = some { User.derived { email := "agent@example.com", role := .supportAgent } with
        group := some .supportAgent } := by decide +kernel
  rw [hrow] at huser
  cases huser
  exact List.nil_subset _

/-- **A demoted agent keeps what was given to them**: the customer may manage billing. -/
theorem not_noPortalAccess_demoted : (helpdesk.Forall fun _ => Consistent) ∧ NoPortalAccess helpdesk
    ∧ ¬staffActions.Always NoPortalAccess [.assignRole 0 1 (some .customer)] helpdesk := by
  refine ⟨by decide +kernel, by decide +kernel, fun h => ?_⟩
  have hlast : NoPortalAccess (staffActions.next (.assignRole 0 1 (some .customer)) helpdesk) :=
    h.2
  revert hlast
  decide +kernel

end WPanel.Accounts
