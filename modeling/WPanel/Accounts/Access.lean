import WPanel.Accounts.Roles

namespace WPanel.Accounts

open WPanel.Lib

/-!
# The access table of a person

`access_table` of `accounts/services.py` lists every portal permission with what the role gives,
what was added, what was hidden and what that leaves.  It is computed from the role table; what
`has_perm` answers comes from the group the person is in, their own permissions and the superuser
flag.

* `portalPermissions`, `accessTable` — the permissions with their labels, and the table;
* `User.TableTrue` — the `effective` column says what `has_perm` answers;
* `Consistent.tableTrue` — it does for a person whose group, role and flags are in step;
* `consistent_exec` — every staff action keeps them in step;
* `accessTable_true` — so it does for everybody after any sequence of staff actions.
-/

/-! ### The table -/

/-- `AREAS`: the areas with their labels. -/
def areaLabels : List (String × String) :=
  [("users", "staff and customer user accounts"), ("clients", "clients"),
    ("products", "products and pricing"), ("orders", "orders"),
    ("billing", "invoices and transactions"), ("domains", "domains"),
    ("hosting", "hosting services"), ("support", "support tickets"),
    ("affiliates", "affiliates, commissions and payouts"), ("reports", "reports"),
    ("providers", "provider connections"), ("settings", "system settings")]

/-- `PORTAL_PERMISSIONS`. -/
def portalPermissions : List (String × String) :=
  areaLabels.map (fun area => ("view_" ++ area.1, "Can view " ++ area.2))
    ++ areaLabels.map (fun area => ("manage_" ++ area.1, "Can manage " ++ area.2))
    ++ [("assign_roles", "Can assign staff roles"), ("view_audit_log", "Can view the audit log")]

/-- The codenames are those the roles are made of. -/
theorem map_fst_portalPermissions : portalPermissions.map Prod.fst = allCodenames := by
  decide +kernel

/-- A row of the table. -/
structure AccessRow where
  codename : String
  label : String
  roleGives : Bool
  extra : Bool
  hidden : Bool
  effective : Bool
  deriving DecidableEq, Repr

/-- `access_table`. -/
def accessTable (user : User) : List AccessRow :=
  portalPermissions.map fun permission =>
    let given := permission.1 ∈ rolePermissions user.role
    { codename := permission.1
      label := permission.2
      roleGives := given
      extra := permission.1 ∈ user.extra
      hidden := permission.1 ∈ user.hidden
      effective := user.isSuperuser
        || ((given || permission.1 ∈ user.extra) && permission.1 ∉ user.hidden) }

/-- The table lists every portal permission once and in order. -/
theorem map_codename_accessTable (user : User) :
    (accessTable user).map AccessRow.codename = allCodenames := by
  rw [← map_fst_portalPermissions, accessTable, List.map_map]
  rfl

/-- **The table is true**: for an active person it has a row for every portal permission, and the
    `effective` column is what `has_perm` answers. -/
def User.TableTrue (user : User) : Prop :=
  user.isActive = true →
    ∀ codename ∈ allCodenames, (∃ row ∈ accessTable user, row.codename = codename)
      ∧ ∀ row ∈ accessTable user, row.codename = codename →
          row.effective = user.hasPerm codename

/-! ### The group, the role and the flags in step -/

/-- A person whose group is that of the role holds what the role table and their own permissions
    give, less what is hidden. -/
theorem Consistent.tableTrue {user : User} (h : Consistent user) : user.TableTrue := by
  intro hactive codename hcodename
  constructor
  · rw [← map_codename_accessTable user] at hcodename
    obtain ⟨row, hrow, hname⟩ := List.mem_map.mp hcodename
    exact ⟨row, hrow, hname⟩
  · intro row hrow hname
    obtain ⟨permission, -, rfl⟩ := List.mem_map.mp hrow
    subst hname
    have hgiven : permission.1 ∈ user.given
        ↔ permission.1 ∈ user.extra ∨ permission.1 ∈ rolePermissions user.role := by
      rw [User.given, h.group, List.mem_append]
      rfl
    have hmem : decide (permission.1 ∈ user.given)
        = (decide (permission.1 ∈ rolePermissions user.role)
          || decide (permission.1 ∈ user.extra)) := by
      rw [decide_eq_decide.mpr hgiven, Bool.decide_or, Bool.or_comm]
    show (user.isSuperuser || _ && _) = (user.isActive && (user.isSuperuser || _ && _))
    rw [hactive, Bool.true_and, hmem]

/-- **Every staff action keeps them in step.** -/
theorem consistent_exec {users users' : Users} {call : StaffCall}
    (hc : users.Forall fun _ => Consistent) (h : call.exec users = .ok users') :
    users'.Forall fun _ => Consistent := by
  rcases exec_cases h with
    ⟨user', -, hc', rfl, -⟩ | ⟨target, user, user', huser, rfl, hchange⟩
  · exact hc.insert hc'
  · exact hc.put (hchange (hc target user huser)).1

/-- **The access table says what `has_perm` answers**, for everybody in every state of a run of
    staff actions. -/
theorem accessTable_true (calls : List StaffCall) (users : Users)
    (hconsistent : users.Forall fun _ => Consistent) :
    staffActions.Always (fun users => users.Forall fun _ user => user.TableTrue) calls users := by
  have halways : staffActions.Always (fun users => users.Forall fun _ => Consistent) calls users :=
    Machine.always_of_invariant calls
      (fun call _ users users' out hc hcommits => consistent_exec hc (commits_iff hcommits))
      users hconsistent
  exact halways.mono fun users hc pk user huser => (hc pk user huser).tableTrue

/-- A promotion, a permission given and one hidden, and the table is still true. -/
theorem accessTable_true_helpdesk :
    staffActions.Always (fun users => users.Forall fun _ user => user.TableTrue)
      [.setPermissionAccess 0 1 ["view_reports"] ["manage_support"],
        .assignRole 0 1 (some .manager), .assignRole 0 1 (some .superAdmin)] helpdesk :=
  accessTable_true _ helpdesk (by decide +kernel)

end WPanel.Accounts
