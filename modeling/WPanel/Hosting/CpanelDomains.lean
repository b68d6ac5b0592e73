import WPanel.Hosting.DemoDomains

namespace WPanel.Hosting.CpanelDomains

open WPanel.Lib WPanel.Hosting.DnsRules
open WPanel.Hosting.DemoDomains (IsUnder parentOf relativeTo parentOf_eq_some)
open WPanel.Hosting.Renaming (Path cleanRelative)
open WPanel.Hosting.Schedules (hostingError)

/-!
# The domains of a cPanel account

`hosting/adapters/cpanel_domains.py`: domains are added to an account and removed from it by calls
to cPanel, which keeps an addon domain under the subdomain it was created with and asks for that
subdomain when it is to go.

* `ApiCall`, `ApiCall.apply` — the calls, and what cPanel makes of them;
* `addDomain`, `removeDomain` — which call the panel makes;
* `Restorable` — what the panel created it names when it removes it, and then the lists are what
  they would have been without it;
* `CreatedApart` — nothing is created at a subdomain that an addon domain is kept under, and no
  addon domain under the subdomain of another domain;
* `Undisturbed` — it is no addon domain that is created, nor a subdomain where an addon domain is
  kept;
* `restored_apart_iff` — the promise is kept by exactly the runs whose calls are undisturbed.
-/

/-! ### cPanel -/

/-- An addon domain, and the label under the main domain that cPanel keeps it under. -/
structure Addon where
  name : String
  label : String
  deriving DecidableEq, Repr

/-- The domains of an account, as the panel reads them. -/
structure Account where
  main : String
  addons : List Addon
  subs : List String
  parked : List String
  deriving DecidableEq, Repr

/-- The subdomain that an addon domain is kept under. -/
def Account.address (a : Account) (addon : Addon) : String := addon.label ++ "." ++ a.main

/-- `{main, *addon, *subs, *parked}`. -/
def Account.names (a : Account) : List String :=
  a.main :: (a.addons.map Addon.name ++ a.subs ++ a.parked)

/-- The calls that change the domains of an account. -/
inductive ApiCall
  | addAddonDomain (dir : Path) (newDomain subdomain : String)
  | delAddonDomain (domain subdomain : String)
  | addSubDomain (domain rootDomain : String) (dir : Path)
  | delSubDomain (domain : String)
  | park (domain : String)
  | unpark (domain : String)
  deriving DecidableEq, Repr

/-- What cPanel makes of a call; it refuses to remove what is not there, and an addon domain that
    is not kept under the subdomain given. -/
def ApiCall.apply (a : Account) : ApiCall → Option Account
  | .addAddonDomain _ newDomain subdomain =>
    some { a with addons := a.addons ++ [⟨newDomain, subdomain⟩] }
  | .delAddonDomain domain subdomain =>
    if a.addons.any fun b => b.name = domain ∧ a.address b = subdomain then
      some { a with addons := a.addons.filter fun b =>
        ¬(b.name = domain ∧ a.address b = subdomain) }
    else none
  | .addSubDomain domain rootDomain _ =>
    some { a with subs := a.subs ++ [domain ++ "." ++ rootDomain] }
  | .delSubDomain domain =>
    if domain ∈ a.subs then some { a with subs := a.subs.filter (· ≠ domain) } else none
  | .park domain => some { a with parked := a.parked ++ [domain] }
  | .unpark domain =>
    if domain ∈ a.parked then some { a with parked := a.parked.filter (· ≠ domain) } else none

/-- The call that takes back what a call creates. -/
def ApiCall.undo (a : Account) : ApiCall → Option ApiCall
  | .addAddonDomain _ newDomain subdomain =>
    some (.delAddonDomain newDomain (a.address ⟨newDomain, subdomain⟩))
  | .addSubDomain domain rootDomain _ => some (.delSubDomain (domain ++ "." ++ rootDomain))
  | .park domain => some (.unpark domain)
  | .delAddonDomain .. | .delSubDomain .. | .unpark .. => none

/-! ### The panel -/

/-- `DOMAIN_KINDS`. -/
inductive AddedKind
  | addon | subdomain | alias
  deriving DecidableEq, Repr

section

variable (casing : Casing) (a : Account)

/-- `kind not in DOMAIN_KINDS`. -/
def addedKind (kind : String) : Except Err AddedKind :=
  if kind = "addon" then pure .addon
  else if kind = "subdomain" then pure .subdomain
  else if kind = "alias" then pure .alias
  else throw (hostingError
    "Choose what you are adding: another domain, a subdomain or an alias.")

/-- The call that creates a domain of a kind. -/
def creation (kind : AddedKind) (name : String) (root : Path) : Except Err ApiCall :=
  match kind with
  | .addon => pure (.addAddonDomain root name ((splitOn '.' name).headD ""))
  | .subdomain =>
    match parentOf (a.main :: (a.addons.map Addon.name ++ a.parked)) name with
    | some parent => pure (.addSubDomain (relativeTo parent name) parent root)
    | none => throw (hostingError "A subdomain must sit under a domain you have.")
  | .alias => pure (.park name)

/-- `add_domain`: the name that is added, and the call that is made. -/
def addDomain (name kind documentRoot : String) : Except Err (String × ApiCall) := do
  let kind ← addedKind kind
  let name ← cleanDomain casing name
  ensure (name ∉ a.names) (hostingError "That domain is already on this account.")
  let path ← cleanRelative documentRoot
  let call ← creation a kind name (if path = [] then ["public_html", name] else path)
  return (name, call)

/-- `remove_domain`: the name that is removed, and the call that is made. -/
def removeDomain (name : String) : Except Err (String × ApiCall) := do
  let name ← cleanDomain casing name
  ensure (name ≠ a.main) (hostingError "The main domain cannot be removed.")
  if name ∈ a.addons.map Addon.name then
    return (name, .delAddonDomain name (replaceChar '.' "_" name ++ "." ++ a.main))
  else if name ∈ a.subs then return (name, .delSubDomain name)
  else if name ∈ a.parked then return (name, .unpark name)
  else throw (hostingError "That domain is not on this account.")

end

/-! ### Runs -/

/-- A domain that the panel created, how it is taken back, and what the account would be without
    it. -/
structure Made where
  name : String
  undo : ApiCall
  without : Account
  deriving DecidableEq, Repr

/-- An account, and what the panel created on it that is still there. -/
structure Server where
  account : Account
  made : List Made
  deriving DecidableEq, Repr

/-- The account without the domain has the same call made to it. -/
def Made.follow (call : ApiCall) (m : Made) : Made :=
  { m with without := (call.apply m.without).getD m.without }

/-- A domain is added or removed; `taken` says whether cPanel takes the call. -/
inductive Call
  | addDomain (name kind documentRoot : String) (taken : Bool)
  | removeDomain (name : String) (taken : Bool)

def refused : Err := hostingError "The server refused."

def exec (casing : Casing) (s : Server) : Call → Except Err Server
  | .addDomain name kind documentRoot taken => do
    let (name, call) ← addDomain casing s.account name kind documentRoot
    match taken, call.undo s.account, call.apply s.account with
    | true, some undo, some account =>
      return ⟨account, s.made.map (Made.follow call) ++ [⟨name, undo, s.account⟩]⟩
    | _, _, _ => throw refused
  | .removeDomain name taken => do
    let (name, call) ← removeDomain casing s.account name
    match taken, call.apply s.account with
    | true, some account =>
      return ⟨account, (s.made.filter fun m => m.name ≠ name).map (Made.follow call)⟩
    | _, _ => throw refused

/-- Calls one after the other; one that fails leaves the domains as they are. -/
def machine (casing : Casing) : Machine Server Call PUnit Err where
  exec call s := (exec casing s call).map fun s => (s, [])

/-! ### What is promised -/

/-- **What the panel created it names when it removes it, and without it the account is what it
    would have been.** -/
def Restorable (casing : Casing) (s : Server) : Prop :=
  ∀ m ∈ s.made, ∀ typed, cleanDomain casing typed = .ok m.name →
    removeDomain casing s.account typed = .ok (m.name, m.undo)
      ∧ m.undo.apply s.account = some m.without

/-- The subdomain that a call creates, or creates an addon domain under. -/
def ApiCall.place (a : Account) : ApiCall → Option String
  | .addAddonDomain _ newDomain subdomain => some (a.address ⟨newDomain, subdomain⟩)
  | .addSubDomain domain rootDomain _ => some (domain ++ "." ++ rootDomain)
  | .delAddonDomain .. | .delSubDomain .. | .park .. | .unpark .. => none

/-- The place is not the one of an addon domain, nor, for an addon domain, one of the
    subdomains. -/
def CreatedApart (casing : Casing) (s : Server) : Call → Prop
  | .addDomain name kind documentRoot _ => ∀ added call,
      addDomain casing s.account name kind documentRoot = .ok (added, call) →
      ∀ place ∈ call.place s.account,
        (∀ b ∈ s.account.addons, s.account.address b ≠ place)
          ∧ (kind = "addon" → place ∉ s.account.subs)
  | .removeDomain .. => True

/-- It is no addon domain that is created. -/
def NoAddon : Call → Prop
  | .addDomain _ kind _ _ => kind ≠ "addon"
  | .removeDomain .. => True

/-- It is no addon domain that is created, nor a subdomain where an addon domain is kept. -/
def Undisturbed (casing : Casing) (s : Server) : Call → Prop
  | .addDomain name kind _ _ => kind ≠ "addon" ∧ (kind = "subdomain" → ∀ cleaned,
      cleanDomain casing name = .ok cleaned →
        ∀ b ∈ s.account.addons, s.account.address b ≠ cleaned)
  | .removeDomain .. => True

/-! ### The calls that are made -/

section

variable {casing : Casing} {a a' : Account} {name typed added root place : String} {dir : Path}
  {kind : AddedKind} {call undo : ApiCall} {m : Made} {s s' : Server} {taken : Bool}

/-- A name under a domain is the rest, a dot and the domain. -/
theorem relativeTo_append {parent : String} (h : IsUnder parent name) :
    relativeTo parent name ++ "." ++ parent = name := by
  obtain ⟨front, hfront⟩ := endsWith_iff.mp h
  have hlength : name.toList.length - (parent.toList.length + 1) = front.length := by
    rw [← hfront, List.length_append, String.toList_append, List.length_append]
    show front.length + (1 + _) - _ = _
    omega
  rw [← String.toList_inj, relativeTo, clip, String.toList_append, String.toList_append,
    String.toList_ofList, hlength, ← hfront, List.take_left, String.toList_append,
    List.append_assoc]

/-- **The call that creates a domain of each kind.** -/
theorem creation_eq_ok (h : creation a kind name dir = .ok call) :
    (kind = .addon ∧ call = .addAddonDomain dir name ((splitOn '.' name).headD ""))
    ∨ (kind = .subdomain ∧ ∃ label parent, call = .addSubDomain label parent dir
      ∧ label ++ "." ++ parent = name)
    ∨ (kind = .alias ∧ call = .park name) := by
  unfold creation at h
  split at h
  · exact .inl ⟨rfl, (Except.ok.inj h).symm⟩
  · split at h
    · next parent hparent =>
      obtain ⟨-, -, hunder⟩ := parentOf_eq_some hparent
      exact .inr (.inl ⟨rfl, _, parent, (Except.ok.inj h).symm, relativeTo_append hunder⟩)
    · cases h
  · exact .inr (.inr ⟨rfl, (Except.ok.inj h).symm⟩)

theorem addedKind_eq_ok {text : String} (h : addedKind text = .ok kind) :
    kind = .addon ↔ text = "addon" := by
  unfold addedKind at h
  split at h
  · next htext => exact iff_of_true (Except.ok.inj h).symm htext
  · next htext =>
    refine iff_of_false ?_ htext
    rintro rfl
    split at h
    · cases h
    · split at h
      · cases h
      · cases h

theorem sub_of_addedKind {text : String} (h : addedKind text = .ok .subdomain) :
    text = "subdomain" := by
  unfold addedKind at h
  split at h
  · cases h
  · split at h
    · next htext => exact htext
    · split at h
      · cases h
      · cases h

theorem addDomain_eq_ok {kind : String}
    (h : addDomain casing a name kind root = .ok (added, call)) :
    cleanDomain casing name = .ok added ∧ added ∉ a.names
      ∧ ∃ k dir, addedKind kind = .ok k ∧ creation a k added dir = .ok call := by
  obtain ⟨k, hk, h⟩ := bind_eq_ok.mp h
  obtain ⟨cleaned, hclean, h⟩ := bind_eq_ok.mp h
  obtain ⟨_, hnew, h⟩ := bind_eq_ok.mp h
  obtain ⟨path, -, h⟩ := bind_eq_ok.mp h
  obtain ⟨made, hmade, h⟩ := bind_eq_ok.mp h
  obtain ⟨rfl, rfl⟩ := Prod.mk.inj (Except.ok.inj h)
  exact ⟨hclean, ensure_eq_ok.mp hnew, k, _, hk, hmade⟩

/-- The name a call is about. -/
def ApiCall.target : ApiCall → String
  | .addAddonDomain _ newDomain _ => newDomain
  | .delAddonDomain domain _ => domain
  | .addSubDomain domain rootDomain _ => domain ++ "." ++ rootDomain
  | .delSubDomain domain => domain
  | .park domain => domain
  | .unpark domain => domain

theorem target_of_creation (h : creation a kind name dir = .ok call) : call.target = name := by
  rcases creation_eq_ok h with ⟨-, rfl⟩ | ⟨-, label, parent, rfl, hname⟩ | ⟨-, rfl⟩
  · rfl
  · exact hname
  · rfl

theorem target_of_removal (h : removeDomain casing a typed = .ok (name, call)) :
    call.target = name := by
  obtain ⟨cleaned, -, h⟩ := bind_eq_ok.mp h
  obtain ⟨-, -, h⟩ := bind_eq_ok.mp h
  split at h
  · obtain ⟨rfl, rfl⟩ := Prod.mk.inj (Except.ok.inj h)
    rfl
  · split at h
    · obtain ⟨rfl, rfl⟩ := Prod.mk.inj (Except.ok.inj h)
      rfl
    · split at h
      · obtain ⟨rfl, rfl⟩ := Prod.mk.inj (Except.ok.inj h)
        rfl
      · cases h

/-! ### What stays -/

/-- A subdomain or an alias that was created is on the account, and nowhere else on it, and the
    account would be without it what it is without it. -/
structure StillThere (a : Account) (m : Made) : Prop where
  ne_main : m.name ≠ a.main
  not_addon : m.name ∉ a.addons.map Addon.name
  kept : (m.undo = .delSubDomain m.name ∧ m.name ∈ a.subs
      ∧ m.without = { a with subs := a.subs.filter (· ≠ m.name) })
    ∨ (m.undo = .unpark m.name ∧ m.name ∉ a.subs ∧ m.name ∈ a.parked
      ∧ m.without = { a with parked := a.parked.filter (· ≠ m.name) })

/-- **What is still there is named by its removal, and removed alone.** -/
theorem StillThere.restorable (h : StillThere a m)
    (htyped : cleanDomain casing typed = .ok m.name) :
    removeDomain casing a typed = .ok (m.name, m.undo) ∧ m.undo.apply a = some m.without := by
  have hmain : ensure (m.name ≠ a.main) (hostingError "The main domain cannot be removed.")
      = .ok () := ensure_eq_ok.mpr h.ne_main
  unfold removeDomain
  rw [htyped, ok_bind, hmain, ok_bind, if_neg h.not_addon]
  rcases h.kept with ⟨hundo, hmem, hwithout⟩ | ⟨hundo, hsub, hmem, hwithout⟩
  · rw [if_pos hmem, hundo, hwithout]
    exact ⟨rfl, if_pos hmem⟩
  · rw [if_neg hsub, if_pos hmem, hundo, hwithout]
    exact ⟨rfl, if_pos hmem⟩

private theorem filter_append_of_ne {l : List String} {n d : String} (hne : d ≠ n) :
    (l ++ [d]).filter (· ≠ n) = l.filter (· ≠ n) ++ [d] := by
  have hpos : decide (d ≠ n) = true := decide_eq_true hne
  rw [List.filter_append, List.filter_cons_of_pos (p := (decide <| · ≠ n)) hpos, List.filter_nil]

private theorem filter_comm {l : List String} {n d : String} :
    (l.filter (· ≠ n)).filter (· ≠ d) = (l.filter (· ≠ d)).filter (· ≠ n) := by
  rw [List.filter_filter, List.filter_filter]
  exact List.filter_congr fun x _ => Bool.and_comm _ _

private theorem mem_filter_ne {l : List String} {n d : String} (hne : n ≠ d) :
    n ∈ l.filter (· ≠ d) ↔ n ∈ l := by
  rw [List.mem_filter, decide_eq_true_eq, and_iff_left hne]

/-- **A call about another name leaves it there.** -/
theorem StillThere.follow (h : StillThere a m) (hne : call.target ≠ m.name)
    (happly : call.apply a = some a') : StillThere a' (m.follow call) := by
  obtain ⟨hmain, haddon, hkept⟩ := h
  -- the name is known as it was, and undoing gives back what was without it
  cases call with
  | addAddonDomain dir newDomain subdomain =>
    obtain rfl := Option.some.inj happly
    refine ⟨hmain, ?_, ?_⟩
    · rw [List.map_append, List.mem_append, not_or]
      exact ⟨haddon, fun hmem => hne (List.mem_singleton.mp hmem).symm⟩
    · rcases hkept with ⟨hundo, hmem, hwithout⟩ | ⟨hundo, hsub, hmem, hwithout⟩
      · exact .inl ⟨hundo, hmem, by rw [Made.follow, hwithout]; rfl⟩
      · exact .inr ⟨hundo, hsub, hmem, by rw [Made.follow, hwithout]; rfl⟩
  | delAddonDomain domain subdomain =>
    rw [ApiCall.apply] at happly
    split at happly
    · next hany =>
      obtain rfl := Option.some.inj happly
      refine ⟨hmain, fun hmem => haddon ?_, ?_⟩
      · exact (List.filter_sublist.map Addon.name).subset hmem
      · rcases hkept with ⟨hundo, hmem, hwithout⟩ | ⟨hundo, hsub, hmem, hwithout⟩
        · refine .inl ⟨hundo, hmem, ?_⟩
          rw [Made.follow, hwithout]
          exact congrArg (Option.getD · _) (if_pos hany)
        · refine .inr ⟨hundo, hsub, hmem, ?_⟩
          rw [Made.follow, hwithout]
          exact congrArg (Option.getD · _) (if_pos hany)
    · cases happly
  | addSubDomain label parent dir =>
    obtain rfl := Option.some.inj happly
    have hne : label ++ "." ++ parent ≠ m.name := hne
    refine ⟨hmain, haddon, ?_⟩
    rcases hkept with ⟨hundo, hmem, hwithout⟩ | ⟨hundo, hsub, hmem, hwithout⟩
    · refine .inl ⟨hundo, List.mem_append_left _ hmem, ?_⟩
      rw [Made.follow, hwithout, filter_append_of_ne hne]
      rfl
    · refine .inr ⟨hundo, fun hmem => ?_, hmem, by rw [Made.follow, hwithout]; rfl⟩
      rcases List.mem_append.mp hmem with hmem | hmem
      · exact hsub hmem
      · exact hne (List.mem_singleton.mp hmem).symm
  | delSubDomain domain =>
    have hne : domain ≠ m.name := hne
    rw [ApiCall.apply] at happly
    split at happly
    · next hdomain =>
      obtain rfl := Option.some.inj happly
      refine ⟨hmain, haddon, ?_⟩
      rcases hkept with ⟨hundo, hmem, hwithout⟩ | ⟨hundo, hsub, hmem, hwithout⟩
      · refine .inl ⟨hundo, (mem_filter_ne hne.symm).mpr hmem, ?_⟩
        rw [Made.follow, hwithout, filter_comm]
        exact congrArg (Option.getD · _) (if_pos ((mem_filter_ne hne).mpr hdomain))
      · refine .inr ⟨hundo, fun hmem => hsub (List.mem_of_mem_filter hmem), hmem, ?_⟩
        rw [Made.follow, hwithout]
        exact congrArg (Option.getD · _) (if_pos hdomain)
    · cases happly
  | park domain =>
    obtain rfl := Option.some.inj happly
    have hne : domain ≠ m.name := hne
    refine ⟨hmain, haddon, ?_⟩
    rcases hkept with ⟨hundo, hmem, hwithout⟩ | ⟨hundo, hsub, hmem, hwithout⟩
    · exact .inl ⟨hundo, hmem, by rw [Made.follow, hwithout]; rfl⟩
    · refine .inr ⟨hundo, hsub, List.mem_append_left _ hmem, ?_⟩
      rw [Made.follow, hwithout, filter_append_of_ne hne]
      rfl
  | unpark domain =>
    have hne : domain ≠ m.name := hne
    rw [ApiCall.apply] at happly
    split at happly
    · next hdomain =>
      obtain rfl := Option.some.inj happly
      refine ⟨hmain, haddon, ?_⟩
      rcases hkept with ⟨hundo, hmem, hwithout⟩ | ⟨hundo, hsub, hmem, hwithout⟩
      · refine .inl ⟨hundo, hmem, ?_⟩
        rw [Made.follow, hwithout]
        exact congrArg (Option.getD · _) (if_pos hdomain)
      · refine .inr ⟨hundo, hsub, (mem_filter_ne hne.symm).mpr hmem, ?_⟩
        rw [Made.follow, hwithout, filter_comm]
        exact congrArg (Option.getD · _) (if_pos ((mem_filter_ne hne).mpr hdomain))
    · cases happly

/-! ### One call -/

theorem exec_addDomain_eq_ok {kind : String}
    (h : exec casing s (.addDomain name kind root taken) = .ok s') :
    ∃ added call undo account, addDomain casing s.account name kind root = .ok (added, call)
      ∧ call.undo s.account = some undo ∧ call.apply s.account = some account
      ∧ s' = ⟨account, s.made.map (Made.follow call) ++ [⟨added, undo, s.account⟩]⟩ := by
  obtain ⟨⟨added, call⟩, hadd, h⟩ := bind_eq_ok.mp h
  dsimp only at h
  split at h
  · next undo account hundo happly _ =>
    exact ⟨added, call, undo, account, hadd, hundo, happly, (Except.ok.inj h).symm⟩
  · cases h

theorem exec_removeDomain_eq_ok (h : exec casing s (.removeDomain name taken) = .ok s') :
    ∃ removed call account, removeDomain casing s.account name = .ok (removed, call)
      ∧ call.apply s.account = some account
      ∧ s' = ⟨account, (s.made.filter fun m => m.name ≠ removed).map (Made.follow call)⟩ := by
  obtain ⟨⟨removed, call⟩, hremove, h⟩ := bind_eq_ok.mp h
  dsimp only at h
  split at h
  · next account happly _ =>
    exact ⟨removed, call, account, hremove, happly, (Except.ok.inj h).symm⟩
  · cases h

/-- What was created is all still there. -/
def Inv (s : Server) : Prop := ∀ m ∈ s.made, StillThere s.account m

theorem Inv.restorable (h : Inv s) : Restorable casing s := fun m hm _ htyped =>
  (h m hm).restorable htyped

/-- What is on the account has a name of it. -/
theorem StillThere.mem_names (h : StillThere a m) : m.name ∈ a.names := by
  refine List.mem_cons_of_mem _ ?_
  rcases h.kept with ⟨-, hmem, -⟩ | ⟨-, -, hmem, -⟩
  · exact List.mem_append_left _ (List.mem_append_right _ hmem)
  · exact List.mem_append_right _ hmem

private theorem filter_append_self {l : List String} {n : String} (hnot : n ∉ l) :
    (l ++ [n]).filter (· ≠ n) = l := by
  have hneg : ¬decide (n ≠ n) = true := fun h => of_decide_eq_true h rfl
  rw [List.filter_append, List.filter_cons_of_neg (p := (decide <| · ≠ n)) hneg, List.filter_nil,
    List.append_nil, List.filter_eq_self]
  intro d hd
  refine decide_eq_true ?_
  rintro rfl
  exact hnot hd

/-- **A subdomain or an alias that is created is there, and without it the account is what it
    was.** -/
theorem stillThere_of_creation (hnew : added ∉ a.names) (hkind : kind ≠ .addon)
    (h : creation a kind added dir = .ok call) (hundo : call.undo a = some undo)
    (happly : call.apply a = some a') : StillThere a' ⟨added, undo, a⟩ := by
  obtain ⟨hmain, hrest⟩ := not_or.mp (mt List.mem_cons.mpr hnew)
  simp only [List.mem_append, not_or] at hrest
  obtain ⟨⟨haddon, hsub⟩, hparked⟩ := hrest
  rcases creation_eq_ok h with ⟨rfl, -⟩ | ⟨-, label, parent, rfl, hname⟩ | ⟨-, rfl⟩
  · exact absurd rfl hkind
  · obtain rfl := Option.some.inj hundo
    obtain rfl := Option.some.inj happly
    subst hname
    refine ⟨hmain, haddon, .inl ⟨rfl, List.mem_append_right _ List.mem_cons_self, ?_⟩⟩
    rw [filter_append_self hsub]
  · obtain rfl := Option.some.inj hundo
    obtain rfl := Option.some.inj happly
    refine ⟨hmain, haddon, .inr ⟨rfl, hsub, List.mem_append_right _ List.mem_cons_self, ?_⟩⟩
    rw [filter_append_self hparked]

/-- **A call that creates no addon domain leaves what was created there.** -/
theorem Inv.exec {c : Call} (hinv : Inv s) (hno : NoAddon c) (h : exec casing s c = .ok s') :
    Inv s' := by
  cases c with
  | addDomain name kind root taken =>
    obtain ⟨added, call, undo, account, hadd, hundo, happly, rfl⟩ := exec_addDomain_eq_ok h
    obtain ⟨-, hnew, k, dir, hk, hcreate⟩ := addDomain_eq_ok hadd
    have hkind : k ≠ .addon := fun heq => hno ((addedKind_eq_ok hk).mp heq)
    refine List.forall_mem_append.mpr ⟨?_, List.forall_mem_singleton.mpr ?_⟩
    · intro m' hm'
      obtain ⟨m, hm, rfl⟩ := List.mem_map.mp hm'
      refine (hinv m hm).follow ?_ happly
      rw [target_of_creation hcreate]
      rintro rfl
      exact hnew (hinv m hm).mem_names
    · exact stillThere_of_creation hnew hkind hcreate hundo happly
  | removeDomain name taken =>
    obtain ⟨removed, call, account, hremove, happly, rfl⟩ := exec_removeDomain_eq_ok h
    intro m' hm'
    obtain ⟨m, hm, rfl⟩ := List.mem_map.mp hm'
    obtain ⟨hm, hne⟩ := List.mem_filter.mp hm
    refine (hinv m hm).follow ?_ happly
    rw [target_of_removal hremove]
    exact (of_decide_eq_true hne).symm

/-! ### Addon domains -/

private theorem length_replaceChar (c : Char) {new : String} (hnew : new.toList.length = 1)
    (text : String) : (replaceChar c new text).toList.length = text.toList.length := by
  rw [replaceChar, String.toList_ofList]
  induction text.toList with
  | nil => rfl
  | cons d rest ih =>
    rw [List.flatMap_cons, List.length_append, ih, List.length_cons]
    split
    · omega
    · rw [List.length_singleton]
      omega

/-- An accepted name has a dot in it. -/
theorem dot_mem (h : cleanDomain casing typed = .ok name) : '.' ∈ name.toList := by
  have hline : ∀ line : List Char, domainPattern line = true → '.' ∈ line := by
    intro line hline
    simp only [domainPattern, Bool.and_eq_true, decide_eq_true_eq] at hline
    by_contra hno
    have hlabels := hline.1.1.2
    rw [List.splitOn_eq_singleton hno] at hlabels
    exact absurd hlabels (by simp)
  rcases matchesLine_iff.mp (cleanDomain_eq_ok.mp h).2 with hname | ⟨front, hname, hfront⟩
  · exact hline _ hname
  · rw [hname]
    exact List.mem_append_left _ (hline front hfront)

/-- The first label of a name with a dot is shorter than the name. -/
theorem length_firstLabel (h : '.' ∈ name.toList) :
    ((splitOn '.' name).headD "").toList.length < name.toList.length := by
  obtain ⟨front, back, hname, hfront⟩ := List.eq_append_cons_of_mem h
  rw [splitOn, hname, List.splitOn_append_cons_of_beq _ _ (beq_self_eq_true '.'),
    List.splitOn_eq_singleton hfront]
  show (String.ofList front).toList.length < _
  rw [String.toList_ofList, List.length_append, List.length_cons]
  omega

/-- **The subdomain that is named for the removal of an addon domain is not the one it was created
    under.** -/
theorem not_restorable_of_addon {kind : String} (hkind : kind = "addon")
    (h : exec casing s (.addDomain name kind root taken) = .ok s') : ¬Restorable casing s' := by
  intro hrestore
  obtain ⟨added, call, undo, account, hadd, hundo, happly, rfl⟩ := exec_addDomain_eq_ok h
  obtain ⟨hclean, hnew, k, dir, hk, hcreate⟩ := addDomain_eq_ok hadd
  have hmade : (⟨added, undo, s.account⟩ : Made)
      ∈ s.made.map (Made.follow call) ++ [⟨added, undo, s.account⟩] :=
    List.mem_append_right _ List.mem_cons_self
  have hremove := (hrestore _ hmade name hclean).1
  rcases creation_eq_ok hcreate with ⟨-, rfl⟩ | ⟨hsub, -⟩ | ⟨halias, -⟩
  · obtain rfl := Option.some.inj hundo
    obtain rfl := Option.some.inj happly
    have hmain : ensure (added ≠ s.account.main)
        (hostingError "The main domain cannot be removed.") = .ok () :=
      ensure_eq_ok.mpr fun heq => hnew (heq ▸ List.mem_cons_self)
    have hmem : added ∈ (s.account.addons
        ++ [(⟨added, (splitOn '.' added).headD ""⟩ : Addon)]).map Addon.name := by
      rw [List.map_append]
      exact List.mem_append_right _ List.mem_cons_self
    unfold removeDomain at hremove
    rw [hclean, ok_bind, hmain, ok_bind, if_pos hmem] at hremove
    have hcall := (Prod.mk.inj (Except.ok.inj hremove)).2
    have hlabel := (ApiCall.delAddonDomain.inj hcall).2
    have hlength := congrArg (fun text : String => text.toList.length) hlabel
    have hshort := length_firstLabel (dot_mem hclean)
    have hreplaced := @length_replaceChar '.' "_" rfl added
    simp only [Account.address, String.toList_append, List.length_append] at hlength
    omega
  · rw [(addedKind_eq_ok hk).mpr hkind] at hsub
    cases hsub
  · rw [(addedKind_eq_ok hk).mpr hkind] at halias
    cases halias

theorem commits_iff {c : Call} {out : List PUnit} :
    (machine casing).Commits c s s' out ↔ exec casing s c = .ok s' ∧ out = [] := by
  show (exec casing s c).map _ = _ ↔ _
  rw [map_eq_ok]
  constructor
  · rintro ⟨found, hfound, heq⟩
    obtain ⟨rfl, rfl⟩ := Prod.mk.inj heq
    exact ⟨hfound, rfl⟩
  · rintro ⟨hfound, rfl⟩
    exact ⟨s', hfound, rfl⟩

/-! ### Runs -/

variable (casing) (account : Account)

/-- **What a run of calls created it can take back exactly where it creates no addon domain.** -/
theorem always_restorable_iff (calls : List Call) :
    (machine casing).Always (Restorable casing) calls ⟨account, []⟩
      ↔ (machine casing).EachStep (fun _ c _ => NoAddon c) calls ⟨account, []⟩ := by
  refine Machine.always_iff_eachStep (I := Inv) (fun _ hinv => hinv.restorable)
    (fun _ _ _ _ hinv h hno => hinv.exec hno (commits_iff.mp h).1) (fun c s s' _ _ h hrestore => ?_)
    calls _ fun m hm => absurd hm List.not_mem_nil
  cases c with
  | addDomain name kind root taken =>
    exact fun hkind => not_restorable_of_addon hkind (commits_iff.mp h).1 hrestore
  | removeDomain name taken => trivial

/-- What a call that is carried out creates is apart, if it is no addon domain, where it is no
    subdomain that an addon domain is kept under. -/
theorem undisturbed_iff {c : Call} (h : exec casing s c = .ok s') :
    NoAddon c ∧ CreatedApart casing s c ↔ Undisturbed casing s c := by
  cases c with
  | addDomain name kind root taken =>
    obtain ⟨added, call, undo, account, hadd, -, -, -⟩ := exec_addDomain_eq_ok h
    obtain ⟨hclean, -, k, dir, hk, hcreate⟩ := addDomain_eq_ok hadd
    refine and_congr_right fun hno => ?_
    rcases creation_eq_ok hcreate with ⟨rfl, -⟩ | ⟨rfl, label, parent, rfl, hname⟩ | ⟨rfl, rfl⟩
    · exact absurd ((addedKind_eq_ok hk).mp rfl) hno
    · have hkind : kind = "subdomain" := sub_of_addedKind hk
      constructor
      · intro hapart _ cleaned hcleaned
        obtain rfl : added = cleaned := Except.ok.inj (hclean.symm.trans hcleaned)
        exact (hapart _ _ hadd added (by rw [← hname]; rfl)).1
      · intro hfree added' call' hadd' place hplace
        obtain ⟨rfl, rfl⟩ := Prod.mk.inj (Except.ok.inj (hadd.symm.trans hadd'))
        obtain rfl : label ++ "." ++ parent = place := Option.some.inj hplace
        rw [hname]
        exact ⟨hfree hkind _ hclean, fun heq => absurd heq hno⟩
    · have hkind : kind ≠ "subdomain" := by
        rintro rfl
        cases hk
      refine iff_of_true ?_ fun heq => absurd heq hkind
      intro added' call' hadd' place hplace
      obtain ⟨rfl, rfl⟩ := Prod.mk.inj (Except.ok.inj (hadd.symm.trans hadd'))
      cases hplace
  | removeDomain name taken => exact iff_of_true ⟨trivial, trivial⟩ trivial

/-- **Runs on an account take back exactly what they created, and create it apart from every addon
    domain, where they create no addon domain, and no subdomain at the address of one.** -/
theorem restored_apart_iff (calls : List Call) :
    (machine casing).Always (Restorable casing) calls ⟨account, []⟩
        ∧ (machine casing).EachStep (fun s c _ => CreatedApart casing s c) calls ⟨account, []⟩
      ↔ (machine casing).EachStep (fun s c _ => Undisturbed casing s c) calls ⟨account, []⟩ := by
  rw [always_restorable_iff, Machine.eachStep_and]
  exact Machine.eachStep_iff_eachStep (I := fun _ => True) (fun _ _ _ _ _ _ => trivial)
    (fun _ _ _ _ _ h => undisturbed_iff casing (commits_iff.mp h).1) calls _ trivial

/-- The addon domain `shop.net` of `example.com` is created under `shop`, and `shop_net` is named
    for its removal. -/
theorem not_restorable_shop :
    ¬((machine asciiCasing).Always (Restorable asciiCasing)
        [.addDomain "shop.net" "addon" "" true] ⟨⟨"example.com", [], [], []⟩, []⟩
      ∧ (machine asciiCasing).EachStep (fun s c _ => CreatedApart asciiCasing s c)
        [.addDomain "shop.net" "addon" "" true] ⟨⟨"example.com", [], [], []⟩, []⟩) := by
  rintro ⟨h, -⟩
  have hmade := h.last ⟨"shop.net", .delAddonDomain "shop.net" "shop.example.com",
    ⟨"example.com", [], [], []⟩⟩ (by decide +kernel) "shop.net" (by decide +kernel)
  exact absurd hmade.1 (by decide +kernel)

end

end WPanel.Hosting.CpanelDomains
