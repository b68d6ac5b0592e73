import WPanel.Hosting.DnsRules
import WPanel.Hosting.Renaming
import WPanel.Lib.Dict
import WPanel.Lib.Machine

namespace WPanel.Hosting.DemoDomains

open WPanel.Lib WPanel.Hosting.DnsRules
open WPanel.Hosting.Renaming (Path cleanRelative)
open WPanel.Hosting.Schedules (hostingError)

/-!
# The domains and the DNS zones of a demo account

`hosting/adapters/demo_domains.py`: the domains of one account and a zone of records for each of
them that is no subdomain, in one file.

* `Data` — the file;
* `addDomain`, `removeDomain`, `addRecord`, `updateRecord`, `deleteRecord` — the calls;
* `Sound` — no CNAME shares its name and no record is there twice, every subdomain lies under a
  domain whose zone is there, and every name occurs once;
* `Undisturbed` — a subdomain that is added finds its address free in the zone above it, and a
  domain that is removed leaves every subdomain under another zone;
* `always_sound_iff` — the states of a run are sound exactly where its calls are undisturbed.
-/

def MAX_ADDON_DOMAINS : ℕ := 5

def MAX_SUBDOMAINS : ℕ := 20

def MAX_RECORDS : ℕ := 200

def SERVER_IP : String := "203.0.113.10"

/-! ### The file -/

/-- A record of a zone. -/
structure Stored where
  id : ℕ
  kind : Kind
  name : String
  value : String
  ttl : ℤ
  priority : Option ℤ
  deriving DecidableEq, Repr

abbrev Zone := List Stored

/-- `DOMAIN_KINDS`. -/
inductive DomainKind
  | addon | subdomain | alias
  deriving DecidableEq, Repr

/-- A domain that was added to the account. -/
structure Entry where
  name : String
  kind : DomainKind
  documentRoot : Path
  deriving DecidableEq, Repr

/-- `domains.json`. -/
structure Data where
  domains : List Entry
  zones : Dict Zone
  /-- Ids below this one have been given. -/
  nextId : ℕ
  deriving DecidableEq, Repr

/-- The account: its own domain, and how the panel makes letters small. -/
structure Demo where
  primary : String
  casing : Casing

variable (demo : Demo)

/-- `_default_zone`. -/
def defaultZone (domain : String) (id : ℕ) : Zone := [
  ⟨id, .A, "@", SERVER_IP, 14400, none⟩,
  ⟨id + 1, .CNAME, "www", domain, 14400, none⟩,
  ⟨id + 2, .A, "mail", SERVER_IP, 14400, none⟩,
  ⟨id + 3, .MX, "@", "mail." ++ domain, 14400, some 10⟩,
  ⟨id + 4, .TXT, "@", "v=spf1 +a +mx ~all", 14400, none⟩]

/-- What `_load` makes of a file that is not there. -/
def Demo.initial : Data where
  domains := []
  zones := if demo.primary = "" then [] else [(demo.primary, defaultZone demo.primary 0)]
  nextId := 5

/-- `_all`. -/
def Demo.all (data : Data) : List String := demo.primary :: data.domains.map Entry.name

/-- A name as it is looked for. -/
def Demo.lookupName (name : String) : String := rstrip '.' (demo.casing.lower (strip name))

/-! ### Domains -/

/-- The kind that is asked for. -/
def domainKind (kind : String) : Except Err DomainKind :=
  if kind = "addon" then pure .addon
  else if kind = "subdomain" then pure .subdomain
  else if kind = "alias" then pure .alias
  else throw (hostingError "Choose addon domain, subdomain or alias.")

/-- The name is one under the domain. -/
def IsUnder (domain name : String) : Prop := endsWith name ("." ++ domain) = true

instance (domain name : String) : Decidable (IsUnder domain name) :=
  inferInstanceAs (Decidable (endsWith name ("." ++ domain) = true))

/-- The longest domain that the name is under. -/
def parentOf (existing : List String) (name : String) : Option String :=
  ((existing.insertionSort fun a b => b.toList.length ≤ a.toList.length).find?
    fun p => IsUnder p name).filter (· ≠ "")

/-- Where a domain may be added: the domain above it, for a subdomain. -/
def Demo.checkPlace (data : Data) (kind : DomainKind) (name : String) :
    Except Err (Option String) := do
  if kind = .subdomain then
    match parentOf (demo.all data) name with
    | none => throw (hostingError ("A subdomain must be under one of your own domains, such as "
        ++ "blog." ++ demo.primary ++ "."))
    | some parent =>
      ensure ((data.domains.countP fun d => d.kind = .subdomain) < MAX_SUBDOMAINS)
        (hostingError ("Your plan allows " ++ toString MAX_SUBDOMAINS
          ++ " subdomains. Delete one or upgrade your plan."))
      return some parent
  else
    ensure (∀ p ∈ demo.all data, ¬IsUnder p name ∧ ¬IsUnder name p)
      (hostingError "That domain overlaps one you already have. Add it as a subdomain instead.")
    ensure ((data.domains.countP fun d => d.kind ≠ .subdomain) < MAX_ADDON_DOMAINS)
      (hostingError ("Your plan allows " ++ toString MAX_ADDON_DOMAINS
        ++ " extra domains. Delete one or upgrade your plan."))
    return none

/-- The folder of a domain's website; `made` is what making it comes to. -/
def rootFor (kind : DomainKind) (name documentRoot : String) (made : Except Err Unit) :
    Except Err Path :=
  if kind = .alias then pure ["public_html"]
  else do
    let root ← cleanRelative (if documentRoot = "" then "public_html/" ++ name else documentRoot)
    ensure (root ≠ [] ∧ root.head? ≠ some ".trash")
      (hostingError "Choose a folder for this domain's website.")
    made
    return root

/-- A name under a domain, without it. -/
def relativeTo (parent name : String) : String :=
  clip (name.toList.length - (parent.toList.length + 1)) name

/-- The address of a subdomain, as the zone above it has it. -/
def subdomainRecord (id : ℕ) (relative : String) : Stored :=
  ⟨id, .A, relative, SERVER_IP, 14400, none⟩

/-- The file with one domain more: a subdomain is a record in the zone above, if there is one, and
    another domain has a zone of its own. -/
def Data.withDomain (data : Data) (entry : Entry) : Option String → Data
  | some parent =>
    match data.zones.get? parent with
    | none => { data with domains := data.domains ++ [entry] }
    | some zone => {
        domains := data.domains ++ [entry]
        zones := data.zones.set parent
          (zone ++ [subdomainRecord data.nextId (relativeTo parent entry.name)])
        nextId := data.nextId + 1 }
  | none => {
      domains := data.domains ++ [entry]
      zones := data.zones.set entry.name (defaultZone entry.name data.nextId)
      nextId := data.nextId + 5 }

/-- `add_domain`. -/
def Demo.addDomain (data : Data) (name kind documentRoot : String) (made : Except Err Unit) :
    Except Err Data := do
  let name ← cleanDomain demo.casing name
  let kind ← domainKind kind
  ensure (name ∉ demo.all data) (hostingError "That domain is already on this account.")
  let parent ← demo.checkPlace data kind name
  let root ← rootFor kind name documentRoot made
  return data.withDomain ⟨name, kind, root⟩ parent

/-- `_find`: the domain that was added, or none for the account's own. -/
def Demo.find (data : Data) (name : String) : Except Err (Option Entry) :=
  if name = demo.primary then pure none
  else match data.domains.find? fun d => d.name = name with
    | some entry => pure (some entry)
    | none => throw (hostingError "That domain is not on this account.")

/-- The address of a subdomain is no longer in any zone above it. -/
def withoutSubdomain (name : String) (zones : Dict Zone) : Dict Zone :=
  zones.map fun e =>
    if IsUnder e.1 name then
      (e.1, e.2.filter fun r =>
        ¬(r.name = relativeTo e.1 name ∧ r.kind = .A ∧ r.value = SERVER_IP))
    else e

/-- `remove_domain`. -/
def Demo.removeDomain (data : Data) (name : String) : Except Err Data := do
  let name := demo.lookupName name
  match ← demo.find data name with
  | none => throw (hostingError "The main domain of an account cannot be removed.")
  | some entry =>
    let zones := data.zones.delete name
    return { data with
      domains := data.domains.eraseP fun d => d.name = name
      zones := if entry.kind = .subdomain then withoutSubdomain name zones else zones }

/-! ### Records -/

/-- `_zone`. -/
def Demo.zone (data : Data) (domain : String) : Except Err Zone :=
  match data.zones.get? domain with
  | some zone => pure zone
  | none =>
    if domain ∈ demo.all data then
      throw (hostingError "A subdomain's DNS records are kept in its parent domain.")
    else throw (hostingError "That domain is not on this account.")

/-- `_check_conflicts`, with the other records. -/
def checkConflicts (others : Zone) (r : DnsRules.Normal) : Except Err Unit := do
  ensure (¬(r.kind = .CNAME ∧ ∃ o ∈ others, o.name = r.name)) (hostingError
    "That name already has other records, and a CNAME cannot share a name with them.")
  ensure (¬(r.kind ≠ .CNAME ∧ ∃ o ∈ others, o.name = r.name ∧ o.kind = .CNAME)) (hostingError
    "That name is already a CNAME, which cannot share a name with other records.")
  ensure (¬∃ o ∈ others, o.name = r.name ∧ o.kind = r.kind ∧ o.value = r.value
      ∧ o.priority = r.priority)
    (hostingError "That record already exists.")

/-- `add_record`. -/
def Demo.addRecord (data : Data) (domain : String) (record : Record) : Except Err Data := do
  let domain := demo.lookupName domain
  let zone ← demo.zone data domain
  ensure (zone.length < MAX_RECORDS)
    (hostingError ("A zone can hold " ++ toString MAX_RECORDS ++ " records."))
  let r ← normalizeRecord demo.casing domain record
  checkConflicts zone r
  return { data with
    zones := data.zones.set domain
      (zone ++ [⟨data.nextId, r.kind, r.name, r.value, r.ttl, r.priority⟩])
    nextId := data.nextId + 1 }

def noLongerExists : Err := hostingError "That record no longer exists."

/-- The record with other data. -/
def Stored.withNormal (current : Stored) (r : DnsRules.Normal) : Stored :=
  { current with name := r.name, value := r.value, ttl := r.ttl, priority := r.priority }

/-- `update_record`. -/
def Demo.updateRecord (data : Data) (domain : String) (id : ℕ) (record : Record) :
    Except Err Data := do
  let domain := demo.lookupName domain
  let zone ← demo.zone data domain
  match zone.find? fun r => r.id = id with
  | none => throw noLongerExists
  | some current =>
    ensure (demo.casing.upper record.type = current.kind.text) (hostingError
      "The type of a record cannot be changed. Add a new record and delete this one.")
    let r ← normalizeRecord demo.casing domain record
    checkConflicts (zone.filter fun o => o.id ≠ current.id) r
    return { data with
      zones := data.zones.set domain
        (zone.map fun o => if o = current then current.withNormal r else o) }

/-- `delete_record`. -/
def Demo.deleteRecord (data : Data) (domain : String) (id : ℕ) : Except Err Data := do
  let domain := demo.lookupName domain
  let zone ← demo.zone data domain
  ensure (∃ r ∈ zone, r.id = id) noLongerExists
  return { data with zones := data.zones.set domain (zone.filter fun r => r.id ≠ id) }

/-! ### Runs -/

inductive Call
  | addDomain (name kind documentRoot : String) (made : Except Err Unit)
  | removeDomain (name : String)
  | addRecord (domain : String) (record : Record)
  | updateRecord (domain : String) (id : ℕ) (record : Record)
  | deleteRecord (domain : String) (id : ℕ)

def Demo.exec (data : Data) : Call → Except Err Data
  | .addDomain name kind documentRoot made => demo.addDomain data name kind documentRoot made
  | .removeDomain name => demo.removeDomain data name
  | .addRecord domain record => demo.addRecord data domain record
  | .updateRecord domain id record => demo.updateRecord data domain id record
  | .deleteRecord domain id => demo.deleteRecord data domain id

/-- The account takes one call after the other; one that fails leaves the file as it is. -/
def Demo.machine : Machine Data Call PUnit Err where
  exec call data := (demo.exec data call).map fun data => (data, [])

/-! ### Soundness -/

/-- Two records may be in one zone: a CNAME shares its name with none, and no two are the same. -/
def Compatible (r r' : Stored) : Prop :=
  r.name = r'.name → r.kind ≠ .CNAME ∧ r'.kind ≠ .CNAME
    ∧ ¬(r.kind = r'.kind ∧ r.value = r'.value ∧ r.priority = r'.priority)

/-- **The zones hold no CNAME beside another record and no record twice, every subdomain lies under
    a domain whose zone is there, and every name occurs once.** -/
structure Sound (data : Data) : Prop where
  zones : ∀ e ∈ data.zones, e.2.Pairwise Compatible
  subdomains : ∀ d ∈ data.domains, d.kind = .subdomain →
    ∃ p ∈ demo.all data, p ∈ data.zones.keys ∧ IsUnder p d.name
  once : (demo.all data).Nodup

/-- A call does not disturb what the zones hold: a subdomain that is added finds in the zone above
    it neither a CNAME of its name nor its address, and a domain that is removed leaves every other
    subdomain under another zone. -/
def Undisturbed (data : Data) : Call → Prop
  | .addDomain name kind _ _ => kind = "subdomain" → ∀ cleaned parent zone,
      cleanDomain demo.casing name = .ok cleaned → parentOf (demo.all data) cleaned = some parent →
      data.zones.get? parent = some zone → ∀ r ∈ zone, r.name = relativeTo parent cleaned →
        r.kind ≠ .CNAME ∧ ¬(r.kind = .A ∧ r.value = SERVER_IP ∧ r.priority = none)
  | .removeDomain name => ∀ d ∈ data.domains, d.kind = .subdomain →
      d.name ≠ demo.lookupName name →
      ∃ z ∈ data.zones.keys, z ≠ demo.lookupName name ∧ IsUnder z d.name
  | .addRecord .. | .updateRecord .. | .deleteRecord .. => True

/-- The domains with a zone of their own. -/
def Owns (data : Data) (name : String) : Prop :=
  name = demo.primary ∨ ∃ d ∈ data.domains, d.name = name ∧ d.kind ≠ .subdomain

/-- What every call keeps that is undisturbed. -/
structure Inv (data : Data) : Prop extends Sound demo data where
  unique : data.zones.Unique
  ids : ∀ e ∈ data.zones, (e.2.map Stored.id).Nodup ∧ ∀ r ∈ e.2, r.id < data.nextId
  owned : ∀ k ∈ data.zones.keys, Owns demo data k
  zoned : ∀ k, k ≠ "" → Owns demo data k → k ∈ data.zones.keys

section

variable {demo} {data data' : Data} {name parent domain : String} {zone zone' : Zone} {n : ℕ}
  {r r' : Stored} {entry : Entry} {existing : List String}

theorem Compatible.symm (h : Compatible r r') : Compatible r' r := fun heq =>
  have ⟨hr, hr', hsame⟩ := h heq.symm
  ⟨hr', hr, fun hno => hsame ⟨hno.1.symm, hno.2.1.symm, hno.2.2.symm⟩⟩

theorem pairwise_defaultZone (domain : String) (id : ℕ) :
    (defaultZone domain id).Pairwise Compatible := by
  simp [defaultZone, Compatible]

theorem ids_defaultZone (domain : String) (id : ℕ) :
    ((defaultZone domain id).map Stored.id).Nodup ∧ ∀ r ∈ defaultZone domain id, r.id < id + 5 := by
  constructor
  · simp [defaultZone]
  · simp only [defaultZone, List.forall_mem_cons]
    exact ⟨by omega, by omega, by omega, by omega, by omega, fun r hr => absurd hr List.not_mem_nil⟩

theorem Owns.mem_all (h : Owns demo data name) : name ∈ demo.all data := by
  rcases h with rfl | ⟨d, hd, rfl, -⟩
  · exact List.mem_cons_self
  · exact List.mem_cons_of_mem _ (List.mem_map_of_mem hd)

/-- What is under a domain is under the domain above that. -/
theorem IsUnder.trans (h : IsUnder parent name) (h' : IsUnder domain parent) :
    IsUnder domain name := by
  have hp := endsWith_iff.mp h
  have hd := endsWith_iff.mp h'
  rw [String.toList_append] at hp
  exact endsWith_iff.mpr (hd.trans ((List.suffix_append _ _).trans hp))

theorem parentOf_eq_some (h : parentOf existing name = some parent) :
    parent ∈ existing ∧ parent ≠ "" ∧ IsUnder parent name := by
  obtain ⟨hfind, hne⟩ := Option.filter_eq_some_iff.mp h
  have hunder := List.find?_some hfind
  exact ⟨(List.mem_insertionSort _).mp (List.mem_of_find?_eq_some hfind), of_decide_eq_true hne,
    of_decide_eq_true hunder⟩

theorem mem_keys_of_get? (h : data.zones.get? domain = some zone) : domain ∈ data.zones.keys :=
  Dict.get?_ne_none.mp (by rw [h]; exact Option.some_ne_none _)

/-! ### One zone -/

/-- **A zone that is written over with a sound one.** -/
theorem Inv.setZone (h : Inv demo data) (hzone : data.zones.get? domain = some zone)
    (hpair : zone'.Pairwise Compatible) (hids : (zone'.map Stored.id).Nodup)
    (hbound : ∀ r ∈ zone', r.id < n) (hn : data.nextId ≤ n) :
    Inv demo { data with zones := data.zones.set domain zone', nextId := n } := by
  have hkey := mem_keys_of_get? hzone
  have hkeys : ∀ k, k ∈ (data.zones.set domain zone').keys ↔ k ∈ data.zones.keys := by
    intro k
    rw [Dict.mem_keys_set]
    refine or_iff_right_of_imp ?_
    rintro rfl
    exact hkey
  constructor
  · constructor
    · intro e he
      rcases Dict.mem_of_mem_set he with rfl | he
      · exact hpair
      · exact h.zones e he
    · intro d hd hsub
      obtain ⟨p, hp, hpkeys, hunder⟩ := h.subdomains d hd hsub
      exact ⟨p, hp, (hkeys p).mpr hpkeys, hunder⟩
    · exact h.once
  · exact h.unique.set domain zone'
  · intro e he
    rcases Dict.mem_of_mem_set he with rfl | he
    · exact ⟨hids, hbound⟩
    · exact ⟨(h.ids e he).1, fun r hr => lt_of_lt_of_le ((h.ids e he).2 r hr) hn⟩
  · exact fun k hk => h.owned k ((hkeys k).mp hk)
  · exact fun k hne howns => (hkeys k).mpr (h.zoned k hne howns)

/-- A record more, with an id of its own. -/
theorem Inv.addStored (h : Inv demo data) (hzone : data.zones.get? domain = some zone)
    (hid : r.id = data.nextId) (hcompatible : ∀ o ∈ zone, Compatible o r) :
    Inv demo { data with
      zones := data.zones.set domain (zone ++ [r]), nextId := data.nextId + 1 } := by
  have hentry := Dict.mem_of_get? hzone
  obtain ⟨hnodup, hbound⟩ := h.ids _ hentry
  refine h.setZone hzone ?_ ?_ ?_ (Nat.le_succ _)
  · exact List.pairwise_append.mpr ⟨h.zones _ hentry, List.pairwise_singleton _ _,
      fun o ho r' hr' => List.mem_singleton.mp hr' ▸ hcompatible o ho⟩
  · rw [List.map_append]
    refine List.nodup_append.mpr ⟨hnodup, List.nodup_singleton _, ?_⟩
    intro a ha b hb heq
    obtain ⟨o, ho, rfl⟩ := List.mem_map.mp ha
    rw [List.map_singleton, List.mem_singleton] at hb
    have := hbound o ho
    omega
  · refine List.forall_mem_append.mpr ⟨fun o ho => Nat.lt_succ_of_lt (hbound o ho), ?_⟩
    exact List.forall_mem_singleton.mpr (by omega)

/-- Records fewer. -/
theorem Inv.keepStored (h : Inv demo data) (hzone : data.zones.get? domain = some zone)
    (hsub : zone'.Sublist zone) :
    Inv demo { data with zones := data.zones.set domain zone' } := by
  have hentry := Dict.mem_of_get? hzone
  obtain ⟨hnodup, hbound⟩ := h.ids _ hentry
  exact h.setZone hzone ((h.zones _ hentry).sublist hsub) ((hsub.map _).nodup hnodup)
    (fun r hr => hbound r (hsub.subset hr)) (Nat.le_refl _)

/-- What the check of conflicts says of a record with this type. -/
theorem compatible_of_checked {others : Zone} {normal : DnsRules.Normal}
    (h : checkConflicts others normal = .ok ⟨⟩) (hkind : r.kind = normal.kind)
    (hname : r.name = normal.name) (hvalue : r.value = normal.value)
    (hpriority : r.priority = normal.priority) : ∀ o ∈ others, Compatible o r := by
  obtain ⟨_, hcname, h⟩ := bind_eq_ok.mp h
  obtain ⟨_, hother, h⟩ := bind_eq_ok.mp h
  have hcname := ensure_eq_ok.mp hcname
  have hother := ensure_eq_ok.mp hother
  have hsame := ensure_eq_ok.mp h
  intro o ho heq
  rw [hname] at heq
  rw [hkind, hvalue, hpriority]
  have hnot : normal.kind ≠ .CNAME := fun hk => hcname ⟨hk, o, ho, heq⟩
  exact ⟨fun hk => hother ⟨hnot, o, ho, heq, hk⟩, hnot,
    fun hno => hsame ⟨o, ho, heq, hno.1, hno.2.1, hno.2.2⟩⟩

/-! ### Records -/

theorem zone_eq_ok (h : demo.zone data domain = .ok zone) : data.zones.get? domain = some zone := by
  unfold Demo.zone at h
  split at h
  · next found hfound => rw [hfound, (pure_eq_ok _ _).mp h]
  · split at h
    · cases h
    · cases h

variable {record : Record} {id : ℕ}

theorem inv_addRecord (hinv : Inv demo data)
    (h : demo.addRecord data domain record = .ok data') : Inv demo data' := by
  obtain ⟨zone, hzone, h⟩ := bind_eq_ok.mp h
  obtain ⟨_, -, h⟩ := bind_eq_ok.mp h
  obtain ⟨normal, -, h⟩ := bind_eq_ok.mp h
  obtain ⟨_, hconflicts, h⟩ := bind_eq_ok.mp h
  obtain rfl := (pure_eq_ok _ _).mp h
  exact hinv.addStored (zone_eq_ok hzone) rfl (compatible_of_checked hconflicts rfl rfl rfl rfl)

theorem inv_deleteRecord (hinv : Inv demo data)
    (h : demo.deleteRecord data domain id = .ok data') : Inv demo data' := by
  obtain ⟨zone, hzone, h⟩ := bind_eq_ok.mp h
  obtain ⟨_, -, h⟩ := bind_eq_ok.mp h
  obtain rfl := (pure_eq_ok _ _).mp h
  exact hinv.keepStored (zone_eq_ok hzone) List.filter_sublist

/-- A record that is written over with one that goes with the others. -/
theorem pairwise_replace (hids : (zone.map Stored.id).Nodup) (hpair : zone.Pairwise Compatible)
    (hr : r ∈ zone) (hid : r'.id = r.id)
    (hcompatible : ∀ o ∈ zone.filter (fun o => o.id ≠ r.id), Compatible o r') :
    (zone.map fun o => if o = r then r' else o).Pairwise Compatible
      ∧ (zone.map fun o => if o = r then r' else o).map Stored.id = zone.map Stored.id := by
  obtain ⟨front, back, rfl⟩ := List.append_of_mem hr
  have hothers : ∀ o ∈ front ++ back, o.id ≠ r.id := by
    rw [List.map_append, List.map_cons, List.nodup_middle, List.nodup_cons,
      ← List.map_append] at hids
    intro o ho heq
    refine hids.1 ?_
    rw [← heq]
    exact List.mem_map_of_mem ho
  have hkeep : ∀ l : List Stored, (∀ o ∈ l, o.id ≠ r.id) →
      (l.map fun o => if o = r then r' else o) = l := by
    intro l hl
    conv_rhs => rw [← List.map_id l]
    refine List.map_congr_left fun o ho => if_neg ?_
    rintro rfl
    exact hl _ ho rfl
  rw [List.forall_mem_append] at hothers
  rw [List.map_append, List.map_cons, if_pos rfl, hkeep front hothers.1, hkeep back hothers.2]
  refine ⟨?_, by simp [hid]⟩
  rw [List.pairwise_middle Compatible.symm, List.pairwise_cons] at hpair ⊢
  refine ⟨fun o ho => (hcompatible o ?_).symm, hpair.2⟩
  have hne : o.id ≠ r.id := (List.mem_append.mp ho).elim (hothers.1 o) (hothers.2 o)
  refine List.mem_filter.mpr ⟨?_, decide_eq_true hne⟩
  exact (List.mem_append.mp ho).elim (List.mem_append_left _)
    fun hb => List.mem_append_right _ (List.mem_cons_of_mem _ hb)

/-- The type of a record is the one that is read. -/
theorem kind_of_normalized {kind : Kind} {normal : DnsRules.Normal}
    (h : normalizeRecord demo.casing domain record = .ok normal)
    (hkind : demo.casing.upper record.type = kind.text) : normal.kind = kind := by
  have hread := (normalizeRecord_eq_ok.mp h).1
  have htext : checkKind kind.text = .ok kind := by cases kind <;> decide
  rw [hkind, htext] at hread
  exact (Except.ok.inj hread).symm

theorem inv_updateRecord (hinv : Inv demo data)
    (h : demo.updateRecord data domain id record = .ok data') : Inv demo data' := by
  obtain ⟨zone, hzone, h⟩ := bind_eq_ok.mp h
  have hzone := zone_eq_ok hzone
  split at h
  · cases h
  · next current hfind =>
    obtain ⟨_, htype, h⟩ := bind_eq_ok.mp h
    obtain ⟨normal, hnormal, h⟩ := bind_eq_ok.mp h
    obtain ⟨_, hconflicts, h⟩ := bind_eq_ok.mp h
    obtain rfl := (pure_eq_ok _ _).mp h
    have hkind := kind_of_normalized hnormal (ensure_eq_ok.mp htype)
    have hcurrent := List.mem_of_find?_eq_some hfind
    have hentry := Dict.mem_of_get? hzone
    obtain ⟨hnodup, hbound⟩ := hinv.ids _ hentry
    have hid : (current.withNormal normal).id = current.id := rfl
    obtain ⟨hpair, hids⟩ := pairwise_replace hnodup (hinv.zones _ hentry) hcurrent hid
      (compatible_of_checked hconflicts hkind.symm rfl rfl rfl)
    refine hinv.setZone hzone hpair (by rw [hids]; exact hnodup) ?_ (Nat.le_refl _)
    intro o ho
    obtain ⟨o', ho', rfl⟩ := List.mem_map.mp ho
    split
    · exact hbound current hcurrent
    · exact hbound o' ho'

/-! ### Adding a domain -/

/-- The other data of the file do not matter: a subdomain more, under a domain with a zone. -/
theorem Inv.addSubdomain (h : Inv demo data) (hnew : entry.name ∉ demo.all data)
    (hkind : entry.kind = .subdomain)
    (hunder : ∃ p ∈ demo.all data, p ∈ data.zones.keys ∧ IsUnder p entry.name) :
    Inv demo { data with domains := data.domains ++ [entry] } := by
  have hall : demo.all { data with domains := data.domains ++ [entry] }
      = demo.all data ++ [entry.name] := by
    rw [Demo.all, Demo.all, List.map_append]
    rfl
  have howns : ∀ k, Owns demo { data with domains := data.domains ++ [entry] } k
      ↔ Owns demo data k := by
    intro k
    refine or_congr_right ⟨?_, ?_⟩
    · rintro ⟨d, hd, hname, hsub⟩
      rcases List.mem_append.mp hd with hd | hd
      · exact ⟨d, hd, hname, hsub⟩
      · exact absurd (List.mem_singleton.mp hd ▸ hkind) hsub
    · rintro ⟨d, hd, hname⟩
      exact ⟨d, List.mem_append_left _ hd, hname⟩
  constructor
  · constructor
    · exact h.zones
    · intro d hd hsub
      rw [hall]
      rcases List.mem_append.mp hd with hd | hd
      · obtain ⟨p, hp, hkeys⟩ := h.subdomains d hd hsub
        exact ⟨p, List.mem_append_left _ hp, hkeys⟩
      · obtain rfl := List.mem_singleton.mp hd
        obtain ⟨p, hp, hkeys⟩ := hunder
        exact ⟨p, List.mem_append_left _ hp, hkeys⟩
    · rw [hall]
      exact List.nodup_append.mpr ⟨h.once, List.nodup_singleton _, fun a ha b hb heq =>
        hnew (List.mem_singleton.mp hb ▸ heq ▸ ha)⟩
  · exact h.unique
  · exact h.ids
  · exact fun k hk => (howns k).mpr (h.owned k hk)
  · exact fun k hne hk => h.zoned k hne ((howns k).mp hk)

/-- A domain more that has a zone of its own. -/
theorem Inv.addOwner (h : Inv demo data) (hnew : entry.name ∉ demo.all data)
    (hkind : entry.kind ≠ .subdomain) : Inv demo (data.withDomain entry none) := by
  have hall : demo.all (data.withDomain entry none) = demo.all data ++ [entry.name] := by
    rw [Demo.all, Demo.all, Data.withDomain, List.map_append]
    rfl
  have howns : ∀ k, Owns demo (data.withDomain entry none) k
      ↔ Owns demo data k ∨ k = entry.name := by
    intro k
    rw [Owns, Owns, or_assoc]
    refine or_congr_right ⟨?_, ?_⟩
    · rintro ⟨d, hd, hname, hsub⟩
      rcases List.mem_append.mp hd with hd | hd
      · exact .inl ⟨d, hd, hname, hsub⟩
      · exact .inr (List.mem_singleton.mp hd ▸ hname.symm)
    · rintro (⟨d, hd, hname⟩ | rfl)
      · exact ⟨d, List.mem_append_left _ hd, hname⟩
      · exact ⟨entry, List.mem_append_right _ List.mem_cons_self, rfl, hkind⟩
  constructor
  · constructor
    · intro e he
      rcases Dict.mem_of_mem_set he with rfl | he
      · exact pairwise_defaultZone _ _
      · exact h.zones e he
    · intro d hd hsub
      rcases List.mem_append.mp hd with hd | hd
      · obtain ⟨p, hp, hkeys, hunder⟩ := h.subdomains d hd hsub
        refine ⟨p, ?_, Dict.mem_keys_set.mpr (.inr hkeys), hunder⟩
        rw [hall]
        exact List.mem_append_left _ hp
      · exact absurd (List.mem_singleton.mp hd ▸ hsub) hkind
    · rw [hall]
      exact List.nodup_append.mpr ⟨h.once, List.nodup_singleton _, fun a ha b hb heq =>
        hnew (List.mem_singleton.mp hb ▸ heq ▸ ha)⟩
  · exact h.unique.set _ _
  · intro e he
    rcases Dict.mem_of_mem_set he with rfl | he
    · exact ids_defaultZone _ _
    · obtain ⟨hnodup, hbound⟩ := h.ids e he
      exact ⟨hnodup, fun r hr => lt_of_lt_of_le (hbound r hr) (Nat.le_add_right _ 5)⟩
  · intro k hk
    rcases Dict.mem_keys_set.mp hk with rfl | hk
    · exact (howns _).mpr (.inr rfl)
    · exact (howns k).mpr (.inl (h.owned k hk))
  · intro k hne hk
    rcases (howns k).mp hk with hk | rfl
    · exact Dict.mem_keys_set.mpr (.inr (h.zoned k hne hk))
    · exact Dict.mem_keys_set.mpr (.inl rfl)

theorem domainKind_eq_subdomain {kind : String} :
    domainKind kind = .ok .subdomain ↔ kind = "subdomain" := by
  unfold domainKind
  split
  · next h => simp [h]
  · split
    · next h => simp [h]
    · next hsub =>
      split
      · next h => simp [h]
      · simp [hsub]

/-- What is known of a domain that is added. -/
theorem addDomain_eq_ok {kind documentRoot : String} {made : Except Err Unit}
    (h : demo.addDomain data name kind documentRoot made = .ok data') :
    ∃ cleaned domainKind root place, cleanDomain demo.casing name = .ok cleaned
      ∧ DemoDomains.domainKind kind = .ok domainKind ∧ cleaned ∉ demo.all data
      ∧ (domainKind = .subdomain → ∃ parent, place = some parent
        ∧ parentOf (demo.all data) cleaned = some parent)
      ∧ (domainKind ≠ .subdomain → place = none)
      ∧ data' = data.withDomain ⟨cleaned, domainKind, root⟩ place := by
  obtain ⟨cleaned, hcleaned, h⟩ := bind_eq_ok.mp h
  obtain ⟨domainKind, hkind, h⟩ := bind_eq_ok.mp h
  obtain ⟨_, hnew, h⟩ := bind_eq_ok.mp h
  obtain ⟨place, hplace, h⟩ := bind_eq_ok.mp h
  obtain ⟨root, -, h⟩ := bind_eq_ok.mp h
  refine ⟨cleaned, domainKind, root, place, hcleaned, hkind, ensure_eq_ok.mp hnew, fun hsub => ?_,
    fun hsub => ?_, ((pure_eq_ok _ _).mp h).symm⟩
  · rw [Demo.checkPlace, if_pos hsub] at hplace
    split at hplace
    · cases hplace
    · next parent hparent =>
      obtain ⟨_, -, hplace⟩ := bind_eq_ok.mp hplace
      exact ⟨parent, ((pure_eq_ok _ _).mp hplace).symm, hparent⟩
  · rw [Demo.checkPlace, if_neg hsub] at hplace
    obtain ⟨_, -, hplace⟩ := bind_eq_ok.mp hplace
    obtain ⟨_, -, hplace⟩ := bind_eq_ok.mp hplace
    exact ((pure_eq_ok _ _).mp hplace).symm

/-- The address of a subdomain goes with a record exactly where the name is no CNAME's and the
    address is not there. -/
theorem compatible_subdomainRecord {relative : String} :
    Compatible r (subdomainRecord n relative) ↔ (r.name = relative →
      r.kind ≠ .CNAME ∧ ¬(r.kind = .A ∧ r.value = SERVER_IP ∧ r.priority = none)) := by
  have hnot : Kind.A ≠ .CNAME := by decide
  exact forall_congr' fun _ => and_congr_right fun _ => and_iff_right hnot

/-- **A domain that is added keeps the file sound exactly where it is undisturbed.** -/
theorem addDomain_iff {kind documentRoot : String} {made : Except Err Unit} (hinv : Inv demo data)
    (h : demo.addDomain data name kind documentRoot made = .ok data') :
    (Undisturbed demo data (.addDomain name kind documentRoot made) → Inv demo data')
      ∧ (Sound demo data' → Undisturbed demo data (.addDomain name kind documentRoot made)) := by
  obtain ⟨cleaned, domainKind, root, place, hcleaned, hkind, hnew, hsub, howner, rfl⟩ :=
    addDomain_eq_ok h
  by_cases hsubdomain : domainKind = .subdomain
  · subst hsubdomain
    obtain ⟨parent, rfl, hparent⟩ := hsub rfl
    obtain ⟨hmem, hne, hunder⟩ := parentOf_eq_some hparent
    -- the subdomain is under a domain with a zone: its parent, or the one above that
    have habove : ∃ p ∈ demo.all data, p ∈ data.zones.keys ∧ IsUnder p cleaned := by
      by_cases howns : Owns demo data parent
      · exact ⟨parent, hmem, hinv.zoned parent hne howns, hunder⟩
      · rw [Owns, not_or] at howns
        obtain ⟨d, hd, rfl⟩ := List.mem_map.mp ((List.mem_cons.mp hmem).resolve_left howns.1)
        have hdsub : d.kind = .subdomain := by
          by_contra hno
          exact howns.2 ⟨d, hd, rfl, hno⟩
        obtain ⟨p, hp, hpkeys, hpunder⟩ := hinv.subdomains d hd hdsub
        exact ⟨p, hp, hpkeys, hunder.trans hpunder⟩
    have hmore : Inv demo { data with domains := data.domains ++ [⟨cleaned, .subdomain, root⟩] } :=
      hinv.addSubdomain hnew rfl habove
    cases hzone : data.zones.get? parent with
    | none =>
      rw [Data.withDomain, hzone]
      refine ⟨fun _ => hmore, fun _ _ cleaned' parent' zone hcleaned' hparent' hzone' => ?_⟩
      obtain rfl := Except.ok.inj (hcleaned.symm.trans hcleaned')
      obtain rfl := Option.some.inj (hparent.symm.trans hparent')
      cases hzone.symm.trans hzone'
    | some zone =>
      rw [Data.withDomain, hzone]
      constructor
      · intro hundisturbed
        exact hmore.addStored hzone rfl fun o ho => compatible_subdomainRecord.mpr
          (hundisturbed (domainKind_eq_subdomain.mp hkind) cleaned parent zone hcleaned hparent
            hzone o ho)
      · intro hsound _ cleaned' parent' zone' hcleaned' hparent' hzone' o ho
        obtain rfl := Except.ok.inj (hcleaned.symm.trans hcleaned')
        obtain rfl := Option.some.inj (hparent.symm.trans hparent')
        obtain rfl := Option.some.inj (hzone.symm.trans hzone')
        have hentry := Dict.mem_of_get? (d := data.zones.set parent
          (zone ++ [subdomainRecord data.nextId (relativeTo parent cleaned)])) (k := parent)
          (by rw [Dict.get?_set, if_pos rfl])
        have hpair := hsound.zones _ hentry
        exact compatible_subdomainRecord.mp
          ((List.pairwise_append.mp hpair).2.2 o ho _ List.mem_cons_self)
  · obtain rfl := howner hsubdomain
    refine ⟨fun _ => hinv.addOwner hnew hsubdomain, fun _ hkind' => ?_⟩
    rw [domainKind_eq_subdomain.mpr hkind'] at hkind
    exact absurd (Except.ok.inj hkind).symm hsubdomain

/-! ### Removing a domain -/

theorem find_eq_some (h : demo.find data name = .ok (some entry)) :
    name ≠ demo.primary ∧ entry ∈ data.domains ∧ entry.name = name := by
  unfold Demo.find at h
  split at h
  · cases h
  · next hne =>
    split at h
    · next found hfound =>
      obtain rfl := Option.some.inj ((pure_eq_ok _ _).mp h)
      have hname := List.find?_some hfound
      exact ⟨hne, List.mem_of_find?_eq_some hfound, of_decide_eq_true hname⟩
    · cases h

/-- The domains of other names stay. -/
theorem mem_erased {domains : List Entry} {d : Entry} (h : (domains.map Entry.name).Nodup) :
    (d ∈ domains.eraseP fun d => d.name = name) ↔ d ∈ domains ∧ d.name ≠ name := by
  induction domains with
  | nil => exact ⟨fun hd => absurd hd List.not_mem_nil, fun hd => absurd hd.1 List.not_mem_nil⟩
  | cons e rest ih =>
    rw [List.map_cons, List.nodup_cons] at h
    by_cases he : e.name = name
    · rw [List.eraseP_cons_of_pos (by simpa using he)]
      constructor
      · intro hd
        refine ⟨List.mem_cons_of_mem _ hd, fun hname => h.1 ?_⟩
        rw [he, ← hname]
        exact List.mem_map_of_mem hd
      · rintro ⟨hd, hname⟩
        exact (List.mem_cons.mp hd).resolve_left fun heq => hname (heq ▸ he)
    · rw [List.eraseP_cons_of_neg (by simpa using he), List.mem_cons, List.mem_cons, ih h.2]
      constructor
      · rintro (rfl | ⟨hd, hname⟩)
        · exact ⟨.inl rfl, he⟩
        · exact ⟨.inr hd, hname⟩
      · rintro ⟨rfl | hd, hname⟩
        · exact .inl rfl
        · exact .inr ⟨hd, hname⟩

theorem keys_withoutSubdomain (zones : Dict Zone) :
    (withoutSubdomain name zones).keys = zones.keys := by
  unfold withoutSubdomain Dict.keys
  rw [List.map_map]
  refine List.map_congr_left fun e _ => ?_
  show (if _ then _ else e).1 = e.1
  split <;> rfl

theorem mem_withoutSubdomain {zones : Dict Zone} {e : String × Zone}
    (h : e ∈ withoutSubdomain name zones) : ∃ e' ∈ zones, e.2.Sublist e'.2 := by
  obtain ⟨e', he', rfl⟩ := List.mem_map.mp h
  refine ⟨e', he', ?_⟩
  split
  · exact List.filter_sublist
  · exact List.Sublist.refl _

/-- The zones when the domain is gone. -/
def zonesWithout (entry : Entry) (name : String) (zones : Dict Zone) : Dict Zone :=
  if entry.kind = .subdomain then withoutSubdomain name (zones.delete name) else zones.delete name

theorem keys_zonesWithout (zones : Dict Zone) :
    (zonesWithout entry name zones).keys = (zones.delete name).keys := by
  unfold zonesWithout
  split
  · exact keys_withoutSubdomain _
  · rfl

theorem mem_keys_zonesWithout {zones : Dict Zone} :
    domain ∈ (zonesWithout entry name zones).keys ↔ domain ∈ zones.keys ∧ domain ≠ name := by
  rw [keys_zonesWithout, Dict.delete, Dict.mem_keys_keep, decide_eq_true_eq]

theorem mem_zonesWithout {zones : Dict Zone} {e : String × Zone}
    (h : e ∈ zonesWithout entry name zones) : ∃ e' ∈ zones, e.2.Sublist e'.2 := by
  have hkept : ∀ e ∈ zones.delete name, e ∈ zones := fun e he => (List.mem_filter.mp he).1
  unfold zonesWithout at h
  split at h
  · obtain ⟨e', he', hsub⟩ := mem_withoutSubdomain h
    exact ⟨e', hkept e' he', hsub⟩
  · exact ⟨e, hkept e h, List.Sublist.refl _⟩

theorem removeDomain_eq_ok (h : demo.removeDomain data name = .ok data') :
    ∃ entry ∈ data.domains, entry.name = demo.lookupName name
      ∧ demo.lookupName name ≠ demo.primary
      ∧ data' = { data with
          domains := data.domains.eraseP fun d => d.name = demo.lookupName name
          zones := zonesWithout entry (demo.lookupName name) data.zones } := by
  obtain ⟨found, hfound, h⟩ := bind_eq_ok.mp h
  split at h
  · cases h
  · next entry =>
    obtain ⟨hne, hentry, hname⟩ := find_eq_some hfound
    exact ⟨entry, hentry, hname, hne, ((pure_eq_ok _ _).mp h).symm⟩

/-- **A domain that is removed keeps the file sound exactly where it is undisturbed.** -/
theorem removeDomain_iff (hinv : Inv demo data) (h : demo.removeDomain data name = .ok data') :
    (Undisturbed demo data (.removeDomain name) → Inv demo data')
      ∧ (Sound demo data' → Undisturbed demo data (.removeDomain name)) := by
  obtain ⟨entry, hentry, hname, hne, rfl⟩ := removeDomain_eq_ok h
  generalize hlookup : demo.lookupName name = removed at hname hne ⊢
  have herased : ∀ d, (d ∈ data.domains.eraseP fun d => d.name = removed)
      ↔ d ∈ data.domains ∧ d.name ≠ removed := fun d =>
    mem_erased (List.nodup_cons.mp hinv.once).2
  have howns : ∀ k, Owns demo { data with
      domains := data.domains.eraseP fun d => d.name = removed
      zones := zonesWithout entry removed data.zones } k ↔ Owns demo data k ∧ k ≠ removed := by
    intro k
    constructor
    · rintro (rfl | ⟨d, hd, rfl, hsub⟩)
      · exact ⟨.inl rfl, hne.symm⟩
      · obtain ⟨hd, hdne⟩ := (herased d).mp hd
        exact ⟨.inr ⟨d, hd, rfl, hsub⟩, hdne⟩
    · rintro ⟨rfl | ⟨d, hd, rfl, hsub⟩, hkne⟩
      · exact .inl rfl
      · exact .inr ⟨d, (herased d).mpr ⟨hd, hkne⟩, rfl, hsub⟩
  constructor
  · intro hundisturbed
    constructor
    · constructor
      · intro e he
        obtain ⟨e', he', hsub⟩ := mem_zonesWithout he
        exact (hinv.zones e' he').sublist hsub
      · intro d hd hsub
        obtain ⟨hd, hdne⟩ := (herased d).mp hd
        obtain ⟨z, hz, hzne, hunder⟩ := hundisturbed d hd hsub (hlookup ▸ hdne)
        rw [hlookup] at hzne
        exact ⟨z, ((howns z).mpr ⟨hinv.owned z hz, hzne⟩).mem_all,
          mem_keys_zonesWithout.mpr ⟨hz, hzne⟩, hunder⟩
      · exact (((List.eraseP_sublist).map Entry.name).cons_cons demo.primary).nodup hinv.once
    · show (zonesWithout entry removed data.zones).keys.Nodup
      rw [keys_zonesWithout]
      exact hinv.unique.keep _
    · intro e he
      obtain ⟨e', he', hsub⟩ := mem_zonesWithout he
      obtain ⟨hnodup, hbound⟩ := hinv.ids e' he'
      exact ⟨(hsub.map _).nodup hnodup, fun r hr => hbound r (hsub.subset hr)⟩
    · intro k hk
      obtain ⟨hk, hkne⟩ := mem_keys_zonesWithout.mp hk
      exact (howns k).mpr ⟨hinv.owned k hk, hkne⟩
    · intro k hk hkowns
      obtain ⟨hkowns, hkne⟩ := (howns k).mp hkowns
      exact mem_keys_zonesWithout.mpr ⟨hinv.zoned k hk hkowns, hkne⟩
  · intro hsound d hd hsub hdne
    rw [hlookup] at hdne ⊢
    obtain ⟨p, -, hp, hunder⟩ := hsound.subdomains d ((herased d).mpr ⟨hd, hdne⟩) hsub
    obtain ⟨hp, hpne⟩ := mem_keys_zonesWithout.mp hp
    exact ⟨p, hp, hpne, hunder⟩

/-! ### Runs of calls -/

/-- A new account is sound. -/
theorem inv_initial : Inv demo demo.initial := by
  have hentry : ∀ e ∈ demo.initial.zones, e = (demo.primary, defaultZone demo.primary 0)
      ∧ demo.primary ≠ "" := by
    intro e he
    unfold Demo.initial at he
    split at he
    · cases he
    · next hne => exact ⟨List.mem_singleton.mp he, hne⟩
  constructor
  · constructor
    · intro e he
      rw [(hentry e he).1]
      exact pairwise_defaultZone _ _
    · exact fun d hd => absurd hd List.not_mem_nil
    · exact List.nodup_singleton _
  · unfold Demo.initial Dict.Unique
    split
    · exact List.nodup_nil
    · exact List.nodup_singleton _
  · intro e he
    rw [(hentry e he).1]
    exact ids_defaultZone demo.primary 0
  · intro k hk
    obtain ⟨e, he, rfl⟩ := List.mem_map.mp hk
    rw [(hentry e he).1]
    exact .inl rfl
  · rintro k hne (rfl | ⟨d, hd, -⟩)
    · unfold Demo.initial
      rw [if_neg hne]
      exact List.mem_singleton_self _
    · cases hd

/-- **A call keeps the file sound exactly where it is undisturbed.** -/
theorem exec_iff {call : Call} (hinv : Inv demo data) (h : demo.exec data call = .ok data') :
    (Undisturbed demo data call → Inv demo data')
      ∧ (Sound demo data' → Undisturbed demo data call) := by
  cases call with
  | addDomain name kind documentRoot made => exact addDomain_iff hinv h
  | removeDomain name => exact removeDomain_iff hinv h
  | addRecord domain record => exact ⟨fun _ => inv_addRecord hinv h, fun _ => trivial⟩
  | updateRecord domain id record => exact ⟨fun _ => inv_updateRecord hinv h, fun _ => trivial⟩
  | deleteRecord domain id => exact ⟨fun _ => inv_deleteRecord hinv h, fun _ => trivial⟩

theorem commits_iff {call : Call} {out : List PUnit} :
    demo.machine.Commits call data data' out ↔ demo.exec data call = .ok data' ∧ out = [] := by
  show (demo.exec data call).map _ = _ ↔ _
  rw [map_eq_ok]
  constructor
  · rintro ⟨found, hfound, heq⟩
    obtain ⟨rfl, rfl⟩ := Prod.mk.inj heq
    exact ⟨hfound, rfl⟩
  · rintro ⟨hfound, rfl⟩
    exact ⟨data', hfound, rfl⟩

variable (demo)

/-- **Every state of a run of calls on a new account is sound exactly where every call that is
    carried out is undisturbed.** -/
theorem always_sound_iff (calls : List Call) :
    demo.machine.Always (Sound demo) calls demo.initial
      ↔ demo.machine.EachStep (fun data call _ => Undisturbed demo data call) calls
          demo.initial :=
  Machine.always_iff_eachStep (fun _ hinv => hinv.toSound)
    (fun _ _ _ _ hinv h => (exec_iff hinv (commits_iff.mp h).1).1)
    (fun _ _ _ _ hinv h => (exec_iff hinv (commits_iff.mp h).1).2) calls _ inv_initial

/-- An account whose own domain is `example.com`. -/
def exampleCom : Demo := ⟨"example.com", asciiCasing⟩

/-- **A subdomain `www` puts its address beside the CNAME `www` that every zone starts with.** -/
theorem not_always_sound_www : ¬exampleCom.machine.Always (Sound exampleCom)
    [.addDomain "www.example.com" "subdomain" "" (.ok ⟨⟩)] exampleCom.initial := by
  intro h
  have hpair := h.last.zones ("example.com", defaultZone "example.com" 0
    ++ [subdomainRecord 5 "www"]) (by decide +kernel)
  have hcname := (List.pairwise_append.mp hpair).2.2
    ⟨1, .CNAME, "www", "example.com", 14400, none⟩ (by decide) _ List.mem_cons_self rfl
  exact hcname.1 rfl

/-- **The subdomains of a domain that is removed stay without a zone.** -/
theorem not_always_sound_orphan : ¬exampleCom.machine.Always (Sound exampleCom)
    [.addDomain "b.com" "addon" "" (.ok ⟨⟩), .addDomain "x.b.com" "subdomain" "" (.ok ⟨⟩),
      .removeDomain "b.com"] exampleCom.initial := by
  intro h
  obtain ⟨p, -, hp, hunder⟩ := h.last.subdomains
    ⟨"x.b.com", .subdomain, ["public_html", "x.b.com"]⟩ (by decide +kernel) rfl
  have hkeys : (exampleCom.machine.run
      [.addDomain "b.com" "addon" "" (.ok ⟨⟩), .addDomain "x.b.com" "subdomain" "" (.ok ⟨⟩),
        .removeDomain "b.com"] exampleCom.initial).zones.keys = ["example.com"] := by
    decide +kernel
  rw [hkeys] at hp
  obtain rfl := List.mem_singleton.mp hp
  exact absurd hunder (by decide +kernel)

end

end WPanel.Hosting.DemoDomains
