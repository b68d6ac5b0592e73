import WPanel.Lib.Interleaving
import WPanel.Storefronts.Catalog

namespace WPanel.Storefronts

open WPanel.Lib

/-!
# The cache of the plugin

The WordPress plugin keeps the catalog of its storefront in a cache, which the pings of the portal
clear.  Page views, pings and the work of staff overlap in any order.

* `plugin` — page views (`HPC_API_Client::get_products`) and pings (`HPC_Webhook::handle`) as
  workers, staff and the end of a cache entry's time as their surroundings;
* `Kept` — every change of the answer was announced, and after the answer to a ping nothing older
  is shown;
* `Timely` — a ping is handled while no page view still has to store what it fetched before the
  change, and a saved category keeps what is shown of it;
* `always_kept` — in a run of timely steps the first holds throughout.
-/

/-! ### The workers -/

/-- What page views, pings and staff share. -/
structure Site where
  portal : Portal := {}
  /-- The catalogs that the endpoint has returned for the storefront, the newest last. -/
  past : List (List ShownProduct)
  /-- The pings, each with the number of the change it was queued after. -/
  pings : List (Ping × ℕ) := []
  /-- The products in the plugin's cache. -/
  cache : Option (List ShownProduct) := none
  /-- The last change whose ping was answered with ok. -/
  answered : ℕ := 0

/-- The number of the last change. -/
def Site.changes (site : Site) : ℕ := site.past.length - 1

inductive Worker where
  /-- A page view that started after the answer for the change `since`. -/
  | started (since : ℕ)
  /-- Nothing was cached, or the cache was to be passed over. -/
  | fetching (since : ℕ)
  /-- The endpoint has returned the catalog after the change `at_`. -/
  | fetched (since at_ : ℕ) (catalog : List ShownProduct)
  | showing (since : ℕ) (catalog : List ShownProduct)
  /-- A ping for the change `change` was received, and its signature is valid. -/
  | received (change : ℕ)
  | cleared (change : ℕ)
  | answered (change : ℕ)
  /-- The request was cut off. -/
  | dead

/-- A worker goes on, or its request is cut off. -/
inductive Move where
  | go
  | die

inductive Start where
  | view (forceRefresh : Bool)
  /-- A queued ping is sent, perhaps once more. -/
  | ping (number : ℕ)

inductive Outside where
  | staff (manages : Bool) (now : ℕ) (call : StaffCall)
  /-- The time of the cache entry is over, or the cache was cleared by hand. -/
  | drop

/-- The portal commits: a new answer of the endpoint is the next change. -/
def Site.commit (env : Env) (site : Site) (portal : Portal) (pings : List Ping) : Site :=
  let past := if portal.catalog env = site.portal.catalog env then site.past
    else site.past ++ [portal.catalog env]
  { site with
    portal, past, pings := site.pings ++ pings.map fun ping => (ping, past.length - 1) }

def start (env : Env) : Start → Site → Except Err (Site × Worker)
  | .view forceRefresh, site =>
    .ok (site, if forceRefresh then .fetching site.answered else .started site.answered)
  | .ping number, site =>
    match site.pings[number]? with
    | some (ping, change) =>
      if ping.storefront = env.front then .ok (site, .received change)
      else .error (.unexpected "another storefront")
    | none => .error (.doesNotExist "StorefrontWebhookDelivery")

/-- The next step of a worker that goes on. -/
def Worker.next (env : Env) (site : Site) : Worker → Except Err (Site × Worker)
  | .started since =>
    match site.cache with
    | some catalog => .ok (site, .showing since catalog)
    | none => .ok (site, .fetching since)
  | .fetching since => .ok (site, .fetched since site.changes (site.portal.catalog env))
  | .fetched since _ catalog => .ok ({ site with cache := some catalog }, .showing since catalog)
  | .received change => .ok ({ site with cache := none }, .cleared change)
  | .cleared change =>
    .ok ({ site with answered := max site.answered change }, .answered change)
  | .showing _ _ => .error (.unexpected "shown")
  | .answered _ => .error (.unexpected "answered")
  | .dead => .error (.unexpected "cut off")

def step (env : Env) : Move → Site → Worker → Except Err (Site × Worker)
  | .go, site, worker => worker.next env site
  | .die, site, _ => .ok (site, .dead)

def outside (env : Env) : Outside → Site → Except Err Site
  | .staff manages now call, site => do
    let (portal, pings) ← call.exec env manages now site.portal
    return site.commit env portal pings
  | .drop, site => .ok { site with cache := none }

/-- The plugin and the portal. -/
def plugin (env : Env) : Interleaving Site Worker Start Move Outside Err where
  start := start env
  step := step env
  outside := outside env
  absent := .unexpected "worker"

/-- Before anything was sold. -/
def opening : System Site Worker := ⟨{ past := [[]] }, {}⟩

/-! ### What is asked of a run -/

/-- The endpoint has returned this catalog since the change `change`. -/
def Site.Since (site : Site) (change : ℕ) (catalog : List ShownProduct) : Prop :=
  ∃ k, change ≤ k ∧ site.past[k]? = some catalog

/-- **Every change is announced, and nothing older than an answered change is shown.** -/
structure Kept (env : Env) (s : System Site Worker) : Prop where
  /-- Every change of the answer has queued a ping. -/
  announced : ∀ change, 0 < change → change ≤ s.shared.changes →
    ∃ ping, (ping, change) ∈ s.shared.pings ∧ ping.storefront = env.front
  shown : ∀ i since catalog, s.workers.get? i = some (.showing since catalog) →
    s.shared.Since since catalog
  /-- A page view that starts now finds nothing older either. -/
  fresh : ∀ catalog, s.shared.cache = some catalog → s.shared.Since s.shared.answered catalog

/-- The page view has fetched the catalog before the change, and still has to store it. -/
def Worker.HoldsOlder (change : ℕ) : Worker → Prop
  | .fetched _ at_ _ => at_ < change
  | _ => False

instance (change : ℕ) (worker : Worker) : Decidable (worker.HoldsOlder change) :=
  match worker with
  | .fetched _ at_ _ => inferInstanceAs (Decidable (at_ < change))
  | .started _ | .fetching _ | .showing _ _ | .received _ => inferInstanceAs (Decidable False)
  | .cleared _ | .answered _ | .dead => inferInstanceAs (Decidable False)

/-- When the worker clears the cache for the ping of a change, no page view still has to store what
    it fetched before that change. -/
def Worker.HandlesInTime (s : System Site Worker) : Worker → Prop
  | .received change => s.workers.Forall fun _ other => ¬other.HoldsOlder change
  | _ => True

instance (s : System Site Worker) (worker : Worker) : Decidable (worker.HandlesInTime s) :=
  match worker with
  | .received change =>
    inferInstanceAs (Decidable (s.workers.Forall fun _ other => ¬other.HoldsOlder change))
  | .started _ | .fetching _ | .fetched _ _ _ | .showing _ _ => isTrue trivial
  | .cleared _ | .answered _ | .dead => isTrue trivial

/-- Pings are handled in time, and a saved category keeps what is shown of it. -/
def Timely (env : Env) (s : System Site Worker) : Turn Start Move Outside → Prop
  | .step i .go => ∀ worker ∈ s.workers.get? i, worker.HandlesInTime s
  | .outside (.staff _ _ (.saveCategory pk data)) => KeepsLabels env s.shared.portal pk data
  | _ => True

instance (env : Env) (s : System Site Worker) (turn : Turn Start Move Outside) :
    Decidable (Timely env s turn) :=
  match turn with
  | .step i .go =>
    inferInstanceAs (Decidable (∀ worker ∈ s.workers.get? i, worker.HandlesInTime s))
  | .outside (.staff _ _ (.saveCategory pk data)) =>
    inferInstanceAs (Decidable (KeepsLabels env s.shared.portal pk data))
  | .outside (.staff _ _ (.change _)) | .outside (.staff _ _ (.createCategory _ _))
  | .outside (.staff _ _ (.deleteCategory _ _)) | .outside (.staff _ _ (.publishProduct _ _ _))
  | .outside (.staff _ _ (.unpublishProduct _ _)) => isTrue trivial
  | .start _ | .step _ .die | .outside .drop => isTrue trivial

/-! ### One step -/

section

variable {env : Env} {s s' : System Site Worker} {site site' : Site}

/-- What holds of a page view or a ping on its way. -/
def Worker.Valid (site : Site) : Worker → Prop
  | .started since => since ≤ site.answered
  | .fetching since => since ≤ site.answered
  | .fetched since at_ catalog => since ≤ at_ ∧ site.Since at_ catalog
  | .showing since catalog => site.Since since catalog
  | .received change => change ≤ site.changes
  | .cleared change => change ≤ site.changes
  | .answered _ => True
  | .dead => True

/-- What holds of the portal. -/
structure Site.Valid (env : Env) (site : Site) : Prop where
  filed : Filed site.portal
  current : site.past.getLast? = some (site.portal.catalog env)
  answered : site.answered ≤ site.changes
  tags : ∀ ping change, (ping, change) ∈ site.pings → change ≤ site.changes
  announced : ∀ change, 0 < change → change ≤ site.changes →
    ∃ ping, (ping, change) ∈ site.pings ∧ ping.storefront = env.front

/-- The ping of the change was answered last, or the cache was cleared for it. -/
def Due (s : System Site Worker) (change : ℕ) : Prop :=
  change = s.shared.answered ∨ ∃ i, s.workers.get? i = some (.cleared change)

/-- The invariant: nothing older than a change whose ping was handled is in the cache, or is still
    to be stored there. -/
structure Valid (env : Env) (s : System Site Worker) : Prop where
  site : s.shared.Valid env
  workers : s.workers.Forall fun _ worker => worker.Valid s.shared
  cache : ∀ change, Due s change → ∀ catalog ∈ s.shared.cache, s.shared.Since change catalog
  stores : ∀ change, Due s change →
    s.workers.Forall fun _ worker => ¬worker.HoldsOlder change

theorem Valid.kept (h : Valid env s) : Kept env s :=
  ⟨h.site.announced, fun i _ _ hworker => h.workers i _ hworker, fun catalog hcatalog =>
    h.cache _ (.inl rfl) catalog hcatalog⟩

/-- No ping was handled for a change that is still to come. -/
theorem Valid.due_le (h : Valid env s) {change : ℕ} (hdue : Due s change) :
    change ≤ s.shared.changes := by
  rcases hdue with rfl | ⟨i, hcleared⟩
  · exact h.site.answered
  · exact h.workers i _ hcleared

theorem Site.Since.mono {n m : ℕ} {catalog : List ShownProduct} (h : site.Since n catalog)
    (hle : m ≤ n) : site.Since m catalog :=
  h.imp fun _ hk => ⟨hle.trans hk.1, hk.2⟩

/-- What the endpoint returns now, it has returned since the last change. -/
theorem Site.Valid.since_catalog (h : site.Valid env) :
    site.Since site.changes (site.portal.catalog env) :=
  ⟨site.changes, Nat.le_refl _, by rw [← h.current, List.getLast?_eq_getElem?]; rfl⟩

/-- Nothing but the numbers of changes and answers matters to a worker. -/
theorem Worker.Valid.mono {worker : Worker} (h : worker.Valid site)
    (hanswered : site.answered ≤ site'.answered) (hchanges : site.changes ≤ site'.changes)
    (hsince : ∀ n catalog, site.Since n catalog → site'.Since n catalog) :
    worker.Valid site' := by
  cases worker with
  | started since => exact Nat.le_trans h hanswered
  | fetching since => exact Nat.le_trans h hanswered
  | fetched since at_ catalog => exact ⟨h.1, hsince at_ catalog h.2⟩
  | showing since catalog => exact hsince since catalog h
  | received change => exact Nat.le_trans h hchanges
  | cleared change => exact Nat.le_trans h hchanges
  | answered change => trivial
  | dead => trivial

/-! #### A commit -/

/-- A commit that does not change the answer is no change. -/
theorem commit_same {portal : Portal} {pings : List Ping}
    (hsame : portal.catalog env = site.portal.catalog env) :
    site.commit env portal pings = { site with
      portal, pings := site.pings ++ pings.map fun ping => (ping, site.changes) } := by
  unfold Site.commit Site.changes
  rw [if_pos hsame]

/-- The site after the next change. -/
def Site.next (site : Site) (env : Env) (portal : Portal) (pings : List Ping) : Site :=
  { site with
    portal
    past := site.past ++ [portal.catalog env]
    pings := site.pings ++ pings.map fun ping => (ping, site.changes + 1) }

theorem changes_next (hsite : site.Valid env) (portal : Portal) (pings : List Ping) :
    (site.next env portal pings).changes = site.changes + 1 := by
  have hlength : 0 < site.past.length := by
    rw [List.length_pos_iff]
    intro hnil
    have hcurrent := hsite.current
    rw [hnil] at hcurrent
    cases hcurrent
  unfold Site.changes Site.next
  rw [List.length_append, List.length_singleton, Nat.add_sub_cancel, Nat.sub_add_cancel hlength]

/-- A commit that changes the answer is the next change. -/
theorem commit_changed {portal : Portal} {pings : List Ping} (hsite : site.Valid env)
    (hchanged : portal.catalog env ≠ site.portal.catalog env) :
    site.commit env portal pings = site.next env portal pings := by
  have hnext := changes_next hsite portal pings
  unfold Site.changes Site.next at hnext
  unfold Site.commit Site.next
  rw [if_neg hchanged]
  dsimp only at hnext ⊢
  rw [hnext]
  rfl

theorem since_next {portal : Portal} {pings : List Ping} {n : ℕ} {catalog : List ShownProduct}
    (h : site.Since n catalog) : (site.next env portal pings).Since n catalog := by
  obtain ⟨k, hle, hk⟩ := h
  refine ⟨k, hle, ?_⟩
  show (site.past ++ [portal.catalog env])[k]? = some catalog
  rw [List.getElem?_append_left (List.getElem?_eq_some_iff.mp hk).1]
  exact hk

/-- A change that queues a ping keeps the invariant. -/
private theorem valid_next {portal : Portal} {pings : List Ping} (h : Valid env s)
    (hfiled : Filed portal) (hannounced : Announced env.front pings) :
    Valid env { s with shared := s.shared.next env portal pings } := by
  have hchanges := changes_next h.site portal pings
  refine ⟨⟨hfiled, List.getLast?_concat, ?_, fun ping change hmem => ?_,
    fun change hpos hle => ?_⟩,
    fun i worker hworker => (h.workers i worker hworker).mono (Nat.le_refl _) ?_
      fun _ _ => since_next,
    fun change hdue catalog hcatalog => since_next (h.cache change hdue catalog hcatalog),
    fun change hdue => h.stores change hdue⟩
  · rw [hchanges]
    exact Nat.le_succ_of_le h.site.answered
  · rw [hchanges]
    rcases List.mem_append.mp hmem with hold | hnew
    · exact Nat.le_succ_of_le (h.site.tags ping change hold)
    · obtain ⟨_, _, heq⟩ := List.mem_map.mp hnew
      cases heq
      exact Nat.le_refl _
  · rw [hchanges] at hle
    rcases Nat.lt_or_eq_of_le hle with hlt | rfl
    · obtain ⟨ping, hmem, hfront⟩ := h.site.announced change hpos (Nat.le_of_lt_succ hlt)
      exact ⟨ping, List.mem_append_left _ hmem, hfront⟩
    · obtain ⟨ping, hping, hfront⟩ := hannounced
      exact ⟨ping, List.mem_append_right _ (List.mem_map.mpr ⟨ping, hping, rfl⟩), hfront⟩
  · rw [hchanges]
    exact Nat.le_succ _

private theorem valid_same {portal : Portal} {pings : List Ping} (h : Valid env s)
    (hfiled : Filed portal) (hsame : portal.catalog env = s.shared.portal.catalog env) :
    Valid env { s with shared := s.shared.commit env portal pings } := by
  rw [commit_same hsame]
  refine ⟨⟨hfiled, ?_, h.site.answered, fun ping change hmem => ?_,
    fun change hpos hle => ?_⟩, fun i worker hworker =>
      (h.workers i worker hworker).mono (Nat.le_refl _) (Nat.le_refl _) fun _ _ hsince => hsince,
    fun change hdue => h.cache change hdue, fun change hdue => h.stores change hdue⟩
  · rw [h.site.current, hsame]
  · rcases List.mem_append.mp hmem with hold | hnew
    · exact h.site.tags ping change hold
    · obtain ⟨_, _, heq⟩ := List.mem_map.mp hnew
      cases heq
      exact Nat.le_refl _
  · obtain ⟨ping, hmem, hfront⟩ := h.site.announced change hpos hle
    exact ⟨ping, List.mem_append_left _ hmem, hfront⟩

/-- **A commit** that tells what it changes keeps the invariant. -/
theorem valid_commit {portal : Portal} {pings : List Ping} (h : Valid env s)
    (htold : Told env s.shared.portal portal pings) :
    Valid env { s with shared := s.shared.commit env portal pings } := by
  by_cases hsame : portal.catalog env = s.shared.portal.catalog env
  · exact valid_same h htold.filed hsame
  · rw [commit_changed h.site hsame]
    exact valid_next h htold.filed (htold.told.resolve_left hsame)

/-! #### A worker -/

theorem valid_start {b : Start} {worker : Worker} (h : Valid env s)
    (hstart : start env b s.shared = .ok (site', worker)) :
    site' = s.shared ∧ worker.Valid s.shared ∧ (∀ change, worker ≠ .cleared change)
      ∧ ∀ change, ¬worker.HoldsOlder change := by
  cases b with
  | view forceRefresh =>
    cases forceRefresh with
    | false =>
      cases hstart
      exact ⟨rfl, Nat.le_refl _, nofun, nofun⟩
    | true =>
      cases hstart
      exact ⟨rfl, Nat.le_refl _, nofun, nofun⟩
  | ping number =>
    simp only [start] at hstart
    split at hstart
    · next ping change hget =>
      split at hstart
      · cases hstart
        exact ⟨rfl, h.site.tags ping change (List.mem_of_getElem? hget), nofun, nofun⟩
      · cases hstart
    · cases hstart

/-- A step that handles no ping and fetches nothing. -/
private theorem valid_put {i : ℕ} {w w' : Worker} (h : Valid env s)
    (hw : s.workers.get? i = some w) (hvalid : w'.Valid s.shared)
    (hcleared : ∀ change, w' ≠ .cleared change) (hholds : ∀ change, ¬w'.HoldsOlder change) :
    Valid env ⟨s.shared, s.workers.put i w'⟩ := by
  have hdue : ∀ change, Due ⟨s.shared, s.workers.put i w'⟩ change → Due s change := by
    rintro change (hanswered | ⟨j, hj⟩)
    · exact .inl hanswered
    · rcases Table.get?_put_cases hw hj with ⟨rfl, heq⟩ | ⟨-, hold⟩
      · exact absurd heq.symm (hcleared change)
      · exact .inr ⟨j, hold⟩
  exact ⟨h.site, h.workers.put hvalid, fun change hch => h.cache change (hdue change hch),
    fun change hch => (h.stores change (hdue change hch)).put (hholds change)⟩

/-- **What a step of a worker keeps**, where no older catalog is still to be stored when a ping is
    handled. -/
theorem valid_go {i : ℕ} {w w' : Worker} (h : Valid env s) (hw : s.workers.get? i = some w)
    (hstep : w.next env s.shared = .ok (site', w'))
    (htimely : ∀ change, w = .received change →
      s.workers.Forall fun _ other => ¬other.HoldsOlder change) :
    Valid env ⟨site', s.workers.put i w'⟩ := by
  have hworker := h.workers i w hw
  cases w with
  | started since =>
    simp only [Worker.next] at hstep
    split at hstep
    · next catalog hcache =>
      cases hstep
      exact valid_put h hw ((h.cache _ (.inl rfl) catalog hcache).mono hworker) nofun nofun
    · cases hstep
      exact valid_put h hw hworker nofun nofun
  | fetching since =>
    cases hstep
    -- what is fetched now is as new as any change
    have hdue : ∀ change, Due ⟨s.shared, s.workers.put i (.fetched since s.shared.changes
        (s.shared.portal.catalog env))⟩ change → Due s change := by
      rintro change (hanswered | ⟨j, hj⟩)
      · exact .inl hanswered
      · rcases Table.get?_put_cases hw hj with ⟨-, heq⟩ | ⟨-, hold⟩
        · cases heq
        · exact .inr ⟨j, hold⟩
    exact ⟨h.site, h.workers.put ⟨Nat.le_trans hworker h.site.answered, h.site.since_catalog⟩,
      fun change hch => h.cache change (hdue change hch), fun change hch =>
        (h.stores change (hdue change hch)).put (Nat.not_lt.mpr (h.due_le (hdue change hch)))⟩
  | fetched since at_ catalog =>
    cases hstep
    have hput : Valid env ⟨s.shared, s.workers.put i (.showing since catalog)⟩ :=
      valid_put h hw (hworker.2.mono hworker.1) nofun nofun
    refine ⟨⟨h.site.filed, h.site.current, h.site.answered, h.site.tags, h.site.announced⟩,
      fun j other hother => (hput.workers j other hother).mono (Nat.le_refl _) (Nat.le_refl _)
        fun _ _ hsince => hsince, fun change hch other hother => ?_, hput.stores⟩
    cases hother
    have hdue : Due s change := by
      rcases hch with hanswered | ⟨j, hj⟩
      · exact .inl hanswered
      · rcases Table.get?_put_cases hw hj with ⟨-, heq⟩ | ⟨-, hold⟩
        · cases heq
        · exact .inr ⟨j, hold⟩
    exact hworker.2.mono (Nat.not_lt.mp (h.stores change hdue i _ hw))
  | showing since catalog => cases hstep
  | received change =>
    cases hstep
    refine ⟨⟨h.site.filed, h.site.current, h.site.answered, h.site.tags, h.site.announced⟩,
      fun j other hother => ?_, fun _ _ _ hother => (by cases hother), fun due hdue => ?_⟩
    · rcases Table.get?_put_cases hw hother with ⟨-, rfl⟩ | ⟨-, hold⟩
      · exact hworker
      · exact (h.workers j other hold).mono (Nat.le_refl _) (Nat.le_refl _) fun _ _ hsince => hsince
    · rcases hdue with hanswered | ⟨j, hj⟩
      · exact (h.stores due (.inl hanswered)).put id
      · rcases Table.get?_put_cases hw hj with ⟨-, heq⟩ | ⟨-, hold⟩
        · cases heq
          exact (htimely change rfl).put id
        · exact (h.stores due (.inr ⟨j, hold⟩)).put id
  | cleared change =>
    cases hstep
    have hdue : ∀ due, Due ⟨{ s.shared with answered := max s.shared.answered change },
        s.workers.put i (.answered change)⟩ due → Due s due := by
      rintro due (hanswered | ⟨j, hj⟩)
      · rcases Nat.le_total s.shared.answered change with hle | hle
        · rw [Nat.max_eq_right hle] at hanswered
          exact .inr ⟨i, hanswered ▸ hw⟩
        · rw [Nat.max_eq_left hle] at hanswered
          exact .inl hanswered
      · rcases Table.get?_put_cases hw hj with ⟨-, heq⟩ | ⟨-, hold⟩
        · cases heq
        · exact .inr ⟨j, hold⟩
    refine ⟨⟨h.site.filed, h.site.current, Nat.max_le.mpr ⟨h.site.answered, hworker⟩, h.site.tags,
      h.site.announced⟩, fun j other hother => ?_, fun due hch => h.cache due (hdue due hch),
      fun due hch => (h.stores due (hdue due hch)).put id⟩
    rcases Table.get?_put_cases hw hother with ⟨-, rfl⟩ | ⟨-, hold⟩
    · trivial
    · exact (h.workers j other hold).mono (Nat.le_max_left _ _) (Nat.le_refl _)
        fun _ _ hsince => hsince
  | answered change => cases hstep
  | dead => cases hstep

/-! ### Runs -/

theorem valid_opening : Valid env opening := by
  refine ⟨⟨⟨Table.Forall.empty, Table.Forall.empty⟩, rfl, Nat.le_refl _, fun ping change hmem => ?_,
    fun change hpos hle => absurd hpos (Nat.not_lt.mpr hle)⟩, Table.Forall.empty,
    fun _ _ catalog hcache => ?_, fun _ _ => Table.Forall.empty⟩
  · cases hmem
  · cases hcache

/-- Only the shared part was written. -/
private theorem eq_of_shared (hworkers : s'.workers = s.workers) :
    s' = { s with shared := s'.shared } := by
  cases s'
  cases hworkers
  rfl

/-- A category that was saved with its labels is no change of the answer. -/
private theorem saveCategory_portal {manages : Bool} {now pk : ℕ} {data : CategoryData}
    {portal : Portal} {pings : List Ping}
    (hcall : (StaffCall.saveCategory pk data).exec env manages now site.portal
      = .ok (portal, pings)) :
    saveCategory env pk data site.portal = .ok portal ∧ pings = [] := by
  simp only [StaffCall.exec, bind_eq_ok, ensure_eq_ok, exists_and_left, exists_const] at hcall
  obtain ⟨_, hsave, heq⟩ := map_eq_ok.mp hcall.2
  cases heq
  exact ⟨hsave, rfl⟩

/-- Staff keep the invariant, if a saved category keeps its labels. -/
theorem valid_staff {manages : Bool} {now : ℕ} {call : StaffCall} {portal : Portal}
    {pings : List Ping} (hwebhook : env.hasWebhook env.front = true) (h : Valid env s)
    (hcall : call.exec env manages now s.shared.portal = .ok (portal, pings))
    (hlabels : ∀ pk data, call = .saveCategory pk data → KeepsLabels env s.shared.portal pk data) :
    Valid env { s with shared := s.shared.commit env portal pings } := by
  refine valid_commit h ?_
  by_cases hsaves : ∃ pk data, call = .saveCategory pk data
  · obtain ⟨pk, data, rfl⟩ := hsaves
    obtain ⟨hsave, rfl⟩ := saveCategory_portal hcall
    obtain ⟨hfiled, hiff⟩ := catalog_saveCategory h.site.filed hsave
    exact ⟨hfiled, .inl (hiff.mpr (hlabels pk data rfl))⟩
  · exact exec_told hwebhook h.site.filed (fun pk data heq => hsaves ⟨pk, data, heq⟩) hcall

/-- **A timely step keeps the invariant.** -/
theorem valid_of_timely {turn : Turn Start Move Outside} {out : List PUnit}
    (hwebhook : env.hasWebhook env.front = true) (h : Valid env s)
    (hcommits : (plugin env).machine.Commits turn s s' out) (htimely : Timely env s turn) :
    Valid env s' := by
  cases turn with
  | start b =>
    obtain ⟨worker, hstart, hworkers⟩ := Interleaving.start_eq_ok hcommits
    obtain ⟨hsame, hworker, hcleared, hholds⟩ := valid_start h hstart
    obtain ⟨shared', workers'⟩ := s'
    dsimp only at hsame hworkers
    subst hsame hworkers
    have hdue : ∀ change, Due ⟨s.shared, s.workers.insert worker⟩ change → Due s change := by
      rintro change (hanswered | ⟨j, hj⟩)
      · exact .inl hanswered
      · rw [Table.get?_insert] at hj
        split at hj
        · exact absurd (Option.some.inj hj) (hcleared change)
        · exact .inr ⟨j, hj⟩
    exact ⟨h.site, h.workers.insert hworker, fun change hch => h.cache change (hdue change hch),
      fun change hch => (h.stores change (hdue change hch)).insert (hholds change)⟩
  | step i a =>
    obtain ⟨worker, worker', hworker, hstep, hworkers⟩ := Interleaving.step_eq_ok hcommits
    obtain ⟨shared', workers'⟩ := s'
    dsimp only at hworkers hstep
    subst hworkers
    cases a with
    | go =>
      refine valid_go h hworker hstep fun change heq => ?_
      subst heq
      exact htimely _ hworker
    | die =>
      cases hstep
      exact valid_put h hworker trivial nofun nofun
  | outside c =>
    obtain ⟨houtside, hworkers⟩ := Interleaving.outside_eq_ok hcommits
    rw [eq_of_shared hworkers]
    cases c with
    | staff manages now call =>
      simp only [plugin, outside, bind_eq_ok, pure_eq_ok, Prod.exists] at houtside
      obtain ⟨portal, pings, hcall, hsite⟩ := houtside
      rw [← hsite]
      refine valid_staff hwebhook h hcall ?_
      rintro pk data rfl
      exact htimely
    | drop =>
      have hsite : { s.shared with cache := none } = s'.shared := Except.ok.inj houtside
      rw [← hsite]
      refine ⟨⟨h.site.filed, h.site.current, h.site.answered, h.site.tags, h.site.announced⟩,
        fun j worker hworker =>
        (h.workers j worker hworker).mono (Nat.le_refl _) (Nat.le_refl _) fun _ _ hsince => hsince,
        fun _ _ catalog hcache => ?_, fun change hdue => h.stores change hdue⟩
      cases hcache

/-- **Freshness.** Every change is announced, and nothing older than an answered change is shown,
    throughout a run of timely steps. -/
theorem always_kept (env : Env) (hwebhook : env.hasWebhook env.front = true)
    (turns : List (Turn Start Move Outside))
    (htimely : (plugin env).machine.EachStep (fun s turn _ => Timely env s turn) turns opening) :
    (plugin env).machine.Always (Kept env) turns opening :=
  Machine.always_of_eachStep (m := (plugin env).machine) (I := Valid env) (fun _ h => h.kept)
    (fun _ _ _ _ h hcommits hstep => valid_of_timely hwebhook h hcommits hstep) turns opening
    valid_opening htimely

end

/-! ### A page view across a change -/

/-- Every storefront has a webhook; the catalog is that of storefront 1. -/
def shopEnv : Env where
  front := 1
  hasWebhook _ := true
  before _ _ := true
  storeCurrency := "USD"
  productUrl slug := "/store/" ++ slug ++ "/"
  defaultForType _ := some 0
  cleanProduct _ := .ok ()
  cleanCategory _ := .ok ()

private def byStaff (call : StaffCall) : Turn Start Move Outside := .outside (.staff true 0 call)

/-- A plan is published. -/
def publishStarter : List (Turn Start Move Outside) :=
  [byStaff (.createCategory "hosting" { name := some "Hosting" }),
    byStaff (.change [.createProduct
      { name := "Starter", slug := "starter", type := "shared_hosting", status := .active
        publishExternally := true } (some (.monthly, 0, 500, 0))]),
    byStaff (.publishProduct 0 1 {})]

/-- A page view is cut off before it stores what it fetched, the price changes, its ping is handled,
    and another page view stores the new catalog. -/
def repriced : List (Turn Start Move Outside) :=
  publishStarter ++ [.start (.view false), .step 0 .go, .step 0 .go, .step 0 .die,
    byStaff (.change [.setPrice 0 .monthly 0 900 0]), .start (.ping 1), .step 1 .go, .step 1 .go,
    .start (.view false), .step 2 .go, .step 2 .go, .step 2 .go]

/-- Every ping was answered, and the new catalog is shown. -/
theorem always_kept_repriced :
    ((plugin shopEnv).machine.run repriced opening).shared.answered = 2
      ∧ (plugin shopEnv).machine.Always (Kept shopEnv) repriced opening :=
  ⟨by decide +kernel,
    always_kept shopEnv rfl repriced (Machine.eachStep_of_trace (by decide +kernel))⟩

/-- A page view has fetched the catalog when the price changes, and stores it after the ping for
    the new price was answered.  Then another page view starts. -/
def viewAcross : List (Turn Start Move Outside) :=
  publishStarter ++ [.start (.view false), .step 0 .go, .step 0 .go,
    byStaff (.change [.setPrice 0 .monthly 0 900 0]), .start (.ping 1), .step 1 .go, .step 1 .go,
    .step 0 .go, .start (.view false), .step 2 .go]

/-- A visitor is shown what is not the third catalog, and that is the newest. -/
def Worker.pastThird (past : List (List ShownProduct)) : Worker → Bool
  | .showing since catalog => decide (since = 2 ∧ past.length = 3 ∧ past[2]? ≠ some catalog)
  | _ => false

/-- **The second view shows the old price.** -/
theorem viewAcross_stale :
    ¬(plugin shopEnv).machine.Always (Kept shopEnv) viewAcross opening := by
  intro halways
  have hkept := halways.last
  have hrun : (((plugin shopEnv).machine.run viewAcross opening).workers.get? 2).any
      (Worker.pastThird ((plugin shopEnv).machine.run viewAcross opening).shared.past)
        = true := by decide +kernel
  obtain ⟨worker, hworker, hpast⟩ := (Option.any_eq_true _ _).mp hrun
  cases worker with
  | showing since catalog =>
    obtain ⟨rfl, hlength, hnot⟩ := of_decide_eq_true hpast
    obtain ⟨k, hle, hk⟩ := hkept.shown 2 2 catalog hworker
    have hlt := (List.getElem?_eq_some_iff.mp hk).1
    have hk2 : k = 2 := by omega
    exact hnot (hk2 ▸ hk)
  | _ => cases hpast

end WPanel.Storefronts
