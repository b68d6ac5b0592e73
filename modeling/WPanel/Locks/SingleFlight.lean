import WPanel.Lib.Interleaving
import WPanel.Renewals.Models

namespace WPanel.Locks

open WPanel.Lib WPanel.Renewals

/-!
# One caller at a time

`single_flight` of `core/locks.py`, around the two jobs that must not be done twice: completing the
registration of a domain, and the provisioning of a hosting account.  A caller adds a key with its
token to the shared cache, runs its block, and deletes the key if it still reads its own token; the
key runs out by itself after `HOLD_SECONDS`.

* `Job` — a block that asks the other side to create what a record stands for;
  `domainRegistration`, `hostingProvisioning`;
* `Caller`, `flying` — the callers of one name step by step, any number of them in any order, while
  time passes;
* `SingleFlight` — one caller is in the block at most, the other side is not asked again unless it
  answered with an error, and no caller deletes the key of another;
* `InTime` — the key of a caller does not run out while it is in the block, or between its check
  and its deletion;
* `Survives` — no worker dies between the request to the other side and saving its answer;
* `singleFlight` — a run that keeps to this is a single flight;
* `not_singleFlight` — a slow holder is joined by the next caller, and a holder whose key runs out
  between check and deletion deletes that of the next.
-/

def WAIT_SECONDS : ℕ := 90

def HOLD_SECONDS : ℕ := 180

/-! ### The jobs -/

/-- What the block makes of the record it has read. -/
inductive Verdict where
  /-- It is done already. -/
  | done
  | refuse (e : Err)
  /-- The other side is asked. -/
  | ask
  deriving DecidableEq, Repr

/-- A block that asks the other side to create what a record stands for.  Once it has been created
    it is not asked for again. -/
structure Job (ρ : Type) where
  verdict : ρ → Verdict
  /-- What is saved before the other side is asked, given a fresh name. -/
  prepare : String → ρ → ρ
  /-- What is saved when it has answered with its reference. -/
  created : String → ρ → ρ
  /-- What is saved when it has answered with an error. -/
  failed : String → ρ → ρ
  created_verdict : ∀ ref row, verdict (created ref row) ≠ .ask

/-- What a domain's registration reads and writes. -/
structure DomainRow where
  status : DomainStatus
  providerRef : String := ""
  lastError : String := ""
  deriving DecidableEq, Repr

/-- `_complete_registration`. -/
def domainRegistration : Job DomainRow where
  verdict row :=
    if row.status = .active then .done
    else if row.status ≠ .pendingRegistration ∧ row.status ≠ .failed then
      .refuse (serviceError "This domain is not pending registration." "invalid_status")
    else .ask
  prepare _ row := row
  created ref row := { row with status := .active, providerRef := ref, lastError := "" }
  failed error row := { row with status := .failed, lastError := error }
  created_verdict := fun _ _ => nofun

/-- `RESERVED_PREFIXES`. -/
def reservedPrefixes : List String :=
  ["test", "cpanel", "cphulk", "cpses", "cptmp", "cpmove", "virtfs"]

/-- `RESERVED_USERNAMES`. -/
def reservedUsernames : List String :=
  ["root", "daemon", "bin", "sys", "sync", "games", "man", "lp", "mail", "news", "uucp", "proxy",
    "www", "wwwdata", "backup", "list", "irc", "gnats", "nobody", "mysql", "postgres", "named",
    "dovecot", "dovenull", "exim", "mailman", "apache", "nginx", "ftp", "sshd", "ssh", "admin",
    "administrator", "operator", "system", "user", "users", "adm", "shell", "whm", "webmaster",
    "support", "info", "sales", "postmaster", "abuse", "mailnull", "cpanel", "nagios", "munin",
    "redis", "memcached", "clamav", "tomcat", "git", "svn", "oracle"]

/-- `is_reserved_username`. -/
def isReservedUsername (username : String) : Bool :=
  reservedUsernames.contains (lower username) || reservedPrefixes.any (startsWith (lower username))

/-- What an account's provisioning reads and writes; its server, and whether that is active. -/
structure AccountRow where
  status : HostingStatus
  username : String
  serverActive : Option Bool
  lastError : String := ""
  deriving DecidableEq, Repr

/-- `_complete_provisioning`. -/
def hostingProvisioning : Job AccountRow where
  verdict row :=
    if row.status = .active then .done
    else if row.status ≠ .pending ∧ row.status ≠ .failed then
      .refuse (serviceError "This account is not pending provisioning." "invalid_status")
    else match row.serverActive with
      | none => .refuse (serviceError "Assign a server before provisioning." "no_server_assigned")
      | some false =>
        .refuse (serviceError "The assigned server is not active." "server_not_active")
      | some true => .ask
  prepare fresh row :=
    if isReservedUsername row.username then { row with username := fresh } else row
  created _ row := { row with status := .active, lastError := "" }
  failed error row := { row with status := .failed, lastError := error }
  created_verdict := fun _ _ => nofun

/-! ### The callers -/

/-- The key in the cache: whose it is, and when it runs out. -/
structure Key where
  token : ℕ
  expiresAt : ℕ
  deriving DecidableEq, Repr

/-- The clock, the key of this name, the tokens given out, the record, and how many asks the other
    side has not answered with an error. -/
structure Flight (ρ : Type) where
  now : ℕ
  key : Option Key := none
  tokens : ℕ := 0
  record : ρ
  standing : ℕ := 0
  deriving DecidableEq, Repr

/-- What the other side answers. -/
inductive Answer where
  | created (ref : String)
  /-- `RegistrarError`, `HostingError`. -/
  | error (message : String)
  /-- Any other exception. -/
  | raised
  deriving DecidableEq, Repr

/-- How far a caller has come; from `entered` to `answered` it is in the block.  The number is the
    time at which its key runs out. -/
inductive Caller.Phase (ρ : Type) where
  | waiting
  | entered (ends : ℕ)
  /-- `refresh_from_db`. -/
  | loaded (ends : ℕ) (copy : ρ)
  /-- The other side is asked. -/
  | asking (ends : ℕ)
  | answered (ends : ℕ) (answer : Answer)
  /-- The block is over, one way or another. -/
  | leaving
  /-- It has read its own token. -/
  | releasing (ends : ℕ)
  | over
  | gaveUp
  deriving DecidableEq, Repr

/-- A caller of `single_flight`. -/
structure Caller (ρ : Type) where
  token : ℕ
  deadline : ℕ
  phase : Caller.Phase ρ := .waiting
  deriving DecidableEq, Repr

/-- The steps of a caller. -/
inductive Caller.Step where
  | go
  /-- It acts on its copy, with a fresh name at hand. -/
  | act (fresh : String)
  /-- The other side answers. -/
  | answer (a : Answer)
  /-- The worker it runs in dies. -/
  | crash
  deriving DecidableEq, Repr

section

variable {ρ : Type} (job : Job ρ)

/-- What is saved of an answer. -/
def Job.save (row : ρ) : Answer → ρ
  | .created ref => job.created ref row
  | .error message => job.failed message row
  | .raised => row

/-- A step of a caller. -/
def Caller.next (a : Caller.Step) (s : Flight ρ) (w : Caller ρ) :
    Except Err (Flight ρ × Caller ρ) :=
  match a, w.phase with
  | .go, .waiting =>
    match s.key with
    | none =>
      pure ({ s with key := some ⟨w.token, s.now + HOLD_SECONDS⟩ },
        { w with phase := .entered (s.now + HOLD_SECONDS) })
    | some _ => pure (s, if w.deadline < s.now then { w with phase := .gaveUp } else w)
  | .go, .entered ends => pure (s, { w with phase := .loaded ends s.record })
  | .act fresh, .loaded ends copy =>
    if job.verdict copy = .ask then
      pure ({ s with record := job.prepare fresh s.record, standing := s.standing + 1 },
        { w with phase := .asking ends })
    else pure (s, { w with phase := .leaving })
  | .answer answer, .asking ends =>
    pure (match answer with
      | .created _ => s
      | _ => { s with standing := s.standing - 1 }, { w with phase := .answered ends answer })
  | .go, .answered _ answer =>
    pure ({ s with record := job.save s.record answer }, { w with phase := .leaving })
  | .go, .leaving =>
    match s.key with
    | some key =>
      pure (s, { w with phase := if key.token = w.token then .releasing key.expiresAt else .over })
    | none => pure (s, { w with phase := .over })
  | .go, .releasing _ => pure ({ s with key := none }, { w with phase := .over })
  | .crash, _ => pure (s, { w with phase := .over })
  | _, _ => throw (.unexpected "not the next step")

/-- Time passes, and the key runs out. -/
def Flight.tick (now : ℕ) (s : Flight ρ) : Flight ρ :=
  { s with now, key := s.key.filter (now < ·.expiresAt) }

/-- The callers of one name, each with the time it waits, in any order, while time passes. -/
def flying : Interleaving (Flight ρ) (Caller ρ) ℕ Caller.Step ℕ Err where
  start wait s :=
    pure ({ s with tokens := s.tokens + 1 }, { token := s.tokens, deadline := s.now + wait })
  step a s w := w.next job a s
  outside now s := do
    ensure (s.now ≤ now) (.unexpected "time does not go back")
    return s.tick now
  absent := .unexpected "there is no such caller"

end

/-! ### A single flight -/

/-- It is in the block. -/
def Caller.isInside {ρ : Type} (w : Caller ρ) : Bool :=
  match w.phase with
  | .entered _ => true
  | .loaded _ _ => true
  | .asking _ => true
  | .answered _ _ => true
  | _ => false

/-- When the key of a caller that is in the block, or about to delete it, runs out. -/
def Caller.ends {ρ : Type} (w : Caller ρ) : Option ℕ :=
  match w.phase with
  | .entered ends => some ends
  | .loaded ends _ => some ends
  | .asking ends => some ends
  | .answered ends _ => some ends
  | .releasing ends => some ends
  | _ => none

/-- One caller is in the block at most, and the other side has been asked once at most, but for the
    asks it has answered with an error. -/
structure Single {ρ : Type} (s : System (Flight ρ) (Caller ρ)) : Prop where
  inside : s.workers.AtMostOne Caller.isInside
  asked : s.shared.standing ≤ 1

/-- A caller that is about to delete the key deletes its own. -/
def DeletesOwn {ρ : Type} (s : System (Flight ρ) (Caller ρ)) (turn : Turn ℕ Caller.Step ℕ) : Prop :=
  match turn with
  | .step i _ => ∀ w ∈ s.workers.get? i, ∀ ends, w.phase = .releasing ends →
    ∀ key ∈ s.shared.key, key.token = w.token
  | _ => True

/-- In every state of a run, and in each of its steps. -/
def SingleFlight {ρ : Type} (job : Job ρ) (turns : List (Turn ℕ Caller.Step ℕ))
    (s : System (Flight ρ) (Caller ρ)) : Prop :=
  (flying job).machine.Always Single turns s
    ∧ (flying job).machine.EachStep (fun s turn _ => DeletesOwn s turn) turns s

/-- How many asks stand once a caller has asked. -/
def Caller.stands {ρ : Type} (w : Caller ρ) : Option ℕ :=
  match w.phase with
  | .asking _ => some 1
  | .answered _ (.created _) => some 1
  | .answered _ _ => some 0
  | _ => none

/-- The key of a caller does not run out while it is in the block, or between its check and its
    deletion. -/
def InTime {ρ : Type} : Discipline (Flight ρ) (Caller ρ) Caller.Step ℕ where
  step _ _ _ _ := True
  outside _ now w := ∀ ends ∈ w.ends, now < ends

instance {ρ : Type} (s : Flight ρ) (w : Caller ρ) (a : Caller.Step) (other : Caller ρ) :
    Decidable (InTime.step s w a other) := isTrue trivial

instance {ρ : Type} (s : Flight ρ) (now : ℕ) (w : Caller ρ) :
    Decidable (InTime.outside s now w) :=
  inferInstanceAs (Decidable (∀ ends ∈ w.ends, now < ends))

/-- No worker dies between the request to the other side and saving its answer. -/
def Survives {ρ : Type} (_ : Flight ρ) (w : Caller ρ) (a : Caller.Step) : Prop :=
  a = .crash → w.stands ≠ some 1

instance {ρ : Type} (s : Flight ρ) (w : Caller ρ) (a : Caller.Step) :
    Decidable (Survives s w a) :=
  inferInstanceAs (Decidable (a = .crash → w.stands ≠ some 1))

/-! ### Why it is one -/

/-- What is known of the callers: one holds the key, which is in the cache, no two have the same
    token, and an ask that stands has been answered and saved, or is that of a caller. -/
structure Orderly {ρ : Type} (job : Job ρ) (s : System (Flight ρ) (Caller ρ)) : Prop where
  alone : s.workers.AtMostOne (·.ends.isSome)
  key : s.workers.Forall fun _ w => ∀ ends ∈ w.ends, s.shared.key = some ⟨w.token, ends⟩
  tokens : s.workers.Forall fun _ w => w.token < s.shared.tokens
  distinct : ∀ i j w w', s.workers.get? i = some w → s.workers.get? j = some w' →
    w.token = w'.token → i = j
  copy : s.workers.Forall fun _ w => ∀ ends copy, w.phase = .loaded ends copy →
    copy = s.shared.record
  once : s.shared.standing ≤ 1
  stands : s.workers.Forall fun _ w => ∀ n ∈ w.stands, s.shared.standing = n
  owed : s.shared.standing ≠ 0 → job.verdict s.shared.record ≠ .ask
    ∨ ∃ i w, s.workers.get? i = some w ∧ w.stands = some 1

section

variable {ρ : Type} {job : Job ρ} {s s' : Flight ρ} {w w' : Caller ρ} {workers : Table (Caller ρ)}
  {i : ℕ}

/-- Who is in the block holds the key. -/
private theorem isSome_ends_of_isInside (h : w.isInside = true) : w.ends.isSome = true := by
  unfold Caller.isInside at h
  unfold Caller.ends
  split at h
  · next hphase => rw [hphase]; rfl
  · next hphase => rw [hphase]; rfl
  · next hphase => rw [hphase]; rfl
  · next hphase => rw [hphase]; rfl
  · cases h

/-- Who has asked holds the key. -/
private theorem isSome_ends_of_stands {n : ℕ} (h : w.stands = some n) : w.ends.isSome = true := by
  unfold Caller.stands at h
  unfold Caller.ends
  split at h
  · next hphase => rw [hphase]; rfl
  · next hphase => rw [hphase]; rfl
  · next hphase => rw [hphase]; rfl
  · cases h

theorem Orderly.single {s : System (Flight ρ) (Caller ρ)} (h : Orderly job s) : Single s where
  inside := fun i j w w' hw hw' hin hin' =>
    h.alone i j w w' hw hw' (isSome_ends_of_isInside hin) (isSome_ends_of_isInside hin')
  asked := h.once

theorem Orderly.deletesOwn {s : System (Flight ρ) (Caller ρ)} (h : Orderly job s)
    (turn : Turn ℕ Caller.Step ℕ) : DeletesOwn s turn := by
  cases turn with
  | step i a =>
    intro w hw ends hphase key hkey
    have hown := h.key i w hw ends (by rw [Caller.ends, hphase]; rfl)
    rw [Option.mem_def.mp hkey] at hown
    cases hown
    rfl
  | start wait => trivial
  | outside now => trivial

/-- The tokens after a step are those from before. -/
private theorem distinct_put (hget : workers.get? i = some w) (phase : Caller.Phase ρ)
    (h : ∀ i j w w', workers.get? i = some w → workers.get? j = some w' → w.token = w'.token →
      i = j) :
    ∀ j k a b, (workers.put i { w with phase }).get? j = some a →
      (workers.put i { w with phase }).get? k = some b → a.token = b.token → j = k := by
  have hbefore : ∀ j a, (workers.put i { w with phase }).get? j = some a →
      ∃ a', workers.get? j = some a' ∧ a'.token = a.token := by
    intro j a ha
    rw [Table.get?_put hget] at ha
    split at ha
    · next hj =>
      cases ha
      exact ⟨w, hj ▸ hget, rfl⟩
    · exact ⟨a, ha, rfl⟩
  intro j k a b ha hb hsame
  obtain ⟨a', ha', hta⟩ := hbefore j a ha
  obtain ⟨b', hb', htb⟩ := hbefore k b hb
  exact h j k a' b' ha' hb' (by rw [hta, htb, hsame])

/-- **A step that changes neither the record nor what stands**: the caller goes on in the block, or
    leaves it. -/
private theorem Orderly.of_quiet (h : Orderly job ⟨s, workers⟩) (hget : workers.get? i = some w)
    (phase : Caller.Phase ρ)
    (hends : { w with phase }.ends = w.ends ∨ { w with phase }.ends = none)
    (hcopy : ∀ ends copy, phase = .loaded ends copy → copy = s.record)
    (hstands : w.stands ≠ some 1) (hstands' : { w with phase }.stands = none) :
    Orderly job ⟨s, workers.put i { w with phase }⟩ where
  alone := h.alone.put hget fun hsome => .inl <| by
    rcases hends with hsame | hnone
    · rwa [← hsame]
    · rw [hnone] at hsome
      cases hsome
  key := h.key.put fun ends hmem => by
    rcases hends with hsame | hnone
    · rw [hsame] at hmem
      exact h.key i w hget ends hmem
    · rw [hnone] at hmem
      cases hmem
  tokens := h.tokens.put (h.tokens i w hget)
  distinct := distinct_put hget phase h.distinct
  copy := h.copy.put hcopy
  once := h.once
  stands := h.stands.put fun n hn => by rw [hstands'] at hn; cases hn
  owed := fun hne => (h.owed hne).imp id fun ⟨j, c, hc, hone⟩ => by
    have hj : j ≠ i := by
      rintro rfl
      rw [hget] at hc
      cases hc
      exact hstands hone
    exact ⟨j, c, (Table.get?_put_of_ne hj _).trans hc, hone⟩

/-- **A step of the caller that holds the key**, which may write the record and change what
    stands: nobody else knows of either. -/
private theorem Orderly.of_holder (h : Orderly job ⟨s, workers⟩) (hget : workers.get? i = some w)
    (hholds : w.ends.isSome = true) (phase : Caller.Phase ρ)
    (hends : { w with phase }.ends = w.ends ∨ { w with phase }.ends = none) (record : ρ)
    {standing : ℕ} (hcopy : ∀ ends copy, phase ≠ .loaded ends copy) (honce : standing ≤ 1)
    (hstands : ∀ n ∈ { w with phase }.stands, standing = n)
    (howed : standing ≠ 0 → job.verdict record ≠ .ask ∨ { w with phase }.stands = some 1) :
    Orderly job ⟨{ s with record, standing }, workers.put i { w with phase }⟩ := by
  have hothers := h.alone.others hget hholds
  have hrow : ∀ j c, (workers.put i { w with phase }).get? j = some c →
      c = { w with phase } ∨ (workers.get? j = some c ∧ c.ends.isSome = false) := by
    intro j c hc
    rw [Table.get?_put hget] at hc
    split at hc
    · exact .inl (Option.some.inj hc).symm
    · next hj => exact .inr ⟨hc, hothers j c hj hc⟩
  refine ⟨h.alone.put hget fun _ => .inl hholds, ?_, ?_, distinct_put hget phase h.distinct,
    ?_, honce, ?_, ?_⟩
  · refine h.key.put fun ends hmem => ?_
    rcases hends with hsame | hnone
    · rw [hsame] at hmem
      exact h.key i w hget ends hmem
    · rw [hnone] at hmem
      cases hmem
  · exact h.tokens.put (h.tokens i w hget)
  · intro j c hc ends copy hphase
    rcases hrow j c hc with rfl | ⟨_, hfree⟩
    · exact absurd hphase (hcopy ends copy)
    · rw [Caller.ends, hphase] at hfree
      cases hfree
  · intro j c hc n hn
    rcases hrow j c hc with rfl | ⟨_, hfree⟩
    · exact hstands n hn
    · rw [isSome_ends_of_stands hn] at hfree
      cases hfree
  · intro hne
    exact (howed hne).imp id fun hone => ⟨i, _, Table.get?_put_self hget _, hone⟩

/-- **A caller takes hold of the key**, when nobody else holds one: it enters, or it has read its
    own token. -/
private theorem Orderly.of_taken (h : Orderly job ⟨s, workers⟩) (hget : workers.get? i = some w)
    (hfree : ∀ j c, workers.get? j = some c → c.ends = none) (phase : Caller.Phase ρ) {ends : ℕ}
    (hends : { w with phase }.ends = some ends) (hcopy : ∀ ends copy, phase ≠ .loaded ends copy)
    (hstands : { w with phase }.stands = none) :
    Orderly job ⟨{ s with key := some ⟨w.token, ends⟩ }, workers.put i { w with phase }⟩ := by
  have hrow : ∀ j c, (workers.put i { w with phase }).get? j = some c →
      c = { w with phase } ∨ c.ends = none := by
    intro j c hc
    rw [Table.get?_put hget] at hc
    split at hc
    · exact .inl (Option.some.inj hc).symm
    · exact .inr (hfree j c hc)
  refine ⟨?_, ?_, ?_, distinct_put hget phase h.distinct, ?_, h.once, ?_, ?_⟩
  · refine h.alone.put hget fun _ => .inr fun j c _ hc => ?_
    rw [hfree j c hc]
    rfl
  · intro j c hc e he
    rcases hrow j c hc with rfl | hnone
    · rw [hends] at he
      cases he
      rfl
    · rw [hnone] at he
      cases he
  · exact h.tokens.put (h.tokens i w hget)
  · intro j c hc e copy hphase
    rcases hrow j c hc with rfl | hnone
    · exact absurd hphase (hcopy e copy)
    · rw [Caller.ends, hphase] at hnone
      cases hnone
  · intro j c hc n hn
    rcases hrow j c hc with rfl | hnone
    · rw [hstands] at hn
      cases hn
    · have hsome := isSome_ends_of_stands hn
      rw [hnone] at hsome
      cases hsome
  · refine fun hne => (h.owed hne).imp id fun ⟨j, c, hc, hone⟩ => ?_
    have hsome := isSome_ends_of_stands hone
    rw [hfree j c hc] at hsome
    cases hsome

/-- **A caller deletes the key**, its own. -/
private theorem Orderly.of_released (h : Orderly job ⟨s, workers⟩) (hget : workers.get? i = some w)
    (hholds : w.ends.isSome = true) (hstands : w.stands ≠ some 1) :
    Orderly job ⟨{ s with key := none }, workers.put i { w with phase := .over }⟩ := by
  have hquiet := h.of_quiet hget .over (.inr rfl) (fun _ _ => nofun) hstands rfl
  refine { hquiet with key := fun j c hc ends hmem => ?_ }
  rw [Table.get?_put hget] at hc
  split at hc
  · cases hc
    cases hmem
  · next hj =>
    have hfree := h.alone.others hget hholds j c hj hc
    rw [Option.mem_def.mp hmem] at hfree
    cases hfree


/-- **A step of a caller keeps the order**, unless its worker dies on an ask that stands. -/
theorem Orderly.next (h : Orderly job ⟨s, workers⟩) (hget : workers.get? i = some w)
    {a : Caller.Step} (hnext : w.next job a s = .ok (s', w')) (hsurvives : Survives s w a) :
    Orderly job ⟨s', workers.put i w'⟩ := by
  have hkey := h.key i w hget
  have hstanding := h.stands i w hget
  unfold Caller.next at hnext
  split at hnext
  · next hphase =>
    split at hnext
    · next hnone =>
      -- nobody holds a key, since that of a holder is in the cache
      cases hnext
      refine h.of_taken hget (fun j c hc => ?_) _ rfl (fun _ _ => nofun) rfl
      cases hends : c.ends with
      | none => rfl
      | some ends =>
        have hheld := h.key j c hc ends hends
        rw [show s.key = none from hnone] at hheld
        cases hheld
    · cases hnext
      have hstands : w.stands ≠ some 1 := by rw [Caller.stands, hphase]; nofun
      split
      · exact h.of_quiet hget _ (.inr rfl) (fun _ _ => nofun) hstands rfl
      · refine h.of_quiet hget w.phase (.inl rfl) (fun ends copy hloaded => ?_) hstands ?_
        · rw [hphase] at hloaded
          cases hloaded
        · rw [Caller.stands, hphase]
  · next ends hphase =>
    cases hnext
    refine h.of_quiet hget _ (.inl ?_) (fun _ _ hloaded => ?_) ?_ rfl
    · rw [Caller.ends, Caller.ends, hphase]
    · cases hloaded
      rfl
    · rw [Caller.stands, hphase]
      nofun
  · next fresh ends copy hphase =>
    have hholds : w.ends = some ends := by rw [Caller.ends, hphase]
    have hsome : w.ends.isSome = true := by rw [hholds]; rfl
    have hnotAsked : w.stands = none := by rw [Caller.stands, hphase]
    split at hnext
    · next hask =>
      -- nothing stands: the record it has read says that the other side is to be asked
      cases hnext
      have hcopy : copy = s.record := h.copy i w hget ends copy hphase
      have hnothing : s.standing = 0 := by
        by_contra hne
        rcases h.owed hne with hdone | ⟨j, c, hc, hone⟩
        · exact hdone (hcopy ▸ hask)
        · have hij : i = j := h.alone i j w c hget hc hsome (isSome_ends_of_stands hone)
          subst hij
          rw [hget] at hc
          cases hc
          rw [hnotAsked] at hone
          cases hone
      refine h.of_holder hget (by rw [hholds]; rfl) _ (.inl ?_) _ (fun _ _ => nofun) ?_ ?_ ?_
      · rw [hholds]
        rfl
      · rw [hnothing]
      · intro n hn
        cases hn
        rw [hnothing]
      · exact fun _ => .inr rfl
    · cases hnext
      exact h.of_quiet hget _ (.inr rfl) (fun _ _ => nofun) (by rw [hnotAsked]; nofun) rfl
  · next answer ends hphase =>
    have hholds : w.ends = some ends := by rw [Caller.ends, hphase]
    have hone : s.standing = 1 := hstanding 1 (by rw [Caller.stands, hphase]; rfl)
    cases hnext
    cases answer with
    | created ref =>
      refine h.of_holder hget (by rw [hholds]; rfl) _ (.inl ?_) s.record (fun _ _ => nofun)
        h.once ?_ fun _ => .inr rfl
      · rw [hholds]
        rfl
      · intro n hn
        cases hn
        exact hone
    | error message | raised =>
      refine h.of_holder hget (by rw [hholds]; rfl) _ (.inl ?_) s.record (fun _ _ => nofun)
        (by omega) ?_ fun hne => absurd (by omega) hne
      · rw [hholds]
        rfl
      · intro n hn
        cases hn
        omega
  · next ends answer hphase =>
    have hholds : w.ends.isSome = true := by rw [Caller.ends, hphase]; rfl
    cases hnext
    refine h.of_holder hget hholds _ (.inr rfl) _ (fun _ _ => nofun) h.once nofun fun hne => ?_
    cases answer with
    | created ref => exact .inl (job.created_verdict ref s.record)
    | error message => exact absurd (hstanding 0 (by rw [Caller.stands, hphase]; rfl)) hne
    | raised => exact absurd (hstanding 0 (by rw [Caller.stands, hphase]; rfl)) hne
  · next hphase =>
    have hstands : w.stands ≠ some 1 := by rw [Caller.stands, hphase]; nofun
    split at hnext
    · next key hread =>
      cases hnext
      split
      · next htoken =>
        -- whoever else held a key would have this token
        have hfree : ∀ j c, workers.get? j = some c → c.ends = none := by
          intro j c hc
          cases hends : c.ends with
          | none => rfl
          | some ends =>
            have hheld := h.key j c hc ends hends
            rw [show s.key = some key from hread] at hheld
            cases hheld
            have hji := h.distinct j i c w hc hget htoken
            subst hji
            rw [hget] at hc
            cases hc
            rw [Caller.ends, hphase] at hends
            cases hends
        have htaken := h.of_taken hget hfree (.releasing key.expiresAt) rfl (fun _ _ => nofun) rfl
        have hown : some (Key.mk w.token key.expiresAt) = s.key := by rw [hread, ← htoken]
        rwa [hown] at htaken
      · exact h.of_quiet hget _ (.inr rfl) (fun _ _ => nofun) hstands rfl
    · cases hnext
      exact h.of_quiet hget _ (.inr rfl) (fun _ _ => nofun) hstands rfl
  · next ends hphase =>
    cases hnext
    refine h.of_released hget ?_ ?_
    · rw [Caller.ends, hphase]
      rfl
    · rw [Caller.stands, hphase]
      nofun
  · cases hnext
    exact h.of_quiet hget _ (.inr rfl) (fun _ _ => nofun) (hsurvives rfl) rfl
  · cases hnext

/-- **A new caller**, with a token of its own. -/
theorem Orderly.start (h : Orderly job ⟨s, workers⟩) (wait : ℕ) :
    Orderly job ⟨{ s with tokens := s.tokens + 1 },
      workers.insert { token := s.tokens, deadline := s.now + wait }⟩ where
  alone := h.alone.insert rfl
  key := Table.Forall.insert h.key nofun
  tokens := Table.Forall.insert (fun j c hc => Nat.lt_succ_of_lt (h.tokens j c hc))
    (Nat.lt_succ_self _)
  distinct := by
    intro j k c d hc hd hsame
    rw [Table.get?_insert] at hc hd
    split at hc
    · next hj =>
      cases hc
      split at hd
      · next hk => exact hj.trans hk.symm
      · exact absurd hsame.symm (Nat.ne_of_lt (h.tokens k d hd))
    · split at hd
      · cases hd
        exact absurd hsame (Nat.ne_of_lt (h.tokens j c hc))
      · exact h.distinct j k c d hc hd hsame
  copy := Table.Forall.insert h.copy fun _ _ => nofun
  once := h.once
  stands := Table.Forall.insert h.stands nofun
  owed := fun hne => (h.owed hne).imp id fun ⟨j, c, hc, hone⟩ =>
    ⟨j, c, Table.get?_insert_of_some hc, hone⟩

/-- **Time passes**, and no key of a holder runs out. -/
theorem Orderly.tick (h : Orderly job ⟨s, workers⟩) (now : ℕ)
    (hintime : workers.Forall fun _ w => ∀ ends ∈ w.ends, now < ends) :
    Orderly job ⟨s.tick now, workers⟩ :=
  { h with
    key := fun j c hc ends hmem => by
      show s.key.filter (now < ·.expiresAt) = some ⟨c.token, ends⟩
      rw [show s.key = some ⟨c.token, ends⟩ from h.key j c hc ends hmem, Option.filter_some]
      exact if_pos (decide_eq_true (hintime j c hc ends hmem)) }

/-- **A step within the condition keeps the order.** -/
theorem Orderly.commits {s s' : System (Flight ρ) (Caller ρ)} {turn : Turn ℕ Caller.Step ℕ}
    {out : List PUnit} (h : Orderly job s) (hcommits : (flying job).machine.Commits turn s s' out)
    (hkept : turn.Meets Survives s ∧ InTime.Respected s turn) : Orderly job s' := by
  obtain ⟨shared', workers'⟩ := s'
  cases turn with
  | start wait =>
    obtain ⟨w, hstart, hworkers⟩ := Interleaving.start_eq_ok hcommits
    cases hstart
    cases hworkers
    exact h.start wait
  | step i a =>
    obtain ⟨w, w', hget, hnext, hworkers⟩ := Interleaving.step_eq_ok hcommits
    cases hworkers
    exact h.next hget hnext (hkept.1 w hget)
  | outside now =>
    obtain ⟨htick, hworkers⟩ := Interleaving.outside_eq_ok hcommits
    cases hworkers
    simp only [flying, bind_eq_ok, ensure_eq_ok, pure_eq_ok] at htick
    obtain ⟨_, _, htick⟩ := htick
    cases htick
    exact h.tick now fun j c hc => hkept.2 j c hc


end

/-- **A run is a single flight** when no caller's key runs out while it is in the block or about to
    delete it, and no worker dies between the request to the other side and saving its answer. -/
theorem singleFlight {ρ : Type} (job : Job ρ) (turns : List (Turn ℕ Caller.Step ℕ)) (now : ℕ)
    (record : ρ)
    (hkept : (flying job).machine.EachStep
      (fun s turn _ => turn.Meets Survives s ∧ InTime.Respected s turn) turns
      ⟨{ now, record }, {}⟩) :
    SingleFlight job turns ⟨{ now, record }, {}⟩ := by
  have hfirst : Orderly job ⟨{ now, record }, {}⟩ := {
    alone := .empty
    key := .empty
    tokens := .empty
    distinct := fun i j w w' hw => by rw [Table.get?_empty] at hw; cases hw
    copy := .empty
    once := Nat.zero_le 1
    stands := .empty
    owed := fun hne => absurd rfl hne }
  constructor
  · exact Machine.always_of_eachStep (fun _ h => h.single)
      (fun _ _ _ _ h hcommits hstep => h.commits hcommits hstep) turns _ hfirst hkept
  · exact Machine.eachStep_of_eachStep (fun _ _ _ _ h hcommits hstep => h.commits hcommits hstep)
      (fun turn _ _ _ h _ _ => h.deletesOwn turn) turns _ hfirst hkept

/-- A domain whose registration two callers complete at the same time. -/
private def twoCallers : List (Turn ℕ Caller.Step ℕ) :=
  [.start 90, .start 90, .step 0 .go, .step 1 .go, .step 0 .go, .step 0 (.act ""), .outside 20,
    .step 0 (.answer (.created "R-1")), .step 0 .go, .step 0 .go, .step 0 .go, .step 1 .go,
    .step 1 .go, .step 1 (.act ""), .step 1 .go, .step 1 .go]

theorem singleFlight_twoCallers :
    SingleFlight domainRegistration twoCallers
      ⟨{ now := 0, record := { status := .pendingRegistration } }, {}⟩ :=
  singleFlight domainRegistration twoCallers 0 { status := .pendingRegistration }
    (Machine.eachStep_of_trace (by decide +kernel))

/-- The registrar takes longer to answer than the key lasts. -/
private def slowHolder : List (Turn ℕ Caller.Step ℕ) :=
  [.start 90, .step 0 .go, .step 0 .go, .step 0 (.act ""), .outside 181, .start 90, .step 1 .go,
    .step 1 .go, .step 1 (.act "")]

/-- The key runs out between the check and the deletion. -/
private def lateDeletion : List (Turn ℕ Caller.Step ℕ) :=
  [.start 90, .step 0 .go, .step 0 .go, .step 0 (.act ""), .outside 179,
    .step 0 (.answer (.created "R-1")), .step 0 .go, .step 0 .go, .outside 180, .start 90,
    .step 1 .go]

/-- **A slow holder is joined by the next caller**, and the registrar is asked twice; one whose key
    runs out between its check and its deletion deletes that of the next caller. -/
theorem not_singleFlight :
    ¬ SingleFlight domainRegistration slowHolder
        ⟨{ now := 0, record := { status := .pendingRegistration } }, {}⟩
      ∧ ¬ SingleFlight domainRegistration (lateDeletion ++ [Turn.step 0 Caller.Step.go])
        ⟨{ now := 0, record := { status := .pendingRegistration } }, {}⟩ := by
  constructor
  · intro h
    have hasked := h.1.last.asked
    exact absurd hasked (by decide +kernel)
  · intro h
    have hown := h.2.last (by decide +kernel)
    refine absurd (hown _ rfl _ rfl _ rfl) ?_
    decide +kernel

end WPanel.Locks
