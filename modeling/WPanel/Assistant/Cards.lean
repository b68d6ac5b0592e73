import WPanel.Assistant.Actions

namespace WPanel.Assistant

open WPanel.Lib

/-!
# The cards of proposed changes

`assistant/actions.py`: a change has a card in the chat, whose status `propose` writes and `_mark`
writes over.  The status of the action and the one on its card are two records, and a call writes
one after the other.

* `CardCall`, `carding` — the calls of `Actions`, which write the card in a step of its own;
* `Shown` — while no call is in progress the cards say what the actions are, and no change that
  was carried out is shown as expired or cancelled;
* `Clear` — a call that finds the time over, or the third wrong code, finds the action still
  pending, and carrying out a change raises nothing unforeseen;
* `alwaysShown` — in a run of such steps the cards are right;
* `not_alwaysShown` — a change that was carried out is shown as expired.
-/

/-- The card a call has still to write. -/
inductive Owed where
  /-- `propose` puts a card into the chat. -/
  | create (pk : ℕ)
  /-- `_mark`. -/
  | mark (pk : ℕ) (state : ActionState)
  deriving DecidableEq, Repr

/-- The records, and the status on the card of each action. -/
structure CardStore where
  store : ActionStore
  cards : ℕ → Option ActionState := fun _ => none

/-- A call, and the card it has still to write before it goes on. -/
structure CardCall where
  call : Call
  owed : Option Owed := none
  deriving DecidableEq, Repr

/-- The steps of a call. -/
inductive CardCall.Step where
  | go (a : Call.Step)
  /-- The card is written. -/
  | write
  /-- The change that is carried out raises something that `_execute` does not catch. -/
  | crash
  deriving DecidableEq, Repr

/-- The status of an action. -/
def ActionStore.status (s : ActionStore) (pk : ℕ) : Option ActionState :=
  (s.actions.get? pk).map PendingAction.status

section

variable (checkPassword : String → String → Bool)

/-- The card that is written after a step: by `propose` of the action it has stored, after an update
    to `expired`, `locked` or `cancelled`, and after the result of a change was saved. -/
def due (s : ActionStore) (a : Call.Step) (call : Call) : Option Owed :=
  match call.asked, call.phase, a with
  | .propose _, .permitted _, .describe _ => some (.create s.actions.nextPk)
  | .approve pk, .loaded action, .go =>
    if action.needs ≠ .code ∧ action.createdAt + LIFETIME < s.now then some (.mark pk .expired)
    else none
  | .verify pk entered, .holding action code, .go =>
    if code.expiresAt < s.now ∨ action.createdAt + LIFETIME < s.now then some (.mark pk .expired)
    else if code.attempts < MAX_ATTEMPTS ∧ codeMatches checkPassword entered code = false
        ∧ MAX_ATTEMPTS ≤ code.attempts + 1 then some (.mark pk .locked)
    else none
  | .cancel pk, .loaded _, .go =>
    if s.status pk = some .pending then some (.mark pk .cancelled) else none
  | .approve pk, .running, .ran ok _ => some (.mark pk (if ok then .done else .failed))
  | .verify pk _, .running, .ran ok _ => some (.mark pk (if ok then .done else .failed))
  | _, _, _ => none

/-- The card is written: a new one, or over the one that is there. -/
def CardStore.write (s : CardStore) : Owed → CardStore
  | .create pk => { s with cards := fun q => if q = pk then some .pending else s.cards q }
  | .mark pk state =>
    { s with cards := fun q => if q = pk then (s.cards pk).map fun _ => state else s.cards q }

/-- A step of a call. -/
def CardCall.next (a : CardCall.Step) (s : CardStore) (c : CardCall) :
    Except Err (CardStore × CardCall) :=
  match a, c.owed with
  | .go a, none => do
    let (store, call) ← c.call.next checkPassword a s.store
    return ({ s with store }, ⟨call, due checkPassword s.store a c.call⟩)
  | .write, some owed => pure (s.write owed, { c with owed := none })
  | .crash, none =>
    if c.call.phase = .running then
      pure (s, { c with call := { c.call with phase := .raised (.unexpected "not caught") } })
    else throw (.unexpected "not the next step")
  | _, _ => throw (.unexpected "not the next step")

/-- The calls of all users, step by step and in any order, while time passes and staff switch
    changes on and off. -/
def carding : Interleaving CardStore CardCall (ℕ × Asked) CardCall.Step Surroundings Err where
  start request s := pure (s, { call := { user := request.1, asked := request.2 } })
  step a s c := c.next checkPassword a s
  outside c s := do
    let store ← c.apply s.store
    return { s with store }
  absent := .unexpected "there is no such call"

end

/-! ### What the cards should say -/

/-- The call has returned or raised, and its card is written. -/
def CardCall.Over (c : CardCall) : Prop :=
  c.owed = none ∧ (c.call.phase = .finished ∨ ∃ error, c.call.phase = .raised error)

/-- **While no call is in progress the cards say what the actions are, and at no time is a change
    that is or was carried out shown as expired or cancelled.** -/
structure Shown (s : System CardStore CardCall) : Prop where
  settled : (∀ i c, s.workers.get? i = some c → c.Over) →
    ∀ pk state, s.shared.store.status pk = some state → s.shared.cards pk = some state
  carriedOut : ∀ pk, s.shared.store.status pk = some .running
      ∨ s.shared.store.status pk = some .done ∨ s.shared.store.status pk = some .failed →
    s.shared.cards pk ≠ some .expired ∧ s.shared.cards pk ≠ some .cancelled

/-- A call that is to write `expired`, `locked` or `cancelled` onto a card has found the action
    pending, or in that status already. -/
def ActionStore.Found (s : ActionStore) : Option Owed → Prop
  | some (.mark pk state) => s.status pk = some .pending ∨ s.status pk = some state
  | some (.create _) => True
  | none => True

instance (s : ActionStore) (owed : Option Owed) : Decidable (s.Found owed) :=
  match owed with
  | some (.mark pk state) =>
    inferInstanceAs (Decidable (s.status pk = some .pending ∨ s.status pk = some state))
  | some (.create _) => isTrue trivial
  | none => isTrue trivial

/-- An action is asked for only when it has a card; a call that finds the time over, or the third
    wrong code, finds the action pending, or already expired or locked; and carrying out a change
    raises nothing unforeseen. -/
def Clear (checkPassword : String → String → Bool) (s : CardStore) (c : CardCall) :
    CardCall.Step → Prop
  | .go a => (c.call.phase = .begun → ∀ pk ∈ c.call.asked.action,
        (s.store.status pk).isSome = true → (s.cards pk).isSome = true)
      ∧ (c.call.phase ≠ .running → s.store.Found (due checkPassword s.store a c.call))
  | .write => True
  | .crash => False

instance (checkPassword : String → String → Bool) (s : CardStore) (c : CardCall)
    (a : CardCall.Step) : Decidable (Clear checkPassword s c a) :=
  match a with
  | .go a => inferInstanceAs (Decidable ((c.call.phase = .begun → ∀ pk ∈ c.call.asked.action,
        (s.store.status pk).isSome = true → (s.cards pk).isSome = true)
      ∧ (c.call.phase ≠ .running → s.store.Found (due checkPassword s.store a c.call))))
  | .write => isTrue trivial
  | .crash => isFalse id

/-! ### What a step does to the statuses -/

/-- The call has read its action, and has not returned. -/
def Call.Phase.isReached : Call.Phase → Bool
  | .loaded _ => true
  | .fresh _ => true
  | .holding _ _ => true
  | .cleared _ _ => true
  | .running => true
  | _ => false

/-- What a step of a call does to the statuses, and the card that is then owed. -/
inductive Call.Effect (s : ActionStore) (call : Call) (s' : ActionStore) (call' : Call) :
    Option Owed → Prop
  /-- Nothing: it reads its action, or goes on. -/
  | quiet : (∀ q, s'.status q = s.status q) → call.phase ≠ .running → call'.phase ≠ .running →
      (call'.phase.isReached = true → call.phase.isReached = true
        ∨ call.phase = .begun ∧ ∀ pk ∈ call.asked.action, (s.status pk).isSome = true) →
      Effect s call s' call' none
  | proposed {pk : ℕ} : call.asked.action = none → call.phase ≠ .running →
      call'.phase ≠ .running → s.status pk = none →
      (∀ q, s'.status q = if q = pk then some .pending else s.status q) →
      Effect s call s' call' (some (.create pk))
  /-- A conditional update, which may have found the action not pending. -/
  | concluded {pk : ℕ} {state : ActionState} : call.asked.action = some pk →
      call.phase.isReached = true → call.phase ≠ .running → call'.phase.isReached = false →
      state ≠ .pending → state ≠ .running →
      (∀ q, s'.status q
        = if q = pk ∧ s.status pk = some .pending then some state else s.status q) →
      Effect s call s' call' (some (.mark pk state))
  | took {pk : ℕ} : call.asked.action = some pk → call.phase.isReached = true →
      call.phase ≠ .running → call'.phase = .running → s.status pk = some .pending →
      (∀ q, s'.status q = if q = pk then some .running else s.status q) →
      Effect s call s' call' none
  | saved {pk : ℕ} {state : ActionState} : call.asked.action = some pk → call.phase = .running →
      call'.phase.isReached = false → state ≠ .pending → state ≠ .running →
      (∀ q, s'.status q
        = if q = pk ∧ (s.status pk).isSome = true then some state else s.status q) →
      Effect s call s' call' (some (.mark pk state))

section

variable {checkPassword : String → String → Bool} {s s' : ActionStore} {call call' : Call}
  {a : Call.Step} {user pk : ℕ} {state : ActionState}

theorem status_put {row row' : PendingAction} (hrow : s.actions.get? pk = some row) (q : ℕ) :
    ActionStore.status { s with actions := s.actions.put pk row' } q
      = if q = pk then some row'.status else s.status q := by
  unfold ActionStore.status
  dsimp only
  rw [Table.get?_put hrow]
  split <;> rfl

theorem status_conclude (q : ℕ) : (s.conclude pk state).status q
    = if q = pk ∧ s.status pk = some .pending then some state else s.status q := by
  unfold ActionStore.conclude
  split
  · next hrow =>
    have hnone : s.status pk = none := by rw [ActionStore.status, hrow]; rfl
    rw [if_neg (by rw [hnone]; rintro ⟨-, hpending⟩; cases hpending)]
  · next row hrow =>
    have hstatus : s.status pk = some row.status := by rw [ActionStore.status, hrow]; rfl
    rw [hstatus]
    split
    · next hpending =>
      rw [status_put hrow, hpending]
      simp only [and_true]
    · next hpending =>
      rw [if_neg fun h => hpending (Option.some.inj h.2)]

theorem status_saveResult {ok : Bool} {result : String} (q : ℕ) :
    (saveResult pk ok result s).status q = if q = pk ∧ (s.status pk).isSome = true
      then some (if ok then .done else .failed) else s.status q := by
  unfold saveResult
  split
  · next hrow =>
    have hnone : s.status pk = none := by rw [ActionStore.status, hrow]; rfl
    rw [if_neg (by rw [hnone]; rintro ⟨-, hsome⟩; cases hsome)]
  · next row hrow =>
    have hstatus : s.status pk = some row.status := by rw [ActionStore.status, hrow]; rfl
    rw [hstatus, status_put hrow]
    simp only [Option.isSome_some, and_true]

/-- Reading its action, a call finds it there or raises. -/
private theorem own_effect {asked : Asked} (hasked : asked.action = some pk) :
    Call.Effect s ⟨user, asked, .begun⟩ s ⟨user, asked, own user pk s⟩ none := by
  refine .quiet (fun _ => rfl) nofun ?_ fun hreached => .inr ⟨rfl, fun q hq => ?_⟩
  · unfold own
    split
    · nofun
    · split <;> nofun
  · obtain rfl := Option.some.inj (hasked.symm.trans hq)
    unfold own at hreached
    split at hreached
    · cases hreached
    · next row hrow => rw [ActionStore.status, hrow]; rfl

/-- Taking its action, a call finds it pending or raises. -/
private theorem take_effect {asked : Asked} {action : PendingAction}
    {code : Option VerificationCode} {entered : Option String} (hasked : asked.action = some pk) :
    Call.Effect s ⟨user, asked, .cleared action code⟩ (take user pk entered s).1
      ⟨user, asked, (take user pk entered s).2⟩ none := by
  unfold take
  split
  · exact .quiet (fun _ => rfl) nofun nofun nofun
  · next row hrow =>
    split
    · next hpending =>
      refine .took hasked rfl nofun rfl ?_ fun q => ?_
      · rw [ActionStore.status, hrow, Option.map_some, hpending]
      · exact status_put (s := s) hrow q
    · exact .quiet (fun _ => rfl) nofun nofun nofun

private theorem propose_effect {tool : String} {phase phase' : Call.Phase}
    (h : propose user tool s a phase = .ok (s', phase')) :
    Call.Effect s ⟨user, .propose tool, phase⟩ s' ⟨user, .propose tool, phase'⟩
      (due checkPassword s a ⟨user, .propose tool, phase⟩) := by
  unfold propose at h
  split at h
  · split at h
    · cases (pure_eq_ok _ _).mp h
      exact .quiet (fun _ => rfl) nofun nofun nofun
    · split at h
      · cases (pure_eq_ok _ _).mp h
        exact .quiet (fun _ => rfl) nofun nofun nofun
      · cases (pure_eq_ok _ _).mp h
        exact .quiet (fun _ => rfl) nofun nofun nofun
  · cases (pure_eq_ok _ _).mp h
    exact .quiet (fun _ => rfl) nofun nofun nofun
  · cases (pure_eq_ok _ _).mp h
    refine .proposed rfl nofun ?_ ?_ fun q => ?_
    · split <;> nofun
    · rw [ActionStore.status, Table.get?_nextPk]
      rfl
    · unfold ActionStore.status
      dsimp only
      rw [Table.get?_insert]
      split <;> rfl
  · cases (pure_eq_ok _ _).mp h
    exact .quiet (fun _ => rfl) nofun nofun nofun
  · cases h

private theorem approve_effect {phase phase' : Call.Phase}
    (h : approve user pk s a phase = .ok (s', phase')) :
    Call.Effect s ⟨user, .approve pk, phase⟩ s' ⟨user, .approve pk, phase'⟩
      (due checkPassword s a ⟨user, .approve pk, phase⟩) := by
  unfold approve at h
  split at h
  · cases (pure_eq_ok _ _).mp h
    exact own_effect rfl
  · next action =>
    show Call.Effect _ _ _ _ (if action.needs ≠ .code ∧ action.createdAt + LIFETIME < s.now then
      some (.mark pk .expired) else none)
    split at h
    · next hneeds =>
      cases (pure_eq_ok _ _).mp h
      rw [if_neg fun hdue => hdue.1 hneeds]
      exact .quiet (fun _ => rfl) nofun nofun nofun
    · next hneeds =>
      split at h
      · next hlate =>
        cases (pure_eq_ok _ _).mp h
        rw [if_pos ⟨hneeds, hlate⟩]
        exact .concluded rfl rfl nofun rfl nofun nofun status_conclude
      · next hlate =>
        cases (pure_eq_ok _ _).mp h
        rw [if_neg fun hdue => hlate hdue.2]
        exact .quiet (fun _ => rfl) nofun nofun fun _ => .inl rfl
  · split at h
    · cases (pure_eq_ok _ _).mp h
      exact .quiet (fun _ => rfl) nofun nofun nofun
    · cases (pure_eq_ok _ _).mp h
      exact .quiet (fun _ => rfl) nofun nofun fun _ => .inl rfl
  · next action code =>
    have h := (pure_eq_ok _ _).mp h
    have htaken : Call.Effect s ⟨user, .approve pk, .cleared action code⟩
        (take user pk none s).1 ⟨user, .approve pk, _⟩ none := take_effect rfl
    rwa [h] at htaken
  · next ok result =>
    cases (pure_eq_ok _ _).mp h
    refine .saved rfl rfl rfl ?_ ?_ status_saveResult
    · cases ok <;> nofun
    · cases ok <;> nofun
  · cases h

private theorem resendCode_effect {phase phase' : Call.Phase}
    (h : resendCode user pk s a phase = .ok (s', phase')) :
    Call.Effect s ⟨user, .resend pk, phase⟩ s' ⟨user, .resend pk, phase'⟩
      (due checkPassword s a ⟨user, .resend pk, phase⟩) := by
  unfold resendCode at h
  split at h
  · cases (pure_eq_ok _ _).mp h
    exact own_effect rfl
  · split at h
    · cases (pure_eq_ok _ _).mp h
      exact .quiet (fun _ => rfl) nofun nofun nofun
    · split at h
      · cases (pure_eq_ok _ _).mp h
        exact .quiet (fun _ => rfl) nofun nofun nofun
      · split at h
        · cases (pure_eq_ok _ _).mp h
          exact .quiet (fun _ => rfl) nofun nofun nofun
        · cases (pure_eq_ok _ _).mp h
          exact .quiet (fun _ => rfl) nofun nofun fun _ => .inl rfl
  · cases (pure_eq_ok _ _).mp h
    exact .quiet (fun _ => rfl) nofun nofun nofun
  · cases h

private theorem cancel_effect {phase phase' : Call.Phase}
    (h : cancel user pk s a phase = .ok (s', phase')) :
    Call.Effect s ⟨user, .cancel pk, phase⟩ s' ⟨user, .cancel pk, phase'⟩
      (due checkPassword s a ⟨user, .cancel pk, phase⟩) := by
  unfold cancel at h
  split at h
  · cases (pure_eq_ok _ _).mp h
    exact own_effect rfl
  · show Call.Effect _ _ _ _ (if s.status pk = some .pending then some (.mark pk .cancelled)
      else none)
    have hiff : (s.actions.get? pk).any (·.status = .pending) = true
        ↔ s.status pk = some .pending := by
      rw [ActionStore.status]
      cases s.actions.get? pk <;> simp
    split at h
    · next hpending =>
      cases (pure_eq_ok _ _).mp h
      rw [if_pos (hiff.mp hpending)]
      exact .concluded rfl rfl nofun rfl nofun nofun status_conclude
    · next hpending =>
      cases (pure_eq_ok _ _).mp h
      rw [if_neg fun hdue => hpending (hiff.mpr hdue)]
      exact .quiet (fun _ => rfl) nofun nofun nofun
  · cases h

private theorem verify_effect {entered : String} {phase phase' : Call.Phase}
    (h : verify checkPassword user pk entered s a phase = .ok (s', phase')) :
    Call.Effect s ⟨user, .verify pk entered, phase⟩ s' ⟨user, .verify pk entered, phase'⟩
      (due checkPassword s a ⟨user, .verify pk entered, phase⟩) := by
  unfold verify at h
  split at h
  · cases (pure_eq_ok _ _).mp h
    exact own_effect rfl
  · split at h
    · cases (pure_eq_ok _ _).mp h
      exact .quiet (fun _ => rfl) nofun nofun nofun
    · split at h
      · cases (pure_eq_ok _ _).mp h
        exact .quiet (fun _ => rfl) nofun nofun nofun
      · split at h
        · cases (pure_eq_ok _ _).mp h
          exact .quiet (fun _ => rfl) nofun nofun nofun
        · cases (pure_eq_ok _ _).mp h
          exact .quiet (fun _ => rfl) nofun nofun fun _ => .inl rfl
  · next action code =>
    show Call.Effect _ _ _ _ (if code.expiresAt < s.now ∨ action.createdAt + LIFETIME < s.now then
      some (.mark pk .expired) else if code.attempts < MAX_ATTEMPTS
        ∧ codeMatches checkPassword entered code = false ∧ MAX_ATTEMPTS ≤ code.attempts + 1 then
      some (.mark pk .locked) else none)
    split at h
    · next hlate =>
      cases (pure_eq_ok _ _).mp h
      rw [if_pos hlate]
      exact .concluded rfl rfl nofun rfl nofun nofun status_conclude
    · next hlate =>
      rw [if_neg hlate]
      split at h
      · next htries =>
        cases (pure_eq_ok _ _).mp h
        rw [if_neg fun hdue => absurd htries (Nat.not_le.mpr hdue.1)]
        exact .quiet (fun _ => rfl) nofun nofun nofun
      · next htries =>
        split at h
        · next hmatches =>
          cases (pure_eq_ok _ _).mp h
          rw [if_neg fun hdue => absurd (hdue.2.1.symm.trans hmatches) nofun]
          exact .quiet (fun _ => rfl) nofun nofun fun _ => .inl rfl
        · next hwrong =>
          have h := (pure_eq_ok _ _).mp h
          unfold wrongCode at h
          split at h
          · next hlast =>
            cases h
            rw [if_pos ⟨Nat.not_le.mp htries, Bool.eq_false_iff.mpr hwrong, hlast⟩]
            exact .concluded rfl rfl nofun rfl nofun nofun status_conclude
          · next hlast =>
            rw [if_neg fun hdue => hlast hdue.2.2]
            cases h
            exact .quiet (fun _ => rfl) nofun nofun nofun
  · next action code =>
    have h := (pure_eq_ok _ _).mp h
    have htaken : Call.Effect s ⟨user, .verify pk entered, .cleared action code⟩
        (take user pk (some entered) s).1 ⟨user, .verify pk entered, _⟩ none := take_effect rfl
    rwa [h] at htaken
  · next ok result =>
    cases (pure_eq_ok _ _).mp h
    refine .saved rfl rfl rfl ?_ ?_ status_saveResult
    · cases ok <;> nofun
    · cases ok <;> nofun
  · cases h

/-- **What a step of a call does to the statuses, and the card it then owes.** -/
theorem Call.effect (h : call.next checkPassword a s = .ok (s', call')) :
    call'.asked = call.asked
      ∧ Call.Effect s call s' call' (due checkPassword s a call) := by
  obtain ⟨user, asked, phase⟩ := call
  obtain ⟨⟨_, phase'⟩, hnext, h⟩ := bind_eq_ok.mp h
  cases (pure_eq_ok _ _).mp h
  refine ⟨rfl, ?_⟩
  cases asked with
  | propose tool => exact propose_effect hnext
  | approve pk => exact approve_effect hnext
  | verify pk entered => exact verify_effect hnext
  | resend pk => exact resendCode_effect hnext
  | cancel pk => exact cancel_effect hnext

/-- No action goes away. -/
theorem Call.Effect.status_eq_none {owed : Option Owed} (h : Call.Effect s call s' call' owed)
    {q : ℕ} (hnone : s'.status q = none) : s.status q = none := by
  cases h with
  | quiet hstatus => rw [← hstatus q, hnone]
  | proposed _ _ _ _ hstatus | concluded _ _ _ _ _ _ hstatus | took _ _ _ _ _ hstatus
  | saved _ _ _ _ _ hstatus =>
    rw [hstatus q] at hnone
    split at hnone
    · cases hnone
    · exact hnone

end

/-! ### Why the cards are right -/

/-- The call carries the action out. -/
def CardCall.Runs (c : CardCall) (pk : ℕ) : Prop :=
  c.call.asked.action = some pk ∧ c.call.phase = .running

/-- The call is the only one to write the card of the action: it carries it out, or has proposed
    it. -/
def CardCall.Owns (c : CardCall) (pk : ℕ) : Prop := c.Runs pk ∨ c.owed = some (.create pk)

/-- The call has put the action into this status, and has still to write the card. -/
def CardCall.Claims (c : CardCall) (pk : ℕ) (state : ActionState) : Prop :=
  (c.owed = some (.create pk) ∧ state = .pending) ∨ c.owed = some (.mark pk state)
    ∨ (c.Runs pk ∧ state = .running)

/-- What holds of a call, wherever it is. -/
structure CardCall.Sound (s : CardStore) (c : CardCall) : Prop where
  claims : ∀ pk state, c.Claims pk state → s.store.status pk = some state
  created : ∀ pk, c.owed = some (.create pk) → s.cards pk = none
  marked : ∀ pk state, c.owed = some (.mark pk state) → state ≠ .pending ∧ state ≠ .running
    ∧ (s.cards pk).isSome = true
  reached : ∀ pk, c.call.asked.action = some pk → c.call.phase.isReached = true →
    (s.cards pk).isSome = true

/-- What holds of the records. -/
structure CardStore.Sound (s : CardStore) : Prop where
  fresh : ∀ pk, s.store.status pk = none → s.cards pk = none
  plain : ∀ pk, s.cards pk ≠ some .running

/-- The card says what the action is, or it is old, and one of these calls has still to write it. -/
def CardStore.Due (s : CardStore) (P : CardCall → Prop) (pk : ℕ) (state : ActionState) : Prop :=
  s.cards pk = some state ∨ ((s.cards pk = none ∨ s.cards pk = some .pending)
    ∧ ∃ c, P c ∧ c.Claims pk state)

/-- Every card is right, or still to be written. -/
def Covered (s : System CardStore CardCall) : Prop :=
  ∀ pk state, s.shared.store.status pk = some state →
    s.shared.Due (fun c => ∃ i, s.workers.get? i = some c) pk state

/-- What a step of a call does, where it is clear. -/
inductive CardCall.Did (s : CardStore) (c : CardCall) : CardStore → CardCall → Prop
  | went {store : ActionStore} {call : Call} {owed : Option Owed} : c.owed = none →
      call.asked = c.call.asked → Call.Effect s.store c.call store call owed →
      (c.call.phase = .begun → ∀ pk ∈ c.call.asked.action, (s.store.status pk).isSome = true →
        (s.cards pk).isSome = true) →
      (c.call.phase ≠ .running → s.store.Found owed) →
      Did s c { s with store } ⟨call, owed⟩
  | wrote {owed : Owed} : c.owed = some owed → Did s c (s.write owed) { c with owed := none }

section

variable {checkPassword : String → String → Bool} {s s' : CardStore} {c c' other : CardCall}
  {a : CardCall.Step} {pk : ℕ} {state : ActionState} {P : CardCall → Prop}

theorem CardCall.did (h : ((carding checkPassword).under (Clear checkPassword)).step a s c
    = .ok (s', c')) : CardCall.Did s c s' c' := by
  obtain ⟨hclear, hstep⟩ := Interleaving.under_step_eq_ok.mp h
  change c.next checkPassword a s = .ok (s', c') at hstep
  unfold CardCall.next at hstep
  split at hstep
  · next a howed =>
    obtain ⟨⟨store, call⟩, hnext, hstep⟩ := bind_eq_ok.mp hstep
    cases (pure_eq_ok _ _).mp hstep
    obtain ⟨hasked, heffect⟩ := Call.effect hnext
    exact .went howed hasked heffect hclear.1 hclear.2
  · next owed howed =>
    cases (pure_eq_ok _ _).mp hstep
    exact .wrote howed
  · exact hclear.elim
  · cases hstep

theorem status_outside {store store' : ActionStore} {around : Surroundings}
    (h : around.apply store = .ok store') (pk : ℕ) : store'.status pk = store.status pk := by
  cases around with
  | tick now =>
    obtain ⟨_, -, h⟩ := bind_eq_ok.mp h
    cases (pure_eq_ok _ _).mp h
    rfl
  | switch changesOn =>
    cases (pure_eq_ok _ _).mp h
    rfl

theorem CardCall.not_runs_of_not_reached (h : c.call.phase.isReached = false) : ¬c.Runs pk := by
  rintro ⟨-, hrunning⟩
  rw [hrunning] at h
  cases h

theorem CardCall.not_runs_of_ne (h : c.call.phase ≠ .running) : ¬c.Runs pk := fun hruns =>
  h hruns.2

/-- A call that owes no card and carries nothing out claims nothing. -/
theorem CardCall.not_claims (howed : c.owed = none) (hruns : ¬c.Runs pk) :
    ¬c.Claims pk state := by
  rintro (⟨hcreate, -⟩ | hmark | ⟨hrun, -⟩)
  · rw [howed] at hcreate
    cases hcreate
  · rw [howed] at hmark
    cases hmark
  · exact hruns hrun

/-- **A step keeps the records sound.** -/
theorem CardStore.Sound.did (hs : s.Sound) (hc : c.Sound s) (h : CardCall.Did s c s' c') :
    s'.Sound := by
  cases h with
  | went _ _ heffect _ _ =>
    exact ⟨fun q hnone => hs.fresh q (heffect.status_eq_none hnone), hs.plain⟩
  | @wrote owed howed =>
    cases owed with
    | create pk =>
      have hstatus := hc.claims pk .pending (.inl ⟨howed, rfl⟩)
      constructor
      · intro q hnone
        have hq : q ≠ pk := by
          rintro rfl
          cases hstatus.symm.trans hnone
        exact (if_neg hq).trans (hs.fresh q hnone)
      · intro q
        show (if q = pk then _ else _) ≠ _
        split
        · nofun
        · exact hs.plain q
    | mark pk state =>
      have hmarked := hc.marked pk state howed
      constructor
      · intro q hnone
        show (if q = pk then _ else _) = none
        split
        · next hq => rw [← hq, hs.fresh q hnone, Option.map_none]
        · exact hs.fresh q hnone
      · intro q
        show (if q = pk then _ else _) ≠ _
        split
        · rw [Ne, Option.map_eq_some_iff]
          rintro ⟨_, -, hrunning⟩
          exact hmarked.2.1 hrunning
        · exact hs.plain q

/-- A card that is there stays. -/
theorem CardStore.isSome_write {owed : Owed} {q : ℕ} (h : (s.cards q).isSome = true) :
    ((s.write owed).cards q).isSome = true := by
  cases owed with
  | create pk =>
    show Option.isSome (if q = pk then _ else _) = true
    split
    · rfl
    · exact h
  | mark pk state =>
    show Option.isSome (if q = pk then _ else _) = true
    split
    · next hq => rw [← hq, Option.isSome_map, h]
    · exact h

/-- **A step keeps what holds of the call that takes it.** -/
theorem CardCall.Sound.did (hc : c.Sound s) (hs : s.Sound) (h : CardCall.Did s c s' c') :
    c'.Sound s' := by
  cases h with
  | @went store call owed howed hasked heffect hload hfound =>
    cases heffect with
    | quiet hstatus _ hrunning hreached =>
      constructor
      · exact fun pk state hclaims => absurd hclaims
          (not_claims rfl (not_runs_of_ne hrunning))
      · nofun
      · nofun
      · intro pk haction hreached'
        rw [hasked] at haction
        rcases hreached hreached' with hbefore | ⟨hbegun, hsome⟩
        · exact hc.reached pk haction hbefore
        · exact hload hbegun pk haction (hsome pk haction)
    | @proposed pk haction _ hrunning hnone hstatus =>
      constructor
      · rintro q state (⟨hcreate, rfl⟩ | hmark | ⟨hruns, -⟩)
        · obtain rfl := Owed.create.inj (Option.some.inj hcreate)
          exact (hstatus pk).trans (if_pos rfl)
        · cases hmark
        · exact absurd hruns (not_runs_of_ne hrunning)
      · intro q hcreate
        obtain rfl := Owed.create.inj (Option.some.inj hcreate)
        exact hs.fresh pk hnone
      · nofun
      · intro q hq
        rw [hasked, haction] at hq
        cases hq
    | @concluded pk state haction hreached hrunning hreached' hpending hrun hstatus =>
      -- the action it read has its card
      have hcard := hc.reached pk haction hreached
      constructor
      · rintro q state' (⟨hcreate, -⟩ | hmark | ⟨hruns, -⟩)
        · cases hcreate
        · obtain ⟨rfl, rfl⟩ := Owed.mark.inj (Option.some.inj hmark)
          rw [hstatus pk]
          split
          · rfl
          · next hnot =>
            exact (hfound hrunning).resolve_left fun h => hnot ⟨rfl, h⟩
        · exact absurd hruns (not_runs_of_not_reached hreached')
      · nofun
      · intro q state' hmark
        obtain ⟨rfl, rfl⟩ := Owed.mark.inj (Option.some.inj hmark)
        exact ⟨hpending, hrun, hcard⟩
      · intro q _ hq
        rw [hreached'] at hq
        cases hq
    | @took pk haction hreached _ hrunning hpending hstatus =>
      constructor
      · rintro q state (⟨hcreate, -⟩ | hmark | ⟨⟨hq, -⟩, rfl⟩)
        · cases hcreate
        · cases hmark
        · rw [hasked, haction] at hq
          obtain rfl := Option.some.inj hq
          exact (hstatus pk).trans (if_pos rfl)
      · nofun
      · nofun
      · intro q hq _
        rw [hasked] at hq
        exact hc.reached q hq hreached
    | @saved pk state haction hphase hreached' hpending hrun hstatus =>
      have hcard := hc.reached pk haction (by rw [hphase]; rfl)
      -- nobody else moves a running action
      have hrunning := hc.claims pk .running (.inr (.inr ⟨⟨haction, hphase⟩, rfl⟩))
      constructor
      · rintro q state' (⟨hcreate, -⟩ | hmark | ⟨hruns, -⟩)
        · cases hcreate
        · obtain ⟨rfl, rfl⟩ := Owed.mark.inj (Option.some.inj hmark)
          exact (hstatus pk).trans (if_pos ⟨rfl, by rw [hrunning]; rfl⟩)
        · exact absurd hruns (not_runs_of_not_reached hreached')
      · nofun
      · intro q state' hmark
        obtain ⟨rfl, rfl⟩ := Owed.mark.inj (Option.some.inj hmark)
        exact ⟨hpending, hrun, hcard⟩
      · intro q _ hq
        rw [hreached'] at hq
        cases hq
  | @wrote owed howed =>
    constructor
    · rintro pk state (⟨hcreate, -⟩ | hmark | hruns)
      · cases hcreate
      · cases hmark
      · have hstatus := hc.claims pk state (.inr (.inr hruns))
        cases owed <;> exact hstatus
    · nofun
    · nofun
    · exact fun pk haction hreached => CardStore.isSome_write (hc.reached pk haction hreached)

/-- An action with a card is pending for no call. -/
theorem CardCall.Sound.not_claims_pending (hother : other.Sound s)
    (hcard : (s.cards pk).isSome = true) : ¬other.Claims pk .pending := by
  rintro (⟨hcreate, -⟩ | hmark | ⟨-, hpending⟩)
  · rw [hother.created pk hcreate] at hcard
    cases hcard
  · exact (hother.marked pk _ hmark).1 rfl
  · cases hpending

/-- An action that another call carries out is not running for this one. -/
theorem CardCall.Sound.not_claims_running (hother : other.Sound s) (howns : ¬other.Owns pk) :
    ¬other.Claims pk .running := by
  rintro (⟨-, hrunning⟩ | hmark | ⟨hruns, -⟩)
  · cases hrunning
  · exact (hother.marked pk _ hmark).2.1 rfl
  · exact howns (.inl hruns)

/-- A step does not move the status of an action for which another call has a card to write. -/
theorem CardCall.Sound.status_eq {store : ActionStore} {call : Call} {owed : Option Owed}
    (hother : other.Sound s) (hc : c.Sound s) (hapart : ∀ pk, c.Owns pk → ¬other.Owns pk)
    (heffect : Call.Effect s.store c.call store call owed) (hclaims : other.Claims pk state) :
    store.status pk = some state := by
  have hbefore := hother.claims pk state hclaims
  cases heffect with
  | quiet hstatus => exact (hstatus pk).trans hbefore
  | @proposed q _ _ _ hnone hstatus =>
    rw [hstatus pk, if_neg, hbefore]
    rintro rfl
    cases hnone.symm.trans hbefore
  | @concluded q state' haction hreached _ _ _ _ hstatus =>
    rw [hstatus pk, if_neg, hbefore]
    rintro ⟨rfl, hpending⟩
    obtain rfl := Option.some.inj (hpending.symm.trans hbefore)
    exact hother.not_claims_pending (hc.reached pk haction hreached) hclaims
  | @took q haction hreached _ _ hpending hstatus =>
    rw [hstatus pk, if_neg, hbefore]
    rintro rfl
    obtain rfl := Option.some.inj (hpending.symm.trans hbefore)
    exact hother.not_claims_pending (hc.reached pk haction hreached) hclaims
  | @saved q state' haction hphase _ _ _ hstatus =>
    rw [hstatus pk, if_neg, hbefore]
    rintro ⟨rfl, -⟩
    have hrunning := hc.claims pk .running (.inr (.inr ⟨⟨haction, hphase⟩, rfl⟩))
    obtain rfl := Option.some.inj (hrunning.symm.trans hbefore)
    exact hother.not_claims_running (hapart pk (.inl ⟨haction, hphase⟩)) hclaims

/-- **A step keeps what holds of another call.** -/
theorem CardCall.Sound.of_did (hother : other.Sound s) (hc : c.Sound s)
    (hapart : ∀ pk, c.Owns pk → ¬other.Owns pk) (h : CardCall.Did s c s' c') :
    other.Sound s' := by
  cases h with
  | went _ _ heffect _ _ =>
    exact ⟨fun _ _ hclaims => hother.status_eq hc hapart heffect hclaims, hother.created,
      hother.marked, hother.reached⟩
  | @wrote owed howed =>
    refine ⟨?_, ?_, ?_, ?_⟩
    · intro pk state hclaims
      cases owed <;> exact hother.claims pk state hclaims
    · intro pk hcreate
      have hnone := hother.created pk hcreate
      cases owed with
      | create q =>
        refine (if_neg ?_).trans hnone
        rintro rfl
        exact hapart pk (.inr howed) (.inr hcreate)
      | mark q state =>
        show (if pk = q then _ else _) = none
        split
        · next hq => rw [← hq, hnone, Option.map_none]
        · exact hnone
    · intro pk state hmark
      obtain ⟨hpending, hrunning, hcard⟩ := hother.marked pk state hmark
      exact ⟨hpending, hrunning, CardStore.isSome_write hcard⟩
    · exact fun pk haction hreached =>
        CardStore.isSome_write (hother.reached pk haction hreached)

/-- **No two calls write the card of an action on their own.** -/
theorem CardCall.Did.apart (h : CardCall.Did s c s' c') (hc : c.Sound s) (hother : other.Sound s)
    (hapart : ∀ pk, c.Owns pk → ¬other.Owns pk) : ∀ pk, c'.Owns pk → ¬other.Owns pk := by
  cases h with
  | went howed hasked heffect hload hfound =>
    cases heffect with
    | quiet _ _ hrunning _ =>
      rintro pk (hruns | hcreate)
      · exact absurd hruns (not_runs_of_ne hrunning)
      · cases hcreate
    | @proposed pk _ _ hrunning hnone _ =>
      rintro q (hruns | hcreate)
      · exact absurd hruns (not_runs_of_ne hrunning)
      · obtain rfl := Owed.create.inj (Option.some.inj hcreate)
        rintro (hruns | hcreate')
        · cases hnone.symm.trans (hother.claims pk _ (.inr (.inr ⟨hruns, rfl⟩)))
        · cases hnone.symm.trans (hother.claims pk _ (.inl ⟨hcreate', rfl⟩))
    | concluded _ _ _ hreached' _ _ _ =>
      rintro pk (hruns | hcreate)
      · exact absurd hruns (not_runs_of_not_reached hreached')
      · cases hcreate
    | @took pk haction hreached _ _ hpending _ =>
      rintro q (⟨hq, -⟩ | hcreate)
      · rw [hasked, haction] at hq
        obtain rfl := Option.some.inj hq
        rintro (hruns | hcreate')
        · cases hpending.symm.trans (hother.claims pk _ (.inr (.inr ⟨hruns, rfl⟩)))
        · exact hother.not_claims_pending (hc.reached pk haction hreached) (.inl ⟨hcreate', rfl⟩)
      · cases hcreate
    | saved _ _ hreached' _ _ _ =>
      rintro pk (hruns | hcreate)
      · exact absurd hruns (not_runs_of_not_reached hreached')
      · cases hcreate
  | wrote howed =>
    rintro pk (hruns | hcreate)
    · exact hapart pk (.inl hruns)
    · cases hcreate

/-- **A step leaves every card right, or owed**: by the call that takes it, or by another one that
    owes it still. -/
theorem CardCall.Did.due (h : CardCall.Did s c s' c') (hc : c.Sound s) (hs : s.Sound)
    (hdue : ∀ pk state, s.store.status pk = some state → s.Due (fun w => w = c ∨ P w) pk state) :
    ∀ pk state, s'.store.status pk = some state → s'.Due (fun w => w = c' ∨ P w) pk state := by
  -- a card that is not written, and still owed if the call owed it
  have hkept : ∀ {cards : ℕ → Option ActionState} {store : ActionStore} {pk : ℕ}
      {state : ActionState}, cards pk = s.cards pk → s.store.status pk = some state →
      (c.Claims pk state → c'.Claims pk state) →
      CardStore.Due ⟨store, cards⟩ (fun w => w = c' ∨ P w) pk state := by
    intro cards store pk state hcards hstatus hclaims
    unfold CardStore.Due
    dsimp only
    rw [hcards]
    rcases hdue pk state hstatus with hright | ⟨hold, w, rfl | hw, hw'⟩
    · exact .inl hright
    · exact .inr ⟨hold, c', .inl rfl, hclaims hw'⟩
    · exact .inr ⟨hold, w, .inr hw, hw'⟩
  cases h with
  | @went store call owed howed hasked heffect hload hfound =>
    -- the card of an action that was pending is there and pending, or still owed
    have hpending : ∀ {pk : ℕ} {state : ActionState}, s.store.status pk = some .pending →
        CardCall.Claims ⟨call, owed⟩ pk state →
        CardStore.Due { s with store } (fun w => w = ⟨call, owed⟩ ∨ P w) pk state := by
      intro pk state hstatus hclaims
      rcases hdue pk .pending hstatus with hright | ⟨hold, -⟩
      · exact .inr ⟨.inr hright, _, .inl rfl, hclaims⟩
      · exact .inr ⟨hold, _, .inl rfl, hclaims⟩
    intro q state hstatus'
    cases heffect with
    | quiet hstatus hrunning _ _ =>
      exact hkept rfl ((hstatus q).symm.trans hstatus') fun hclaims =>
        absurd hclaims (not_claims howed (not_runs_of_ne hrunning))
    | @proposed pk haction hrunning _ hnone hstatus =>
      rw [show _ = _ from hstatus q] at hstatus'
      split at hstatus'
      · next hq =>
        obtain rfl := Option.some.inj hstatus'
        exact .inr ⟨.inl (hq ▸ hs.fresh pk hnone), _, .inl rfl, .inl ⟨hq ▸ rfl, rfl⟩⟩
      · exact hkept rfl hstatus' fun hclaims =>
          absurd hclaims (not_claims howed (not_runs_of_ne hrunning))
    | @concluded pk state' _ _ hrunning _ _ _ hstatus =>
      rw [show _ = _ from hstatus q] at hstatus'
      split at hstatus'
      · next hq =>
        obtain ⟨rfl, hbefore⟩ := hq
        obtain rfl := Option.some.inj hstatus'
        exact hpending hbefore (.inr (.inl rfl))
      · exact hkept rfl hstatus' fun hclaims =>
          absurd hclaims (not_claims howed (not_runs_of_ne hrunning))
    | @took pk haction _ hrunning hrunning' hbefore hstatus =>
      rw [show _ = _ from hstatus q] at hstatus'
      split at hstatus'
      · next hq =>
        obtain rfl := hq
        obtain rfl := Option.some.inj hstatus'
        have haction' := (congrArg Asked.action hasked).trans haction
        exact hpending hbefore (.inr (.inr ⟨⟨haction', hrunning'⟩, rfl⟩))
      · exact hkept rfl hstatus' fun hclaims =>
          absurd hclaims (not_claims howed (not_runs_of_ne hrunning))
    | @saved pk state' haction hphase _ _ _ hstatus =>
      have hbefore := hc.claims pk .running (.inr (.inr ⟨⟨haction, hphase⟩, rfl⟩))
      rw [show _ = _ from hstatus q] at hstatus'
      split at hstatus'
      · next hq =>
        obtain ⟨rfl, -⟩ := hq
        obtain rfl := Option.some.inj hstatus'
        rcases hdue q .running hbefore with hright | ⟨hold, -⟩
        · exact absurd hright (hs.plain q)
        · exact .inr ⟨hold, _, .inl rfl, .inr (.inl rfl)⟩
      · next hq =>
        refine hkept rfl hstatus' fun hclaims => absurd hclaims (not_claims howed ?_)
        rintro ⟨hruns, -⟩
        obtain rfl := Option.some.inj (haction.symm.trans hruns)
        exact hq ⟨rfl, by rw [hbefore]; rfl⟩
  | @wrote owed howed =>
    -- the call may carry another action out, which it goes on to do
    have hruns : ∀ {q : ℕ} {state : ActionState}, (∀ pk, owed = .create pk → q ≠ pk) →
        (∀ pk state, owed = .mark pk state → q ≠ pk) → c.Claims q state →
        CardCall.Claims { c with owed := none } q state := by
      rintro q state hcreate hmark (⟨hq, -⟩ | hq | hq)
      · exact absurd rfl (hcreate q (Option.some.inj (howed.symm.trans hq)))
      · exact absurd rfl (hmark q state (Option.some.inj (howed.symm.trans hq)))
      · exact .inr (.inr hq)
    intro q state hstatus
    cases owed with
    | create pk =>
      by_cases hq : q = pk
      · subst hq
        have hpending := hc.claims q .pending (.inl ⟨howed, rfl⟩)
        obtain rfl := Option.some.inj (hpending.symm.trans hstatus)
        exact .inl (if_pos rfl)
      · refine hkept (if_neg hq) hstatus (hruns (fun pk' heq => ?_) nofun)
        exact Owed.create.inj heq ▸ hq
    | mark pk state' =>
      by_cases hq : q = pk
      · subst hq
        obtain ⟨-, -, hcard⟩ := hc.marked q state' howed
        obtain rfl := Option.some.inj
          ((hc.claims q state' (.inr (.inl howed))).symm.trans hstatus)
        refine .inl ((if_pos rfl).trans ?_)
        obtain ⟨card, hcard⟩ := Option.isSome_iff_exists.mp hcard
        rw [hcard, Option.map_some]
      · refine hkept (if_neg hq) hstatus (hruns nofun fun pk' state'' heq => ?_)
        exact (Owed.mark.inj heq).1 ▸ hq

theorem CardStore.Due.mono {P P' : CardCall → Prop} (h : s.Due P pk state)
    (hP : ∀ c, P c → P' c) : s.Due P' pk state := by
  rcases h with hright | ⟨hold, c, hc, hclaims⟩
  · exact .inl hright
  · exact .inr ⟨hold, c, hP c hc, hclaims⟩

theorem CardCall.sound_start (user : ℕ) (asked : Asked) :
    CardCall.Sound s { call := { user, asked } } where
  claims _ _ h := absurd h (not_claims rfl (not_runs_of_ne nofun))
  created _ h := nomatch h
  marked _ _ h := nomatch h
  reached _ _ h := nomatch h

end

/-- Why the cards are right. -/
def cardOutline (checkPassword : String → String → Bool) :
    Outline ((carding checkPassword).under (Clear checkPassword)) Discipline.free where
  shared := CardStore.Sound
  own s c := c.Sound s
  pair c other := ∀ pk, c.Owns pk → ¬other.Owns pk
  pair_symm := fun _ _ h pk howns' howns => h pk howns howns'
  start_own := by
    intro request s s' c h hs
    cases (pure_eq_ok _ _).mp h
    exact ⟨hs, CardCall.sound_start _ _⟩
  start_other := by
    intro request s s' c other h _ hother
    cases (pure_eq_ok _ _).mp h
    refine ⟨hother, ?_⟩
    rintro pk (hruns | hcreate)
    · cases hruns.2
    · cases hcreate
  step_own := by
    intro a s s' c c' h hs hc
    have hdid := CardCall.did h
    exact ⟨hs.did hc hdid, hc.did hs hdid⟩
  step_other := by
    intro a s s' c c' other h hs hc hother hapart _
    have hdid := CardCall.did h
    exact ⟨hother.of_did hc hapart hdid, hdid.apart hc hother hapart⟩
  outside_shared := by
    intro c s s' h hs
    obtain ⟨store, hstore, h⟩ := bind_eq_ok.mp h
    cases (pure_eq_ok _ _).mp h
    have hstatus := status_outside hstore
    exact ⟨fun pk hnone => hs.fresh pk ((hstatus pk).symm.trans hnone), hs.plain⟩
  outside_other := by
    intro c s s' other h _ hother _
    obtain ⟨store, hstore, h⟩ := bind_eq_ok.mp h
    cases (pure_eq_ok _ _).mp h
    have hstatus := status_outside hstore
    exact ⟨fun pk state hclaims => (hstatus pk).trans (hother.claims pk state hclaims),
      hother.created, hother.marked, hother.reached⟩

section

variable {checkPassword : String → String → Bool} {s s' : System CardStore CardCall}
  {t : Turn (ℕ × Asked) CardCall.Step Surroundings} {out : List PUnit}

/-- **A step leaves every card right or owed.** -/
theorem Covered.step (hcovered : Covered s) (hholds : (cardOutline checkPassword).Holds s)
    (h : ((carding checkPassword).under (Clear checkPassword)).machine.Commits t s s' out) :
    Covered s' := by
  cases t with
  | start request =>
    obtain ⟨c, hstart, hworkers⟩ := Interleaving.start_eq_ok h
    obtain ⟨hshared, rfl⟩ := Prod.mk.inj ((pure_eq_ok _ _).mp hstart)
    intro pk state hstatus
    rw [← hshared] at hstatus ⊢
    refine (hcovered pk state hstatus).mono fun other hother => ?_
    obtain ⟨i, hi⟩ := hother
    exact ⟨i, by rw [hworkers]; exact Table.get?_insert_of_some hi⟩
  | step i a =>
    obtain ⟨c, c', hc, hstep, hworkers⟩ := Interleaving.step_eq_ok h
    have hdid := CardCall.did hstep
    intro pk state hstatus
    refine (hdid.due (P := fun other => ∃ j, j ≠ i ∧ s.workers.get? j = some other)
      (hholds.own i c hc) hholds.shared (fun pk state hstatus => ?_) pk state hstatus).mono ?_
    · refine (hcovered pk state hstatus).mono fun other hother => ?_
      obtain ⟨j, hj⟩ := hother
      by_cases hji : j = i
      · rw [hji, hc] at hj
        exact .inl (Option.some.inj hj).symm
      · exact .inr ⟨j, hji, hj⟩
    · rintro other (rfl | ⟨j, hji, hj⟩)
      · exact ⟨i, by rw [hworkers]; exact Table.get?_put_self hc _⟩
      · exact ⟨j, by rw [hworkers, Table.get?_put_of_ne hji]; exact hj⟩
  | outside c =>
    obtain ⟨houtside, hworkers⟩ := Interleaving.outside_eq_ok h
    obtain ⟨store, hstore, houtside⟩ := bind_eq_ok.mp houtside
    have hshared := (pure_eq_ok _ _).mp houtside
    intro pk state hstatus
    rw [← hshared] at hstatus ⊢
    rw [hworkers]
    exact hcovered pk state ((status_outside hstore pk).symm.trans hstatus)

/-- Where every card is right or owed, no change is shown as something else. -/
theorem Covered.shown (hcovered : Covered s) : Shown s where
  settled := by
    intro hover pk state hstatus
    rcases hcovered pk state hstatus with hright | ⟨-, c, ⟨i, hi⟩, hclaims⟩
    · exact hright
    · obtain ⟨howed, hphase⟩ := hover i c hi
      refine absurd hclaims (CardCall.not_claims howed (CardCall.not_runs_of_ne ?_))
      rcases hphase with hphase | ⟨error, hphase⟩
      · rw [hphase]
        nofun
      · rw [hphase]
        nofun
  carriedOut := by
    -- a card that is old is not there, or pending
    have hold : ∀ pk state, s.shared.store.status pk = some state → state ≠ .expired →
        state ≠ .cancelled →
        s.shared.cards pk ≠ some .expired ∧ s.shared.cards pk ≠ some .cancelled := by
      intro pk state hstatus hexpired hcancelled
      rcases hcovered pk state hstatus with hright | ⟨hnone | hpending, -⟩
      · rw [hright]
        exact ⟨fun heq => hexpired (Option.some.inj heq),
          fun heq => hcancelled (Option.some.inj heq)⟩
      · rw [hnone]
        exact ⟨nofun, nofun⟩
      · rw [hpending]
        exact ⟨nofun, nofun⟩
    rintro pk (hstatus | hstatus | hstatus)
    · exact hold pk _ hstatus nofun nofun
    · exact hold pk _ hstatus nofun nofun
    · exact hold pk _ hstatus nofun nofun

end

/-- **While no call is in progress the cards say what the actions are, and no change that was
    carried out is shown as expired or cancelled**, in every run in which an action is asked for
    once it has a card, a call that finds the time over or the third wrong code finds the action
    pending (or already expired or locked), and carrying out a change raises nothing unforeseen. -/
theorem alwaysShown (checkPassword : String → String → Bool)
    (turns : List (Turn (ℕ × Asked) CardCall.Step Surroundings)) (now : ℕ) (changesOn : Bool)
    (hclear : (carding checkPassword).machine.EachStep
      (fun s turn _ => turn.Meets (Clear checkPassword) s) turns
      ⟨⟨{ now, changesOn }, fun _ => none⟩, {}⟩) :
    (carding checkPassword).machine.Always Shown turns
      ⟨⟨{ now, changesOn }, fun _ => none⟩, {}⟩ := by
  refine (cardOutline checkPassword).always_under_with (I := Covered)
    (fun _ _ _ _ hholds hcovered h => hcovered.step hholds h) (fun _ _ hcovered => hcovered.shown)
    turns _ (.start _ ⟨fun _ _ => rfl, nofun⟩) (fun pk state hstatus => ?_) ?_
  · unfold ActionStore.status at hstatus
    rw [Table.get?_empty] at hstatus
    cases hstatus
  · exact Machine.eachStep_of_eachStep (I := fun _ => True) (fun _ _ _ _ _ _ _ => trivial)
      (fun t s _ _ _ _ hmeets => ⟨hmeets, Discipline.respected_free s t⟩) turns _ trivial hclear

/-- Two calls that come too late find the action pending, and then expired. -/
theorem alwaysShown_expired : (carding (· == ·)).machine.Always Shown
    ([.start (7, .propose "renew_ssl"), .step 0 (.go .go), .step 0 (.go (.describe "Renew SSL")),
      .step 0 .write, .outside (.tick 1801), .start (7, .approve 0), .step 1 (.go .go),
      .step 1 (.go .go), .step 1 .write, .start (7, .approve 0), .step 2 (.go .go),
      .step 2 (.go .go), .step 2 .write])
    ⟨⟨{ now := 0, changesOn := true }, fun _ => none⟩, {}⟩ :=
  alwaysShown _ _ 0 true (Machine.eachStep_of_trace (by decide +kernel))

private abbrev CardTurns : Type := List (Turn (ℕ × Asked) CardCall.Step Surroundings)

/-- **A change that was carried out is shown as expired**: it is approved again half an hour
    later. -/
theorem not_alwaysShown : ¬(carding (· == ·)).machine.Always Shown
    ((.start (7, .propose "renew_ssl") :: .step 0 (.go .go)
      :: .step 0 (.go (.describe "Renew SSL")) :: .step 0 .write :: .start (7, .approve 0)
      :: List.replicate 4 (.step 1 (.go .go)) : CardTurns)
      ++ ([.step 1 (.go (.ran true "It is renewed.")), .step 1 .write, .outside (.tick 1801),
        .start (7, .approve 0), .step 2 (.go .go), .step 2 (.go .go), .step 2 .write] : CardTurns))
    ⟨⟨{ now := 0, changesOn := true }, fun _ => none⟩, {}⟩ := by
  intro h
  have hshown := (h.last.carriedOut 0 (.inr (.inl (by decide +kernel)))).1
  exact hshown (by decide +kernel)

end WPanel.Assistant
