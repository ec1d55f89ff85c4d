import GraphSession.Proofs.History

/-!
  The dialogue on a connection.

  Between the moment when the pool lends a connection and the moment when it gets it back, the
  session holds a dialogue with the server on it.  `Dialogue` is how far that has come, read off the
  messages and their answers alone: which result's stream is open, which transaction is open, and
  whether something failed.  `Dialogue.Allows` says which message may come next and from whom, and
  `Proper` says of everything that happened that it respected this and the loans of the pool, that a
  connection goes back clean, and that a caller who looks at a transaction sees how it stands in its
  dialogue.
-/

namespace GraphSession

/-- How far the dialogue on a connection has come. -/
structure Dialogue where
  /-- The result whose query opened the stream that is open. -/
  stream : Option ResultId := none
  /-- How many records of that stream the server has sent. -/
  served : Nat := 0
  /-- The transaction whose begin opened the transaction that is open. -/
  transaction : Option TransactionId := none
  /-- Whether a message failed, other than telemetry or a reset. -/
  failed : Bool := false
  /-- Whether a reset was sent, successful or not. -/
  reset : Bool := false
  deriving DecidableEq, Repr

namespace Dialogue

/-- The dialogue after a message and its answer.  A stream stays open until a pull leaves no record
    behind, or until a discard, commit, rollback or reset succeeds. -/
def after (d : Dialogue) (sender : Sender) : (m : Message) → Except Fault m.Reply → Dialogue
  | .telemetry _, _ => d
  | .run _, .ok _ =>
    match sender with
    | .result id => { d with stream := some id, served := 0 }
    | _ => d
  | .pull _, .ok batch =>
    { d with
      stream := if batch.more then d.stream else none
      served := d.served + batch.records.length }
  | .discard, .ok _ => { d with stream := none }
  | .begin _, .ok _ =>
    match sender with
    | .transaction id => { d with transaction := some id }
    | _ => d
  | .commit, .ok _ | .rollback, .ok _ => { d with stream := none, transaction := none }
  | .reset, .ok _ => { d with stream := none, transaction := none, reset := true }
  | .reset, .error _ => { d with reset := true }
  | _, .error _ => { d with failed := true }

/-- Nothing failed so far, and nothing was reset. -/
def IsSound (d : Dialogue) : Prop := d.failed = false ∧ d.reset = false

/-- Something failed, and no reset was sent yet. -/
def IsBroken (d : Dialogue) : Prop := d.failed = true ∧ d.reset = false

/-- Whether the connection may go back: it was reset, or nothing failed and nothing is open. -/
def IsClean (d : Dialogue) : Prop :=
  d.reset = true ∨ d.IsSound ∧ d.transaction = none ∧ d.stream = none

/-- What a message needs beside its turn: a reset comes only after a failure. -/
def Warrants (d : Dialogue) : Message → Prop
  | .reset => d.failed = true
  | _ => True

/-- Which messages may come next, and from whom.  After a failure only a reset may come, and after
    a reset nothing. -/
def Allows (d : Dialogue) (sender : Sender) : Message → Prop
  | .telemetry _ => d.IsSound
  | .run _ => d.IsSound ∧ d.stream = none ∧ ∃ id, sender = .result id
  | .pull _ | .discard => d.IsSound ∧ ∃ id, sender = .result id ∧ d.stream = some id
  | .begin _ =>
    d.IsSound ∧ d.stream = none ∧ d.transaction = none ∧ ∃ id, sender = .transaction id
  | .commit =>
    d.IsSound ∧ d.stream = none ∧ ∃ id, sender = .transaction id ∧ d.transaction = some id
  | .rollback => d.IsSound ∧ ∃ id, sender = .transaction id ∧ d.transaction = some id
  | .reset => d.reset = false

theorem IsBroken.not_isSound {d : Dialogue} (h : d.IsBroken) : ¬ d.IsSound :=
  fun sound => Bool.false_ne_true (sound.1.symm.trans h.1)

theorem Allows.isSound {d : Dialogue} {sender : Sender} {m : Message} (h : d.Allows sender m)
    (work : m ≠ .reset) : d.IsSound := by
  cases m with
  | reset => exact absurd rfl work
  | telemetry _ => exact h
  | run _ | pull _ | discard | begin _ | commit | rollback => exact h.1

end Dialogue

/-! ## Failures and resets -/

/-- Whether a message failed, other than telemetry or a reset. -/
def Happening.fails : Happening → Bool
  | asked (.send _ _ (.telemetry _)) _ => false
  | asked (.send _ _ .reset) _ => false
  | asked (.send ..) (.error _) => true
  | _ => false

/-- Whether a reset was sent. -/
def Happening.resets : Happening → Bool
  | asked (.send _ _ .reset) _ => true
  | _ => false

theorem Happening.IsAside.fails {e : Happening} (h : e.IsAside) : e.fails = false := by
  unfold Happening.fails
  split
  · rfl
  · rfl
  · cases h
  · rfl

namespace Dialogue

variable {d : Dialogue} {c : Connection} {sender : Sender} {m : Message}
  {answer : Except Fault m.Reply}

theorem failed_after : (d.after sender m answer).failed =
    (d.failed || (Happening.asked (.send c sender m) answer).fails) := by
  match m, answer with
  | .run _, .ok _ | .begin _, .ok _ => cases sender <;> simp [after, Happening.fails]
  | .telemetry _, _ | .pull _, .ok _ | .discard, .ok _ | .commit, .ok _ | .rollback, .ok _
  | .reset, .ok _ | .reset, .error _ => simp [after, Happening.fails]
  | .run _, .error _ | .pull _, .error _ | .discard, .error _ | .begin _, .error _
  | .commit, .error _ | .rollback, .error _ => simp [after, Happening.fails]

theorem reset_after : (d.after sender m answer).reset =
    (d.reset || (Happening.asked (.send c sender m) answer).resets) := by
  match m, answer with
  | .run _, .ok _ | .begin _, .ok _ => cases sender <;> simp [after, Happening.resets]
  | .reset, .ok _ | .reset, .error _ => simp [after, Happening.resets]
  | .telemetry _, _ | .pull _, .ok _ | .discard, .ok _ | .commit, .ok _ | .rollback, .ok _ =>
    simp [after, Happening.resets]
  | .run _, .error _ | .pull _, .error _ | .discard, .error _ | .begin _, .error _
  | .commit, .error _ | .rollback, .error _ => simp [after, Happening.resets]

/-- A message after which nothing has failed came when nothing had, and was answered well. -/
theorem sound_of_after (h : (d.after sender m answer).IsSound) :
    d.IsSound ∧ (Happening.asked (.send c sender m) answer).fails = false := by
  obtain ⟨sound, unreset⟩ := h
  rw [failed_after (c := c), Bool.or_eq_false_iff] at sound
  rw [reset_after (c := c), Bool.or_eq_false_iff] at unreset
  exact ⟨⟨sound.1, unreset.1⟩, sound.2⟩

end Dialogue

/-! ## The dialogue on a connection -/

/-- The dialogue on `c` after something happened, by the one before it.  There is one while the
    connection is on loan. -/
def Happening.lead (c : Connection) (before : Option Dialogue) : Happening → Option Dialogue
  | asked (.acquire _) (.ok c') => if c' = c then some {} else before
  | asked (.release c') _ => if c' = c then none else before
  | asked (.send c' sender m) answer =>
    if c' = c then before.map (·.after sender m answer) else before
  | _ => before

/-- The dialogue on a connection, while it is on loan. -/
def History.dialogue (c : Connection) : History → Option Dialogue
  | [] => none
  | e :: past => e.lead c (History.dialogue c past)

/-- Whether the pool lent a connection. -/
def Happening.lends (c : Connection) : Happening → Bool
  | asked (.acquire _) (.ok c') => c' = c
  | _ => false

/-- Whether the pool got a connection back. -/
def Happening.returns (c : Connection) : Happening → Bool
  | asked (.release c') _ => c' = c
  | _ => false

/-- How often the pool lent a connection. -/
def History.loans (c : Connection) (h : History) : Nat := h.countP (Happening.lends c)

/-- How often the pool got a connection back. -/
def History.returns (c : Connection) (h : History) : Nat := h.countP (Happening.returns c)

/-- The state in which a use of a handle showed a transaction. -/
def Access.shown? : (access : Access) → Except Fault access.Reply →
    Option (TransactionId × TransactionState)
  | .viewTransaction t, .ok view => some (t, view.state)
  | _, _ => none

/-- The state in which a transaction was shown. -/
def Happening.shown? : Happening → Option (TransactionId × TransactionState)
  | used access outcome => access.shown? outcome
  | _ => none

/-- How a transaction in this state stands in its dialogue: an active one is open and nothing has
    failed, a failed one is open and waits for a reset, and one that is over is not open. -/
def TransactionState.Fits (t : TransactionId) (h : History) : TransactionState → Prop
  | active => ∃ c d, History.dialogue c h = some d ∧ d.transaction = some t ∧ d.IsSound
  | failed => ∃ c d, History.dialogue c h = some d ∧ d.transaction = some t ∧ d.IsBroken
  | committed | rolledBack | closed =>
    ∀ c d, History.dialogue c h = some d → d.transaction ≠ some t

/-- A loan comes when nothing is on loan, a return when the connection is on loan and clean, and a
    message when the dialogue allows it.  A use of a handle fails for want of a connection only when
    that fault came from outside, and shows a transaction as it stands. -/
def Proper (past : History) : Happening → Prop
  | .asked (.acquire _) (.ok _) => ∀ c, History.dialogue c past = none
  | .asked (.release c) _ => ∃ d, History.dialogue c past = some d ∧ d.IsClean
  | .asked (.send c sender m) _ =>
    ∃ d, History.dialogue c past = some d ∧ d.Allows sender m ∧ d.Warrants m
  | .used access outcome =>
    (∀ fault, access.fault? outcome = some fault → Blamed past fault) ∧
      ∀ t state, access.shown? outcome = some (t, state) → state.Fits t past
  | _ => True

theorem Proper.fits {past : History} {e : Happening} (h : Proper past e) {t : TransactionId}
    {state : TransactionState} (shown : e.shown? = some (t, state)) : state.Fits t past := by
  cases e with
  | used access outcome => exact h.2 t state shown
  | asked _ _ => cases shown
  | returned _ => cases shown

theorem Happening.isAside_of_shown? {e : Happening} {p : TransactionId × TransactionState}
    (shown : e.shown? = some p) : e.IsAside := by
  cases e with
  | used access outcome => trivial
  | asked _ _ => cases shown
  | returned _ => cases shown

/-- A use that failed shows nothing. -/
theorem Proper.failed {past : History} {access : Access} {fault : Fault} (h : Blamed past fault) :
    Proper past (.used access (.error fault)) := by
  refine ⟨fun f e => ?_, fun t state e => ?_⟩
  · rw [Access.fault?_error] at e
    cases e
    exact h
  · cases access <;> cases e

namespace Happening

theorem IsAside.lead {e : Happening} (h : e.IsAside) (c : Connection) (before : Option Dialogue) :
    e.lead c before = before := by
  unfold Happening.lead
  split
  · cases h
  · cases h
  · cases h
  · rfl

theorem IsAside.proper {request : Request} {answer : request.Answer}
    (h : (asked request answer).IsAside) (past : History) : Proper past (asked request answer) := by
  cases request with
  | acquire request =>
    cases answer with
    | ok c => cases h
    | error fault => trivial
  | release _ | send _ _ _ => cases h
  | findHome _ | getBookmarks | updateBookmarks _ _ | sleep _ | readClock | drawSample | note _ =>
    trivial

end Happening

/-! ## How a dialogue goes on -/

/-- What concerns a connection is a loan, a return or a message. -/
theorem Happening.concerns (e : Happening) :
    e.IsAside ∨ (∃ request c, e = asked (.acquire request) (.ok c)) ∨
      (∃ c, e = asked (.release c) ()) ∨
        ∃ c sender m answer, e = asked (.send c sender m) answer := by
  match e with
  | asked (.acquire request) (.ok c) => exact .inr (.inl ⟨request, c, rfl⟩)
  | asked (.release c) _ => exact .inr (.inr (.inl ⟨c, rfl⟩))
  | asked (.send c sender m) answer => exact .inr (.inr (.inr ⟨c, sender, m, answer, rfl⟩))
  | asked (.acquire _) (.error _) | asked (.findHome _) _ | asked .getBookmarks _
  | asked (.updateBookmarks ..) _ | asked (.sleep _) _ | asked .readClock _ | asked .drawSample _
  | asked (.note _) _ | used .. | returned _ => exact .inl trivial

/-- A dialogue goes on, or it begins with a loan. -/
theorem Happening.lead_isSome {e : Happening} {c : Connection} {before : Option Dialogue}
    (h : (e.lead c before).isSome = true) :
    before.isSome = true ∨ ∃ request, e = asked (.acquire request) (.ok c) := by
  unfold lead at h
  split at h
  · split at h
    · next same => exact .inr ⟨_, by rw [same]⟩
    · exact .inl h
  · split at h
    · cases h
    · exact .inl h
  · split at h
    · rw [Option.isSome_map] at h
      exact .inl h
    · exact .inl h
  · exact .inl h

/-- Only one connection is on loan at a time. -/
theorem dialogue_unique {h : History} (proper : Always Proper h) {c c' : Connection}
    (hc : (History.dialogue c h).isSome = true) (hc' : (History.dialogue c' h).isSome = true) :
    c = c' := by
  induction h with
  | nil => cases hc
  | cons e past ih =>
    have here := proper.1
    rcases Happening.lead_isSome hc with before | ⟨request, rfl⟩
    · rcases Happening.lead_isSome hc' with before' | ⟨request, rfl⟩
      · exact ih proper.2 before before'
      · -- nothing is on loan before a loan
        rw [here c] at before
        cases before
    · rcases Happening.lead_isSome hc' with before' | ⟨request', e⟩
      · rw [here c'] at before'
        cases before'
      · cases e
        rfl

/-- After a message there is no dialogue but the one that it went on in. -/
theorem dialogue_send {past : History} (proper : Always Proper past) {c c' : Connection}
    {sender : Sender} {m : Message} {answer : Except Fault m.Reply} {d d' : Dialogue}
    (lent : History.dialogue c past = some d)
    (h : History.dialogue c' (.asked (.send c sender m) answer :: past) = some d') :
    d' = d.after sender m answer := by
  rw [History.dialogue] at h
  by_cases same : c = c'
  · subst same
    rw [lent] at h
    simpa [Happening.lead] using h.symm
  · -- no other connection is on loan
    have other : History.dialogue c' past = some d' := by simpa [Happening.lead, same] using h
    exact absurd (dialogue_unique proper (by rw [lent]; rfl) (by rw [other]; rfl)) same

section Steps

variable {e : Happening} {past : History} {c : Connection} {d : Dialogue}

/-- How a dialogue has come: by a loan, by a message in the one before it, or by nothing. -/
theorem dialogue_before (proper : Always Proper (e :: past))
    (lent : History.dialogue c (e :: past) = some d) :
    (∃ request, e = .asked (.acquire request) (.ok c) ∧ d = {}) ∨
      (∃ sender m answer d', e = .asked (.send c sender m) answer ∧
        History.dialogue c past = some d' ∧ d'.Allows sender m ∧ d'.Warrants m ∧
          d = d'.after sender m answer) ∨
        e.IsAside ∧ History.dialogue c past = some d := by
  have here := proper.1
  -- any other connection was not on loan
  have same {c' : Connection} {d' : Dialogue} (lent' : History.dialogue c' past = some d')
      (other : c' ≠ c → History.dialogue c past = some d) : c' = c :=
    Decidable.byContradiction fun n =>
      n (dialogue_unique proper.2 (by rw [lent']; rfl) (by rw [other n]; rfl))
  rcases e.concerns with aside | ⟨request, c', rfl⟩ | ⟨c', rfl⟩ | ⟨c', sender, m, answer, rfl⟩
  · rw [History.dialogue, aside.lead] at lent
    exact .inr (.inr ⟨aside, lent⟩)
  · by_cases own : c' = c
    · subst own
      simp only [History.dialogue, Happening.lead, if_true, Option.some.injEq] at lent
      exact .inl ⟨request, rfl, lent.symm⟩
    · simp only [History.dialogue, Happening.lead, own, if_false, here c] at lent
      cases lent
  · obtain ⟨d', lent', -⟩ := here
    obtain rfl := same lent' fun n => by
      simpa only [History.dialogue, Happening.lead, n, if_false] using lent
    simp [History.dialogue, Happening.lead] at lent
  · obtain ⟨d', lent', allowed, warranted⟩ := here
    obtain rfl := same lent' fun n => by
      simpa only [History.dialogue, Happening.lead, n, if_false] using lent
    exact .inr (.inl ⟨sender, m, answer, d', rfl, lent', allowed, warranted,
      dialogue_send proper.2 lent' lent⟩)

/-- How a dialogue goes on: by a message that it allows, by a return when it is clean, or not at
    all. -/
theorem dialogue_next (proper : Always Proper (e :: past))
    (lent : History.dialogue c past = some d) :
    (∃ sender m answer, e = .asked (.send c sender m) answer ∧ d.Allows sender m ∧
      d.Warrants m ∧ History.dialogue c (e :: past) = some (d.after sender m answer)) ∨
      (e = .asked (.release c) () ∧ d.IsClean) ∨
        e.IsAside ∧ History.dialogue c (e :: past) = some d := by
  have here := proper.1
  have same {c' : Connection} {d' : Dialogue} (lent' : History.dialogue c' past = some d') :
      c' = c ∧ d' = d := by
    obtain rfl := dialogue_unique proper.2 (by rw [lent']; rfl) (by rw [lent]; rfl)
    exact ⟨rfl, Option.some.inj (lent'.symm.trans lent)⟩
  rcases e.concerns with aside | ⟨request, c', rfl⟩ | ⟨c', rfl⟩ | ⟨c', sender, m, answer, rfl⟩
  · refine .inr (.inr ⟨aside, ?_⟩)
    rw [History.dialogue, aside.lead, lent]
  · rw [here c] at lent
    cases lent
  · obtain ⟨d', lent', clean⟩ := here
    obtain ⟨rfl, rfl⟩ := same lent'
    exact .inr (.inl ⟨rfl, clean⟩)
  · obtain ⟨d', lent', allowed, warranted⟩ := here
    obtain ⟨rfl, rfl⟩ := same lent'
    refine .inl ⟨sender, m, answer, rfl, allowed, warranted, ?_⟩
    simp [History.dialogue, Happening.lead, lent]

end Steps

/-- Every loan that was not returned is still going on. -/
theorem loans_eq {h : History} (proper : Always Proper h) (c : Connection) :
    h.loans c = h.returns c + if (History.dialogue c h).isSome then 1 else 0 := by
  unfold History.loans History.returns
  induction h with
  | nil => rfl
  | cons e past ih =>
    have past_eq := ih proper.2
    have here := proper.1
    rw [List.countP_cons, List.countP_cons, past_eq]
    simp only [History.dialogue]
    match e, here with
    | .asked (.acquire _) (.ok c'), here =>
      -- nothing was on loan before
      have free := here c
      by_cases hc : c' = c <;> simp [Happening.lends, Happening.returns, Happening.lead, hc, free]
    | .asked (.release c') _, here =>
      by_cases hc : c' = c
      · subst hc
        obtain ⟨d, lent, -⟩ := here
        simp [Happening.lends, Happening.returns, Happening.lead, lent]
      · simp [Happening.lends, Happening.returns, Happening.lead, hc]
    | .asked (.send c' sender m) answer, _ =>
      by_cases hc : c' = c <;> simp [Happening.lends, Happening.returns, Happening.lead, hc]
    | .asked (.acquire _) (.error _), _ => rfl
    | .asked (.findHome _) _, _ => rfl
    | .asked .getBookmarks _, _ => rfl
    | .asked (.updateBookmarks ..) _, _ => rfl
    | .asked (.sleep _) _, _ => rfl
    | .asked .readClock _, _ => rfl
    | .asked .drawSample _, _ => rfl
    | .asked (.note _) _, _ => rfl
    | .used .., _ => rfl
    | .returned _, _ => rfl

end GraphSession
