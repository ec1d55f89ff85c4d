import GraphSession.Blocking.Execute
import GraphSession.Proofs.Settled

/-!
  The situations in a series of attempts.

  A transaction function works in a transaction that only the session can end, so its own accesses
  leave that transaction open.  When the attempt is settled nothing is open, and so nothing is
  between two attempts.
-/

namespace GraphSession

variable {ω α : Type} {peer : Peer ω} {σ : State (Recorded ω)} {t : TransactionId}

/-! ## The code of a transaction function -/

/-- Makes an access, which the history then tells of. -/
def Access.performTold (peer : Peer ω) (a : Access) : Act (Recorded ω) (Except Fault a.Reply) := do
  let outcome ← (a.perform peer.recorded).run
  modify fun σ => { σ with world := σ.world.add (.used a outcome) }
  return outcome

/-- A call in the code of a transaction function is an access that the history tells of. -/
theorem Work.ends_call {a : Access} {next : Except Fault a.Reply → Work ω α}
    {good : α → State (Recorded ω) → Prop} {bad : Fault → State (Recorded ω) → Prop} :
    ((Work.call a next).recorded.perform peer.recorded).Ends σ good bad ↔
      (a.performTold peer).Ends σ fun outcome τ =>
        ((next outcome).recorded.perform peer.recorded).Ends τ good bad := by
  rw [Work.recorded, Work.perform, Op.ends_bind, Op.ends_attempt, Access.performTold,
    Act.ends_bind, Act.ends_run]
  exact Iff.rfl

/-- What every access keeps, and everything that the code does by itself, the code keeps.  A fault
    that it ends with is its last word. -/
theorem Work.perform_keeps (inv : State (Recorded ω) → Prop)
    (call : ∀ σ (a : Access), inv σ → (a.performTold peer).Ends σ fun _ τ => inv τ)
    (drift : ∀ (σ : State (Recorded ω)) w, inv σ →
      inv { σ with world := { σ.world with world := w } })
    (ended : ∀ (σ : State (Recorded ω)) fault, inv σ →
      inv { σ with world := σ.world.add (.returned fault) })
    (h : inv σ) (w : Work ω α) :
    (w.recorded.perform peer.recorded).Ends σ (fun _ τ => inv τ) fun fault τ =>
      inv τ ∧ ∃ past, τ.history = .returned (some fault) :: past := by
  induction w generalizing σ with
  | done outcome =>
    rw [Work.recorded, Work.perform, Op.ends_bind, Op.ends_modify, Work.perform, Op.ends_settleOn]
    refine ⟨fun _ _ => ended σ _ h, fun fault e => ⟨ended σ _ h, σ.history, ?_⟩⟩
    rw [e]
    rfl
  | call a next ih =>
    rw [Work.ends_call]
    exact (call σ a h).imp fun outcome τ h => ih outcome h
  | look next ih =>
    rw [Work.recorded, Work.perform, Op.ends_bind, Op.ends_get]
    exact ih _ h
  | change f rest ih =>
    rw [Work.recorded, Work.perform, Op.ends_bind, Op.ends_modify]
    exact ih (drift σ _ h)

/-! ## Managed transactions -/

/-- The transaction is open, and only the session can end it. -/
def State.Managed (t : TransactionId) (σ : State (Recorded ω)) : Prop :=
  ∃ v s, v.holder = .session ∧ Linked (some (t, v)) s ∧ σ.Steady (some (t, v)) s

/-- What can be said when an action failed with `fault`, besides `good`. -/
def State.Failed (good : State (Recorded ω) → Prop) (fault : Fault) (σ : State (Recorded ω)) :
    Prop :=
  good σ ∧ Blamed σ.history fault

/-- The same function, with a history of the handles it uses. -/
def TransactionFunction.recorded (work : TransactionFunction ω α) :
    TransactionFunction (Recorded ω) α :=
  fun calls id => (work calls id).recorded

namespace State

theorem Managed.log (h : σ.Managed t) {e : Happening} (he : e.IsAside)
    (proper : Proper σ.history e)
    (fresh : CarriesFresh σ.session.config σ.history e) :
    State.Managed t { σ with world := σ.world.add e } := by
  obtain ⟨v, s, holder, linked, h⟩ := h
  obtain ⟨x, hx, back⟩ := h.stands
  exact ⟨v, s, holder, linked, back (hx.log he proper fresh)⟩

theorem Managed.drift (h : σ.Managed t) (w : ω) :
    State.Managed t { σ with world := { σ.world with world := w } } := by
  obtain ⟨v, s, holder, linked, h⟩ := h
  obtain ⟨x, hx, back⟩ := h.stands
  exact ⟨v, s, holder, linked, back (hx.drift w)⟩

/-- What follows a transaction that only the session can end is that transaction. -/
theorem Next.managed {u : Option (TransactionId × Transaction)} {s : Option ResultId}
    {v : Transaction} (h : σ.Next u s) (hu : u = some (t, v)) (holder : v.holder = .session)
    (linked : Linked (some (t, v)) s) : σ.Managed t := by
  obtain ⟨u', s', follows, h⟩ := h
  cases follows with
  | same =>
    subst hu
    exact ⟨v, s, holder, linked, h⟩
  | ended mine =>
    cases hu
    cases holder.symm.trans mine
  | changed holder' linked' =>
    cases hu
    rcases holder' with same | mine
    · exact ⟨_, s', same.trans holder, linked', h⟩
    · cases holder.symm.trans mine

end State

/-- An access cannot end a transaction that only the session can end. -/
theorem Access.performTold_managed (h : σ.Managed t) (a : Access) :
    (a.performTold peer).Ends σ fun _ τ => τ.Managed t := by
  obtain ⟨v, s, holder, linked, h⟩ := h
  rw [performTold, Act.ends_bind, Act.ends_run]
  refine ((a.perform_steady h linked).and (a.perform_tells h)).imp ?_ ?_
  · intro r τ hτ
    exact (hτ.1.managed rfl holder linked).log trivial hτ.2 trivial
  · intro fault τ hτ
    exact (hτ.1.1.managed rfl holder linked).log trivial (.failed hτ.1.2) trivial

/-- The code of a transaction function leaves its transaction open. -/
theorem Work.perform_managed (h : σ.Managed t) (w : Work ω α) :
    (w.recorded.perform peer.recorded).Ends σ (fun _ τ => τ.Managed t)
      (State.Failed (·.Managed t)) := by
  refine (w.perform_keeps (·.Managed t) (fun σ a h => a.performTold_managed h)
    (fun σ w h => h.drift w) (fun σ fault h => h.log trivial trivial trivial) h).imp
    (fun _ _ h => h) fun fault τ h => ⟨h.1, ?_⟩
  obtain ⟨past, history⟩ := h.2
  rw [history]
  exact .here rfl

/-! ## One attempt -/

/-- The fault of an outcome is blamed, if there is one. -/
def State.Answers (outcome : Except Fault α) (σ : State (Recorded ω)) : Prop :=
  ∀ fault, outcome = .error fault → Blamed σ.history fault

theorem State.answers_ok (a : α) : σ.Answers (.ok a : Except Fault α) := fun _ e => by cases e

theorem State.answers_error {fault : Fault} (h : Blamed σ.history fault) :
    σ.Answers (.error fault : Except Fault α) := by
  intro f e
  cases e
  exact h

/-- What an attempt does once its transaction is open. -/
theorem settledWork_stands {v : Transaction} (holder : v.holder = .session)
    (h : σ.Live 0 (some (t, v)) none) (w : Work ω α) :
    Act.Ends (do
      let outcome ← (w.recorded.perform peer.recorded).run
      (settle peer.recorded t outcome).run : Act (Recorded ω) (Except Fault α)) σ
      fun outcome τ => τ.Stands {} ∧ τ.Answers outcome := by
  have managed : σ.Managed t :=
    ⟨v, none, holder, .quiet, .inl (h.busy (.inl (Option.some_ne_none _)))⟩
  have settled {τ : State (Recorded ω)} {outcome : Except Fault α} (h : τ.Managed t)
      (answers : τ.Answers outcome) :
      Act.Ends (settle peer.recorded t outcome).run τ
        fun outcome τ => τ.Stands {} ∧ τ.Answers outcome := by
    obtain ⟨v, s, holder, linked, h⟩ := h
    rw [Act.ends_run]
    refine (settle_stands h linked (fun p e => ?_) (Option.some_ne_none _) answers).imp
      (fun a τ h => ⟨h, State.answers_ok a⟩) fun fault τ h => ⟨h.1, State.answers_error h.2⟩
    cases e
    rfl
  rw [Act.ends_bind, Act.ends_run]
  exact (w.perform_managed managed).imp (fun a τ h => settled h (State.answers_ok a))
    fun fault τ h => settled h.1 (State.answers_error h.2)

theorem attemptOnce_stands (h : σ.Stands {}) (options : ExecuteOptions)
    (work : TransactionFunction ω α) (calls : Nat) :
    (attemptOnce peer.recorded options (TransactionFunction.recorded work) calls).Ends σ
      fun r τ => τ.Stands {} ∧ τ.Answers r.1 := by
  rw [attemptOnce, Act.ends_bind, Act.ends_run]
  refine (openTransaction_stands h _ _ _ _).imp (fun t τ h => ?_) fun fault τ h =>
    ⟨h.1, State.answers_error h.2⟩
  obtain ⟨v, holder, h⟩ := h
  exact settledWork_stands holder h (work calls t)

/-- The fault that a series ends with is that of its last attempt, or wraps it. -/
theorem Backoff.onFailure_giveUp {b b' : Backoff} {now : Instant} {sample : Float}
    {fault f : Fault} (h : b.onFailure now sample fault = (.giveUp f, b')) :
    f = fault ∨ ∃ n, f = .retriesExhausted n fault := by
  unfold onFailure at h
  dsimp only at h
  split at h
  · cases h
    exact .inl rfl
  · split at h
    · cases h
    · split at h
      · cases h
        exact .inr ⟨_, rfl⟩
      · cases h

/-- What is decided after a failure is decided by the clock and a sample alone. -/
theorem decide_stands {x : Standing} (h : σ.Stands x) (backoff : Backoff) {fault : Fault}
    (hb : Blamed σ.history fault) :
    (decide peer.recorded backoff fault).Ends σ fun r τ =>
      τ.Stands x ∧ ∀ f, r.1 = .giveUp f → Blamed τ.history f := by
  rw [decide, Act.ends_bind]
  refine Act.ends_ask fun now w => ?_
  rw [Act.ends_bind]
  refine Act.ends_ask fun sample w' => ?_
  refine ⟨(h.aside (by trivial) (by trivial) w).aside (by trivial) (by trivial) w', fun f e => ?_⟩
  have grown : σ.history <:+
      ((σ.heard .readClock now w).heard .drawSample sample w').history :=
    (List.suffix_cons _ _).trans (List.suffix_cons _ _)
  rcases Backoff.onFailure_giveUp (Prod.ext e rfl) with rfl | ⟨n, rfl⟩
  · exact hb.mono grown
  · exact fun e => by cases e

/-! ## A series of attempts -/

/-- The outcome of a series, if there is one, is blamed. -/
def State.Concludes (outcome : Option (Except Fault α)) (σ : State (Recorded ω)) : Prop :=
  ∀ o, outcome = some o → σ.Answers o

theorem State.concludes_none : σ.Concludes (none : Option (Except Fault α)) :=
  fun _ e => by cases e

theorem State.concludes_some {outcome : Except Fault α} (h : σ.Answers outcome) :
    σ.Concludes (some outcome) := by
  intro o e
  cases e
  exact h

theorem attemptFrom_stands (h : σ.Stands {}) (options : ExecuteOptions)
    (work : TransactionFunction ω α) (patience calls : Nat) (backoff : Backoff) :
    (attemptFrom peer.recorded options (TransactionFunction.recorded work) patience calls
      backoff).Ends σ fun outcome τ => τ.Stands {} ∧ τ.Concludes outcome := by
  induction patience generalizing σ calls backoff with
  | zero => exact ⟨h, State.concludes_none⟩
  | succ patience ih =>
    rw [attemptFrom, Act.ends_bind]
    refine (attemptOnce_stands h options work calls).imp fun r τ hτ => ?_
    obtain ⟨outcome, calls⟩ := r
    obtain ⟨h, answers⟩ := hτ
    cases outcome with
    | ok a => exact ⟨h, State.concludes_some (State.answers_ok a)⟩
    | error fault =>
      rw [Act.ends_bind]
      refine (decide_stands h backoff (answers fault rfl)).imp fun r τ hτ => ?_
      obtain ⟨decision, backoff⟩ := r
      cases decision with
      | giveUp f =>
        exact ⟨hτ.1, State.concludes_some (State.answers_error (hτ.2 f rfl))⟩
      | retryAfter delay =>
        rw [Act.ends_bind]
        refine Act.ends_note fun w => ?_
        rw [Act.ends_bind]
        refine Act.ends_ask fun _ w' => ?_
        exact ih ((hτ.1.noted _ w).aside (by trivial) (by trivial) w') calls backoff

/-- Before the first attempt nothing is open. -/
theorem prepareExecute_stands (h : σ.Rests) :
    (prepareExecute peer.recorded).Ends σ (fun _ τ => τ.Stands {}) State.Rejects := by
  obtain ⟨u, s, h⟩ := h
  rw [prepareExecute, Op.ends_bind]
  refine checkOpen_settled ?_ (h.rejects (by decide))
  rw [Op.ends_bind]
  refine (reapTransaction_settled h).imp (fun _ τ h => ?_) fun fault τ h => ⟨⟨u, s, h.1⟩, h.2⟩
  obtain ⟨s', h⟩ := h
  -- the auto-commit result that is streaming is the latest one
  obtain ⟨s'', hs, busy⟩ : ∃ s'', (s'' = s' ∨ s'' = none) ∧ τ.Busy 0 none s'' := by
    rcases h.steady with h | h | h
    · exact ⟨s', .inl rfl, h⟩
    · exact ⟨none, .inr rfl, h⟩
    · exact ⟨none, .inr rfl, .inl (State.Idle.bare h)⟩
  refine (bufferAutoResult_stands busy fun r e => ?_).imp (fun _ _ h => State.Idle.bare h)
    fun _ _ h => ⟨(State.Idle.bare h.1).rests, h.2⟩
  rcases hs with rfl | rfl
  · exact h.auto r rfl e
  · cases e

/-- A transaction function leaves nothing open, whatever its outcome. -/
theorem executeWith_rests (h : σ.Rests) (options : ExecuteOptions) (patience : Nat)
    (work : TransactionFunction ω α) :
    (executeWith peer.recorded options patience (TransactionFunction.recorded work)).Ends σ
      fun outcome τ => τ.Rests ∧ τ.Concludes outcome := by
  rw [executeWith, Act.ends_bind, Act.ends_run]
  refine (prepareExecute_stands h).imp (fun _ τ h => ?_) fun fault τ h =>
    ⟨h.1, State.concludes_some (State.answers_error h.2)⟩
  rw [Act.ends_bind]
  refine Act.ends_ask fun now w => ?_
  rw [Act.ends_bind, Act.ends_theSession]
  exact (attemptFrom_stands (h.aside (by trivial) (by trivial) w) options work patience 0 _).imp
    fun _ _ h => ⟨h.1.rests, h.2⟩

theorem executeQueryWith_rests (h : σ.Rests) (source : QuerySource) (mode : AccessMode)
    (patience : Nat) (work : Query → TransactionFunction ω α) :
    (executeQueryWith peer.recorded source mode patience fun query =>
      TransactionFunction.recorded (work query)).Ends σ
      fun outcome τ => τ.Rests ∧ τ.Concludes outcome := by
  have refuses := Query.ofSource_refuses source
  rw [executeQueryWith]
  cases hquery : Query.ofSource source with
  | error fault =>
    refine ⟨h, State.concludes_some (State.answers_error ?_)⟩
    exact fun e => absurd e (refuses.ne_noConnection hquery)
  | ok query => exact executeWith_rests h _ patience (work _)

/-! ## Series that a waiting caller drives -/

namespace Blocking

/-- Between two steps of a series nothing is open. -/
def Progress.IsSound (progress : Progress α) (σ : State (Recorded ω)) : Prop :=
  match progress with
  | .trying .. => σ.Stands {}
  | .finished outcome => σ.Rests ∧ σ.Answers outcome

theorem afterFailure_sound (h : σ.Stands {}) (calls : Nat) (backoff : Backoff) {fault : Fault}
    (hb : Blamed σ.history fault) :
    (afterFailure (α := α) peer.recorded calls backoff fault).Ends σ
      fun progress τ => progress.IsSound τ := by
  rw [afterFailure, Act.ends_bind]
  refine (decide_stands h backoff hb).imp fun r τ hτ => ?_
  obtain ⟨decision, backoff⟩ := r
  cases decision with
  | giveUp f =>
    exact ⟨hτ.1.rests, State.answers_error (hτ.2 f rfl)⟩
  | retryAfter delay =>
    rw [Act.ends_bind]
    refine Act.ends_note fun w => ?_
    rw [Act.ends_bind]
    refine Act.ends_ask fun _ w' => ?_
    exact (hτ.1.noted _ w).aside (by trivial) (by trivial) w'

theorem step_sound {progress : Progress α} (h : progress.IsSound σ) (options : ExecuteOptions)
    (work : TransactionFunction ω α) :
    (step peer.recorded options (TransactionFunction.recorded work) progress).Ends σ
      fun progress τ => progress.IsSound τ := by
  cases progress with
  | finished outcome => exact h
  | trying calls backoff =>
    have bare : σ.Stands {} := h
    rw [step, Act.ends_bind, Act.ends_run]
    refine (openTransaction_stands bare _ _ _ _).imp (fun t τ h => ?_)
      fun fault τ h => afterFailure_sound h.1 calls backoff h.2
    obtain ⟨v, holder, h⟩ := h
    rw [Act.ends_bind]
    refine (Act.ends_bind.mp (settledWork_stands holder h (work calls t))).imp fun o υ hυ => ?_
    rw [Act.ends_bind]
    refine Act.Ends.imp hυ fun outcome φ hφ => ?_
    cases outcome with
    | ok a => exact ⟨hφ.1.rests, State.answers_ok a⟩
    | error fault => exact afterFailure_sound hφ.1 (calls + 1) backoff (hφ.2 fault rfl)

theorem drive_sound {progress : Progress α} (h : progress.IsSound σ) (options : ExecuteOptions)
    (work : TransactionFunction ω α) (patience : Nat) :
    (drive peer.recorded options (TransactionFunction.recorded work) patience progress).Ends σ
      fun progress τ => progress.IsSound τ := by
  induction patience generalizing σ progress with
  | zero => exact h
  | succ patience ih =>
    cases progress with
    | finished outcome => exact h
    | trying calls backoff =>
      rw [drive, Act.ends_bind]
      exact (step_sound h options work).imp fun _ _ h => ih h

theorem begin_sound (h : σ.Rests) :
    (begin (α := α) peer.recorded).Ends σ fun progress τ => progress.IsSound τ := by
  rw [begin, Act.ends_bind, Act.ends_run]
  refine (prepareExecute_stands h).imp (fun _ τ h => ?_) fun fault τ h =>
    ⟨h.1, State.answers_error h.2⟩
  rw [Act.ends_bind]
  exact Act.ends_ask fun now w => h.aside (by trivial) (by trivial) w

theorem execute_rests (h : σ.Rests) (mode : AccessMode) (config : TransactionConfig)
    (patience : Nat) (work : TransactionFunction ω α) :
    (execute peer.recorded mode config patience (TransactionFunction.recorded work)).Ends σ
      fun outcome τ => τ.Rests ∧ τ.Concludes outcome := by
  rw [execute, Act.ends_bind]
  refine (begin_sound h).imp fun progress τ h => ?_
  rw [Act.ends_bind]
  refine (drive_sound h _ work patience).imp fun progress υ h => ?_
  cases progress with
  | trying calls backoff => exact ⟨State.Stands.rests h, State.concludes_none⟩
  | finished outcome => exact ⟨h.1, State.concludes_some h.2⟩

end Blocking

end GraphSession
