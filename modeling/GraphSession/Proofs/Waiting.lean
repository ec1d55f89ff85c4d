import GraphSession.Proofs.Operation

/-!
  Callers that wait run the same series of attempts.

  A caller that blocks has a loop of its own, which knows of a series only how far it has come.  A
  step of that loop is one attempt and what follows it (`step_trying`), so driving a series for as
  many steps as a patience allows is trying for as many attempts (`drive_trying`).  The two calls
  are therefore the same action: from every state they have the same outcome, ask the same of the
  surroundings and leave the same session.

  The patience is no part of what a call does.  Once there is an outcome, more patience changes
  nothing (`attemptFrom_reached`).
-/

namespace GraphSession

variable {ω α : Type} {peer : Peer ω} {options : ExecuteOptions} {work : TransactionFunction ω α}

/-! ## Patience -/

/-- An outcome that was reached does not depend on the patience. -/
theorem attemptFrom_reached {patience more calls : Nat} {backoff : Backoff} {s t : State ω}
    {outcome : Except Fault α} (h : patience ≤ more)
    (reached : (attemptFrom peer options work patience calls backoff).exec s = (some outcome, t)) :
    (attemptFrom peer options work more calls backoff).exec s = (some outcome, t) := by
  induction patience generalizing more calls backoff s with
  | zero => cases reached
  | succ patience ih =>
    obtain ⟨more, rfl⟩ : ∃ n, more = n + 1 := ⟨more - 1, by omega⟩
    rw [attemptFrom, Act.exec_bind] at reached ⊢
    revert reached
    generalize (attemptOnce peer options work calls).exec s = attempt
    intro reached
    obtain ⟨⟨result, calls⟩, ended⟩ := attempt
    cases result with
    | ok a => exact reached
    | error fault =>
      dsimp only at reached ⊢
      rw [Act.exec_bind] at reached ⊢
      revert reached
      generalize (decide peer backoff fault).exec ended = decided
      intro reached
      obtain ⟨⟨decision, backoff⟩, decided⟩ := decided
      cases decision with
      | giveUp f => exact reached
      | retryAfter delay => exact ih (Nat.le_of_succ_le_succ h) reached

/-- What a call comes to for a caller who has enough patience. -/
def Reaches {β : Type} (call : Nat → Act ω (Option β)) (s : State ω) (outcome : β) (t : State ω) :
    Prop :=
  ∃ patience, ∀ more, patience ≤ more → (call more).exec s = (some outcome, t)

/-- A call that has come to something has come to it for good. -/
theorem execute_reaches {mode : AccessMode} {config : TransactionConfig} {patience : Nat}
    {s t : State ω} {outcome : Except Fault α}
    (reached : (execute peer mode config patience work).exec s = (some outcome, t)) :
    Reaches (fun patience => execute peer mode config patience work) s outcome t := by
  refine ⟨patience, fun more h => ?_⟩
  dsimp only
  rw [execute, executeWith, Act.exec_bind] at reached ⊢
  revert reached
  generalize Act.exec (prepareExecute peer).run s = prepared
  intro reached
  obtain ⟨prepared, s'⟩ := prepared
  cases prepared with
  | error fault => exact reached
  | ok _ => exact attemptFrom_reached h reached

/-! ## The loop of a caller that waits -/

namespace Blocking

/-- A step is an attempt and, when it failed, what follows a failure. -/
theorem step_trying (calls : Nat) (backoff : Backoff) :
    step peer options work (.trying calls backoff) = (do
      let (outcome, calls) ← attemptOnce peer options work calls
      match outcome with
      | .ok a => return .finished (.ok a)
      | .error fault => afterFailure peer calls backoff fault) := by
  rw [step, attemptOnce, bind_assoc]
  refine bind_congr fun opened => ?_
  cases opened with
  | error fault => rw [pure_bind]
  | ok id =>
    rw [bind_assoc]
    refine bind_congr fun outcome => ?_
    rw [bind_assoc]
    refine bind_congr fun settled => ?_
    cases settled with
    | ok a => exact (pure_bind _ _).symm
    | error fault => exact (pure_bind _ _).symm

/-- A series that is over stays as it ended. -/
theorem drive_finished (patience : Nat) (outcome : Except Fault α) :
    drive peer options work patience (.finished outcome) = pure (.finished outcome) := by
  cases patience <;> rfl

/-- Driving a series is trying for as many attempts. -/
theorem drive_trying (patience calls : Nat) (backoff : Backoff) :
    Progress.outcome? <$> drive peer options work patience (.trying calls backoff) =
      attemptFrom peer options work patience calls backoff := by
  have finished (patience : Nat) (outcome : Except Fault α) :
      Progress.outcome? <$> drive peer options work patience (.finished outcome) =
        pure (some outcome) := by
    rw [drive_finished, map_pure]
    rfl
  induction patience generalizing calls backoff with
  | zero => rfl
  | succ patience ih =>
    rw [drive, attemptFrom, step_trying, map_bind, bind_assoc]
    refine bind_congr fun result => ?_
    obtain ⟨outcome, calls⟩ := result
    cases outcome with
    | ok a => exact finished patience (.ok a)
    | error fault =>
      -- both decide, and both wait before they go on
      dsimp only
      rw [afterFailure, bind_assoc]
      refine bind_congr fun decided => ?_
      obtain ⟨decision, backoff⟩ := decided
      cases decision with
      | giveUp f => exact finished patience (.error f)
      | retryAfter delay =>
        dsimp only
        rw [bind_assoc]
        refine bind_congr fun _ => ?_
        rw [bind_assoc]
        refine bind_congr fun _ => ?_
        rw [pure_bind, ih]

/-- The call of a caller that waits is the call of any other. -/
theorem execute_eq (peer : Peer ω) (mode : AccessMode) (config : TransactionConfig)
    (patience : Nat) (work : TransactionFunction ω α) :
    execute peer mode config patience work =
      GraphSession.execute peer mode config patience work := by
  rw [execute, begin, GraphSession.execute, executeWith, bind_assoc]
  refine bind_congr fun prepared => ?_
  cases prepared with
  | error fault =>
    rw [pure_bind, drive_finished]
    rfl
  | ok _ =>
    dsimp only
    rw [bind_assoc]
    refine bind_congr fun now => ?_
    rw [bind_assoc]
    refine bind_congr fun s => ?_
    rw [pure_bind, ← drive_trying, map_eq_pure_bind]

end Blocking

/-- From every state of a session, in all surroundings and for every patience, a transaction
    function run by a caller that waits has the same outcome as one run by any other, and leads to
    the same state: the same session, the same surroundings and the same history, in which stand all
    requests to pool, connections, manager and clock with their answers, and every use of a handle.
    With enough patience it comes to an outcome exactly when the other does, and then for good. -/
theorem waiting_agrees (peer : Peer ω) (mode : AccessMode) (config : TransactionConfig)
    (work : TransactionFunction ω α) (σ : State (Recorded ω)) :
    (∀ patience,
      ((Operation.executeBlocking mode config patience work).perform peer).exec σ =
        ((Operation.execute mode config patience work).perform peer).exec σ) ∧
      ∀ (outcome : Except Fault α) (τ : State (Recorded ω)),
        (∃ patience, ((Operation.execute mode config patience work).perform peer).exec σ =
          (some outcome, τ)) ↔
        Reaches (fun patience => (Operation.executeBlocking mode config patience work).perform peer)
          σ outcome τ := by
  have same (patience : Nat) : (Operation.executeBlocking mode config patience work).perform peer =
      (Operation.execute mode config patience work).perform peer :=
    Blocking.execute_eq peer.recorded mode config patience (TransactionFunction.recorded work)
  refine ⟨fun patience => by rw [same], fun outcome τ => ⟨?_, ?_⟩⟩
  · rintro ⟨patience, reached⟩
    obtain ⟨enough, reaches⟩ := execute_reaches reached
    refine ⟨enough, fun more h => ?_⟩
    dsimp only
    rw [same]
    exact reaches more h
  · rintro ⟨patience, reaches⟩
    refine ⟨patience, ?_⟩
    rw [← same]
    exact reaches patience (Nat.le_refl _)

end GraphSession
