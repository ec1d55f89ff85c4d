import GraphSession.Proofs.Operation

/-!
  Who owns a connection.

  A session holds a connection exactly while a unit of work needs it, and it counts its units
  without keeping them: `units` goes up and down in many places, on the way to a success and on the
  way to every failure.  That the count is right is read off the situations.  At rest there is at
  most one unit, an auto-commit result that is streaming or a transaction that is open, and the
  connection on loan is the one that the session holds.

  What the history tells is then a matter of counting: every loan that was not returned is still
  going on, so a connection that the session does not hold any more has gone back.
-/

namespace GraphSession

variable {ω : Type}

/-! ## Counting -/

/-- When one position at most of a list satisfies `p`, the count says whether there is one. -/
theorem countP_of_unique {α : Type} {p : α → Bool} {l : List α} (absent : α) (place : Option Nat)
    (h : ∀ i, p (l.getD i absent) = true ↔ place = some i) :
    l.countP p = if place.isSome then 1 else 0 := by
  induction l generalizing place with
  | nil =>
    cases place with
    | none => rfl
    | some i =>
      -- a position beyond the list would be every position beyond it
      have here : p absent = true := (h i).mpr rfl
      have there : some i = some (i + 1) := (h (i + 1)).mp here
      cases there
  | cons a l ih =>
    have head : p a = true ↔ place = some 0 := h 0
    have tail (i : Nat) : p (l.getD i absent) = true ↔ place = some (i + 1) := h (i + 1)
    rw [List.countP_cons]
    cases place with
    | none =>
      have elsewhere : ¬ p a = true := fun e => by cases head.mp e
      rw [ih none fun i => (tail i).trans ⟨by simp, by simp⟩, if_neg elsewhere]
      rfl
    | some j =>
      cases j with
      | zero =>
        have none_left (i : Nat) : p (l.getD i absent) = true ↔ none = some i := by
          rw [tail i]
          simp
        rw [ih none none_left, if_pos (head.mpr rfl)]
        rfl
      | succ j =>
        have step (i : Nat) : p (l.getD i absent) = true ↔ some j = some i := by
          rw [tail i]
          simp
        have elsewhere : ¬ p a = true := fun e => by cases head.mp e
        rw [ih (some j) step, if_neg elsewhere]
        rfl

/-- How many auto-commit results are streaming. -/
def Session.streamingUnits (s : Session) : Nat :=
  s.results.countP fun r => r.isStreaming && r.origin.transaction?.isNone

/-- How many transactions are not over. -/
def Session.openTransactions (s : Session) : Nat :=
  s.transactions.countP fun t => !t.state.isTerminated

namespace State

variable {σ : State (Recorded ω)} {x : Standing}

/-- The results of a transaction do not count. -/
theorem Stands.streamingUnits (h : σ.Stands x) :
    σ.session.streamingUnits =
      if (if x.transaction.isNone then x.stream else none).isSome then 1 else 0 := by
  refine countP_of_unique .absent _ fun i => ?_
  show ((σ.session.result i).isStreaming && _) = true ↔ _
  rw [Bool.and_eq_true, h.streaming i]
  constructor
  · rintro ⟨hs, alone⟩
    have own : x.transaction.map Prod.fst = none := by
      rw [← h.origin i hs]
      exact Option.isNone_iff_eq_none.mp alone
    rw [Option.map_eq_none_iff.mp own]
    exact hs
  · intro e
    split at e
    · next alone =>
      have own := h.origin i e
      rw [Option.isNone_iff_eq_none.mp alone] at own
      refine ⟨e, ?_⟩
      show (σ.session.result i).origin.transaction?.isNone = true
      rw [own]
      rfl
    · cases e

theorem Stands.openTransactions (h : σ.Stands x) :
    σ.session.openTransactions = if x.transaction.isSome then 1 else 0 := by
  have counted : σ.session.openTransactions =
      if (x.transaction.map Prod.fst).isSome then 1 else 0 := by
    refine countP_of_unique .absent _ fun i => ?_
    · show (!(σ.session.transaction i).state.isTerminated) = true ↔ _
      rw [Bool.not_eq_true']
      constructor
      · intro isOpen
        rw [h.transaction_eq isOpen]
        rfl
      · intro e
        obtain ⟨⟨t, v⟩, hx, rfl⟩ := Option.map_eq_some_iff.mp e
        obtain ⟨same, isOpen⟩ := (h.opened t v).mpr hx
        rw [same]
        exact isOpen
  rw [Option.isSome_map] at counted
  exact counted

end State

/-! ## At rest -/

/-- The units are those that something needs, and they have the connection on loan. -/
structure Standing.IsBalanced (x : Standing) : Prop where
  units : x.units = (if (if x.transaction.isNone then x.stream else none).isSome then 1 else 0) +
    if x.transaction.isSome then 1 else 0
  le_one : x.units ≤ 1
  slot : x.slot.isSome = true ↔ 0 < x.units
  loan : x.loan.map Prod.fst = x.slot

namespace State

variable {σ : State (Recorded ω)} {u : Option (TransactionId × Transaction)}
  {s : Option ResultId}

theorem Steady.balanced (h : σ.Steady u s) : ∃ x, σ.Stands x ∧ x.IsBalanced := by
  have busy {s : Option ResultId} (h : σ.Busy 0 u s) : ∃ x, σ.Stands x ∧ x.IsBalanced := by
    match u, s, h with
    | none, none, h => exact ⟨{}, Idle.bare h, ⟨rfl, Nat.zero_le 1, by simp, rfl⟩⟩
    | none, some r, h =>
      obtain ⟨-, c, d, -, h⟩ := h.live_some
      exact ⟨_, h, ⟨rfl, Nat.le_refl 1, by simp, rfl⟩⟩
    | some p, s, h =>
      obtain ⟨-, c, d, -, h⟩ := h.live (.inl (Option.some_ne_none p))
      exact ⟨_, h, ⟨rfl, Nat.le_refl 1, by simp, rfl⟩⟩
  rcases h with h | h | h
  · exact busy h
  · exact busy h
  · match u, h with
    | none, h => exact ⟨{}, Idle.bare h, ⟨rfl, Nat.zero_le 1, by simp, rfl⟩⟩
    | some (t, v), ⟨c, d, _, h⟩ => exact ⟨_, h, ⟨rfl, Nat.le_refl 1, by simp, rfl⟩⟩

theorem Rests.balanced (h : σ.Rests) : ∃ x, σ.Stands x ∧ x.IsBalanced := by
  obtain ⟨u, s, h⟩ := h
  exact h.steady.balanced

end State

/-- The connection that is on loan is the one that the session holds. -/
theorem Standing.IsBalanced.dialogue_isSome {x : Standing} (h : x.IsBalanced) (c : Connection) :
    (x.dialogue c).isSome = true ↔ x.slot = some c := by
  rw [← h.loan]
  unfold Standing.dialogue
  cases x.loan with
  | none => exact ⟨by simp, by simp⟩
  | some p =>
    obtain ⟨c', d⟩ := p
    by_cases e : c' = c
    · simp [e]
    · simp [e]

/-! ## Ownership -/

/-- Who owns what in a state: the units are those that something needs; the session holds a
    connection exactly while there is one; every connection that was lent has gone back once or is
    the one that the session holds; and no use of a handle, nor any operation from here, fails for
    want of a connection. -/
structure State.OwnsConnection (peer : Peer ω) (σ : State (Recorded ω)) : Prop where
  units : σ.session.units = σ.session.streamingUnits + σ.session.openTransactions
  le_one : σ.session.units ≤ 1
  slot : σ.session.connection.isSome = true ↔ 0 < σ.session.units
  lent : ∀ c, σ.history.loans c =
    σ.history.returns c + if σ.session.connection = some c then 1 else 0
  /-- At no time was a connection returned that was not lent, or lent again before it was. -/
  returned : ∀ later past c, σ.history = later ++ past →
    History.returns c past ≤ History.loans c past ∧
      History.loans c past ≤ History.returns c past + 1
  /-- A handle failed for want of a connection only when that fault had come from outside. -/
  used : ∀ later past access outcome fault, σ.history = later ++ .used access outcome :: past →
    access.fault? outcome = some fault → Blamed past fault
  performed : ∀ (op : Operation ω) fault τ,
    (op.perform peer).exec σ = (some (.error fault), τ) → Blamed τ.history fault

/-- A session at rest owns the connection that its units need, and nothing else. -/
theorem State.Rests.ownsConnection {peer : Peer ω} {σ : State (Recorded ω)} (h : σ.Rests) :
    σ.OwnsConnection peer := by
  obtain ⟨x, hx, balanced⟩ := h.balanced
  refine ⟨?_, ?_, ?_, fun c => ?_, fun later past c e => ?_, fun later past a outcome fault e => ?_,
    fun op fault τ e => ?_⟩
  · rw [hx.units, hx.streamingUnits, hx.openTransactions, balanced.units]
  · rw [hx.units]
    exact balanced.le_one
  · rw [hx.units, hx.slot]
    exact balanced.slot
  · rw [loans_eq hx.proper c, hx.loan, hx.slot]
    simp only [balanced.dialogue_isSome]
  · have proper : Always Proper (later ++ past) := e ▸ hx.proper
    rw [loans_eq proper.of_append c]
    split <;> omega
  · have proper : Always Proper (later ++ .used a outcome :: past) := e ▸ hx.proper
    exact proper.at.1 fault
  · have concludes : ((op.perform peer).exec σ).2.Concludes ((op.perform peer).exec σ).1 :=
      (op.perform_rests h).2
    rw [e] at concludes
    exact concludes _ rfl fault rfl

/-- After every sequence of operations, and whatever pool, connections, bookmark manager and
    transaction functions came to, the session owns the connection that its units need, and nothing
    else. -/
theorem play_ownsConnection (peer : Peer ω) (config : SessionConfig) (w : ω)
    (ops : List (Operation ω)) : (play peer config w ops).OwnsConnection peer :=
  (play_rests peer config w ops).ownsConnection

end GraphSession
