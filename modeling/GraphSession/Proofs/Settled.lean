import GraphSession.Proofs.Tenure

/-!
  The situations between operations.

  Between operations a session is settled: it is steady, the result that is streaming is the latest
  one of its unit, and the transaction that is open is the session's explicit transaction.  Every
  operation leaves the session settled again, whether it succeeds or fails.
-/

namespace GraphSession

variable {ω α : Type} {peer : Peer ω} {k : Nat} {u : Option (TransactionId × Transaction)}
  {s : Option ResultId} {c : Connection} {d : Dialogue} {id : ResultId} {σ : State (Recorded ω)}

/-- What is open is steady, and it is what the session takes for the latest. -/
structure State.Settled (u : Option (TransactionId × Transaction)) (s : Option ResultId)
    (σ : State (Recorded ω)) : Prop where
  steady : σ.Steady u s
  linked : Linked u s
  auto : ∀ r, u = none → s = some r → σ.session.autoResult = some r
  current : ∀ p, u = some p → σ.session.current = some p.1

/-- The session is between two operations. -/
def State.Rests (σ : State (Recorded ω)) : Prop := ∃ u s, σ.Settled u s

/-- An operation failed, and the session is between two operations. -/
def State.Rejects (fault : Fault) (σ : State (Recorded ω)) : Prop :=
  σ.Rests ∧ Blamed σ.history fault

namespace State

/-- Nothing is open. -/
theorem Stands.rests (h : σ.Stands {}) : σ.Rests := ⟨none, none, h.steady, .none, by simp, by simp⟩

/-- The transaction that is open is the one that the session remembers. -/
theorem Settled.own (h : σ.Settled u s) {t : TransactionId} (current : σ.session.current = some t)
    (p : TransactionId × Transaction) (hp : u = some p) : p.1 = t :=
  Option.some.inj ((h.current p hp).symm.trans current)

/-- A session that remembers no transaction has none open. -/
theorem Settled.none_open (h : σ.Settled u s) (current : σ.session.current = none) :
    σ.Settled none s := by
  cases u with
  | none => exact h
  | some p =>
    rw [h.current p rfl] at current
    cases current

/-- Which transaction the session remembers does not change how it stands. -/
theorem Steady.remember (h : σ.Steady u s) (current : Option TransactionId) :
    State.Steady u s { σ with session := { σ.session with current } } := by
  obtain ⟨x, hx, back⟩ := h.stands
  exact back (hx.tend rfl rfl rfl rfl rfl rfl)

theorem Settled.rejects {fault : Fault} (h : σ.Settled u s) (own : fault ≠ .noConnection) :
    σ.Rejects fault :=
  ⟨⟨u, s, h⟩, fun e => absurd e own⟩

/-- The session is as settled as before when it only remembers what it did before. -/
theorem Settled.kept {τ : State (Recorded ω)} (h : σ.Settled u s) (steady : τ.Steady u s)
    (autoResult : τ.session.autoResult = σ.session.autoResult)
    (current : τ.session.current = σ.session.current) : τ.Settled u s where
  steady := steady
  linked := h.linked
  auto r hu hs := autoResult.trans (h.auto r hu hs)
  current p hu := current.trans (h.current p hu)

/-- Without a transaction, one unit more is reserved. -/
theorem Steady.reserve (h : σ.Steady none s) :
    ∃ s', (s' = s ∨ s' = none) ∧ State.Busy 1 none s'
      { σ with session := { σ.session with units := σ.session.units + 1 } } := by
  have idle (h : σ.Stands {}) : State.Busy 1 none none
      { σ with session := { σ.session with units := σ.session.units + 1 } } :=
    .inl (h.setUnits (by rw [h.units]))
  rcases h with h | h | h
  · cases s with
    | none => exact ⟨none, .inr rfl, idle (Idle.bare h)⟩
    | some r =>
      obtain ⟨active, c, d, hd, h⟩ := h.live_some
      exact ⟨some r, .inl rfl, active, c, d, hd, h.setUnits (by rw [h.units])⟩
  · exact ⟨none, .inr rfl, idle (Idle.bare h)⟩
  · exact ⟨none, .inr rfl, idle (Idle.bare h)⟩

end State

/-! ## What is checked first -/

theorem checkOpen_settled {good : Unit → State (Recorded ω) → Prop}
    {bad : Fault → State (Recorded ω) → Prop} (hgood : good () σ) (hbad : bad .sessionClosed σ) :
    Op.Ends (checkOpen : Op (Recorded ω) Unit) σ good bad := by
  rw [checkOpen, Op.ends_bind, Op.ends_theSession]
  split
  · exact hbad
  · exact hgood

/-- Afterwards nothing is open where a transaction was, or none was and the results are as they
    were. -/
theorem reapTransaction_frees (h : σ.Settled u s) :
    (reapTransaction peer.recorded).Ends σ
      (fun _ τ => u ≠ none ∧ τ.Stands {} ∨
        σ.Settled none s ∧ τ.Settled none s ∧ τ.session.results = σ.session.results)
      fun fault τ => τ.Settled u s ∧ Blamed τ.history fault := by
  rw [reapTransaction, Op.ends_bind, Op.ends_theSession]
  dsimp only
  cases hcurrent : σ.session.current with
  | none => exact .inr ⟨h.none_open hcurrent, h.none_open hcurrent, rfl⟩
  | some t =>
    dsimp only
    split
    · exact ⟨h, fun e => absurd e (by decide)⟩
    · rw [Op.ends_bind, Op.ends_changeSession]
      have own := h.own hcurrent
      have forgotten := h.steady.remember none
      cases isOpen : (σ.session.transaction t).state.isTerminated with
      | true =>
        cases u with
        | none => exact .inr ⟨h, ⟨forgotten, .none, h.auto, by simp⟩, rfl⟩
        | some p =>
          obtain ⟨t', v⟩ := p
          obtain rfl : t' = t := own _ rfl
          rw [h.steady.isOpen] at isOpen
          cases isOpen
      | false =>
        obtain ⟨v, rfl, -⟩ := h.steady.opened isOpen
        rw [Bool.not_false, if_pos rfl, Op.ends_bind, Op.ends_lift]
        refine Act.ends_note fun w => ?_
        obtain ⟨x, hx, back⟩ := forgotten.stands
        rw [Op.ends_lift]
        exact (closeQuietly_stands (back (hx.noted _ w)) h.linked own).imp fun _ τ h =>
          .inl ⟨Option.some_ne_none _, State.Steady.bare h⟩

/-- Afterwards no transaction is open. -/
theorem reapTransaction_settled (h : σ.Settled u s) :
    (reapTransaction peer.recorded).Ends σ (fun _ τ => ∃ s', τ.Settled none s')
      fun fault τ => τ.Settled u s ∧ Blamed τ.history fault := by
  refine (reapTransaction_frees h).imp (fun _ τ h => ?_) fun _ _ h => h
  rcases h with ⟨-, bare⟩ | ⟨-, settled, -⟩
  · exact ⟨none, bare.steady, .none, by simp, by simp⟩
  · exact ⟨s, settled⟩

/-- Afterwards no auto-commit result is streaming. -/
theorem bufferAutoResult_stands (h : σ.Busy k none s)
    (auto : ∀ r, s = some r → σ.session.autoResult = some r) :
    (bufferAutoResult peer.recorded).Ends σ (fun _ τ => τ.Busy k none none)
      fun fault τ => τ.Down k none ∧ Blamed τ.history fault := by
  rw [bufferAutoResult, Op.ends_bind, Op.ends_theSession]
  cases hauto : σ.session.autoResult with
  | none =>
    cases s with
    | none => exact h
    | some r => rw [auto r rfl] at hauto; cases hauto
  | some r =>
    dsimp only
    rw [Op.ends_bind, Op.ends_changeSession]
    obtain ⟨x, hx, back⟩ := h.stands
    have forgotten : State.Busy k none s
        { σ with session := { σ.session with autoResult := none } } :=
      back (hx.tend rfl rfl rfl rfl rfl rfl)
    refine (bufferAll_stands forgotten).imp (fun _ τ h => ?_) fun _ _ h => h.2
    have quiet : (if s = some r then none else s) = none := by
      cases s with
      | none => rfl
      | some r' =>
        rw [auto r' rfl] at hauto
        rw [if_pos hauto]
    rwa [quiet] at h

/-! ## Beginning work -/

theorem run_rests (h : σ.Rests) (source : QuerySource) (params : Option Params) :
    (run peer.recorded source params).Ends σ (fun _ τ => τ.Rests) State.Rejects := by
  obtain ⟨u, s, h⟩ := h
  rw [run, Op.ends_bind, Op.ends_settleOn]
  refine ⟨fun query _ => ?_, fun fault e =>
    h.rejects ((Query.ofSource_refuses source).ne_noConnection e)⟩
  rw [Op.ends_bind]
  refine checkOpen_settled ?_ (h.rejects (by decide))
  rw [Op.ends_bind]
  refine (reapTransaction_settled h).imp (fun _ τ h => ?_) fun fault τ h => ⟨⟨u, s, h.1⟩, h.2⟩
  obtain ⟨s', h⟩ := h
  dsimp only
  rw [Op.ends_bind, Op.ends_settleOn]
  refine ⟨fun o _ => ?_, fun fault e =>
    h.rejects ((Overrides.extract_refuses _).ne_noConnection e)⟩
  rw [Op.ends_bind, Op.ends_theSession, Op.ends_bind, beginUnit, Op.ends_changeSession,
    Op.ends_bind, Op.ends_attempt, Op.ends_bind]
  have failed (fault : Fault) {τ : State (Recorded ω)} (h : τ.Down 1 none)
      (hb : Blamed τ.history fault) :
      (failAfter (endUnit peer.recorded) fault : Op (Recorded ω) ResultId).Ends τ
        (fun _ τ => τ.Rests) State.Rejects :=
    Op.ends_failAfter.mpr (((endUnit_stands h fun _ clean => clean).and
      (endUnit_within.grows τ)).imp fun _ _ h => ⟨h.1.bare.rests, hb.mono h.2⟩)
  obtain ⟨s'', hs, reserved⟩ := h.steady.reserve
  have auto (r : ResultId) (hr : s'' = some r) : τ.session.autoResult = some r := by
    rcases hs with rfl | rfl
    · exact h.auto r rfl hr
    · cases hr
  refine (bufferAutoResult_stands reserved auto).imp (fun _ υ h => ?_)
    fun fault υ h => failed fault h.1 h.2
  rw [Op.ends_bind]
  refine (connect_stands h _ _ o).imp (fun database υ h => ?_)
    fun fault υ h => failed fault (h.1.imp fun _ hd => hd.isClean) h.2
  obtain ⟨-, c, d, hd, h⟩ := h
  rw [Op.ends_bind]
  refine ((bookmarksForWork_fetches h rfl).and (bookmarksForWork_bears h rfl)).imp
    (fun bookmarks φ h => ?_)
    fun fault φ h => failed fault (State.Line.idle h.1.1 hd.isClean) h.1.2
  obtain ⟨⟨h, fetched⟩, bears⟩ := h
  rw [Op.ends_pure, Op.ends_bind]
  refine (startResult_stands (u := none) ⟨by simp, c, d, hd, h⟩ rfl ?_ ?_).imp (fun r φ h => ?_)
    fun fault φ h => ⟨(State.Idle.bare h.1).rests, h.2⟩
  · exact bears
  · exact fun _ => fetched
  rw [Op.ends_bind, Op.ends_changeSession]
  have settled {s : Option ResultId} (h : φ.Busy 0 none s) (hs : s = some r ∨ s = none) :
      State.Rests { φ with session := { φ.session with autoResult := some r } } := by
    obtain ⟨x, hx, back⟩ := h.stands
    refine ⟨none, s, .inl (back (hx.tend rfl rfl rfl rfl rfl rfl)), .none, fun r' _ e => ?_,
      by simp⟩
    rcases hs with rfl | rfl
    · exact e
    · cases e
  exact h.elim (fun h => settled h (.inl rfl)) fun h => settled h (.inr rfl)

theorem beginTransaction_rests (h : σ.Rests) (config : TransactionConfig) :
    (beginTransaction peer.recorded config).Ends σ (fun _ τ => τ.Rests) State.Rejects := by
  obtain ⟨u, s, h⟩ := h
  rw [beginTransaction, Op.ends_bind]
  refine checkOpen_settled ?_ (h.rejects (by decide))
  rw [Op.ends_bind]
  refine (reapTransaction_settled h).imp (fun _ τ h => ?_) fun fault τ h => ⟨⟨u, s, h.1⟩, h.2⟩
  obtain ⟨s', h⟩ := h
  rw [Op.ends_bind, Op.ends_theSession]
  dsimp only
  split
  · exact h.rejects (by decide)
  · next idle =>
    have bare : τ.Stands {} := by
      rcases h.steady with h | h | h
      · cases s' with
        | none => exact State.Idle.bare h
        | some r =>
          -- a result that is streaming counts
          obtain ⟨_, _, _, _, h⟩ := h.live_some
          rw [h.units] at idle
          exact absurd Nat.one_pos idle
      · exact State.Idle.bare h
      · exact State.Idle.bare h
    rw [Op.ends_bind]
    refine (openTransaction_stands bare _ _ _ _).imp (fun t υ h => ?_)
      fun fault υ h => ⟨h.1.rests, h.2⟩
    obtain ⟨v, -, active, c, d, hd, h⟩ := h
    rw [Op.ends_bind, Op.ends_changeSession]
    have live : State.Live 0 (some (t, v)) none
        { υ with session := { υ.session with current := some t } } :=
      ⟨active, c, d, hd, h.tend rfl rfl rfl rfl rfl rfl⟩
    refine ⟨some (t, v), none, .inl (live.busy (.inl (Option.some_ne_none _))), .quiet, by simp,
      fun p e => ?_⟩
    cases e
    rfl

/-! ## Handles -/

/-- What is open after an access, by what was open before it.  An access ends or changes only a
    transaction that its caller holds, but for its results and its failure. -/
inductive Follows : Option (TransactionId × Transaction) → Option ResultId →
    Option (TransactionId × Transaction) → Option ResultId → Prop
  | same {u : Option (TransactionId × Transaction)} {s : Option ResultId} : Follows u s u s
  | ended {t : TransactionId} {v : Transaction} {s : Option ResultId} (mine : v.holder = .caller) :
    Follows (some (t, v)) s none none
  | changed {t : TransactionId} {v v' : Transaction} {s s' : Option ResultId}
    (holder : v'.holder = v.holder ∨ v.holder = .caller) (linked : Linked (some (t, v')) s') :
    Follows (some (t, v)) s (some (t, v')) s'

/-- The session is steady after an access. -/
def State.Next (u : Option (TransactionId × Transaction)) (s : Option ResultId)
    (σ : State (Recorded ω)) : Prop :=
  ∃ u' s', Follows u s u' s' ∧ σ.Steady u' s'

theorem State.Steady.next (h : σ.Steady u s) : σ.Next u s := ⟨u, s, .same, h⟩

/-- Any access through any handle, by whatever situation the session is in. -/
theorem Access.perform_steady (h : σ.Steady u s) (linked : Linked u s) (a : Access) :
    (a.perform peer.recorded).Ends σ (fun _ τ => τ.Next u s)
      fun fault τ => τ.Next u s ∧ Blamed τ.history fault := by
  -- to anybody but its holder a transaction is closed
  have checked {β : Type} {t : TransactionId} {allowed : Holder → Bool} {op : Op (Recorded ω) β}
      (hop : allowed (σ.session.transaction t).holder = true →
        op.Ends σ (fun _ τ => τ.Next u s) fun fault τ => τ.Next u s ∧ Blamed τ.history fault) :
      Op.Ends (do checkHolder t allowed; op) σ (fun _ τ => τ.Next u s)
        fun fault τ => τ.Next u s ∧ Blamed τ.history fault := by
    rw [Op.ends_bind, checkHolder, Op.ends_bind, Op.ends_theSession]
    split
    · exact ⟨h.next, fun e => absurd e (by decide)⟩
    · next yes => exact hop (by simpa using yes)
  have read {β : Type} {op : Op (Recorded ω) β}
      (hop : op.Ends σ (fun _ τ => τ.Steady u s) (State.Failing u s)) :
      op.Ends σ (fun _ τ => τ.Next u s) fun fault τ => τ.Next u s ∧ Blamed τ.history fault :=
    hop.imp (fun _ _ h => h.next) fun _ _ h => ⟨h.1.next, h.2⟩
  -- the caller's transaction has ended
  have spent {t : TransactionId} {τ : State (Recorded ω)} (hτ : τ.Stands {})
      (isOpen : (σ.session.transaction t).state.isTerminated = false)
      (mine : (σ.session.transaction t).holder = .caller) : τ.Next u s := by
    obtain ⟨v, rfl, -, holder, -⟩ := h.opened isOpen
    exact ⟨none, none, .ended (holder.trans mine), hτ.steady⟩
  have rolledBack {t : TransactionId} (mine : (σ.session.transaction t).holder = .caller)
      (isOpen : (σ.session.transaction t).state.isTerminated = false) :
      (GraphSession.rollback peer.recorded t).Ends σ (fun _ τ => τ.Next u s)
        fun fault τ => τ.Next u s ∧ Blamed τ.history fault :=
    (rollback_stands h linked isOpen).imp (fun _ _ hτ => spent hτ isOpen mine)
      fun _ _ hτ => ⟨spent hτ.1 isOpen mine, hτ.2⟩
  cases a with
  | run t source params =>
    refine checked fun _ => (runIn_stands h linked t source params).imp (fun r τ hτ => ?_)
      fun fault τ hτ => ⟨hτ.1.next, hτ.2⟩
    obtain ⟨v, v', s', rfl, holder, last, hs, hτ⟩ := hτ
    refine ⟨_, _, .changed (.inl holder) fun p r' hp hr => ?_, hτ⟩
    cases hp
    rcases hs with rfl | rfl
    · exact last.trans hr
    · cases hr
  | commit t =>
    refine checked fun mine => ?_
    have mine : (σ.session.transaction t).holder = .caller := by simpa using mine
    by_cases active : (σ.session.transaction t).state = .active
    · have isOpen : (σ.session.transaction t).state.isTerminated = false := by rw [active]; rfl
      exact (commit_stands h linked active).imp (fun _ _ hτ => spent hτ isOpen mine)
        fun _ _ hτ => ⟨spent hτ.1 isOpen mine, hτ.2⟩
    · exact commit_refused active fun fault e =>
        ⟨h.next, fun e' => absurd (e' ▸ e) (refusal?_ne_noConnection _ _)⟩
  | rollback t =>
    refine checked fun mine => ?_
    cases isOpen : (σ.session.transaction t).state.isTerminated with
    | false => exact rolledBack (by simpa using mine) isOpen
    | true =>
      rw [GraphSession.rollback, Op.ends_bind, Op.ends_theSession]
      dsimp only
      rw [isOpen, if_pos rfl]
      exact ⟨h.next, fun e => absurd e (by decide)⟩
  | close t =>
    refine checked fun mine => ?_
    rw [closeTransaction, Op.ends_bind, Op.ends_theSession]
    cases isOpen : (σ.session.transaction t).state.isTerminated with
    | false => exact rolledBack (by simpa using mine) isOpen
    | true => exact h.next
  | drop t =>
    refine Op.ends_lift.mpr ((dropHandle_stands h t).imp fun _ τ hτ => ?_)
    rcases hτ with hτ | ⟨v, rfl, mine, hτ⟩
    · exact hτ.next
    · exact ⟨_, s, .changed (.inr mine) fun p r hp hr => by cases hp; exact linked (t, v) r rfl hr,
        hτ⟩
  | viewTransaction t => exact h.next
  | next r => exact read (next_steady h)
  | peek r => exact read (peek_steady h)
  | single r => exact read (single_steady h)
  | collect r => exact read (collect_steady h)
  | drain r => exact Op.ends_lift.mpr ((drain_steady h).imp fun _ _ h => h.1.next)
  | consume r => exact read (consume_steady h)
  | viewResult r => exact h.next

/-- Of a connection on loan, the dialogue has the transaction open that the session has; it has the
    same result streaming, or is broken. -/
theorem State.Steady.lent (h : σ.Steady u s)
    (lent : History.dialogue c σ.history = some d) :
    d.transaction = u.map Prod.fst ∧
      (d.IsBroken ∨ ∀ r, (σ.session.result r).isStreaming = true ↔ d.stream = some r) := by
  have line {u' : Option (TransactionId × Transaction)} {s' : Option ResultId} {c' : Connection}
      {d' : Dialogue} (h : σ.Line 0 u' s' c' d') : d' = d := by
    rw [h.loan, Standing.dialogue] at lent
    dsimp only at lent
    split at lent
    · exact Option.some.inj lent
    · cases lent
  have bare (h : σ.Stands {}) : False := by
    rw [h.loan] at lent
    cases lent
  have live {s' : Option ResultId} (h : σ.Live 0 u s') : d.transaction = u.map Prod.fst ∧
      ∀ r, (σ.session.result r).isStreaming = true ↔ d.stream = some r := by
    obtain ⟨-, c', d', ⟨-, transaction, stream⟩, h⟩ := h
    obtain rfl := line h
    refine ⟨transaction, fun r => ?_⟩
    rw [stream]
    exact h.streaming r
  have busy {s' : Option ResultId} (h : σ.Busy 0 u s') : d.transaction = u.map Prod.fst ∧
      ∀ r, (σ.session.result r).isStreaming = true ↔ d.stream = some r := by
    cases u with
    | some p => exact live (h.live (.inl (Option.some_ne_none p)))
    | none =>
      cases s' with
      | none => exact (bare h.bare).elim
      | some r => exact live h.live_some
  rcases h with h | h | h
  · exact (busy h).imp_right .inr
  · exact (busy h).imp_right .inr
  · cases u with
    | none => exact (bare h.bare).elim
    | some p =>
      obtain ⟨c', d', hd, h⟩ := h
      obtain rfl := line h
      exact ⟨hd.2, .inl hd.1⟩

/-- Of a connection on loan, the dialogue has the transaction open that the session has. -/
theorem State.Steady.transaction_eq (h : σ.Steady u s)
    (lent : History.dialogue c σ.history = some d) : d.transaction = u.map Prod.fst :=
  (h.lent lent).1

/-- Every transaction is in a state that fits how it stands in its dialogue. -/
theorem State.Steady.fits (h : σ.Steady u s) (t : TransactionId) :
    (σ.session.transaction t).state.Fits t σ.history := by
  cases isOpen : (σ.session.transaction t).state.isTerminated with
  | false =>
    obtain ⟨v, rfl, -, -, ⟨s', -, rfl, active, -, c, d, hd, h⟩ | ⟨failed, c, d, hd, h⟩⟩ :=
      h.opened isOpen
    · rw [active]
      exact ⟨c, d, h.lent, hd.2.1, hd.1⟩
    · rw [failed]
      exact ⟨c, d, h.lent, hd.2, hd.1⟩
  | true =>
    have absent (c : Connection) (d : Dialogue) (lent : History.dialogue c σ.history = some d) :
        d.transaction ≠ some t := by
      rw [h.transaction_eq lent]
      cases u with
      | none => simp
      | some p =>
        rintro e
        obtain rfl : p.1 = t := Option.some.inj e
        rw [h.isOpen] at isOpen
        cases isOpen
    revert isOpen
    cases (σ.session.transaction t).state with
    | active => simp [TransactionState.isTerminated]
    | failed => simp [TransactionState.isTerminated]
    | committed => exact fun _ => absent
    | rolledBack => exact fun _ => absent
    | closed => exact fun _ => absent

/-- The fault in the answer of an access, if there is one, is blamed, and the transaction that it
    shows, if it does, is shown as it stands. -/
def State.Tells (a : Access) (reply : a.Reply) (σ : State (Recorded ω)) : Prop :=
  (∀ fault, a.fault? (.ok reply) = some fault → Blamed σ.history fault) ∧
    ∀ t state, a.shown? (.ok reply) = some (t, state) → state.Fits t σ.history

/-- Only reading to the end succeeds with a fault, and only a view shows a transaction. -/
theorem Access.perform_tells (h : σ.Steady u s) (a : Access) :
    (a.perform peer.recorded).Ends σ (fun r τ => τ.Tells a r) fun _ _ => True := by
  cases a with
  | drain id =>
    exact Op.ends_lift.mpr ((drain_steady h).imp fun _ _ h => ⟨h.2, fun _ _ e => by cases e⟩)
  | viewTransaction t =>
    refine ⟨fun _ e => (by cases e), fun t' state e => ?_⟩
    cases e
    exact h.fits t
  | _ =>
    exact (Op.ends_trivial _ σ).imp
      (fun _ _ _ => ⟨fun _ e => (by cases e), fun _ _ e => (by cases e)⟩) fun _ _ h => h

/-- An access between two operations. -/
theorem Access.perform_rests (h : σ.Rests) (a : Access) :
    (a.perform peer.recorded).Ends σ (fun r τ => τ.Rests ∧ τ.Tells a r) State.Rejects := by
  obtain ⟨u, s, h⟩ := h
  -- an access does not touch what the session remembers
  have rests {τ : State (Recorded ω)} (hτ : τ.Next u s) (hc : Course a.license σ τ) :
      τ.Rests := by
    obtain ⟨auto, current, -⟩ := hc.own (by cases a <;> exact fun h => h)
    obtain ⟨u', s', follows, hτ⟩ := hτ
    cases follows with
    | same => exact ⟨u, s, h.kept hτ auto current⟩
    | ended mine => exact ⟨none, none, hτ, .none, by simp, by simp⟩
    | @changed t v v' _ _ holder linked =>
      refine ⟨_, s', hτ, linked, by simp, fun p hp => ?_⟩
      cases hp
      exact current.trans (h.current (t, v) rfl)
  refine (((a.perform_steady h.steady h.linked).and (a.perform_within.ends σ)).and (a.perform_tells
    h.steady)).imp ?_ ?_
  · intro r τ hτ
    exact ⟨rests hτ.1.1 hτ.1.2, hτ.2⟩
  · intro fault τ hτ
    exact ⟨rests hτ.1.1.1 hτ.1.2, hτ.1.1.2⟩

/-! ## The session as such -/

theorem lastBookmarks_rests (h : σ.Rests) :
    (lastBookmarks peer.recorded).Ends σ (fun _ τ => τ.Rests) State.Rejects := by
  obtain ⟨u, s, h⟩ := h
  rw [lastBookmarks, Op.ends_bind, Op.ends_theSession]
  dsimp only
  cases σ.session.autoResult with
  | none => exact ⟨u, s, h⟩
  | some id =>
    rw [Op.ends_bind]
    have course := (bufferAll_within id : (bufferAll peer.recorded id).Within {}).ends σ
    have kept {τ : State (Recorded ω)} (hτ : τ.Steady u s) (hc : Course {} σ τ) : τ.Settled u s :=
      h.kept hτ (hc.own fun h => h).1 (hc.own fun h => h).2.1
    exact ((fetchWhile_steady h.steady _).and course).imp (fun _ τ hτ => ⟨u, s, kept hτ.1 hτ.2⟩)
      fun fault τ hτ => ⟨⟨u, s, kept hτ.1.1 hτ.2⟩, hτ.1.2⟩

theorem serverInfo_rests (h : σ.Rests) :
    (serverInfo peer.recorded).Ends σ (fun _ τ => τ.Rests) State.Rejects := by
  obtain ⟨u, s, h⟩ := h
  rw [serverInfo, Op.ends_bind]
  refine checkOpen_settled ?_ (h.rejects (by decide))
  rw [Op.ends_bind, Op.ends_theSession]
  cases free : σ.session.connection with
  | some c => exact ⟨u, s, h⟩
  | none =>
    rw [Op.ends_bind]
    have bare : σ.Stands {} := h.steady.bare_of_unconnected free
    refine (resolveDatabase_stands bare rfl {}).imp (fun database τ h => ?_)
      fun fault τ h => ⟨h.1.rests, h.2⟩
    rw [Op.ends_bind]
    refine (acquire_stands h rfl rfl _ _ _ _).imp (fun c υ h => ?_)
      fun fault υ h => ⟨h.1.rests, h.2⟩
    obtain ⟨d, hd, h⟩ := h
    rw [Op.ends_bind, Op.ends_lift]
    exact Act.ends_giveBack fun w => State.Stands.rests (h.giveBack rfl hd.isClean w)

/-- Afterwards no transaction is open. -/
theorem endCurrent_settled (h : σ.Settled u s) :
    (endCurrent peer.recorded).Ends σ fun _ τ => ∃ s', τ.Settled none s' := by
  rw [endCurrent, Act.ends_bind, Act.ends_theSession]
  cases hcurrent : σ.session.current with
  | none => exact ⟨s, h.none_open hcurrent⟩
  | some t =>
    rw [Act.ends_bind, Act.ends_changeSession]
    have forgotten := h.steady.remember none
    have closed : (closeQuietly peer.recorded t).Within { concludes := True } :=
      closeQuietly_within trivial t
    refine ((closeQuietly_stands forgotten h.linked (h.own hcurrent)).and (closed.ends _)).imp ?_
    intro _ τ hτ
    obtain ⟨hτ, course⟩ := hτ
    cases u with
    | none =>
      exact ⟨s, hτ, .none, fun r hu hs => (course.own fun h => h).1.trans (h.auto r hu hs), by simp⟩
    | some p => exact ⟨none, hτ, .none, by simp, by simp⟩

/-- Consuming the only result that can be streaming ends its stream. -/
theorem consume_bare (h : σ.Steady none s) (own : ∀ r, s = some r → r = id) :
    (consume peer.recorded id).Ends σ (fun _ τ => τ.Stands {}) fun _ τ => τ.Stands {} := by
  have quiet (h : σ.Steady none none) :
      (consume peer.recorded id).Ends σ (fun _ τ => τ.Stands {}) fun _ τ => τ.Stands {} :=
    (consume_steady h).imp (fun _ _ h => h.bare) fun _ _ h => h.1.bare
  rcases h with h | h | h
  · cases s with
    | none => exact quiet (.inl h)
    | some r =>
      obtain rfl := own r rfl
      obtain ⟨x, hx, -⟩ := h.stands
      obtain ⟨scope, fresh, -⟩ := Result.usable_iff.mp
        (hx.usable r ((hx.streaming r).mp ((h.streaming r).mpr rfl)))
      rw [consume, Op.ends_bind, Op.ends_theSession]
      dsimp only
      rw [scope, fresh, Op.ends_bind, Op.ends_failIf]
      refine ⟨fun _ => ?_, by simp⟩
      rw [Op.ends_bind]
      refine (discardRest_stands h).imp (fun _ τ h => ?_) fun _ _ h => State.Idle.bare h.2.1
      rw [if_pos rfl] at h
      have bare : τ.Stands {} := State.Idle.bare h
      have quiet : (τ.session.result r).isStreaming = false :=
        Bool.eq_false_iff.mpr fun e => by cases (bare.streaming r).mp e
      rw [Op.ends_bind, Op.ends_changeResult, Op.ends_bind, Op.ends_theSession]
      have consumed : State.Stands
          { τ with
            session := τ.session.setResult r
              { τ.session.result r with buffer := [], consumed := true } } {} :=
        bare.changeResult rfl rfl fun e => by cases quiet.symm.trans e
      split
      · exact consumed
      · exact consumed
      · exact consumed
  · exact quiet (.inl h)
  · exact quiet (.inr (.inr h))

/-- Closing a session leaves nothing open. -/
theorem close_rests (h : σ.Rests) : (close peer.recorded).Ends σ fun _ τ => τ.Rests := by
  obtain ⟨u, s, h⟩ := h
  rw [close, Act.ends_bind, Act.ends_theSession]
  split
  · rw [Act.ends_bind]
    refine (endCurrent_settled h).imp fun _ τ h => ?_
    obtain ⟨s', h⟩ := h
    rw [Act.ends_bind]
    have consumed : (consumeAutoResult peer.recorded).Ends τ fun _ υ => υ.Stands {} := by
      rw [consumeAutoResult, Act.ends_bind, Act.ends_theSession]
      cases hauto : τ.session.autoResult with
      | none =>
        cases s' with
        | none => exact h.steady.bare
        | some r => rw [h.auto r rfl rfl] at hauto; cases hauto
      | some r =>
        rw [Act.ends_bind, Act.ends_changeSession, Act.ends_bind, Act.ends_run]
        have forgotten : State.Steady none s'
            { τ with session := { τ.session with autoResult := none } } := by
          obtain ⟨x, hx, back⟩ := h.steady.stands
          exact back (hx.tend rfl rfl rfl rfl rfl rfl)
        refine (consume_bare forgotten fun r' e => ?_).imp (fun _ _ h => h) fun fault υ h => ?_
        · exact Option.some.inj ((h.auto r' rfl e).symm.trans hauto)
        · exact Act.ends_note fun w => h.noted _ w
    refine consumed.imp fun _ υ h => ?_
    rw [Act.ends_bind]
    refine (endAllUnits_stands h rfl (by simp)).imp fun _ φ h => ?_
    rw [Act.ends_bind, Act.ends_changeSession]
    have closed : State.Stands { φ with session := { φ.session with closed := true } } {} :=
      h.tend rfl rfl rfl rfl rfl rfl
    exact Act.ends_note fun w => State.Stands.rests (closed.noted _ w)
  · exact ⟨u, s, h⟩

end GraphSession
