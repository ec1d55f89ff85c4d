import GraphSession.Proofs.Closing

/-!
  Quiescence after the end.

  A handle outlives what it stands for, so a caller may go on using it: a result whose transaction
  is over, a transaction that was settled, any of them on a session that was closed.  None of this
  reaches the pool, a connection or the bookmark manager (`session_quiesces`):

  * after `close` has returned, whatever is done next makes no call at all;
  * whenever a transaction is over, in whatever way it ended, its results cannot be read and nothing
    can be done with it.  All that happens is the fault;
  * a transaction is over after a commit, a rollback or a close by its caller, also when that fails,
    after the attempt that it was opened for, and as soon as the session has forgotten it.

  The states considered are those between operations and those that the code of a transaction
  function can see, since that code uses handles as well (`Reached`).  What carries the proof is the
  ledger: a result that was obtained is one that its transaction still has, or is out of scope.
-/

namespace GraphSession

variable {ω α : Type} {peer : Peer ω} {config : SessionConfig} {w : ω} {t : TransactionId}
  {σ τ : State (Recorded ω)}

/-! ## The states that a session can come to -/

/-- Where a session can be. -/
inductive Phase
  /-- Between two operations. -/
  | between
  /-- Between the attempts of a transaction function. -/
  | trying
  /-- In the code of a transaction function, which has this transaction. -/
  | inside (transaction : TransactionId)

/-- The states that a session can come to, phase by phase: between operations, and on the way of one
    that runs a transaction function, whatever its code does. -/
inductive Reached (peer : Peer ω) (config : SessionConfig) (w : ω) :
    Phase → State (Recorded ω) → Prop
  | start : Reached peer config w .between (.initial config w)
  | operation {σ : State (Recorded ω)} (op : Operation ω) (plain : ¬ op.IsFunction) :
    Reached peer config w .between σ → Reached peer config w .between (op.after peer σ)
  /-- The journal is told that a function is run under its former name. -/
  | noted {σ : State (Recorded ω)} (event : Event) : Reached peer config w .between σ →
    Reached peer config w .between ((note peer.recorded event).exec σ).2
  | prepared {σ τ : State (Recorded ω)} : Reached peer config w .between σ →
    (prepareExecute peer.recorded).exec σ = (.ok (), τ) → Reached peer config w .trying τ
  | unprepared {σ τ : State (Recorded ω)} {fault : Fault} : Reached peer config w .between σ →
    (prepareExecute peer.recorded).exec σ = (.error fault, τ) → Reached peer config w .between τ
  /-- The clock, the samples, the journal and the waiting between two attempts. -/
  | paused {σ : State (Recorded ω)} (request : Request) (pausing : request.IsPausing) :
    Reached peer config w .trying σ →
    Reached peer config w .trying ((ask peer.recorded request).exec σ).2
  | opened {σ τ : State (Recorded ω)} {mode : AccessMode} {api : ApiKind}
    {settings : TransactionConfig} {t : TransactionId} : Reached peer config w .trying σ →
    (openTransaction peer.recorded mode api settings .session).exec σ = (.ok t, τ) →
    Reached peer config w (.inside t) τ
  | unopened {σ τ : State (Recorded ω)} {mode : AccessMode} {api : ApiKind}
    {settings : TransactionConfig} {fault : Fault} : Reached peer config w .trying σ →
    (openTransaction peer.recorded mode api settings .session).exec σ = (.error fault, τ) →
    Reached peer config w .trying τ
  /-- The code makes an access. -/
  | called {σ : State (Recorded ω)} {t : TransactionId} (a : Access) :
    Reached peer config w (.inside t) σ →
    Reached peer config w (.inside t) ((a.performTold peer).exec σ).2
  /-- The code changes something elsewhere. -/
  | drifted {σ : State (Recorded ω)} {t : TransactionId} (w' : ω) :
    Reached peer config w (.inside t) σ →
    Reached peer config w (.inside t) { σ with world := { σ.world with world := w' } }
  | returned {σ : State (Recorded ω)} {t : TransactionId} (fault : Option Fault) :
    Reached peer config w (.inside t) σ →
    Reached peer config w (.inside t) { σ with world := σ.world.add (.returned fault) }
  | settled {α : Type} {σ : State (Recorded ω)} {t : TransactionId} {outcome : Except Fault α} :
    Reached peer config w (.inside t) σ → σ.Returned outcome →
    Reached peer config w .trying ((settle peer.recorded t outcome).exec σ).2
  | done {σ : State (Recorded ω)} : Reached peer config w .trying σ →
    Reached peer config w .between σ

/-- What an action does, by its outcome. -/
theorem Op.ends_of_exec_eq {op : Op ω α} {s : State ω} {good : α → State ω → Prop}
    {bad : Fault → State ω → Prop} (hgood : ∀ a t, op.exec s = (.ok a, t) → good a t)
    (hbad : ∀ fault t, op.exec s = (.error fault, t) → bad fault t) : op.Ends s good bad := by
  unfold Op.Ends
  split
  · next e => exact hgood _ _ e
  · next e => exact hbad _ _ e

/-- The way of a transaction function leads through these states only. -/
theorem Reached.upheld (peer : Peer ω) (config : SessionConfig) (w : ω) :
    Upheld peer (Reached peer config w .between) (Reached peer config w .trying)
      fun t => Reached peer config w (.inside t) where
  call _ _ a h := h.called a
  drift _ _ w' h := h.drifted w'
  ended _ _ fault h := h.returned fault
  noting _ event h := h.noted event
  prepare _ h := Op.ends_of_exec_eq (fun _ _ e => h.prepared e) fun _ _ e => h.unprepared e
  pausing _ request pausing h := h.paused request pausing
  opens _ _ _ _ h := Op.ends_of_exec_eq (fun _ _ e => h.opened e) fun _ _ e => h.unopened e
  settles _ _ outcome h returned := by
    have settled := h.settled returned
    refine Op.ends_of_exec_eq (fun a τ e => ?_) fun fault τ e => ?_
    · rwa [e] at settled
    · rwa [e] at settled
  done _ h := h.done

/-- After every sequence of operations the session has come to one of them. -/
theorem reached_play (peer : Peer ω) (config : SessionConfig) (w : ω) (ops : List (Operation ω)) :
    Reached peer config w .between (play peer config w ops) := by
  induction ops using List.reverseRecOn with
  | nil => exact .start
  | append_singleton ops op ih =>
    rw [play_concat]
    by_cases runs : op.IsFunction
    · exact (Reached.upheld peer config w).function ih op runs
    · exact ih.operation op runs

/-- What holds of a new session, and is kept by operations and upheld by transaction functions,
    holds of every state that the session can come to. -/
theorem Reached.keeps {between trying : State (Recorded ω) → Prop}
    {inside : TransactionId → State (Recorded ω) → Prop}
    (start : between (.initial config w))
    (operation : ∀ σ (op : Operation ω), ¬ op.IsFunction → between σ → between (op.after peer σ))
    (k : Upheld peer between trying inside) {phase : Phase} (h : Reached peer config w phase σ) :
    match phase with
    | .between => between σ
    | .trying => trying σ
    | .inside t => inside t σ := by
  induction h with
  | start => exact start
  | operation op plain _ ih => exact operation _ op plain ih
  | noted event _ ih => exact k.noting _ event ih
  | prepared _ e ih => exact (k.prepare _ ih).of_ok e
  | unprepared _ e ih => exact (k.prepare _ ih).of_error e
  | paused request pausing _ ih => exact k.pausing _ request pausing ih
  | opened _ e ih => exact (k.opens _ _ _ _ ih).of_ok e
  | unopened _ e ih => exact (k.opens _ _ _ _ ih).of_error e
  | called a _ ih => exact k.call _ _ a ih
  | drifted w' _ ih => exact k.drift _ _ w' ih
  | returned fault _ ih => exact k.ended _ _ fault ih
  | settled _ returned ih => exact (k.settles _ _ _ ih returned).state
  | done _ ih => exact k.done _ ih

/-- What every operation keeps holds in every phase. -/
theorem Reached.kept {inv : State (Recorded ω) → Prop} (k : Kept peer inv)
    (start : inv (.initial config w)) {phase : Phase} (h : Reached peer config w phase σ) :
    inv σ := by
  have keeps := h.keeps start (fun σ op _ h => k.operation h op) k.upheld
  cases phase <;> exact keeps

/-- The use of a handle leads to a state that the session can come to. -/
theorem Reached.used {phase : Phase} (h : Reached peer config w phase σ) (a : Access) :
    ∃ phase, Reached peer config w phase ((a.performTold peer).exec σ).2 := by
  cases phase with
  | between => exact ⟨.between, h.operation (.access a) (fun runs => runs)⟩
  | trying => exact ⟨.between, h.done.operation (.access a) (fun runs => runs)⟩
  | inside t => exact ⟨.inside t, h.called a⟩

/-! ## What holds in every phase -/

namespace State

/-- Between operations the session is at rest, and dormant if it is closed. -/
structure Between (σ : State (Recorded ω)) : Prop where
  rests : σ.Rests
  ledger : σ.Ledger
  dormant : σ.session.closed = true → σ.Dormant

/-- Between attempts nothing is open. -/
structure Trying (σ : State (Recorded ω)) : Prop where
  bare : σ.Stands {}
  ledger : σ.Ledger
  isOpen : σ.session.closed = false

/-- The code of a transaction function has an open transaction. -/
structure Inside (t : TransactionId) (σ : State (Recorded ω)) : Prop where
  managed : σ.Managed t
  ledger : σ.Ledger
  isOpen : σ.session.closed = false

/-- An open session is not dormant yet. -/
theorem Between.of_isOpen (rests : σ.Rests) (ledger : σ.Ledger)
    (isOpen : σ.session.closed = false) : σ.Between where
  rests := rests
  ledger := ledger
  dormant closed := by
    rw [isOpen] at closed
    cases closed

end State

theorem prepareExecute_moments (h : σ.Between) :
    (prepareExecute peer.recorded).Ends σ (fun _ τ => τ.Trying) fun _ τ => τ.Between := by
  cases closed : σ.session.closed with
  | true => exact prepareExecute_closed closed h
  | false =>
    have along : Op.Along peer { enlists := True } (prepareExecute peer.recorded) :=
      prepareExecute_along trivial
    have within : (prepareExecute peer.recorded).Within { directs := True, concludes := True } :=
      prepareExecute_within trivial trivial
    have isOpen {τ : State (Recorded ω)} (path : Path peer { enlists := True } σ τ) :
        τ.session.closed = false :=
      (path.retains.closed fun n => n).trans closed
    refine (((prepareExecute_stands h.rests).and (h.ledger.op along within fun n => n)).and
      (along.ends σ)).imp (fun _ τ hτ => ?_) fun fault τ hτ => ?_
    · exact ⟨hτ.1.1, hτ.1.2, isOpen hτ.2⟩
    · exact .of_isOpen hτ.1.1.1 hτ.1.2 (isOpen hτ.2)

theorem openTransaction_moments (h : σ.Trying) (mode : AccessMode) (api : ApiKind)
    (settings : TransactionConfig) :
    (openTransaction peer.recorded mode api settings .session).Ends σ (fun t τ => τ.Inside t)
      fun _ τ => τ.Trying := by
  have along : Op.Along peer {} (openTransaction peer.recorded mode api settings .session) :=
    openTransaction_along rfl mode api settings .session
  have within : (openTransaction peer.recorded mode api settings .session).Within
      { borrows := True } := openTransaction_within trivial mode api settings .session
  refine (((openTransaction_stands h.bare mode api settings .session).and
    (h.ledger.op along within fun n => n)).and (along.ends σ)).imp (fun t τ hτ => ?_)
      fun fault τ hτ => ?_
  · obtain ⟨⟨⟨v, holder, live⟩, ledger⟩, path⟩ := hτ
    have steady : τ.Steady (some (t, v)) none := .inl (live.busy (.inl (Option.some_ne_none _)))
    exact ⟨⟨v, none, holder, .quiet, steady⟩, ledger,
      (path.retains.closed fun n => n).trans h.isOpen⟩
  · exact ⟨hτ.1.1.1, hτ.1.2, (hτ.2.retains.closed fun n => n).trans h.isOpen⟩

theorem settle_moments (h : σ.Inside t) {outcome : Except Fault α} (returned : σ.Returned outcome) :
    (settle peer.recorded t outcome).Ends σ (fun _ τ => τ.Trying) fun _ τ => τ.Trying := by
  obtain ⟨v, s, holder, linked, steady⟩ := h.managed
  have along : Op.Along peer { enlists := True, commits := True }
      (settle peer.recorded t outcome) := settle_along trivial trivial t outcome
  have own (p : TransactionId × Transaction) (e : some (t, v) = some p) : p.1 = t := by
    cases e
    rfl
  have blamed (fault : Fault) (failed : outcome = .error fault) : Blamed σ.history fault := by
    obtain ⟨past, history⟩ := returned fault failed
    rw [history]
    exact .here rfl
  refine (((settle_stands steady linked own (Option.some_ne_none _) blamed).and
    (settle_ledger steady linked h.ledger t outcome)).and (along.ends σ)).imp
      (fun _ τ hτ => ?_) fun _ τ hτ => ?_
  · exact ⟨hτ.1.1, hτ.1.2, (hτ.2.retains.closed fun n => n).trans h.isOpen⟩
  · exact ⟨hτ.1.1.1, hτ.1.2, (hτ.2.retains.closed fun n => n).trans h.isOpen⟩

theorem Access.performTold_moments (h : σ.Inside t) (a : Access) :
    (a.performTold peer).Ends σ fun _ τ => τ.Inside t := by
  obtain ⟨v, s, holder, linked, steady⟩ := h.managed
  have along : (a.performTold peer).Along peer { enlists := True, commits := True } :=
    a.performTold_along trivial rfl fun _ _ => trivial
  refine (((a.performTold_managed h.managed).and
    (a.performTold_ledger steady linked h.ledger)).and (along.ends σ)).imp fun _ τ hτ => ?_
  exact ⟨hτ.1.1, hτ.1.2, (hτ.2.retains.closed fun n => n).trans h.isOpen⟩

/-- Pausing leaves nothing open. -/
theorem ask_moments (h : σ.Trying) (request : Request) (pausing : request.IsPausing) :
    (ask peer.recorded request).Ends σ fun _ τ => τ.Trying := by
  refine Act.ends_ask fun answer w => ?_
  have aside : (Happening.asked request answer).IsAside := by
    cases request <;> trivial
  have fresh : CarriesFresh σ.session.config σ.history (.asked request answer) := by
    cases request <;> trivial
  exact ⟨h.bare.aside aside fresh w, h.ledger.heard request answer w, h.isOpen⟩

/-- Transaction functions go through these moments. -/
theorem upheld_moments : Upheld peer State.Between State.Trying State.Inside where
  call _ _ a h := a.performTold_moments h
  drift _ _ w h := ⟨h.managed.drift w, h.ledger.drift w, h.isOpen⟩
  ended _ _ fault h := by
    refine ⟨h.managed.log trivial trivial trivial, h.ledger.log fun t source params r e => ?_,
      h.isOpen⟩
    cases e
  noting σ event h := by
    refine Act.ends_note fun w =>
      ⟨h.rests.noted event w, h.ledger.heard (.note event) () w, fun closed => ?_⟩
    obtain ⟨closed, forgotten, streaming, terminated⟩ := h.dormant closed
    exact ⟨closed, forgotten, streaming, terminated⟩
  prepare _ h := prepareExecute_moments h
  pausing _ request pausing h := ask_moments h request pausing
  opens _ mode api settings h := openTransaction_moments h mode api settings
  settles _ _ _ h returned := settle_moments h returned
  done _ h := .of_isOpen h.bare.rests h.ledger h.isOpen

/-- An operation that runs no transaction function keeps the ledger. -/
theorem Operation.after_ledger (h : σ.Rests) (ledger : σ.Ledger) (op : Operation ω)
    (plain : ¬ op.IsFunction) : (op.after peer σ).Ledger := by
  have told (may : License) {β : Type} {x : Op (Recorded ω) β} (uncommitted : ¬ op.mayCommit)
      (within : x.Within may) (path : Path peer op.purpose σ ((concluded x).exec σ).2) :
      State.Ledger ((concluded x).exec σ).2 := by
    have course : (concluded x).Within may := .bind (.run within) fun _ => .pure _
    exact ledger.along path uncommitted (course σ)
  have path := op.after_path peer σ
  cases op with
  | run source params =>
    exact told .working plain (run_within trivial trivial trivial source params) path
  | beginTransaction settings =>
    exact told .working plain (beginTransaction_within trivial trivial trivial settings) path
  | execute | executeRenamed | executeQuery | executeBlocking => exact absurd trivial plain
  | lastBookmarks => exact told .working plain lastBookmarks_within path
  | lastBookmark => exact told .working plain lastBookmark_within path
  | serverInfo => exact told .working plain (serverInfo_within trivial) path
  | close => exact told .closing plain (.lift fun σ => close_ends σ) path
  | access a =>
    obtain ⟨u, s, settled⟩ := h
    exact a.performTold_ledger settled.steady settled.linked ledger
  | elsewhere f => exact ledger.drift _

/-- So in every phase it is as it should be. -/
theorem Reached.moments {phase : Phase} (h : Reached peer config w phase σ) :
    match phase with
    | .between => σ.Between
    | .trying => σ.Trying
    | .inside t => σ.Inside t := by
  have start : (State.initial config w).Between :=
    .of_isOpen (State.initial_stands config w).rests (.initial config w) rfl
  refine h.keeps start (fun σ op plain h => ?_) upheld_moments
  exact ⟨(op.perform_rests h.rests).1, op.after_ledger h.rests h.ledger plain,
    op.after_dormant h.rests h.dormant⟩

/-! ## Silence -/

/-- The result that an access wants a record or the summary of. -/
def Access.consults? : Access → Option ResultId
  | next r | peek r | single r | collect r | consume r => some r
  | _ => none

section OutOfScope

variable {r : ResultId} {ended : ScopeEnd}

theorem scopeFault?_of_outOfScope (gone : (σ.session.result r).outOfScope = some ended) :
    (σ.session.result r).scopeFault? = some (.resultOutOfScope (ended = .committed)) := by
  rw [Result.scopeFault?, gone]
  rfl

theorem unusable?_of_outOfScope (gone : (σ.session.result r).outOfScope = some ended) :
    (σ.session.result r).unusable? = some (.resultOutOfScope (ended = .committed)) := by
  rw [Result.unusable?, scopeFault?_of_outOfScope gone]

/-- Reading a result that is out of scope to its end gives nothing but the fault. -/
theorem drain_outOfScope (gone : (σ.session.result r).outOfScope = some ended) :
    (drain peer.recorded r).exec σ =
      (([], some (.resultOutOfScope (ended = .committed))), σ) := by
  rw [drain, Act.exec_bind, Act.exec_theSession]
  simp only [unusable?_of_outOfScope gone]
  rfl

/-- Any other way to read it fails, and does nothing else. -/
theorem Access.exec_outOfScope (gone : (σ.session.result r).outOfScope = some ended) {a : Access}
    (consults : a.consults? = some r) :
    (a.perform peer.recorded).exec σ = (.error (.resultOutOfScope (ended = .committed)), σ) := by
  let why (fault : Fault) : Prop := fault = .resultOutOfScope (ended = .committed)
  suffices h : (a.perform peer.recorded).Ends σ (fun _ _ => False) fun fault τ =>
      why fault ∧ τ = σ by
    obtain ⟨fault, rfl, e⟩ := Op.exec_of_refused h
    exact e
  have peeked : (GraphSession.peek peer.recorded r).Ends σ (fun _ _ => False) fun fault τ =>
      why fault ∧ τ = σ := by
    rw [GraphSession.peek, Op.ends_bind, Op.ends_checkUsable, unusable?_of_outOfScope gone]
    refine ⟨fun usable => (by cases usable), fun fault e => ⟨?_, rfl⟩⟩
    exact (Option.some.inj e).symm
  have taken : (GraphSession.next peer.recorded r).Ends σ (fun _ _ => False) fun fault τ =>
      why fault ∧ τ = σ := by
    rw [GraphSession.next, Op.ends_bind]
    exact peeked.imp (fun _ _ none => none.elim) fun _ _ h => h
  cases a with
  | next r' =>
    obtain rfl : r' = r := Option.some.inj consults
    exact taken
  | peek r' =>
    obtain rfl : r' = r := Option.some.inj consults
    exact peeked
  | single r' =>
    obtain rfl : r' = r := Option.some.inj consults
    rw [perform, single_eq, Op.ends_bind]
    exact taken.imp (fun _ _ none => none.elim) fun _ _ h => h
  | collect r' =>
    obtain rfl : r' = r := Option.some.inj consults
    rw [perform, GraphSession.collect, Op.ends_bind, Op.ends_lift, Act.Ends, drain_outOfScope gone]
    exact ⟨rfl, rfl⟩
  | consume r' =>
    obtain rfl : r' = r := Option.some.inj consults
    rw [perform, GraphSession.consume, Op.ends_bind, Op.ends_theSession, Op.ends_bind,
      Op.ends_failIf, scopeFault?_of_outOfScope gone]
    refine ⟨fun e => (by cases e), fun fault e => ⟨?_, rfl⟩⟩
    exact (Option.some.inj e).symm
  | _ => cases consults

end OutOfScope

/-- Nothing comes of a transaction any more: each way to read a result that was obtained from it
    fails because the result is out of scope, and running a query in it, committing it and rolling
    it back fail.  Nothing else happens, so no call is made. -/
structure State.Silenced (peer : Peer ω) (t : TransactionId) (σ : State (Recorded ω)) : Prop where
  unreadable : ∀ r, σ.history.Obtained t r → ∃ committed,
    (∀ a : Access, a.consults? = some r →
      (a.perform peer.recorded).exec σ = (.error (.resultOutOfScope committed), σ)) ∧
    (drain peer.recorded r).exec σ = (([], some (.resultOutOfScope committed)), σ)
  refused : ∀ a : Access, a.worksIn? = some t →
    ∃ fault, (a.perform peer.recorded).exec σ = (.error fault, σ)

/-- A transaction that is over is silenced. -/
theorem State.Ledger.silenced (ledger : σ.Ledger)
    (terminated : (σ.session.transaction t).state.isTerminated = true) : σ.Silenced peer t where
  unreadable r obtained := by
    obtain ⟨ended, gone⟩ := Option.ne_none_iff_exists'.mp (ledger.outOfScope terminated obtained)
    exact ⟨ended = .committed, fun a consults => Access.exec_outOfScope gone consults,
      drain_outOfScope gone⟩
  refused a works := Access.refused terminated works

/-! ## The end of a transaction -/

/-- The transaction that an access is meant to end. -/
def Access.ends? : Access → Option TransactionId
  | commit t | rollback t | close t => some t
  | _ => none

/-- The caller who holds a transaction can end it, whatever fails.  Only the commit of a transaction
    that has failed is refused. -/
theorem Access.perform_ends {u : Option (TransactionId × Transaction)} {s : Option ResultId}
    (h : σ.Steady u s) (linked : Linked u s) {a : Access} (ends : a.ends? = some t)
    (mine : (σ.session.transaction t).holder = .caller)
    (sound : a = .commit t → (σ.session.transaction t).state ≠ .failed) :
    (a.perform peer.recorded).Ends σ
      (fun _ τ => (τ.session.transaction t).state.isTerminated = true)
      fun _ τ => (τ.session.transaction t).state.isTerminated = true := by
  have checked {β : Type} {op : Op (Recorded ω) β}
      (hop : op.Ends σ (fun _ τ => (τ.session.transaction t).state.isTerminated = true)
        fun _ τ => (τ.session.transaction t).state.isTerminated = true) :
      Op.Ends (do checkHolder t (· = .caller); op) σ
        (fun _ τ => (τ.session.transaction t).state.isTerminated = true)
        fun _ τ => (τ.session.transaction t).state.isTerminated = true := by
    rw [Op.ends_bind, checkHolder, Op.ends_bind, Op.ends_theSession, mine]
    exact hop
  have rolledBack (isOpen : (σ.session.transaction t).state.isTerminated = false) :
      (GraphSession.rollback peer.recorded t).Ends σ
        (fun _ τ => (τ.session.transaction t).state.isTerminated = true)
        fun _ τ => (τ.session.transaction t).state.isTerminated = true :=
    (rollback_stands h linked isOpen).imp (fun _ _ bare => bare.isTerminated (by simp))
      fun _ _ hτ => hτ.1.isTerminated (by simp)
  cases a with
  | commit t' =>
    obtain rfl : t' = t := Option.some.inj ends
    refine checked ?_
    cases state : (σ.session.transaction t').state with
    | active =>
      exact (commit_stands h linked state).imp (fun _ _ bare => bare.isTerminated (by simp))
        fun _ _ hτ => hτ.1.isTerminated (by simp)
    | failed => exact absurd state (sound rfl)
    | committed | rolledBack | closed =>
      refine commit_refused (by simp [state]) fun _ _ => ?_
      rw [state]
      rfl
  | rollback t' =>
    obtain rfl : t' = t := Option.some.inj ends
    refine checked ?_
    cases isOpen : (σ.session.transaction t').state.isTerminated with
    | false => exact rolledBack isOpen
    | true =>
      rw [GraphSession.rollback, Op.ends_bind, Op.ends_theSession]
      dsimp only
      rw [isOpen, if_pos rfl]
      exact isOpen
  | close t' =>
    obtain rfl : t' = t := Option.some.inj ends
    refine checked ?_
    rw [closeTransaction, Op.ends_bind, Op.ends_theSession]
    cases isOpen : (σ.session.transaction t').state.isTerminated with
    | false => exact rolledBack isOpen
    | true => exact isOpen
  | _ => cases ends

/-- Whether a transaction can be open in a phase: between operations only the one that the session
    remembers, if it is not closed, and in the code of a transaction function only its own. -/
def Phase.Holds (phase : Phase) (t : TransactionId) (σ : State (Recorded ω)) : Prop :=
  match phase with
  | between => σ.session.current = some t ∧ σ.session.closed = false
  | trying => False
  | inside t' => t' = t

/-- What is over is silent, what is open is the transaction at hand, and what the caller ends is
    over. -/
structure State.Quiesces (peer : Peer ω) (phase : Phase) (σ : State (Recorded ω)) : Prop where
  silent : ∀ t, (σ.session.transaction t).state.isTerminated = true → σ.Silenced peer t
  held : ∀ t, (σ.session.transaction t).state.isTerminated = false → phase.Holds t σ
  ends : ∀ (a : Access) t, a.ends? = some t → (σ.session.transaction t).holder = .caller →
    (a = .commit t → (σ.session.transaction t).state ≠ .failed) →
    (a.performTold peer).Ends σ fun _ τ => (τ.session.transaction t).state.isTerminated = true

/-- In every phase the session is steady and its ledger in order, and what is open is at hand. -/
theorem Reached.steady {phase : Phase} (h : Reached peer config w phase σ) :
    σ.Ledger ∧ ∃ u s, σ.Steady u s ∧ Linked u s ∧
      ∀ t, (σ.session.transaction t).state.isTerminated = false → phase.Holds t σ := by
  have moment := h.moments
  cases phase with
  | between =>
    obtain ⟨⟨u, s, settled⟩, ledger, dormant⟩ := moment
    refine ⟨ledger, u, s, settled.steady, settled.linked, fun t isOpen => ?_⟩
    obtain ⟨v, own, -⟩ := settled.steady.opened isOpen
    refine ⟨settled.current (t, v) own, ?_⟩
    cases closed : σ.session.closed with
    | false => rfl
    | true =>
      rw [(dormant closed).terminated t] at isOpen
      cases isOpen
  | trying =>
    obtain ⟨bare, ledger, -⟩ := moment
    refine ⟨ledger, none, none, bare.steady, .none, fun t isOpen => ?_⟩
    rw [bare.isTerminated (by simp)] at isOpen
    cases isOpen
  | inside t =>
    obtain ⟨⟨v, s, -, linked, steady⟩, ledger, -⟩ := moment
    refine ⟨ledger, some (t, v), s, steady, linked, fun t' isOpen => ?_⟩
    obtain ⟨v', own, -⟩ := steady.opened isOpen
    cases own
    exact rfl

theorem Reached.proper {phase : Phase} (h : Reached peer config w phase σ) :
    Always Proper σ.history := by
  obtain ⟨-, u, s, steady, -⟩ := h.steady
  exact steady.proper

/-- Quiescence.  After a session was closed, nothing that is done next calls the pool, a connection
    or the bookmark manager, be it an operation on the session or the use of any handle.  And in
    every state that a session can come to, among them all states between two operations, whatever
    is left of a transaction that is over is silent, however it ended. -/
theorem session_quiesces (peer : Peer ω) (config : SessionConfig) (w : ω) :
    (∀ ops more, State.Since (∀ e ∈ ·, ¬ e.IsCall) (play peer config w (ops ++ [.close]))
      (play peer config w (ops ++ [.close] ++ more))) ∧
    (∀ ops, Reached peer config w .between (play peer config w ops)) ∧
    ∀ phase σ, Reached peer config w phase σ → σ.Quiesces peer phase := by
  refine ⟨fun ops more => ?_, reached_play peer config w, fun phase σ reached => ?_⟩
  · have closed : (play peer config w (ops ++ [.close])).session.closed = true := by
      rw [play_concat]
      exact close_closes _
    have dormant := play_dormant peer config w (ops ++ [.close]) closed
    rw [play_concat peer config w (ops ++ [Operation.close]) more]
    exact (keepsDormant_foldl peer _ more dormant).2
  · obtain ⟨ledger, u, s, steady, linked, held⟩ := reached.steady
    refine ⟨fun t terminated => ledger.silenced terminated, held, fun a t ends mine sound => ?_⟩
    rw [Access.performTold, Act.ends_bind, Act.ends_run]
    exact (Access.perform_ends steady linked ends mine sound).imp (fun _ _ terminated => terminated)
      fun _ _ terminated => terminated

end GraphSession
