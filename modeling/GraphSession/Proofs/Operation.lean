import GraphSession.Proofs.Attempts

/-!
  The operations of a session, and what every sequence of them keeps.

  An operation is one call on a session or on a handle that it gave out.  Operations do not overlap,
  so what a session goes through is a list of them; in between its caller may do anything elsewhere.
  Every operation starts and ends with the session at rest, and so does every sequence of them, for
  all surroundings.
-/

namespace GraphSession

variable {ω α : Type}

/-! ## Operations -/

/-- One call on a session or on a handle that it gave out. -/
inductive Operation (ω : Type) : Type 1
  | run (source : QuerySource) (params : Option Params)
  | beginTransaction (config : TransactionConfig)
  | execute {α : Type} (mode : AccessMode) (config : TransactionConfig) (patience : Nat)
    (work : TransactionFunction ω α)
  /-- The same under its former name. -/
  | executeRenamed {α : Type} (mode : AccessMode) (patience : Nat) (work : TransactionFunction ω α)
  | executeQuery (source : QuerySource) (params : Option Params) (mode : AccessMode)
    (patience : Nat)
  /-- The same for a caller that waits. -/
  | executeBlocking {α : Type} (mode : AccessMode) (config : TransactionConfig) (patience : Nat)
    (work : TransactionFunction ω α)
  | lastBookmarks
  | lastBookmark
  | serverInfo
  | close
  | access (access : Access)
  /-- What the caller does elsewhere. -/
  | elsewhere (f : ω → ω)

/-- An operation that runs a transaction function. -/
def Operation.IsFunction : Operation ω → Prop
  | execute .. | executeRenamed .. | executeQuery .. | executeBlocking .. => True
  | run .. | beginTransaction .. | lastBookmarks | lastBookmark | serverInfo | close | access _
  | elsewhere _ => False

/-- What an operation is answered when it succeeds. -/
@[reducible] def Operation.Reply : Operation ω → Type
  | run .. => ResultId
  | beginTransaction _ => TransactionId
  | @execute _ α _ _ _ _ => α
  | @executeRenamed _ α _ _ _ => α
  | executeQuery .. => EagerResult
  | @executeBlocking _ α _ _ _ _ => α
  | lastBookmarks => Bookmarks
  | lastBookmark => Option String
  | serverInfo => ServerInfo
  | access a => a.Reply
  | close | elsewhere _ => Unit

/-- An operation that has an outcome. -/
def concluded {β : Type} (op : Op (Recorded ω) β) : Act (Recorded ω) (Option (Except Fault β)) := do
  return some (← op.run)

/-- Performs an operation.  There is no outcome when the patience for a transaction function ends
    before there is one. -/
def Operation.perform (peer : Peer ω) :
    (op : Operation ω) → Act (Recorded ω) (Option (Except Fault op.Reply))
  | .run source params => concluded (GraphSession.run peer.recorded source params)
  | .beginTransaction config => concluded (GraphSession.beginTransaction peer.recorded config)
  | .execute mode config patience work =>
    GraphSession.execute peer.recorded mode config patience (TransactionFunction.recorded work)
  | .executeRenamed mode patience work =>
    GraphSession.executeRenamed peer.recorded mode patience (TransactionFunction.recorded work)
  | .executeQuery source params mode patience =>
    executeQueryWith peer.recorded source mode patience fun query =>
      TransactionFunction.recorded fun _ id => .eager id (.query query) params
  | .executeBlocking mode config patience work =>
    Blocking.execute peer.recorded mode config patience (TransactionFunction.recorded work)
  | .lastBookmarks => concluded (GraphSession.lastBookmarks peer.recorded)
  | .lastBookmark => concluded (GraphSession.lastBookmark peer.recorded)
  | .serverInfo => concluded (GraphSession.serverInfo peer.recorded)
  | .close => concluded (liftM (GraphSession.close peer.recorded))
  | .access a => do return some (← a.performTold peer)
  | .elsewhere f => do
    modify fun σ => { σ with world := { σ.world with world := f σ.world.world } }
    return some (.ok ())

/-! ## Sequences of operations -/

/-- A new session, to which nothing has happened. -/
def State.initial (config : SessionConfig) (w : ω) : State (Recorded ω) :=
  { session := .ofConfig config, world := { world := w } }

/-- The state after one operation. -/
def Operation.after (peer : Peer ω) (σ : State (Recorded ω)) (op : Operation ω) :
    State (Recorded ω) :=
  ((op.perform peer).exec σ).2

/-- The state of a session after operations, one after the other. -/
def play (peer : Peer ω) (config : SessionConfig) (w : ω) (ops : List (Operation ω)) :
    State (Recorded ω) :=
  ops.foldl (Operation.after peer) (.initial config w)

/-- What holds of a new session and is kept by every operation holds after every sequence. -/
theorem play_keeps {peer : Peer ω} {config : SessionConfig} {inv : State (Recorded ω) → Prop}
    (start : ∀ w, inv (.initial config w))
    (step : ∀ σ (op : Operation ω), inv σ → inv (op.after peer σ)) (w : ω)
    (ops : List (Operation ω)) : inv (play peer config w ops) := by
  unfold play
  have from_any (σ : State (Recorded ω)) (h : inv σ) :
      inv (ops.foldl (Operation.after peer) σ) := by
    induction ops generalizing σ with
    | nil => exact h
    | cons op rest ih => exact ih _ (step σ op h)
  exact from_any _ (start w)

section Rests

variable {peer : Peer ω} {σ : State (Recorded ω)}

/-! ## Rest -/

theorem concluded_rests {β : Type} {op : Op (Recorded ω) β}
    (h : op.Ends σ (fun _ τ => τ.Rests) State.Rejects) :
    (concluded op).Ends σ fun outcome τ => τ.Rests ∧ τ.Concludes outcome := by
  rw [concluded, Act.ends_bind, Act.ends_run]
  exact h.imp (fun a τ h => ⟨h, State.concludes_some (State.answers_ok a)⟩) fun fault τ h =>
    ⟨h.1, State.concludes_some (State.answers_error h.2)⟩

/-- Lines of the history that concern no connection leave a session at rest. -/
theorem State.Rests.log (h : σ.Rests) {e : Happening} (he : e.IsAside)
    (proper : Proper σ.history e)
    (fresh : CarriesFresh σ.session.config σ.history e) :
    State.Rests { σ with world := σ.world.add e } := by
  obtain ⟨u, s, h⟩ := h
  obtain ⟨x, hx, back⟩ := h.steady.stands
  exact ⟨u, s, h.kept (back (hx.log he proper fresh)) rfl rfl⟩

/-- A session at rest stands as some standing says. -/
theorem State.Rests.stands (h : σ.Rests) : ∃ x, σ.Stands x := by
  obtain ⟨u, s, h⟩ := h
  obtain ⟨x, hx, -⟩ := h.steady.stands
  exact ⟨x, hx⟩

theorem State.Rests.aside (h : σ.Rests) {request : Request} {answer : request.Answer}
    (he : (Happening.asked request answer).IsAside)
    (fresh : CarriesFresh σ.session.config σ.history (.asked request answer)) (w : ω) :
    (σ.heard request answer w).Rests := by
  obtain ⟨u, s, h⟩ := h
  obtain ⟨x, hx, back⟩ := h.steady.stands
  exact ⟨u, s, h.kept (back (hx.aside he fresh w)) rfl rfl⟩

theorem State.Rests.noted (h : σ.Rests) (event : Event) (w : ω) :
    (σ.heard (.note event) () w).Rests :=
  h.aside (by trivial) (by trivial) w

theorem State.Rests.drift (h : σ.Rests) (w : ω) :
    State.Rests { σ with world := { σ.world with world := w } } := by
  obtain ⟨u, s, h⟩ := h
  obtain ⟨x, hx, back⟩ := h.steady.stands
  exact ⟨u, s, h.kept (back (hx.drift w)) rfl rfl⟩

theorem Access.performTold_rests (h : σ.Rests) (a : Access) :
    (a.performTold peer).Ends σ fun outcome τ => τ.Rests ∧ τ.Answers outcome := by
  rw [performTold, Act.ends_bind, Act.ends_run]
  refine (a.perform_rests h).imp ?_ ?_
  · intro r τ h
    exact ⟨h.1.log trivial h.2 trivial, State.answers_ok r⟩
  · intro fault τ h
    exact ⟨h.1.log trivial (.failed h.2) trivial,
      State.answers_error (h.2.mono (List.suffix_cons _ _))⟩

/-- Every operation leaves the session at rest, and its fault, if it has one, is blamed. -/
theorem Operation.perform_rests (h : σ.Rests) (op : Operation ω) :
    (op.perform peer).Ends σ fun outcome τ => τ.Rests ∧ τ.Concludes outcome := by
  cases op with
  | run source params => exact concluded_rests (run_rests h source params)
  | beginTransaction config => exact concluded_rests (beginTransaction_rests h config)
  | execute mode config patience work => exact executeWith_rests h _ patience work
  | executeRenamed mode patience work =>
    rw [perform, GraphSession.executeRenamed, Act.ends_bind]
    exact Act.ends_note fun w => executeWith_rests (h.noted _ w) _ patience work
  | executeQuery source params mode patience =>
    exact executeQueryWith_rests h source mode patience fun query _ id =>
      .eager id (.query query) params
  | executeBlocking mode config patience work =>
    exact Blocking.execute_rests h mode config patience work
  | lastBookmarks => exact concluded_rests (lastBookmarks_rests h)
  | lastBookmark =>
    refine concluded_rests (Op.ends_bind.mpr (Op.ends_lift.mpr (Act.ends_note fun w => ?_)))
    rw [Op.ends_bind]
    exact (lastBookmarks_rests (h.noted _ w)).imp (fun _ _ h => h) fun _ _ h => h
  | serverInfo => exact concluded_rests (serverInfo_rests h)
  | close =>
    exact concluded_rests (Op.ends_lift.mpr ((close_rests h).imp fun _ _ h => h))
  | access a =>
    rw [perform, Act.ends_bind]
    exact (a.performTold_rests h).imp fun outcome τ h => ⟨h.1, State.concludes_some h.2⟩
  | elsewhere f =>
    exact ⟨h.drift _, State.concludes_some (State.answers_ok ())⟩

/-- Nothing is open in a new session. -/
theorem State.initial_stands (config : SessionConfig) (w : ω) :
    (State.initial config w).Stands {} where
  units := rfl
  streaming r := by
    rw [Session.result_of_le (Nat.zero_le r)]
    constructor <;> intro e <;> cases e
  opened t v := by
    rw [Session.transaction_of_le (Nat.zero_le t)]
    refine ⟨?_, by simp⟩
    rintro ⟨rfl, isOpen⟩
    cases isOpen
  origin := by simp
  usable := by simp
  slot := rfl
  loan _ := rfl
  proper := trivial
  accounted := rfl
  carries := trivial
  fresh := trivial

/-- After every sequence of operations the session is at rest. -/
theorem play_rests (peer : Peer ω) (config : SessionConfig) (w : ω) (ops : List (Operation ω)) :
    (play peer config w ops).Rests :=
  play_keeps (fun w => (State.initial_stands config w).rests)
    (fun _ op h => (op.perform_rests h).1) w ops

end Rests

/-! ## What transaction functions keep -/

/-- A request that only waits, tells the time or tells the journal. -/
def Request.IsPausing : Request → Prop
  | note _ | sleep _ | readClock | drawSample => True
  | acquire _ | release _ | findHome _ | getBookmarks | updateBookmarks .. | send .. => False

/-- The code of a transaction function may just have ended so: its fault, if there is one, is the
    last thing that happened. -/
def State.Returned (outcome : Except Fault α) (σ : State (Recorded ω)) : Prop :=
  ∀ fault, outcome = .error fault → ∃ past, σ.history = .returned (some fault) :: past

/-- What transaction functions go through, whatever their code: `between` holds between operations,
    `trying` between attempts, and `inside t` while the code runs that has the transaction `t`. -/
structure Upheld (peer : Peer ω) (between trying : State (Recorded ω) → Prop)
    (inside : TransactionId → State (Recorded ω) → Prop) : Prop where
  call : ∀ σ t (a : Access), inside t σ → (a.performTold peer).Ends σ fun _ τ => inside t τ
  drift : ∀ (σ : State (Recorded ω)) t w, inside t σ →
    inside t { σ with world := { σ.world with world := w } }
  ended : ∀ (σ : State (Recorded ω)) t fault, inside t σ →
    inside t { σ with world := σ.world.add (.returned fault) }
  noting : ∀ σ event, between σ → (note peer.recorded event).Ends σ fun _ τ => between τ
  prepare : ∀ σ, between σ →
    (prepareExecute peer.recorded).Ends σ (fun _ τ => trying τ) fun _ τ => between τ
  pausing : ∀ σ (request : Request), request.IsPausing → trying σ →
    (ask peer.recorded request).Ends σ fun _ τ => trying τ
  opens : ∀ σ mode api config, trying σ →
    (openTransaction peer.recorded mode api config .session).Ends σ (fun t τ => inside t τ)
      fun _ τ => trying τ
  settles : ∀ {α : Type} σ t (outcome : Except Fault α), inside t σ → σ.Returned outcome →
    (settle peer.recorded t outcome).Ends σ (fun _ τ => trying τ) fun _ τ => trying τ
  done : ∀ σ, trying σ → between σ

namespace Upheld

variable {peer : Peer ω} {between trying : State (Recorded ω) → Prop}
  {inside : TransactionId → State (Recorded ω) → Prop} {σ : State (Recorded ω)}

/-- What an attempt does once its transaction is open. -/
theorem settledWork (k : Upheld peer between trying inside) {t : TransactionId} (h : inside t σ)
    (w : Work ω α) :
    Act.Ends (do
      let outcome ← (w.recorded.perform peer.recorded).run
      (settle peer.recorded t outcome).run : Act (Recorded ω) (Except Fault α)) σ
      fun _ τ => trying τ := by
  have settled {τ : State (Recorded ω)} {outcome : Except Fault α} (h : inside t τ)
      (returned : τ.Returned outcome) :
      Act.Ends (settle peer.recorded t outcome).run τ fun _ τ => trying τ :=
    Act.ends_run.mpr (k.settles τ t outcome h returned)
  rw [Act.ends_bind, Act.ends_run]
  exact (w.perform_keeps (inside t) (fun σ => k.call σ t) (fun σ => k.drift σ t)
    (fun σ => k.ended σ t) h).imp (fun a τ h => settled h fun _ e => by cases e)
    fun fault τ h => settled h.1 fun _ e => by cases e; exact h.2

theorem decide (k : Upheld peer between trying inside) (h : trying σ) (backoff : Backoff)
    (fault : Fault) :
    (GraphSession.decide peer.recorded backoff fault).Ends σ fun _ τ => trying τ :=
  (k.pausing σ .readClock trivial h).imp fun _ τ h => k.pausing τ .drawSample trivial h

/-- Waiting for another attempt. -/
theorem waited (k : Upheld peer between trying inside) (h : trying σ) (n : UInt32)
    (delay : Duration) :
    Act.Ends (do
      note peer.recorded (.retryScheduled n delay)
      ask peer.recorded (.sleep delay) : Act (Recorded ω) Unit) σ fun _ τ => trying τ :=
  (k.pausing σ (.note _) trivial h).imp fun _ τ h => k.pausing τ (.sleep delay) trivial h

theorem attemptOnce (k : Upheld peer between trying inside) (h : trying σ)
    (options : ExecuteOptions) (work : TransactionFunction ω α) (calls : Nat) :
    (GraphSession.attemptOnce peer.recorded options (TransactionFunction.recorded work)
      calls).Ends σ fun _ τ => trying τ := by
  rw [GraphSession.attemptOnce, Act.ends_bind, Act.ends_run]
  exact (k.opens σ _ _ _ h).imp (fun t τ h => k.settledWork h (work calls t)) fun _ _ h => h

theorem attemptFrom (k : Upheld peer between trying inside) (h : trying σ)
    (options : ExecuteOptions) (work : TransactionFunction ω α) (patience calls : Nat)
    (backoff : Backoff) :
    (GraphSession.attemptFrom peer.recorded options (TransactionFunction.recorded work) patience
      calls backoff).Ends σ fun _ τ => trying τ := by
  induction patience generalizing σ calls backoff with
  | zero => exact h
  | succ patience ih =>
    rw [GraphSession.attemptFrom, Act.ends_bind]
    refine (k.attemptOnce h options work calls).imp fun r τ h => ?_
    obtain ⟨outcome, calls⟩ := r
    cases outcome with
    | ok a => exact h
    | error fault =>
      rw [Act.ends_bind]
      refine (k.decide h backoff fault).imp fun r τ h => ?_
      obtain ⟨decision, backoff⟩ := r
      cases decision with
      | giveUp f => exact h
      | retryAfter delay =>
        exact (k.waited h backoff.attempts delay).imp fun _ υ h => ih h calls backoff

theorem executeWith (k : Upheld peer between trying inside) (h : between σ)
    (options : ExecuteOptions) (patience : Nat) (work : TransactionFunction ω α) :
    (GraphSession.executeWith peer.recorded options patience
      (TransactionFunction.recorded work)).Ends σ fun _ τ => between τ := by
  rw [GraphSession.executeWith, Act.ends_bind, Act.ends_run]
  refine (k.prepare σ h).imp (fun _ τ h => ?_) fun _ _ h => h
  rw [Act.ends_bind]
  refine (k.pausing τ .readClock trivial h).imp fun now υ h => ?_
  rw [Act.ends_bind, Act.ends_theSession]
  exact (k.attemptFrom h options work patience 0 _).imp fun _ φ h => k.done φ h

theorem afterFailure (k : Upheld peer between trying inside) (h : trying σ) (calls : Nat)
    (backoff : Backoff) (fault : Fault) :
    (Blocking.afterFailure (α := α) peer.recorded calls backoff fault).Ends σ
      fun _ τ => trying τ := by
  rw [Blocking.afterFailure, Act.ends_bind]
  refine (k.decide h backoff fault).imp fun r τ h => ?_
  obtain ⟨decision, backoff⟩ := r
  cases decision with
  | giveUp f => exact h
  | retryAfter delay => exact (k.waited h backoff.attempts delay).imp fun _ _ h => h

theorem step (k : Upheld peer between trying inside) (h : trying σ) (options : ExecuteOptions)
    (work : TransactionFunction ω α) (calls : Nat) (backoff : Backoff) :
    (Blocking.step peer.recorded options (TransactionFunction.recorded work)
      (.trying calls backoff)).Ends σ fun _ τ => trying τ := by
  rw [Blocking.step, Act.ends_bind, Act.ends_run]
  refine (k.opens σ _ _ _ h).imp (fun t τ h => ?_)
    fun fault τ h => k.afterFailure h calls backoff fault
  rw [Act.ends_bind]
  refine (Act.ends_bind.mp (k.settledWork h (work calls t))).imp fun o υ hυ => ?_
  rw [Act.ends_bind]
  refine Act.Ends.imp hυ fun outcome φ h => ?_
  cases outcome with
  | ok a => exact h
  | error fault => exact k.afterFailure h (calls + 1) backoff fault

theorem drive (k : Upheld peer between trying inside) (h : trying σ) (options : ExecuteOptions)
    (work : TransactionFunction ω α) (patience : Nat) (progress : Blocking.Progress α) :
    (Blocking.drive peer.recorded options (TransactionFunction.recorded work) patience
      progress).Ends σ fun _ τ => trying τ := by
  induction patience generalizing σ progress with
  | zero => exact h
  | succ patience ih =>
    cases progress with
    | finished outcome => exact h
    | trying calls backoff =>
      rw [Blocking.drive, Act.ends_bind]
      exact (k.step h options work calls backoff).imp fun progress _ h => ih h progress

theorem executeBlocking (k : Upheld peer between trying inside) (h : between σ)
    (mode : AccessMode) (config : TransactionConfig) (patience : Nat)
    (work : TransactionFunction ω α) :
    (Blocking.execute peer.recorded mode config patience
      (TransactionFunction.recorded work)).Ends σ fun _ τ => between τ := by
  rw [Blocking.execute, Act.ends_bind, Blocking.begin, Act.ends_bind, Act.ends_run]
  refine (k.prepare σ h).imp (fun _ τ h => ?_) fun fault τ h => ?_
  · rw [Act.ends_bind]
    refine (k.pausing τ .readClock trivial h).imp fun now υ h => ?_
    rw [Act.ends_bind, Act.ends_theSession]
    exact (k.drive h _ work patience _).imp fun _ φ h => k.done φ h
  · cases patience <;> exact h

/-- Every operation that runs a transaction function leads from one moment between operations to
    another. -/
theorem function (k : Upheld peer between trying inside) (h : between σ) (op : Operation ω)
    (runs : op.IsFunction) : (op.perform peer).Ends σ fun _ τ => between τ := by
  cases op with
  | execute mode config patience work => exact k.executeWith h _ patience work
  | executeRenamed mode patience work =>
    rw [Operation.perform, GraphSession.executeRenamed, Act.ends_bind]
    exact (k.noting σ _ h).imp fun _ _ h => k.executeWith h _ patience work
  | executeQuery source params mode patience =>
    rw [Operation.perform, executeQueryWith]
    cases Query.ofSource source with
    | error fault => exact h
    | ok query => exact k.executeWith h _ patience _
  | executeBlocking mode config patience work =>
    exact k.executeBlocking h mode config patience work
  | _ => cases runs

end Upheld

/-! ## What every operation keeps -/

/-- The license of everything but reading: no record is handed out or dropped. -/
def License.working : License :=
  { borrows := True, directs := True, commits := True, concludes := True }

/-- What courses, accesses and the caller keep, of which all operations are made.  Closing a session
    stands by itself, because it drops records. -/
structure Kept (peer : Peer ω) (inv : State (Recorded ω) → Prop) : Prop where
  course : ∀ {σ τ : State (Recorded ω)}, inv σ → Course .working σ τ → inv τ
  call : ∀ (σ : State (Recorded ω)) (a : Access), inv σ →
    (a.performTold peer).Ends σ fun _ τ => inv τ
  drift : ∀ (σ : State (Recorded ω)) w, inv σ →
    inv { σ with world := { σ.world with world := w } }
  ended : ∀ (σ : State (Recorded ω)) fault, inv σ →
    inv { σ with world := σ.world.add (.returned fault) }
  close : ∀ σ : State (Recorded ω), inv σ → (close peer.recorded).Ends σ fun _ τ => inv τ

namespace Kept

variable {peer : Peer ω} {inv : State (Recorded ω) → Prop} {σ : State (Recorded ω)}

theorem act (k : Kept peer inv) {x : Act (Recorded ω) α} (hx : x.Within .working) (h : inv σ) :
    x.Ends σ fun _ τ => inv τ :=
  (hx.ends σ).imp fun _ _ course => k.course h course

theorem op (k : Kept peer inv) {x : Op (Recorded ω) α} (hx : x.Within .working) (h : inv σ) :
    x.Ends σ (fun _ τ => inv τ) fun _ τ => inv τ :=
  (hx.ends σ).imp (fun _ _ course => k.course h course) fun _ _ course => k.course h course

/-- Courses carry transaction functions as well. -/
theorem upheld (k : Kept peer inv) : Upheld peer inv inv fun _ => inv where
  call σ _ := k.call σ
  drift σ _ := k.drift σ
  ended σ _ := k.ended σ
  noting σ event h := k.act (.note _) h
  prepare σ h := k.op (prepareExecute_within trivial trivial) h
  pausing σ request plain h := by
    refine k.act (.ask fun answer => ?_) h
    cases request <;> trivial
  opens σ mode api config h := k.op (openTransaction_within trivial _ _ _ _) h
  settles σ t outcome h _ := k.op (settle_within trivial trivial t outcome) h
  done _ h := h

theorem concluded {β : Type} (k : Kept peer inv) {x : Op (Recorded ω) β}
    (hx : x.Within .working) (h : inv σ) :
    (GraphSession.concluded x).Ends σ fun _ τ => inv τ := by
  rw [GraphSession.concluded, Act.ends_bind, Act.ends_run]
  exact (k.op hx h).imp (fun _ _ h => h) fun _ _ h => h

/-- Every operation keeps it. -/
theorem operation (k : Kept peer inv) (h : inv σ) (op : Operation ω) :
    (op.perform peer).Ends σ fun _ τ => inv τ := by
  cases op with
  | run source params => exact k.concluded (run_within trivial trivial trivial source params) h
  | beginTransaction config =>
    exact k.concluded (beginTransaction_within trivial trivial trivial config) h
  | execute | executeRenamed | executeQuery | executeBlocking =>
    exact k.upheld.function h _ trivial
  | lastBookmarks => exact k.concluded lastBookmarks_within h
  | lastBookmark => exact k.concluded lastBookmark_within h
  | serverInfo => exact k.concluded (serverInfo_within trivial) h
  | close =>
    rw [Operation.perform, GraphSession.concluded, Act.ends_bind, Act.ends_run, Op.ends_lift]
    exact (k.close σ h).imp fun _ _ h => h
  | access a =>
    rw [Operation.perform, Act.ends_bind]
    exact (k.call σ a h).imp fun _ _ h => h
  | elsewhere f => exact k.drift σ _ h

/-- What every course keeps, whatever its license, every operation keeps, if what is told and what
    the caller does leave it. -/
theorem of_courses
    (course : ∀ {may : License} {σ τ : State (Recorded ω)}, inv σ → Course may σ τ → inv τ)
    (told : ∀ (σ : State (Recorded ω)) (e : Happening), e.IsAside → inv σ →
      inv { σ with world := σ.world.add e })
    (drift : ∀ (σ : State (Recorded ω)) w, inv σ →
      inv { σ with world := { σ.world with world := w } }) : Kept peer inv where
  course := course
  call σ a h := by
    rw [Access.performTold, Act.ends_bind]
    have performed : Act.Ends (a.perform peer.recorded).run σ fun _ τ => Course a.license σ τ :=
      a.perform_within σ
    exact performed.imp fun _ τ here => told τ _ trivial (course h here)
  drift := drift
  ended σ _ h := told σ _ trivial h
  close σ h := (close_ends σ).imp fun _ _ here => course h here

/-- What every operation keeps, every sequence of operations keeps. -/
theorem foldl (k : Kept peer inv) (h : inv σ) (ops : List (Operation ω)) :
    inv (ops.foldl (Operation.after peer) σ) := by
  induction ops generalizing σ with
  | nil => exact h
  | cons op rest ih => exact ih (k.operation h op)

/-- What holds of a new session holds after every sequence of operations. -/
theorem play {config : SessionConfig} (k : Kept peer inv) (start : ∀ w, inv (.initial config w))
    (w : ω) (ops : List (Operation ω)) : inv (play peer config w ops) :=
  play_keeps start (fun _ op h => k.operation h op) w ops

end Kept

/-- No operation changes the configuration. -/
theorem configured_kept {peer : Peer ω} (config : SessionConfig) :
    Kept peer fun σ : State (Recorded ω) => σ.session.config = config :=
  .of_courses (fun h course => course.keeps.config.trans h) (fun _ _ _ h => h) fun _ _ h => h

/-! ## The history of every sequence of operations -/

section Play

variable (peer : Peer ω) (config : SessionConfig) (w : ω) (ops : List (Operation ω))

theorem play_proper : Always Proper (play peer config w ops).history := by
  obtain ⟨x, hx⟩ := (play_rests peer config w ops).stands
  exact hx.proper

theorem play_carries : Always (Carries config) (play peer config w ops).history := by
  obtain ⟨x, hx⟩ := (play_rests peer config w ops).stands
  have configured : (play peer config w ops).session.config = config :=
    (configured_kept config).play (fun _ => rfl) w ops
  have carries := hx.carries
  rwa [configured] at carries

theorem play_fresh : Always (CarriesFresh config) (play peer config w ops).history := by
  obtain ⟨x, hx⟩ := (play_rests peer config w ops).stands
  have configured : (play peer config w ops).session.config = config :=
    (configured_kept config).play (fun _ => rfl) w ops
  have fresh := hx.fresh
  rwa [configured] at fresh

end Play

end GraphSession
