import GraphSession.Proofs.ClearingUp
import GraphSession.Proofs.Operation

/-!
  What a session does beside borrowing connections and starting work on them.

  Borrowing a connection, and telling the server what it is for, is done by `acquire` and by nothing
  else; a transaction begins in `openTransaction` only, a query runs in `startResult` only, and a
  batch is asked for by `pullHeld` only.  So a frame that is about any of this must allow little of
  everything else: every other request, and every change of the session that keeps its settings.
  That and its pulls is what makes a frame `Routine`, and it is enough for every action that starts
  no work.  An action that does obeys the frame as soon as its beginnings do: its
  `openTransaction`, its queries, its look at the server.

  A frame that allows whatever does not borrow is `Ordinary`.  It depends only on the kind of call
  that a connection is borrowed for.
-/

namespace GraphSession

variable {ω α : Type}

/-! ## Completing work -/

/-- What a frame must allow for the completion of work, which may bring a bookmark. -/
structure Completing (peer : Peer ω) (R : State ω → State ω → Prop) : Prop
    extends EndsUnits peer R where
  report : ∀ previous new, (ask peer (.updateBookmarks previous new)).Obeys R

namespace Completing

section Actions

variable {R : State ω → State ω → Prop} [IsFrame R] {peer : Peer ω}

theorem takeBookmark? (k : Completing peer R) (sent : Bookmarks) (token : Option String) :
    (GraphSession.takeBookmark? peer sent token).Obeys R := by
  cases token with
  | none => exact .pure _
  | some token =>
    refine .bind (k.changeOp fun _ => .same rfl rfl rfl) fun _ => .bind .theSession fun s => ?_
    split
    · exact k.report _ _
    · exact .pure _

theorem reportAndEnd (k : Completing peer R) (sent : Bookmarks) (token : Option String) :
    (GraphSession.reportAndEnd peer sent token).Obeys R :=
  .bind (.attempt (k.takeBookmark? _ _)) fun _ => .bind (.lift k.endUnit) fun _ => .settleOn _

theorem completeOrigin (k : Completing peer R) (summary : Summary) (origin : Origin) :
    (GraphSession.completeOrigin peer summary origin).Obeys R := by
  cases origin with
  | transaction _ => exact .pure _
  | autoCommit sent pins =>
    cases pins with
    | true => exact .bind (.lift (k.pinDatabase _)) fun _ => k.reportAndEnd _ _
    | false => exact k.reportAndEnd _ _

theorem finishStream (k : Completing peer R) (id : ResultId) (metadata : Metadata) :
    (GraphSession.finishStream peer id metadata).Obeys R :=
  .bind .theSession fun _ => .bind (k.changeOp fun _ => .setResult rfl) fun _ =>
    k.completeOrigin _ _

end Actions

end Completing

/-! ## What is routine -/

/-- A request that neither borrows a connection, nor tells what one is for, nor starts work on it,
    nor asks for records. -/
def Request.IsRoutine : Request → Prop
  | acquire _ | send _ _ (.telemetry _) | send _ _ (.run _) | send _ _ (.pull _)
  | send _ _ (.begin _) => False
  | _ => True

/-- A request that neither borrows a connection, nor tells what one is for, nor runs a query or asks
    for its records. -/
def Request.IsOrdinary : Request → Prop
  | acquire _ | send _ _ (.telemetry _) | send _ _ (.run _) | send _ _ (.pull _) => False
  | _ => True

theorem Request.IsRoutine.isOrdinary {request : Request} (routine : request.IsRoutine) :
    request.IsOrdinary := by
  cases request with
  | send _ _ m => cases m <;> first | exact routine | trivial
  | _ => exact routine

/-- What a frame about borrowing and starting work allows. -/
structure Routine (peer : Peer ω) (R : State ω → State ω → Prop) : Prop where
  ask : ∀ request : Request, request.IsRoutine → (GraphSession.ask peer request).Obeys R
  pull : ∀ id, (pullHeld peer id).Obeys R
  change : ∀ (s : State ω) (t : Session), t.config = s.session.config → R s { s with session := t }

/-- What a frame about borrowing allows. -/
structure Ordinary (peer : Peer ω) (R : State ω → State ω → Prop) : Prop where
  ask : ∀ request : Request, request.IsOrdinary → (GraphSession.ask peer request).Obeys R
  pull : ∀ id, (pullHeld peer id).Obeys R
  started : ∀ request origin, (GraphSession.startResult peer request origin).Obeys R
  change : ∀ (s : State ω) (t : Session), t.config = s.session.config → R s { s with session := t }

theorem Ordinary.routine {peer : Peer ω} {R : State ω → State ω → Prop} (k : Ordinary peer R) :
    Routine peer R where
  ask request h := k.ask request h.isOrdinary
  pull := k.pull
  change := k.change

/-- A message on the session's connection. -/
theorem sendHeld_obeys {R : State ω → State ω → Prop} [IsFrame R] {peer : Peer ω} {sender : Sender}
    {m : Message} (sent : ∀ c, (ask peer (.send c sender m)).Obeys R) :
    (sendHeld peer sender m).Obeys R := by
  refine .bind .theSession fun s => ?_
  split
  · exact .throw _
  · exact sent _

/-- A pull on the session's connection, of a size that the frame allows. -/
theorem pullHeld_obeys {R : State ω → State ω → Prop} [IsFrame R] {peer : Peer ω}
    (sent : ∀ c id size, (ask peer (.send c (.result id) (.pull size))).Obeys R) (id : ResultId) :
    (pullHeld peer id).Obeys R :=
  .bind .theSession fun _ => sendHeld_obeys fun c => sent c id _

namespace Routine

section Actions

variable {R : State ω → State ω → Prop} [IsFrame R] {peer : Peer ω}

omit [IsFrame R] in
theorem endsUnits (k : Routine peer R) : EndsUnits peer R where
  part request h := k.ask request (by cases request <;> trivial)
  tend s t h := k.change s t h.config

omit [IsFrame R] in
theorem clearsUp (k : Routine peer R) : ClearsUp peer R where
  toEndsUnits := k.endsUnits
  clear request h := k.ask request (by
    cases request with
    | send _ _ m => cases m <;> trivial
    | _ => trivial)

omit [IsFrame R] in
theorem completing (k : Routine peer R) : Completing peer R where
  toEndsUnits := k.endsUnits
  report _ _ := k.ask (.updateBookmarks ..) trivial

omit [IsFrame R] in
theorem searching (k : Routine peer R) : Searching peer R where
  toEndsUnits := k.endsUnits
  search request h := k.ask request (by cases request <;> trivial)

omit [IsFrame R] in
theorem changeOp (k : Routine peer R) {f : Session → Session} (h : ∀ s, (f s).config = s.config) :
    Op.Obeys R (changeSession f : Op ω Unit) :=
  fun s => k.change s _ (h s.session)

theorem sendHeld (k : Routine peer R) (sender : Sender) {m : Message}
    (h : ∀ c, (Request.send c sender m).IsRoutine) :
    (GraphSession.sendHeld peer sender m).Obeys R :=
  sendHeld_obeys fun c => k.ask _ (h c)

/-! ## Streams -/

theorem fetch (k : Routine peer R) (id : ResultId) : (GraphSession.fetch peer id).Obeys R := by
  refine .bind (.attempt (k.pull id)) fun outcome => ?_
  split
  · exact .bind (.lift (k.clearsUp.failStream id _)) fun _ => .throw _
  · refine .bind (k.changeOp fun _ => rfl) fun _ => ?_
    split
    · exact .pure _
    · exact .bind (k.completing.finishStream id _) fun _ => .pure _

theorem discardRest (k : Routine peer R) (id : ResultId) :
    (GraphSession.discardRest peer id).Obeys R := by
  refine .bind .theSession fun s => ?_
  split
  · refine .bind (.attempt (k.sendHeld _ fun _ => trivial)) fun outcome => ?_
    split
    · exact .bind (.lift (k.clearsUp.failStream id _)) fun _ => .throw _
    · exact k.completing.finishStream id _
  · exact .pure _

theorem reads (k : Routine peer R) : Reads peer R :=
  k.endsUnits.reads (fun id s _ => k.fetch id s) k.discardRest

/-- A query, from a state that matters. -/
theorem startResult_from (k : Routine peer R) {request : RunRequest} (origin : Origin) {s : State ω}
    (ran : R s ((runHeld peer s.session.nextResult request).exec s).2) :
    R s ((GraphSession.startResult peer request origin).exec s).2 := by
  rw [GraphSession.startResult, Op.exec_bind, Op.exec_theSession]
  refine Op.obeys_bind (x := attempt (runHeld peer s.session.nextResult request)) ran
    fun outcome t _ => ?_
  cases outcome with
  | error fault =>
    exact Op.Obeys.bind (.lift (k.clearsUp.abortOrigin origin)) (fun _ => .throw fault) t
  | ok reply =>
    have started (r : Result) : Op.Obeys R (do
        let id ← addResult r
        let _ ← GraphSession.fetch peer id
        return id : Op ω ResultId) :=
      .bind (.bind .theSession fun _ => .bind (k.changeOp fun _ => rfl) fun _ => .pure _) fun id =>
        .bind (k.fetch id) fun _ => .pure _
    dsimp only
    split
    · exact Op.Obeys.bind (.lift (k.endsUnits.pinDatabase _)) (fun _ => started _) t
    · exact started _ t

theorem startResult (k : Routine peer R) {request : RunRequest}
    (ran : ∀ c id, (GraphSession.ask peer (.send c (.result id) (.run request))).Obeys R)
    (origin : Origin) : (GraphSession.startResult peer request origin).Obeys R :=
  fun s => k.startResult_from origin (sendHeld_obeys (fun c => ran c _) s)

/-! ## Transactions -/

theorem endResults (k : Routine peer R) (ids : List ResultId) :
    (GraphSession.endResults peer ids).Obeys R := by
  induction ids with
  | nil => exact .pure _
  | cons id rest ih =>
    have ended : (endResult peer id).Obeys R :=
      .bind (.attempt (k.discardRest id)) fun _ => .bind (k.changeOp fun _ => rfl) fun _ =>
        .settleOn _
    exact .bind ended fun _ => ih

theorem runIn (k : Routine peer R)
    (started : ∀ request origin, (GraphSession.startResult peer request origin).Obeys R)
    (id : TransactionId) (source : QuerySource) (params : Option Params) :
    (GraphSession.runIn peer id source params).Obeys R := by
  have joined (request : RunRequest) : Op.Obeys R (do
      let result ← GraphSession.startResult peer request (.transaction id)
      changeTransaction id fun t => { t with results := t.results ++ [result] }
      return result : Op ω ResultId) :=
    .bind (started _ _) fun _ => .bind (k.changeOp fun _ => rfl) fun _ => .pure _
  refine .bind (.settleOn _) fun query => .bind .theSession fun s => .bind (.failIf _) fun _ => ?_
  dsimp only
  split
  · exact .bind (.throw _) fun _ => by
      split
      · exact .bind (k.reads.bufferAll _) fun _ => joined _
      · exact joined _
  · split
    · exact .bind (k.reads.bufferAll _) fun _ => joined _
    · exact joined _

theorem commit (k : Routine peer R) (id : TransactionId) :
    (GraphSession.commit peer id).Obeys R := by
  refine .bind .theSession fun s => .bind (.failIf _) fun _ =>
    .bind (k.endsUnits.takeResults id) fun results =>
      .bind (.attempt (.bind (k.endResults results) fun _ => k.sendHeld _ fun _ => trivial))
        fun outcome => ?_
  split
  · exact .bind (k.endsUnits.setState id _) fun _ => .failAfter k.clearsUp.abortUnit _
  · exact .bind (k.endsUnits.setState id _) fun _ => k.completing.reportAndEnd _ _

theorem settle (k : Routine peer R) (id : TransactionId) (outcome : Except Fault α) :
    (GraphSession.settle peer id outcome).Obeys R := by
  refine .bind (.attempt (.bind (.settleOn _) fun _ => .bind (k.commit id) fun _ => .pure _))
    fun committed => ?_
  split
  · exact .pure _
  · exact .failAfter (k.clearsUp.closeQuietly id) _

theorem access (k : Routine peer R)
    (started : ∀ request origin, (GraphSession.startResult peer request origin).Obeys R)
    (a : Access) : (a.perform peer).Obeys R := by
  have held (id : TransactionId) (allowed : Holder → Bool) :
      Op.Obeys R (checkHolder id allowed : Op ω Unit) := by
    refine .bind .theSession fun s => ?_
    split
    · exact .throw _
    · exact .pure _
  cases a with
  | run id source params => exact .bind (held id _) fun _ => k.runIn started id source params
  | commit id => exact .bind (held id _) fun _ => k.commit id
  | rollback id => exact .bind (held id _) fun _ => k.clearsUp.rollback id
  | close id => exact .bind (held id _) fun _ => k.clearsUp.closeTransaction id
  | drop id => exact .lift (k.endsUnits.dropHandle id)
  | viewTransaction id => exact .bind .theSession fun _ => .pure _
  | next id => exact k.reads.next id
  | peek id => exact k.reads.peek id
  | single id => exact k.reads.single id
  | collect id => exact k.reads.collect id
  | drain id => exact .lift (k.reads.drain id)
  | consume id => exact k.reads.consume id
  | viewResult id => exact .bind .theSession fun _ => .pure _

end Actions

end Routine

/-! ## Borrowing -/

namespace Ordinary

section Actions

variable {R : State ω → State ω → Prop} [IsFrame R] {peer : Peer ω}

omit [IsFrame R] in
theorem endsUnits (k : Ordinary peer R) : EndsUnits peer R := k.routine.endsUnits

omit [IsFrame R] in
theorem searching (k : Ordinary peer R) : Searching peer R := k.routine.searching

/-- Work that the session starts: a connection is borrowed as the frame allows, unless there is one,
    and the bookmarks are fetched. -/
theorem prepared (k : Ordinary peer R) {mode : AccessMode} {api : ApiKind}
    (borrowed : ∀ database user, (acquire peer mode database user (some api)).Obeys R)
    (o : Overrides) :
    Op.Obeys R (do
      let database ← connect peer mode api o
      let bookmarks ← bookmarksForWork peer
      return (database, bookmarks) : Op ω (Option String × Bookmarks)) :=
  .bind (k.searching.connect borrowed o) fun _ =>
    .bind k.searching.bookmarksForWork fun _ => .pure _

theorem openTransaction (k : Ordinary peer R) {mode : AccessMode} {api : ApiKind}
    (borrowed : ∀ database user, (acquire peer mode database user (some api)).Obeys R)
    (config : TransactionConfig) (holder : Holder) :
    (GraphSession.openTransaction peer mode api config holder).Obeys R := by
  refine .bind k.endsUnits.beginUnit fun _ => .bind (.attempt (k.prepared borrowed {}))
    fun prepared => ?_
  split
  · exact .bind (.lift k.endsUnits.endUnit) fun _ => .throw _
  · have sent (id : TransactionId) (request : WorkRequest) : (beginHeld peer id request).Obeys R :=
      sendHeld_obeys fun c => k.ask (.send c _ (.begin _)) trivial
    refine .bind .theSession fun s => .bind (.attempt (sent _ _)) fun begun => ?_
    split
    · exact .bind (.lift k.routine.clearsUp.abortUnit) fun _ => .throw _
    · exact .bind (.lift (k.endsUnits.pinDatabase _)) fun _ =>
        .bind .theSession fun _ => .bind (k.routine.changeOp fun _ => rfl) fun _ => .pure _

theorem beginTransaction (k : Ordinary peer R)
    (borrowed : ∀ mode database user,
      (acquire peer mode database user (some .explicitTransaction)).Obeys R)
    (config : TransactionConfig) : (GraphSession.beginTransaction peer config).Obeys R := by
  refine .bind checkOpen_obeys fun _ => .bind k.routine.clearsUp.reapTransaction fun _ =>
    .bind .theSession fun s => ?_
  have opened : Op.Obeys R (do
      let id ← GraphSession.openTransaction peer s.config.defaultMode .explicitTransaction config
        .caller
      changeSession ({ · with current := some id })
      return id : Op ω TransactionId) :=
    .bind (k.openTransaction (borrowed _) _ _) fun _ => .bind (k.routine.changeOp fun _ => rfl)
      fun _ => .pure _
  split
  · exact .bind (.throw _) fun _ => opened
  · exact opened

theorem run (k : Ordinary peer R)
    (borrowed : ∀ mode database user,
      (acquire peer mode database user (some .autoCommit)).Obeys R)
    (source : QuerySource) (params : Option Params) :
    (GraphSession.run peer source params).Obeys R := by
  have reads : Reads peer R := k.routine.reads
  refine .bind (.settleOn _) fun query => .bind checkOpen_obeys fun _ =>
    .bind k.routine.clearsUp.reapTransaction fun _ => .bind (.settleOn _) fun o =>
      .bind .theSession fun s => .bind k.endsUnits.beginUnit fun _ =>
        .bind (.attempt (.bind (k.routine.clearsUp.bufferAutoResult reads) fun _ =>
          k.prepared (borrowed _) o)) fun prepared => ?_
  split
  · exact .bind (.lift k.endsUnits.endUnit) fun _ => .throw _
  · exact .bind (k.started _ _) fun _ => .bind (k.routine.changeOp fun _ => rfl) fun _ => .pure _

end Actions

end Ordinary

/-! ## Transaction functions -/

/-- What a frame about borrowing and starting work allows the code of a transaction function. -/
structure RoutineWork (peer : Peer ω) (R : State (Recorded ω) → State (Recorded ω) → Prop) : Prop
    extends Routine peer.recorded R where
  started : ∀ request origin, (GraphSession.startResult peer.recorded request origin).Obeys R
  used : ∀ (σ : State (Recorded ω)) (a : Access) outcome,
    R σ { σ with world := σ.world.add (.used a outcome) }
  returned : ∀ (σ : State (Recorded ω)) fault,
    R σ { σ with world := σ.world.add (.returned fault) }
  drift : ∀ (σ : State (Recorded ω)) w, R σ { σ with world := { σ.world with world := w } }

theorem RoutineWork.performTold {R : State (Recorded ω) → State (Recorded ω) → Prop} [IsFrame R]
    {peer : Peer ω} (k : RoutineWork peer R) (a : Access) : (a.performTold peer).Obeys R :=
  .bind (.run (k.access k.started a)) fun _ => .bind (fun σ => k.used σ a _) fun _ => .pure _

/-- Whatever transaction functions uphold, they go as a frame allows, if their transactions open
    so. -/
theorem RoutineWork.upheld {R : State (Recorded ω) → State (Recorded ω) → Prop} [IsFrame R]
    {peer : Peer ω} {between trying : State (Recorded ω) → Prop}
    {inside : TransactionId → State (Recorded ω) → Prop} (k : RoutineWork peer R)
    (up : Upheld peer between trying inside)
    (opened : ∀ τ mode api config, trying τ →
      R τ ((openTransaction peer.recorded mode api config .session).exec τ).2)
    (σ : State (Recorded ω)) :
    Upheld peer (fun τ => between τ ∧ R σ τ) (fun τ => trying τ ∧ R σ τ)
      fun t τ => inside t τ ∧ R σ τ where
  call τ t a h := (up.call τ t a h.1).and (IsFrame.andThen h.2 (k.performTold a τ))
  drift τ t w h := ⟨up.drift τ t w h.1, IsFrame.andThen h.2 (k.drift τ w)⟩
  ended τ t fault h := ⟨up.ended τ t fault h.1, IsFrame.andThen h.2 (k.returned τ fault)⟩
  noting τ event h := (up.noting τ event h.1).and (IsFrame.andThen h.2 (k.endsUnits.note event τ))
  prepare τ h := (up.prepare τ h.1).and (Op.ends_after h.2 (k.clearsUp.prepareExecute k.reads τ))
  pausing τ request pausing h := by
    have routine : request.IsRoutine := by
      cases request <;> first | exact trivial | exact pausing.elim
    exact (up.pausing τ request pausing h.1).and (IsFrame.andThen h.2 (k.ask request routine τ))
  opens τ mode api config h :=
    (up.opens τ mode api config h.1).and (Op.ends_after h.2 (opened τ mode api config h.1))
  settles τ t outcome h returned :=
    (up.settles τ t outcome h.1 returned).and (Op.ends_after h.2 (k.settle t outcome τ))
  done τ h := ⟨up.done τ h.1, h.2⟩

/-- What a frame about borrowing allows a session and its caller. -/
structure OrdinaryWork (peer : Peer ω) (R : State (Recorded ω) → State (Recorded ω) → Prop) : Prop
    extends Ordinary peer.recorded R where
  used : ∀ (σ : State (Recorded ω)) (a : Access) outcome,
    R σ { σ with world := σ.world.add (.used a outcome) }
  returned : ∀ (σ : State (Recorded ω)) fault,
    R σ { σ with world := σ.world.add (.returned fault) }
  drift : ∀ (σ : State (Recorded ω)) w, R σ { σ with world := { σ.world with world := w } }

namespace OrdinaryWork

variable {R : State (Recorded ω) → State (Recorded ω) → Prop} [IsFrame R] {peer : Peer ω}

omit [IsFrame R] in
theorem routineWork (k : OrdinaryWork peer R) : RoutineWork peer R :=
  { k.routine, k with }

theorem performTold (k : OrdinaryWork peer R) (a : Access) : (a.performTold peer).Obeys R :=
  k.routineWork.performTold a

/-- Whatever the code of a transaction function does. -/
theorem work (k : OrdinaryWork peer R) (w : Work ω α) :
    (w.recorded.perform peer.recorded).Obeys R := by
  intro σ
  have kept := w.perform_keeps (R σ) (fun τ a path => IsFrame.andThen path (k.performTold a τ))
    (fun τ w path => IsFrame.andThen path (k.drift τ w))
    (fun τ fault path => IsFrame.andThen path (k.returned τ fault)) (IsFrame.rest σ)
  exact (kept.imp (fun _ _ h => h) fun _ _ h => h.1).state

theorem decide (k : OrdinaryWork peer R) (backoff : Backoff) (fault : Fault) :
    (GraphSession.decide peer.recorded backoff fault).Obeys R :=
  .bind (k.ask .readClock trivial) fun _ => .bind (k.ask .drawSample trivial) fun _ => .pure _

theorem attemptOnce (k : OrdinaryWork peer R) (options : ExecuteOptions)
    (borrowed : ∀ mode database user,
      (acquire peer.recorded mode database user (some options.api)).Obeys R)
    (work : TransactionFunction ω α) (calls : Nat) :
    (GraphSession.attemptOnce peer.recorded options (TransactionFunction.recorded work)
      calls).Obeys R := by
  refine .bind (.run (k.openTransaction (borrowed _) _ _)) fun opened => ?_
  split
  · exact .pure _
  · exact .bind (.run (k.work _)) fun _ => .bind (.run (k.routine.settle _ _)) fun _ => .pure _

/-- Attempt after attempt, by induction on the patience. -/
theorem attemptFrom (k : OrdinaryWork peer R) (options : ExecuteOptions)
    (borrowed : ∀ mode database user,
      (acquire peer.recorded mode database user (some options.api)).Obeys R)
    (work : TransactionFunction ω α) (patience calls : Nat) (backoff : Backoff) :
    (GraphSession.attemptFrom peer.recorded options (TransactionFunction.recorded work) patience
      calls backoff).Obeys R := by
  induction patience generalizing calls backoff with
  | zero => exact .pure _
  | succ patience ih =>
    rw [GraphSession.attemptFrom]
    refine .bind (k.attemptOnce options borrowed work calls) fun tried => ?_
    obtain ⟨outcome, calls⟩ := tried
    cases outcome with
    | ok a => exact .pure _
    | error fault =>
      refine .bind (k.decide backoff fault) fun decision => ?_
      obtain ⟨decision, backoff⟩ := decision
      cases decision with
      | giveUp f => exact .pure _
      | retryAfter delay =>
        exact .bind (k.endsUnits.note _) fun _ =>
          .bind (k.ask (.sleep delay) trivial) fun _ => ih _ _

theorem executeWith (k : OrdinaryWork peer R) (options : ExecuteOptions)
    (borrowed : ∀ mode database user,
      (acquire peer.recorded mode database user (some options.api)).Obeys R)
    (patience : Nat) (work : TransactionFunction ω α) :
    (GraphSession.executeWith peer.recorded options patience
      (TransactionFunction.recorded work)).Obeys R := by
  rw [GraphSession.executeWith]
  refine .bind (.run (k.routine.clearsUp.prepareExecute k.routine.reads)) fun prepared => ?_
  split
  · exact .pure _
  · exact .bind (k.ask .readClock trivial) fun _ => .bind .theSession fun _ =>
      k.attemptFrom options borrowed work patience _ _

theorem afterFailure (k : OrdinaryWork peer R) (calls : Nat) (backoff : Backoff) (fault : Fault) :
    (Blocking.afterFailure (α := α) peer.recorded calls backoff fault).Obeys R := by
  rw [Blocking.afterFailure]
  refine .bind (k.decide backoff fault) fun decision => ?_
  obtain ⟨decision, backoff⟩ := decision
  cases decision with
  | giveUp f => exact .pure _
  | retryAfter delay =>
    exact .bind (k.endsUnits.note _) fun _ => .bind (k.ask (.sleep delay) trivial) fun _ => .pure _

theorem step (k : OrdinaryWork peer R) (options : ExecuteOptions)
    (borrowed : ∀ mode database user,
      (acquire peer.recorded mode database user (some options.api)).Obeys R)
    (work : TransactionFunction ω α) (progress : Blocking.Progress α) :
    (Blocking.step peer.recorded options (TransactionFunction.recorded work) progress).Obeys R := by
  cases progress with
  | finished outcome => exact .pure _
  | trying calls backoff =>
    rw [Blocking.step]
    refine .bind (.run (k.openTransaction (borrowed _) _ _)) fun opened => ?_
    split
    · exact k.afterFailure calls backoff _
    · refine .bind (.run (k.work _)) fun _ => .bind (.run (k.routine.settle _ _)) fun settled => ?_
      split
      · exact .pure _
      · exact k.afterFailure _ backoff _

theorem drive (k : OrdinaryWork peer R) (options : ExecuteOptions)
    (borrowed : ∀ mode database user,
      (acquire peer.recorded mode database user (some options.api)).Obeys R)
    (work : TransactionFunction ω α) (patience : Nat) (progress : Blocking.Progress α) :
    (Blocking.drive peer.recorded options (TransactionFunction.recorded work) patience
      progress).Obeys R := by
  induction patience generalizing progress with
  | zero => exact .pure _
  | succ patience ih =>
    cases progress with
    | finished outcome => exact .pure _
    | trying calls backoff =>
      rw [Blocking.drive]
      exact .bind (k.step options borrowed work _) fun _ => ih _

theorem executeBlocking (k : OrdinaryWork peer R)
    (borrowed : ∀ mode database user,
      (acquire peer.recorded mode database user (some .transactionFunction)).Obeys R)
    (mode : AccessMode) (config : TransactionConfig) (patience : Nat)
    (work : TransactionFunction ω α) :
    (Blocking.execute peer.recorded mode config patience
      (TransactionFunction.recorded work)).Obeys R := by
  have begun : (Blocking.begin (α := α) peer.recorded).Obeys R := by
    rw [Blocking.begin]
    refine .bind (.run (k.routine.clearsUp.prepareExecute k.routine.reads)) fun prepared => ?_
    split
    · exact .pure _
    · exact .bind (k.ask .readClock trivial) fun _ => .bind .theSession fun _ => .pure _
  rw [Blocking.execute]
  exact .bind begun fun _ => .bind (k.drive { mode, config } borrowed work patience _) fun _ =>
    .pure _

end OrdinaryWork

/-! ## Operations -/

/-- The kind of call for which an operation borrows a connection. -/
def Operation.api? : Operation ω → Option ApiKind
  | run .. => some .autoCommit
  | beginTransaction _ => some .explicitTransaction
  | execute .. | executeRenamed .. | executeBlocking .. => some .transactionFunction
  | executeQuery .. => some .internal
  | lastBookmarks | lastBookmark | serverInfo | close | access _ | elsewhere _ => none

/-- Every operation obeys a frame about borrowing as soon as it borrows as the frame allows. -/
theorem OrdinaryWork.operation {R : State (Recorded ω) → State (Recorded ω) → Prop} [IsFrame R]
    {peer : Peer ω} (k : OrdinaryWork peer R) (op : Operation ω)
    (borrowed : ∀ mode database user,
      (acquire peer.recorded mode database user op.api?).Obeys R) : (op.perform peer).Obeys R := by
  have told {β : Type} {x : Op (Recorded ω) β} (hx : x.Obeys R) : (concluded x).Obeys R :=
    .bind (.run hx) fun _ => .pure _
  cases op with
  | run source params => exact told (k.run borrowed source params)
  | beginTransaction config => exact told (k.beginTransaction borrowed config)
  | execute mode config patience work => exact k.executeWith { mode, config } borrowed patience work
  | executeRenamed mode patience work =>
    rw [Operation.perform, GraphSession.executeRenamed]
    exact .bind (k.endsUnits.note _) fun _ => k.executeWith { mode } borrowed patience work
  | executeQuery source params mode patience =>
    rw [Operation.perform, executeQueryWith]
    cases Query.ofSource source with
    | error fault => exact .pure _
    | ok query =>
      refine k.executeWith _ ?_ patience _
      exact borrowed
  | executeBlocking mode config patience work =>
    exact k.executeBlocking borrowed mode config patience work
  | lastBookmarks => exact told k.routine.reads.lastBookmarks
  | lastBookmark =>
    exact told (.bind (.lift (k.endsUnits.note _)) fun _ =>
      .bind k.routine.reads.lastBookmarks fun _ => .pure _)
  | serverInfo => exact told (k.searching.serverInfo (borrowed _))
  | close => exact told (.lift (k.routine.clearsUp.close k.routine.reads))
  | access a => exact .bind (k.performTold a) fun _ => .pure _
  | elsewhere f => exact fun σ => k.drift σ _

end GraphSession
