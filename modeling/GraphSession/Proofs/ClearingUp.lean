import GraphSession.Proofs.Frame
import GraphSession.Proofs.History
import GraphSession.Session.Execute
import GraphSession.Session.Lifecycle

/-!
  The clearing up of a session.

  Whatever a session is doing, it comes to clear up: units end, the connection goes back, a failed
  unit is reset, a transaction is rolled back, a stream is marked as failed.  None of this starts
  work or completes any.  What a frame must allow for it is therefore little, and is said here once:
  the requests that are made (`Request.ClearsUp`), and changes after which every result and every
  transaction still carries what it carried (`Session.Remembers`).  Fetching a connection to work on
  is the same with more requests.
-/

namespace GraphSession

variable {ω α : Type}

/-! ## What is asked and changed -/

/-- What is asked at the end of a unit of work that went well. -/
def Request.EndsUnit : Request → Prop
  | release _ | note _ => True
  | _ => False

/-- What is asked to clear up. -/
def Request.ClearsUp : Request → Prop
  | release _ | note _ | send _ _ .reset | send _ _ .rollback => True
  | _ => False

/-- What is asked to know where work goes. -/
def Request.IsSearch : Request → Prop
  | getBookmarks | findHome _ => True
  | _ => False

/-- What is asked to get a connection, before any work is sent on it. -/
def Request.IsFetching : Request → Prop
  | getBookmarks | findHome _ | acquire _ | send _ _ (.telemetry _) => True
  | _ => False

/-- Every result and every transaction carries what it carried, and none is new. -/
structure Session.Remembers (s t : Session) : Prop where
  config : t.config = s.config
  results : t.results.length = s.results.length
  origin : ∀ r, (t.result r).origin = (s.result r).origin
  transactions : t.transactions.length = s.transactions.length
  sent : ∀ id, (t.transaction id).sent = (s.transaction id).sent

namespace Session.Remembers

variable {s t : Session}

theorem same (config : t.config = s.config) (results : t.results = s.results)
    (transactions : t.transactions = s.transactions) : s.Remembers t where
  config := config
  results := by rw [results]
  origin r := by rw [result, result, results]
  transactions := by rw [transactions]
  sent id := by rw [transaction, transaction, transactions]

theorem setResult {id : ResultId} {r : Result} (origin : r.origin = (s.result id).origin) :
    s.Remembers (s.setResult id r) where
  config := rfl
  results := by simp [Session.setResult]
  origin other := by
    rw [Session.result_setResult_eq]
    split
    · next e => rw [origin, e.1]
    · rfl
  transactions := rfl
  sent _ := rfl

theorem setTransaction {id : TransactionId} {v : Transaction}
    (sent : v.sent = (s.transaction id).sent) : s.Remembers (s.setTransaction id v) where
  config := rfl
  results := rfl
  origin _ := rfl
  transactions := by simp [Session.setTransaction]
  sent other := by
    rw [Session.transaction_setTransaction_eq]
    split
    · next e => rw [sent, e.1]
    · rfl

end Session.Remembers

/-- What a frame must allow for the end of a unit: to return a connection, to write a line, and any
    change after which results and transactions carry what they carried. -/
structure EndsUnits (peer : Peer ω) (R : State ω → State ω → Prop) : Prop where
  part : ∀ request : Request, request.EndsUnit → (ask peer request).Obeys R
  tend : ∀ (s : State ω) (t : Session), s.session.Remembers t → R s { s with session := t }

/-- What a frame must allow for clearing up: the end of a unit, a reset and a rollback. -/
structure ClearsUp (peer : Peer ω) (R : State ω → State ω → Prop) : Prop
    extends EndsUnits peer R where
  clear : ∀ request : Request, request.ClearsUp → (ask peer request).Obeys R

/-- What a frame must allow for finding out where work goes. -/
structure Searching (peer : Peer ω) (R : State ω → State ω → Prop) : Prop
    extends EndsUnits peer R where
  search : ∀ request : Request, request.IsSearch → (ask peer request).Obeys R

/-- What a frame must allow for getting a connection. -/
structure Fetching (peer : Peer ω) (R : State ω → State ω → Prop) : Prop
    extends EndsUnits peer R where
  fetch : ∀ request : Request, request.IsFetching → (ask peer request).Obeys R

variable {R : State ω → State ω → Prop} [IsFrame R] {peer : Peer ω}

/-! ## Units and connection -/

namespace EndsUnits

omit [IsFrame R] in
theorem note (k : EndsUnits peer R) (event : Event) : (GraphSession.note peer event).Obeys R :=
  k.part (.note event) trivial

omit [IsFrame R] in
theorem giveBack (k : EndsUnits peer R) (c : Connection) : (GraphSession.giveBack peer c).Obeys R :=
  k.part (.release c) trivial

omit [IsFrame R] in
/-- A change of what no result and no transaction carries. -/
theorem changeOp (k : EndsUnits peer R) {f : Session → Session}
    (h : ∀ s, Session.Remembers s (f s)) : Op.Obeys R (changeSession f : Op ω Unit) :=
  fun s => k.tend s _ (h s.session)

omit [IsFrame R] in
theorem changeAct (k : EndsUnits peer R) {f : Session → Session}
    (h : ∀ s, Session.Remembers s (f s)) : Act.Obeys R (changeSession f : Act ω Unit) :=
  fun s => k.tend s _ (h s.session)

theorem releaseConnection (k : EndsUnits peer R) :
    (GraphSession.releaseConnection peer).Obeys R := by
  refine .bind .theSession fun s => ?_
  split
  · exact .pure _
  · exact .bind (k.changeAct fun _ => .same rfl rfl rfl) fun _ =>
      .bind (k.giveBack _) fun _ => k.note _

omit [IsFrame R] in
theorem beginUnit (k : EndsUnits peer R) : Op.Obeys R (beginUnit : Op ω Unit) :=
  k.changeOp fun _ => .same rfl rfl rfl

theorem endUnit (k : EndsUnits peer R) : (GraphSession.endUnit peer).Obeys R := by
  refine .bind (k.changeAct fun _ => .same rfl rfl rfl) fun _ => .bind .theSession fun s => ?_
  split
  · exact k.releaseConnection
  · exact .pure _

theorem endAllUnits (k : EndsUnits peer R) : (GraphSession.endAllUnits peer).Obeys R :=
  .bind (k.changeAct fun _ => .same rfl rfl rfl) fun _ => k.releaseConnection

theorem pinDatabase (k : EndsUnits peer R) (named : Option String) :
    (GraphSession.pinDatabase peer named).Obeys R := by
  unfold GraphSession.pinDatabase
  split
  · exact .pure _
  · refine .bind .theSession fun s => ?_
    split
    · exact .bind (k.note _) fun _ => k.changeAct fun _ => .same rfl rfl rfl
    · exact .pure _

omit [IsFrame R] in
theorem setState (k : EndsUnits peer R) (id : TransactionId) (state : TransactionState) :
    Op.Obeys R (setState id state : Op ω Unit) :=
  k.changeOp fun _ => .setTransaction rfl

theorem takeResults (k : EndsUnits peer R) (id : TransactionId) :
    Op.Obeys R (takeResults id : Op ω (List ResultId)) :=
  .bind .theSession fun _ => .bind (k.changeOp fun _ => .setTransaction rfl) fun _ => .pure _

theorem dropHandle (k : EndsUnits peer R) (id : TransactionId) :
    (GraphSession.dropHandle peer id).Obeys R := by
  have changed : Act.Obeys R (changeTransaction id ({ · with holder := .nobody }) : Act ω Unit) :=
    k.changeAct fun _ => .setTransaction rfl
  refine .bind .theSession fun s => ?_
  dsimp only
  split
  · split
    · exact .bind (k.note _) fun _ => changed
    · exact changed
  · exact .pure _

end EndsUnits

theorem checkOpen_obeys : Op.Obeys R (checkOpen : Op ω Unit) := by
  refine .bind .theSession fun s => ?_
  split
  · exact .throw _
  · exact .pure _

/-! ## Clearing up -/

namespace ClearsUp

/-- A message that clears up, on the session's connection. -/
theorem sendHeld (k : ClearsUp peer R) {sender : Sender} {m : Message}
    (clearing : ∀ c, (Request.send c sender m).ClearsUp) :
    (GraphSession.sendHeld peer sender m).Obeys R := by
  refine .bind .theSession fun s => ?_
  split
  · exact .throw _
  · exact k.clear _ (clearing _)

theorem abortUnit (k : ClearsUp peer R) : (GraphSession.abortUnit peer).Obeys R := by
  refine .bind .theSession fun s => ?_
  dsimp only
  split
  · exact k.endUnit
  · refine .bind (k.clear (.send _ .session .reset) trivial) fun outcome => ?_
    split
    · exact k.endUnit
    · exact .bind (k.note _) fun _ => k.endUnit

theorem abortOrigin (k : ClearsUp peer R) (origin : Origin) :
    (GraphSession.abortOrigin peer origin).Obeys R := by
  cases origin with
  | autoCommit sent pins => exact k.abortUnit
  | transaction id =>
    refine k.changeAct fun s => .setTransaction ?_
    dsimp only
    split <;> rfl

theorem failStream (k : ClearsUp peer R) (id : ResultId) (fault : Fault) :
    (GraphSession.failStream peer id fault).Obeys R :=
  .bind .theSession fun _ => .bind (k.changeAct fun _ => .setResult rfl) fun _ => k.abortOrigin _

omit [IsFrame R] in
theorem abandonResult (k : ClearsUp peer R) (id : ResultId) :
    Op.Obeys R (abandonResult id : Op ω Unit) :=
  k.changeOp fun _ => .setResult rfl

/-- What is done to roll back, once the results are taken. -/
theorem rolledBack (k : ClearsUp peer R) (id : TransactionId) (failed : Prop) [Decidable failed]
    (results : List ResultId) :
    Op.Obeys R (do
      results.forM fun result => GraphSession.abandonResult result
      GraphSession.setState id .rolledBack
      if failed then
        GraphSession.abortUnit peer
      else
        match ← attempt (rollbackHeld peer id) with
        | .ok _ => GraphSession.endUnit peer
        | .error fault =>
          GraphSession.abortUnit peer
          throw fault : Op ω Unit) := by
  refine .bind (.forM fun r => k.abandonResult r) fun _ => .bind (k.setState id _) fun _ => ?_
  split
  · exact .lift k.abortUnit
  · refine .bind (.attempt (k.sendHeld fun _ => trivial)) fun outcome => ?_
    split
    · exact .lift k.endUnit
    · exact .failAfter k.abortUnit _

theorem rollback (k : ClearsUp peer R) (id : TransactionId) :
    (GraphSession.rollback peer id).Obeys R := by
  refine .bind .theSession fun s => ?_
  dsimp only
  split
  · exact .bind (.throw _) fun _ => .bind (k.takeResults id) fun results =>
      k.rolledBack id _ results
  · exact .bind (k.takeResults id) fun results => k.rolledBack id _ results

theorem closeTransaction (k : ClearsUp peer R) (id : TransactionId) :
    (GraphSession.closeTransaction peer id).Obeys R := by
  refine .bind .theSession fun s => ?_
  split
  · exact k.rollback id
  · exact .pure _

theorem closeQuietly (k : ClearsUp peer R) (id : TransactionId) :
    (GraphSession.closeQuietly peer id).Obeys R := by
  refine .bind (.run (k.closeTransaction id)) fun outcome => ?_
  split
  · exact .pure _
  · exact k.note _

theorem reapTransaction (k : ClearsUp peer R) : (GraphSession.reapTransaction peer).Obeys R := by
  refine .bind .theSession fun s => ?_
  dsimp only
  split
  · exact .pure _
  · next id _ =>
    have closed (orphan : Bool) : Op.Obeys R (do
        changeSession ({ · with current := none })
        if orphan then
          GraphSession.note peer .orphanRolledBack
          GraphSession.closeQuietly peer id : Op ω Unit) := by
      refine .bind (k.changeOp fun _ => .same rfl rfl rfl) fun _ => ?_
      split
      · exact .bind (.lift (k.note _)) fun _ => .lift (k.closeQuietly id)
      · exact .pure _
    split
    · exact .bind (.throw _) fun _ => closed _
    · exact closed _

theorem endCurrent (k : ClearsUp peer R) : (GraphSession.endCurrent peer).Obeys R := by
  refine .bind .theSession fun s => ?_
  split
  · exact .pure _
  · exact .bind (k.changeAct fun _ => .same rfl rfl rfl) fun _ => k.closeQuietly _

theorem bufferAutoResult (k : ClearsUp peer R) (reads : Reads peer R) :
    (GraphSession.bufferAutoResult peer).Obeys R := by
  refine .bind .theSession fun s => ?_
  split
  · exact .pure _
  · exact .bind (k.changeOp fun _ => .same rfl rfl rfl) fun _ => reads.bufferAll _

theorem prepareExecute (k : ClearsUp peer R) (reads : Reads peer R) :
    (GraphSession.prepareExecute peer).Obeys R :=
  .bind checkOpen_obeys fun _ => .bind k.reapTransaction fun _ => k.bufferAutoResult reads

theorem close (k : ClearsUp peer R) (reads : Reads peer R) :
    (GraphSession.close peer).Obeys R := by
  have consumed : (consumeAutoResult peer).Obeys R := by
    refine .bind .theSession fun s => ?_
    split
    · exact .pure _
    · refine .bind (k.changeAct fun _ => .same rfl rfl rfl) fun _ =>
        .bind (.run (reads.consume _)) fun outcome => ?_
      split
      · exact .pure _
      · exact k.note _
  refine .bind .theSession fun s => ?_
  split
  · exact .bind k.endCurrent fun _ => .bind consumed fun _ => .bind k.endAllUnits fun _ =>
      .bind (k.changeAct fun _ => .same rfl rfl rfl) fun _ => k.note _
  · exact .pure _

end ClearsUp

/-! ## Getting a connection -/

namespace Searching

theorem bookmarksForWork (k : Searching peer R) : (GraphSession.bookmarksForWork peer).Obeys R := by
  refine .bind .theSession fun s => ?_
  split
  · exact .bind (k.search .getBookmarks trivial) fun _ => .pure _
  · exact .pure _

theorem findHome (k : Searching peer R) (o : Overrides) :
    (GraphSession.findHome peer o).Obeys R :=
  .bind .theSession fun _ => .bind k.bookmarksForWork fun _ =>
    .bind (k.search (.findHome _) trivial) fun _ => .pure _

theorem resolveDatabase (k : Searching peer R) (o : Overrides) :
    (GraphSession.resolveDatabase peer o).Obeys R := by
  have found : Op.Obeys R (do
      let home ← GraphSession.findHome peer o
      if o.impersonatedUser.isNone && (← GraphSession.theSession).target = .unresolved then
        changeSession ({ · with target := .resolved home })
      GraphSession.note peer (.homeResolved home)
      return home : Op ω (Option String)) := by
    refine .bind (k.findHome o) fun home => .bind .theSession fun s => ?_
    have noted : Op.Obeys R (do
        GraphSession.note peer (.homeResolved home)
        return home : Op ω (Option String)) := .bind (.lift (k.note _)) fun _ => .pure _
    dsimp only
    split
    · exact .bind (k.changeOp fun _ => .same rfl rfl rfl) fun _ => noted
    · exact noted
  refine .bind .theSession fun s => ?_
  split
  · exact .pure _
  · exact .pure _
  · dsimp only
    split
    · exact .pure _
    · exact found

/-- Whoever may borrow a connection as this frame allows may connect. -/
theorem connect (k : Searching peer R) {mode : AccessMode} {api : ApiKind}
    (borrowed : ∀ database user,
      (GraphSession.acquire peer mode database user (some api)).Obeys R) (o : Overrides) :
    (GraphSession.connect peer mode api o).Obeys R := by
  refine .bind .theSession fun s => ?_
  split
  · exact .pure _
  · exact .bind (k.resolveDatabase o) fun _ => .bind (borrowed _ _) fun _ =>
      .bind (k.changeOp fun _ => .same rfl rfl rfl) fun _ => .pure _

theorem serverInfo (k : Searching peer R)
    (borrowed : ∀ database user, (GraphSession.acquire peer .read database user none).Obeys R) :
    (GraphSession.serverInfo peer).Obeys R := by
  refine .bind checkOpen_obeys fun _ => .bind .theSession fun s => ?_
  split
  · exact .pure _
  · exact .bind (k.resolveDatabase {}) fun _ => .bind (borrowed _ _) fun c =>
      .bind (.lift (k.giveBack c)) fun _ => .pure _

end Searching

namespace Fetching

omit [IsFrame R] in
theorem searching (k : Fetching peer R) : Searching peer R where
  toEndsUnits := k.toEndsUnits
  search request h := k.fetch request (by cases request <;> trivial)

theorem bookmarksForWork (k : Fetching peer R) : (GraphSession.bookmarksForWork peer).Obeys R :=
  k.searching.bookmarksForWork

theorem acquire (k : Fetching peer R) (mode : AccessMode) (database user : Option String)
    (api : Option ApiKind) : (GraphSession.acquire peer mode database user api).Obeys R := by
  have noted (c : Connection) : Op.Obeys R (do
      GraphSession.note peer (.connectionAcquired mode api)
      return c : Op ω Connection) := .bind (.lift (k.note _)) fun _ => .pure _
  refine .bind .theSession fun s => .bind k.bookmarksForWork fun _ =>
    .bind (k.fetch (.acquire _) trivial) fun c => ?_
  dsimp only
  split
  · split
    · refine .bind (.attempt (k.fetch (.send _ _ (.telemetry _)) trivial)) fun told => ?_
      split
      · exact .bind (.lift (k.giveBack _)) fun _ => .bind (.throw _) fun _ => noted c
      · exact noted c
    · exact noted c
  · exact noted c

theorem connect (k : Fetching peer R) (mode : AccessMode) (api : ApiKind) (o : Overrides) :
    (GraphSession.connect peer mode api o).Obeys R :=
  k.searching.connect (fun _ _ => k.acquire _ _ _ _) o

theorem serverInfo (k : Fetching peer R) : (GraphSession.serverInfo peer).Obeys R :=
  k.searching.serverInfo fun _ _ => k.acquire _ _ _ _

end Fetching

/-! ## Reading -/

/-- Asking for the session's bookmarks reads its latest auto-commit result. -/
theorem Reads.lastBookmarks (k : Reads peer R) : (GraphSession.lastBookmarks peer).Obeys R := by
  refine .bind .theSession fun s => ?_
  split
  · exact .bind (k.bufferAll _) fun _ => .bind .theSession fun _ => .pure _
  · exact .bind .theSession fun _ => .pure _

omit [IsFrame R] in
/-- Keeping count of what was handed out is a change after which everything carries what it
    carried. -/
theorem EndsUnits.reads (k : EndsUnits peer R)
    (fetch : ∀ id (s : State ω), (s.session.result id).isStreaming = true →
      R s ((GraphSession.fetch peer id).exec s).2)
    (discardRest : ∀ id, (GraphSession.discardRest peer id).Obeys R) : Reads peer R where
  fetch := fetch
  discardRest := discardRest
  tend s _ _ origin _ _ _ := k.tend s _ (.setResult origin)

/-! ## Histories of one kind -/

section Only

variable {P : Happening → Prop} {peer : Peer ω}

/-- Everything that happened is of one kind. -/
abbrev State.Only (P : Happening → Prop) (σ τ : State (Recorded ω)) : Prop :=
  σ.Since (∀ e ∈ ·, P e) τ

instance : IsFrame (State.Only (ω := ω) P) :=
  ⟨fun _ => .nothing (by simp) rfl, fun h h' => h.all_andThen h'⟩

theorem ask_only {request : Request} (h : ∀ answer, P (.asked request answer)) :
    (ask peer.recorded request).Obeys (State.Only P) :=
  fun _ => .one (h _) rfl

theorem endsUnits_only (h : ∀ request answer, request.EndsUnit → P (.asked request answer)) :
    EndsUnits peer.recorded (State.Only P) where
  part request endsUnits := ask_only fun answer => h request answer endsUnits
  tend _ _ _ := .nothing (by simp) rfl

theorem clearsUp_only (h : ∀ request answer, request.ClearsUp → P (.asked request answer)) :
    ClearsUp peer.recorded (State.Only P) where
  toEndsUnits := endsUnits_only fun request answer endsUnits => h request answer (by
    cases request <;> trivial)
  clear request clearing := ask_only fun answer => h request answer clearing

end Only

end GraphSession
