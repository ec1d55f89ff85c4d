import GraphSession.Exchange.Peer
import GraphSession.Session.State

/-!
  Actions of a session.

  An action reads and changes the session and the state of its surroundings.  An `Act` always
  succeeds; an `Op` may fail with a fault, and what it changed before it failed stays changed.
  Surroundings are reached through the requests of this module alone.

  `exec` runs an action from a state.  Its equations below say what the building blocks of actions
  do, so that a proof about an action need not look inside the two monads.
-/

namespace GraphSession

/-- A session together with its surroundings. -/
structure State (ω : Type) where
  session : Session
  world : ω

/-- An action that always succeeds. -/
abbrev Act (ω : Type) := StateM (State ω)

/-- An action that may fail.  A failure keeps the changes made before it. -/
abbrev Op (ω : Type) := ExceptT Fault (Act ω)

variable {ω α β : Type}

/-- The answer of an action and the state after it. -/
def Act.exec (act : Act ω α) (s : State ω) : α × State ω := act s

/-- The outcome of an action and the state after it. -/
def Op.exec (op : Op ω α) (s : State ω) : Except Fault α × State ω := op s

/-! ### Requests -/

/-- Sends a request and takes its answer. -/
def ask (peer : Peer ω) (request : Request) : Act ω request.Answer := fun s =>
  let given := peer.answer request s.world
  (given.1, { s with world := given.2 })

/-- Tells the journal. -/
def note (peer : Peer ω) (event : Event) : Act ω Unit := ask peer (.note event)

/-- Gives a connection back to the pool. -/
def giveBack (peer : Peer ω) (connection : Connection) : Act ω Unit :=
  ask peer (.release connection)

/-- Sends a message on a connection. -/
def send (peer : Peer ω) (connection : Connection) (sender : Sender) (message : Message) :
    Op ω message.Reply :=
  ExceptT.mk (ask peer (.send connection sender message))

/-- Borrows a connection from the pool. -/
def borrow (peer : Peer ω) (request : AcquireRequest) : Op ω Connection :=
  ExceptT.mk (ask peer (.acquire request))

/-- The home databases that a routing pool announces. -/
def askHomes (peer : Peer ω) (request : RoutingRequest) : Op ω (List String) :=
  ExceptT.mk (ask peer (.findHome request))

/-- The bookmarks that the manager holds. -/
def askBookmarks (peer : Peer ω) : Op ω Bookmarks := ExceptT.mk (ask peer .getBookmarks)

/-- Reports to the manager that work which carried `previous` returned `new`. -/
def reportBookmarks (peer : Peer ω) (previous new : Bookmarks) : Op ω Unit :=
  ExceptT.mk (ask peer (.updateBookmarks previous new))

/-! ### Outcomes -/

/-- The outcome of an action that may fail, as a value. -/
def attempt (op : Op ω α) : Op ω (Except Fault α) :=
  ExceptT.mk (Except.ok <$> op.run)

/-- Fails or succeeds as an outcome says. -/
def settleOn (outcome : Except Fault α) : Op ω α := ExceptT.mk (pure outcome)

/-- Fails with `fault` if there is one. -/
def failIf (fault : Option Fault) : Op ω Unit :=
  match fault with
  | some fault => throw fault
  | none => pure ()

/-! ### The session's own state

  These are at home in both kinds of action. -/

section Own

variable {m : Type → Type} [Monad m] [MonadState (State ω) m]

/-- The session as it is now. -/
def theSession : m Session := do return (← get).session

/-- Changes the session. -/
def changeSession (f : Session → Session) : m Unit :=
  modify fun s => { s with session := f s.session }

/-- Changes one result. -/
def changeResult (id : ResultId) (f : Result → Result) : m Unit :=
  changeSession fun s => s.setResult id (f (s.result id))

/-- Changes one transaction. -/
def changeTransaction (id : TransactionId) (f : Transaction → Transaction) : m Unit :=
  changeSession fun s => s.setTransaction id (f (s.transaction id))

/-- Gives a new result its number. -/
def addResult (r : Result) : m ResultId := do
  let id := (← theSession).results.length
  changeSession fun s => { s with results := s.results ++ [r] }
  return id

/-- Gives a new transaction its number. -/
def addTransaction (t : Transaction) : m TransactionId := do
  let id := (← theSession).transactions.length
  changeSession fun s => { s with transactions := s.transactions ++ [t] }
  return id

end Own

/-! ### Equations of `exec` -/

section Exec

variable (s : State ω) (peer : Peer ω)

theorem Act.exec_pure (a : α) : Act.exec (pure a : Act ω α) s = (a, s) := rfl

theorem Act.exec_bind (x : Act ω α) (f : α → Act ω β) :
    Act.exec (x >>= f) s = Act.exec (f (Act.exec x s).1) (Act.exec x s).2 := rfl

/-- Inside an `Act`, an action that may fail is run for its outcome. -/
theorem Act.exec_run (op : Op ω α) : Act.exec op.run s = Op.exec op s := rfl

theorem Act.exec_theSession : Act.exec (theSession : Act ω Session) s = (s.session, s) := rfl

theorem Act.exec_changeSession (f : Session → Session) :
    Act.exec (changeSession f : Act ω Unit) s = ((), { s with session := f s.session }) := rfl

theorem Op.exec_pure (a : α) : Op.exec (pure a : Op ω α) s = (.ok a, s) := rfl

theorem Op.exec_throw (fault : Fault) : Op.exec (throw fault : Op ω α) s = (.error fault, s) := rfl

/-- A sequence stops at the first failure and keeps the state that it left. -/
theorem Op.exec_bind (x : Op ω α) (f : α → Op ω β) :
    Op.exec (x >>= f) s = match Op.exec x s with
      | (.ok a, t) => Op.exec (f a) t
      | (.error fault, t) => (.error fault, t) := by
  have h : Op.exec (x >>= f) s = (ExceptT.bindCont f (x s).1) (x s).2 := rfl
  rw [h]
  simp only [Op.exec]
  rcases x s with ⟨_ | _, _⟩ <;> rfl

/-- An action that always succeeds, inside one that may fail. -/
theorem Op.exec_lift (x : Act ω α) :
    Op.exec (liftM x : Op ω α) s = (.ok (Act.exec x s).1, (Act.exec x s).2) := rfl

theorem Op.exec_attempt (x : Op ω α) :
    Op.exec (attempt x) s = (.ok (Op.exec x s).1, (Op.exec x s).2) := rfl

theorem Op.exec_settleOn (outcome : Except Fault α) :
    Op.exec (settleOn outcome : Op ω α) s = (outcome, s) := rfl

theorem Op.exec_theSession : Op.exec (theSession : Op ω Session) s = (.ok s.session, s) := rfl

theorem Op.exec_changeSession (f : Session → Session) :
    Op.exec (changeSession f : Op ω Unit) s = (.ok (), { s with session := f s.session }) := rfl

theorem Op.exec_send (connection : Connection) (sender : Sender) (message : Message) :
    Op.exec (send peer connection sender message) s =
      ((peer.answer (.send connection sender message) s.world).1,
        { s with world := (peer.answer (.send connection sender message) s.world).2 }) := rfl

theorem Op.exec_borrow (request : AcquireRequest) :
    Op.exec (borrow peer request) s =
      ((peer.answer (.acquire request) s.world).1,
        { s with world := (peer.answer (.acquire request) s.world).2 }) := rfl

theorem Op.exec_askHomes (request : RoutingRequest) :
    Op.exec (askHomes peer request) s =
      ((peer.answer (.findHome request) s.world).1,
        { s with world := (peer.answer (.findHome request) s.world).2 }) := rfl

theorem Op.exec_askBookmarks :
    Op.exec (askBookmarks peer) s =
      ((peer.answer .getBookmarks s.world).1,
        { s with world := (peer.answer .getBookmarks s.world).2 }) := rfl

theorem Op.exec_reportBookmarks (previous new : Bookmarks) :
    Op.exec (reportBookmarks peer previous new) s =
      ((peer.answer (.updateBookmarks previous new) s.world).1,
        { s with world := (peer.answer (.updateBookmarks previous new) s.world).2 }) := rfl

end Exec

/-! ### Messages on the connection that the session holds -/

/-- Sends a message on the session's own connection. -/
def sendHeld (peer : Peer ω) (sender : Sender) (message : Message) : Op ω message.Reply := do
  match (← theSession).connection with
  | none => throw .noConnection
  | some connection => send peer connection sender message

/-- Runs the query of a new result. -/
def runHeld (peer : Peer ω) (id : ResultId) (request : RunRequest) : Op ω RunReply :=
  sendHeld peer (.result id) (.run request)

/-- Pulls records of a result, as many as the session fetches at a time. -/
def pullHeld (peer : Peer ω) (id : ResultId) : Op ω Batch := do
  sendHeld peer (.result id) (.pull (← theSession).fetchSize)

/-- Discards the records that are left of a result. -/
def discardHeld (peer : Peer ω) (id : ResultId) : Op ω Metadata :=
  sendHeld peer (.result id) .discard

/-- Begins a transaction; the server may name the database. -/
def beginHeld (peer : Peer ω) (id : TransactionId) (request : WorkRequest) :
    Op ω (Option String) :=
  sendHeld peer (.transaction id) (.begin request)

/-- Commits a transaction; the server may return a bookmark. -/
def commitHeld (peer : Peer ω) (id : TransactionId) : Op ω (Option String) :=
  sendHeld peer (.transaction id) .commit

/-- Rolls a transaction back. -/
def rollbackHeld (peer : Peer ω) (id : TransactionId) : Op ω Unit :=
  sendHeld peer (.transaction id) .rollback

/-- A message on the session's connection: a fault when there is none, else the connection's
    answer. -/
theorem Op.exec_sendHeld (peer : Peer ω) (sender : Sender) (message : Message) (s : State ω) :
    Op.exec (sendHeld peer sender message) s = match s.session.connection with
      | none => (.error .noConnection, s)
      | some connection =>
        ((peer.answer (.send connection sender message) s.world).1,
          { s with world := (peer.answer (.send connection sender message) s.world).2 }) := by
  rw [sendHeld, Op.exec_bind, Op.exec_theSession]
  cases h : s.session.connection <;> simp only [h] <;> rfl

theorem Op.exec_pullHeld (peer : Peer ω) (id : ResultId) (s : State ω) :
    Op.exec (pullHeld peer id) s =
      Op.exec (sendHeld peer (.result id) (.pull s.session.fetchSize)) s :=
  rfl

/-- A pull that leaves records behind lowers the backlog. -/
theorem backlog_lt_of_pullHeld {peer : Peer ω} {id : ResultId} {s t : State ω} {batch : Batch}
    (h : Op.exec (pullHeld peer id) s = (.ok batch, t)) (more : batch.more = true) :
    t.session = s.session ∧ peer.backlog t.world < peer.backlog s.world := by
  rw [Op.exec_pullHeld, Op.exec_sendHeld] at h
  cases hc : s.session.connection with
  | none => simp [hc] at h
  | some c =>
    simp only [hc] at h
    obtain ⟨ha, ht⟩ := Prod.mk.inj h
    subst ht
    exact ⟨rfl, peer.backlog_lt (Prod.ext ha rfl) more⟩

end GraphSession
