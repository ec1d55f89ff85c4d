import GraphSession.Exchange.Peer
import GraphSession.Rehearsal.Stage

/-!
  The scripted surroundings of a session.

  Around the stage there are a pool and perhaps a bookmark manager.  The pool either makes a new
  connection for every borrower, and may know home databases, or is a real `Pool` over the stage.
-/

namespace GraphSession.Rehearsal

variable {μ : Type}

/-- The pool of a rehearsal. -/
inductive PoolSide
  /-- Makes a new connection for every borrower.  `homes` are the home databases it announces if it
      knows several servers. -/
  | fresh (routing : Bool) (homes : List String)
  | direct (pool : Pool)

/-- The bookmark manager of a rehearsal. -/
inductive Manager
  /-- Returns a bookmark of its own each time, and was asked this often. -/
  | numbered (asked : Nat)
  | fixed (bookmarks : Bookmarks)
  /-- Keeps what it is told. -/
  | keeping (bookmarks : Bookmarks)

/-- The surroundings of the sessions of a rehearsal. -/
structure Surroundings (μ : Type) where
  stage : Stage μ
  pool : PoolSide
  manager : Option Manager

/-- Whether a pool knows several servers. -/
def PoolSide.isRouting : PoolSide → Bool
  | fresh routing _ => routing
  | direct _ => false

/-- What a pool counts, if it counts. -/
def PoolSide.metrics? : PoolSide → Option PoolMetrics
  | fresh .. => none
  | direct pool => some pool.metrics

namespace Surroundings

/-- Lends a connection. -/
def lend (w : Surroundings μ) (request : AcquireRequest) :
    Except Fault Connection × Surroundings μ :=
  match w.pool with
  | .fresh .. =>
    match w.stage.attend (.acquire request) .acquire none with
    | (some fault, stage) => (.error fault, { w with stage })
    | (none, stage) =>
      let (connection, stage) := stage.addLine
      (.ok connection, { w with stage })
  | .direct pool =>
    let (outcome, pool, stage) := pool.acquire Stage.connector request w.stage
    (outcome, { w with stage, pool := .direct pool })

/-- Takes a connection back. -/
def takeBack (w : Surroundings μ) (connection : Connection) : Surroundings μ :=
  match w.pool with
  | .fresh .. => { w with stage := w.stage.write (.release connection.id) }
  | .direct pool =>
    let (pool, stage) := pool.release Stage.connector connection w.stage
    { w with stage, pool := .direct pool }

/-- Announces home databases. -/
def findHome (w : Surroundings μ) (request : RoutingRequest) :
    Except Fault (List String) × Surroundings μ :=
  match w.pool with
  | .fresh _ homes =>
    match w.stage.attend (.findHome request) .findHome none with
    | (some fault, stage) => (.error fault, { w with stage })
    | (none, stage) => (.ok homes, { w with stage })
  | .direct _ => (.error .routingNotSupported, w)

/-- What the manager holds. -/
def getBookmarks (w : Surroundings μ) : Except Fault Bookmarks × Surroundings μ :=
  match w.manager with
  | none => (.ok .empty, w)
  | some manager =>
    match w.stage.attend .getBookmarks .getBookmarks none with
    | (some fault, stage) => (.error fault, { w with stage })
    | (none, stage) =>
      match manager with
      | .numbered asked =>
        (.ok (.singleton ("mgr:" ++ toString (asked + 1))),
          { w with stage, manager := some (.numbered (asked + 1)) })
      | .fixed bookmarks | .keeping bookmarks => (.ok bookmarks, { w with stage })

/-- Tells the manager of a completed unit of work. -/
def updateBookmarks (w : Surroundings μ) (previous new : Bookmarks) :
    Except Fault Unit × Surroundings μ :=
  match w.manager with
  | none => (.ok (), w)
  | some manager =>
    match w.stage.attend (.updateBookmarks previous new) .updateBookmarks none with
    | (some fault, stage) => (.error fault, { w with stage })
    | (none, stage) =>
      match manager with
      | .keeping bookmarks =>
        let settled := bookmarks.settle previous new
        let stage :=
          if new.isEmpty then stage else stage.tell (.bookmarksUpdated bookmarks.size settled.size)
        (.ok (), { w with stage, manager := some (.keeping settled) })
      | _ => (.ok (), { w with stage })

/-- The answer to a request. -/
def answer : (request : Request) → Surroundings μ → request.Answer × Surroundings μ
  | .acquire request, w => w.lend request
  | .release connection, w => ((), w.takeBack connection)
  | .findHome request, w => w.findHome request
  | .getBookmarks, w => w.getBookmarks
  | .updateBookmarks previous new, w => w.updateBookmarks previous new
  | .send connection _ message, w =>
    let (reply, stage) := w.stage.send connection.id message
    (reply, { w with stage })
  | .sleep time, w =>
    ((), { w with stage := w.stage.waitUntil (Clock.ringsAt w.stage.now time) })
  | .readClock, w => (w.stage.now, w)
  | .drawSample, w => (0, w)
  | .note event, w => ((), { w with stage := w.stage.tell event })

/-- The surroundings as sessions see them. -/
def peer (routing : Bool) : Peer (Surroundings μ) where
  routing
  answer := answer
  backlog w := w.stage.backlog
  backlog_lt := by
    intro w w' c _ size batch h more
    obtain ⟨hr, hw⟩ := Prod.mk.inj h
    subst hw
    exact Stage.backlog_lt (Prod.ext hr rfl) more

end Surroundings

end GraphSession.Rehearsal
