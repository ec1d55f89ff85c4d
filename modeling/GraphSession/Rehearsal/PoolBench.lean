import GraphSession.Fields
import GraphSession.Rehearsal.Stage

/-!
  Playing with a pool alone.

  Borrowers act by name: what a name borrowed is kept under it, and so is its request as long as it
  waits.
-/

namespace GraphSession.Rehearsal

/-- Something done with a pool. -/
inductive PoolStep
  /-- Borrows a connection, waiting to the end. -/
  | acquire (name : String) (request : AcquireRequest)
  /-- Looks once at the request that waits under a name, or at a new one. -/
  | look (name : String) (request : AcquireRequest)
  | cancel (name : String)
  | release (name : String)
  /-- Gives back a connection that the pool never lent. -/
  | releaseForeign
  | breakConnection (number : Nat)
  | close
  | isClosed
  | isRouting
  | findHome
  | advance (time : Duration)

/-- What such a step is answered. -/
inductive PoolAnswer
  | nothing
  | missing (name : String)
  | connection (number : Nat)
  | waiting
  | flag (value : Bool)

/-- A pool, what surrounds it, and what is kept by name. -/
structure PoolBench where
  stage : Stage Empty
  pool : Pool
  held : Fields Connection := .empty
  waiting : Fields Borrower := .empty

/-- What is seen of a step. -/
structure PoolReport where
  reply : Except Fault PoolAnswer
  log : List (Entry Empty)
  metrics : PoolMetrics

namespace PoolBench

/-- Keeps what a finished request got. -/
def finish (b : PoolBench) (name : String) (outcome : Except Fault Connection) :
    Except Fault PoolAnswer × PoolBench :=
  match outcome with
  | .error fault => (.error fault, b)
  | .ok connection =>
    (.ok (.connection connection.id), { b with held := b.held.insert name connection })

/-- Plays a step. -/
def play (b : PoolBench) : PoolStep → Except Fault PoolAnswer × PoolBench
  | .acquire name request =>
    let (outcome, pool, stage) := b.pool.acquire Stage.connector request b.stage
    { b with pool, stage }.finish name outcome
  | .look name request =>
    let (seen, pool, stage) := match b.waiting.get? name with
      | some borrower => b.pool.poll Stage.connector borrower b.stage
      | none => b.pool.start Stage.connector request b.stage
    match seen with
    | .waiting borrower =>
      (.ok .waiting, { b with pool, stage, waiting := b.waiting.insert name borrower })
    | .ready outcome =>
      { b with pool, stage, waiting := b.waiting.erase name }.finish name outcome
  | .cancel name =>
    match b.waiting.get? name with
    | none => (.ok .nothing, b)
    | some borrower =>
      (.ok .nothing,
        { b with pool := b.pool.withdraw borrower.ticket, waiting := b.waiting.erase name })
  | .release name =>
    match b.held.get? name with
    | none => (.ok (.missing name), b)
    | some connection =>
      let (pool, stage) := b.pool.release Stage.connector connection b.stage
      (.ok .nothing, { b with pool, stage, held := b.held.erase name })
  | .releaseForeign =>
    let (connection, stage) := b.stage.addLine
    let (pool, stage) := b.pool.release Stage.connector connection stage
    (.ok .nothing, { b with pool, stage })
  | .breakConnection number => (.ok .nothing, { b with stage := b.stage.breakLine number })
  | .close =>
    let (pool, stage) := b.pool.close Stage.connector b.stage
    (.ok .nothing, { b with pool, stage })
  | .isClosed => (.ok (.flag b.pool.closed), b)
  | .isRouting => (.ok (.flag false), b)
  | .findHome => (.error .routingNotSupported, b)
  | .advance time =>
    (.ok .nothing, { b with stage := { b.stage with now := b.stage.now + time.nanos } })

/-- Plays a step and reports on it. -/
def report (step : PoolStep) : StateM PoolBench PoolReport := fun b =>
  let (reply, b) := b.play step
  let (log, stage) := b.stage.takeLog
  ({ reply, log, metrics := b.pool.metrics }, { b with stage })

/-- The reports on a series of steps over a new pool. -/
def reports (script : Script) (config : PoolConfig) (steps : List PoolStep) : List PoolReport :=
  ((steps.mapM report).run { stage := .ofScript script, pool := .ofConfig config }).1

end PoolBench

end GraphSession.Rehearsal
