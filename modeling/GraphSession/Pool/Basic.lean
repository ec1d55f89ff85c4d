import GraphSession.Clock
import GraphSession.Exchange.Request

/-!
  A pool of connections to one server.

  The pool lends at most `maxSize` connections at a time.  A borrower needs a permit; who finds
  none free waits in a queue, and a permit that comes back goes to the head of the queue at once.
  Connections that came back wait in line as well, the longest-idle one first, at most `maxIdle`
  of them.

  Here are the pool's state and the handling of permits and idle connections; `Pool.Borrowing`
  puts them together.
-/

namespace GraphSession

/-- The settings of a pool. -/
structure PoolConfig where
  maxSize : Nat := 100
  maxIdle : Nat := 100
  /-- How long a borrower waits who does not say. -/
  acquisitionTimeout : Duration := .ofSeconds 60
  deriving DecidableEq, Repr, Inhabited

/-- The number of a waiting borrower. -/
abbrev Ticket := Nat

/-- A pool. -/
structure Pool where
  config : PoolConfig
  /-- Connections that nobody has, the longest-idle one first. -/
  idle : List Connection := []
  /-- The connections that are lent. -/
  inUse : Nat := 0
  /-- The permits that nobody has. -/
  permits : Nat
  /-- Borrowers waiting for a permit, in the order they came. -/
  queue : List Ticket := []
  /-- Borrowers that were given a permit and have not looked since. -/
  granted : List Ticket := []
  nextTicket : Ticket := 0
  closed : Bool := false
  acquisitions : Nat := 0
  created : Nat := 0
  /-- The connections that were given up. -/
  discarded : Nat := 0
  timeouts : Nat := 0
  deriving Inhabited

/-- What a pool counts. -/
structure PoolMetrics where
  idle : Nat
  inUse : Nat
  acquisitions : Nat
  created : Nat
  discarded : Nat
  timeouts : Nat
  deriving DecidableEq, Repr, Inhabited

namespace Pool

/-- A new pool. -/
def ofConfig (config : PoolConfig) : Pool := { config, permits := config.maxSize }

def metrics (p : Pool) : PoolMetrics :=
  { idle := p.idle.length
    inUse := p.inUse
    acquisitions := p.acquisitions
    created := p.created
    discarded := p.discarded
    timeouts := p.timeouts }

/-! ### Permits -/

/-- Takes a permit, if one is free. -/
def takePermit? (p : Pool) : Option Pool :=
  if 0 < p.permits then some { p with permits := p.permits - 1 } else none

/-- A permit comes back and goes to the head of the queue. -/
def returnPermit (p : Pool) : Pool :=
  match p.queue with
  | [] => { p with permits := p.permits + 1 }
  | ticket :: rest => { p with queue := rest, granted := p.granted ++ [ticket] }

/-- A borrower joins the queue. -/
def enqueue (p : Pool) : Ticket × Pool :=
  (p.nextTicket, { p with queue := p.queue ++ [p.nextTicket], nextTicket := p.nextTicket + 1 })

/-- A borrower that was given a permit takes it. -/
def claim? (p : Pool) (ticket : Ticket) : Option Pool :=
  if ticket ∈ p.granted then some { p with granted := p.granted.erase ticket } else none

/-- A borrower gives up: it leaves the queue, or passes on the permit it was given. -/
def withdraw (p : Pool) (ticket : Ticket) : Pool :=
  match p.claim? ticket with
  | some p => p.returnPermit
  | none => { p with queue := p.queue.erase ticket }

/-! ### Idle connections -/

/-- The first healthy connection of a line, what stands behind it, and how many unhealthy ones
    stood before it. -/
def firstHealthy (healthy : Connection → Bool) :
    List Connection → Option Connection × List Connection × Nat
  | [] => (none, [], 0)
  | c :: rest =>
    if healthy c then (some c, rest, 0)
    else
      let (found, behind, before) := firstHealthy healthy rest
      (found, behind, before + 1)

/-- Takes the longest-idle healthy connection and gives up the unhealthy ones before it. -/
def takeIdle (p : Pool) (healthy : Connection → Bool) : Option Connection × Pool :=
  let (found, behind, before) := firstHealthy healthy p.idle
  (found, { p with idle := behind, discarded := p.discarded + before })

/-- Puts a connection at the end of the line, or gives it up when it is not wanted any more. -/
def shelve (p : Pool) (connection : Connection) (healthy : Bool) : Pool × Bool :=
  if p.closed || !healthy || p.config.maxIdle ≤ p.idle.length then
    ({ p with discarded := p.discarded + 1 }, false)
  else ({ p with idle := p.idle ++ [connection] }, true)

end Pool

end GraphSession
