import GraphSession.Fault.Wording
import GraphSession.Pool.Basic

/-!
  Borrowing from a pool, and giving back.

  A borrower first gets hold of a permit and then of a connection: the longest-idle one that is
  healthy, or a new one.  The connection is authenticated anew as the request wants.  A borrower
  that fails on the way returns its permit; what it gets counts as lent until it comes back.

  `start` and `poll` look at the request of a borrower once; in between it may wait.  Each look
  checks first whether the pool is closed, then whether there is a permit, then whether the time is
  over.  `acquire` waits to the end.
-/

namespace GraphSession

variable {ω : Type}

/-- What a pool needs from its surroundings. -/
structure Connector (ω : Type) where
  connect : ω → Except Fault Connection × ω
  /-- Authenticates a connection; `none` asks for its own authentication. -/
  authenticate : Connection → Option AuthToken → ω → Except Fault Unit × ω
  isHealthy : Connection → ω → Bool
  note : Event → ω → ω
  now : ω → Instant
  /-- Lets time pass until a timer rings. -/
  waitUntil : Instant → ω → ω

/-- A borrower that waits for a permit. -/
structure Borrower where
  ticket : Ticket
  request : AcquireRequest
  timeout : Duration
  /-- When the time to wait is over. -/
  due : Instant

/-- What a look at a request finds. -/
inductive Look
  | ready (outcome : Except Fault Connection)
  | waiting (borrower : Borrower)

namespace Pool

/-- Finds a connection for a borrower that took a permit. -/
def connectionFor (c : Connector ω) (p : Pool) (w : ω) : Except Fault Connection × Pool × ω :=
  match p.takeIdle (c.isHealthy · w) with
  | (some connection, p) => (.ok connection, p, w)
  | (none, p) =>
    match c.connect w with
    | (.ok connection, w) => (.ok connection, { p with created := p.created + 1 }, w)
    | (.error fault, w) => (.error fault, p, w)

/-- Serves a borrower that took a permit. -/
def serve (c : Connector ω) (request : AcquireRequest) (p : Pool) (w : ω) :
    Except Fault Connection × Pool × ω :=
  match connectionFor c p w with
  | (.error fault, p, w) => (.error fault, p.returnPermit, w)
  | (.ok connection, p, w) =>
    match c.authenticate connection request.auth w with
    | (.error fault, w) => (.error fault, p.returnPermit, w)
    | (.ok (), w) =>
      let p := { p with inUse := p.inUse + 1, acquisitions := p.acquisitions + 1 }
      (.ok connection, p, c.note (.poolLent request.mode request.database) w)

/-- The time of a borrower is over. -/
def expire (b : Borrower) (p : Pool) : Fault × Pool :=
  (.poolExhausted b.timeout.text, { p.withdraw b.ticket with timeouts := p.timeouts + 1 })

/-- Looks at the request of a borrower that waits. -/
def poll (c : Connector ω) (b : Borrower) (p : Pool) (w : ω) : Look × Pool × ω :=
  if p.closed then (.ready (.error .poolClosed), p.withdraw b.ticket, w)
  else match p.claim? b.ticket with
    | some p =>
      let (outcome, p, w) := serve c b.request p w
      (.ready outcome, p, w)
    | none =>
      if b.due ≤ c.now w then
        let (fault, p) := expire b p
        (.ready (.error fault), p, w)
      else (.waiting b, p, w)

/-- Looks at a request for the first time. -/
def start (c : Connector ω) (request : AcquireRequest) (p : Pool) (w : ω) : Look × Pool × ω :=
  if p.closed then (.ready (.error .poolClosed), p, w)
  else match p.takePermit? with
    | some p =>
      let (outcome, p, w) := serve c request p w
      (.ready outcome, p, w)
    | none =>
      let (ticket, p) := p.enqueue
      let timeout := request.timeout.getD p.config.acquisitionTimeout
      poll c { ticket, request, timeout, due := Clock.ringsAt (c.now w) timeout } p w

/-- Borrows a connection; waits for a permit until the time is over. -/
def acquire (c : Connector ω) (request : AcquireRequest) (p : Pool) (w : ω) :
    Except Fault Connection × Pool × ω :=
  match start c request p w with
  | (.ready outcome, p, w) => (outcome, p, w)
  | (.waiting b, p, w) =>
    -- nobody else acts meanwhile, so the time runs out
    let (fault, p) := expire b p
    (.error fault, p, c.waitUntil b.due w)

/-- A connection comes back.  The pool wants only what it lent. -/
def release (c : Connector ω) (connection : Connection) (p : Pool) (w : ω) : Pool × ω :=
  if p.inUse = 0 then (p, c.note .poolRefusedForeign w)
  else
    let p := { p with inUse := p.inUse - 1 }.returnPermit
    match p.shelve connection (c.isHealthy connection w) with
    | (p, true) => (p, c.note (.poolTookBack p.idle.length) w)
    | (p, false) => (p, w)

/-- Closes the pool: whoever waits is sent away, and idle connections are given up. -/
def close (c : Connector ω) (p : Pool) (w : ω) : Pool × ω :=
  let drained := p.idle.length
  let p := { p with closed := true, queue := [], idle := [], discarded := p.discarded + drained }
  (p, c.note (.poolClosed drained) w)

end Pool

end GraphSession
