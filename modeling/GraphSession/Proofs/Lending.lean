import GraphSession.Pool.Borrowing

/-!
  A pool at work.

  1. **The machine.**  `Lending` is a pool with the connections that its borrowers have and with its
     surroundings, which keep what the connector was asked for.  A `Dealing` is an operation of the
     pool, run to its end: a request for a connection, the return of one that is lent, a close; or
     whatever happens elsewhere, to the health of connections for one.  What the connector answers
     is up to the connector, so whatever holds of every `run` holds for every pattern of success
     and failure.

  2. **Watching (`run_unwatched`).**  The connector of the machine keeps what it was asked for.  The
     pool, what is lent and the surroundings are what the operations of the pool make of them
     without that, one after the other.

  3. **The crux (`serve_serves`).**  `Served` lists the five ways in which it can end with a
     borrower that has a permit, each with the whole pool that is left.  Everything that is said
     about a request for a connection is read off this list.
-/

namespace GraphSession

variable {ω : Type} {c : Connector ω}

/-- What the connector of a pool was asked for, with its answer. -/
inductive Contact
  | connect (answer : Except Fault Connection)
  | authenticate (connection : Connection) (token : Option AuthToken) (answer : Except Fault Unit)

/-- Surroundings of a pool with what the connector was asked for, latest first. -/
structure Watched (ω : Type) where
  world : ω
  contacts : List Contact := []

/-- A connector that answers as `c` does and keeps what it was asked for. -/
def Connector.watched (c : Connector ω) : Connector (Watched ω) where
  connect w :=
    let given := c.connect w.world
    (given.1, ⟨given.2, .connect given.1 :: w.contacts⟩)
  authenticate connection token w :=
    let given := c.authenticate connection token w.world
    (given.1, ⟨given.2, .authenticate connection token given.1 :: w.contacts⟩)
  isHealthy connection w := c.isHealthy connection w.world
  note event w := { w with world := c.note event w.world }
  now w := c.now w.world
  waitUntil due w := { w with world := c.waitUntil due w.world }

/-! ## Watching changes nothing -/

namespace Pool

/-- The end of an operation without what the connector was asked for. -/
def unwatched {α : Type} (e : α × Pool × Watched ω) : α × Pool × ω := (e.1, e.2.1, e.2.2.world)

theorem connectionFor_unwatched (c : Connector ω) (p : Pool) (w : Watched ω) :
    unwatched (connectionFor c.watched p w) = connectionFor c p w.world := by
  simp only [connectionFor, Connector.watched]
  rcases p.takeIdle (c.isHealthy · w.world) with ⟨_ | connection, q⟩
  · rcases c.connect w.world with ⟨_ | connection, w'⟩ <;> rfl
  · rfl

theorem serve_unwatched (c : Connector ω) (request : AcquireRequest) (p : Pool) (w : Watched ω) :
    unwatched (serve c.watched request p w) = serve c request p w.world := by
  simp only [serve, ← connectionFor_unwatched]
  rcases connectionFor c.watched p w with ⟨_ | connection, q, w'⟩
  · rfl
  · simp only [unwatched, Connector.watched]
    rcases c.authenticate connection request.auth w'.world with ⟨_ | _, w''⟩ <;> rfl

theorem poll_unwatched (c : Connector ω) (b : Borrower) (p : Pool) (w : Watched ω) :
    unwatched (poll c.watched b p w) = poll c b p w.world := by
  simp only [poll, ← serve_unwatched]
  split
  · rfl
  · cases p.claim? b.ticket with
    | some q => rfl
    | none =>
      by_cases late : b.due ≤ c.now w.world <;>
        simp only [Connector.watched, late, if_true, if_false] <;> rfl

theorem start_unwatched (c : Connector ω) (request : AcquireRequest) (p : Pool) (w : Watched ω) :
    unwatched (start c.watched request p w) = start c request p w.world := by
  simp only [start, ← serve_unwatched, ← poll_unwatched]
  split
  · rfl
  · cases p.takePermit? <;> rfl

/-- The pool does the same whether or not its connector is watched. -/
theorem acquire_unwatched (c : Connector ω) (request : AcquireRequest) (p : Pool) (w : Watched ω) :
    unwatched (acquire c.watched request p w) = acquire c request p w.world := by
  simp only [acquire, ← start_unwatched]
  rcases start c.watched request p w with ⟨_ | _, q, w'⟩ <;> rfl

theorem release_unwatched (c : Connector ω) (connection : Connection) (p : Pool) (w : Watched ω) :
    Prod.map id Watched.world (release c.watched connection p w) =
      release c connection p w.world := by
  simp only [release, Connector.watched]
  by_cases foreign : p.inUse = 0
  · simp only [foreign, if_true, Prod.map, id]
  · simp only [foreign, if_false]
    rcases Pool.shelve _ connection (c.isHealthy connection w.world) with ⟨q, _ | _⟩ <;> rfl

theorem close_unwatched (c : Connector ω) (p : Pool) (w : Watched ω) :
    Prod.map id Watched.world (close c.watched p w) = close c p w.world := rfl

end Pool

/-! ## Serving a borrower -/

namespace Pool

/-- Either the line has a healthy connection, with only unhealthy ones before it, or it has none. -/
theorem firstHealthy_cases (healthy : Connection → Bool) (line : List Connection) :
    (∃ sick connection behind, line = sick ++ connection :: behind ∧
      (∀ x ∈ sick, healthy x = false) ∧ healthy connection = true ∧
      firstHealthy healthy line = (some connection, behind, sick.length)) ∨
    (∀ x ∈ line, healthy x = false) ∧ firstHealthy healthy line = (none, [], line.length) := by
  induction line with
  | nil => exact .inr ⟨by simp, rfl⟩
  | cons first rest ih =>
    by_cases hf : healthy first = true
    · exact .inl ⟨[], first, rest, rfl, by simp, hf, by simp [firstHealthy, hf]⟩
    · obtain ⟨sick, connection, behind, rfl, ill, well, found⟩ | ⟨ill, none⟩ := ih
      · exact .inl ⟨first :: sick, connection, behind, rfl, by simpa [hf] using ill, well,
          by simp [firstHealthy, hf, found]⟩
      · exact .inr ⟨by simpa [hf] using ill, by simp [firstHealthy, hf, none]⟩

/-- The pool when this many of its idle connections were given up and these are left in line. -/
def thin (p : Pool) (behind : List Connection) (before : Nat) : Pool :=
  { p with idle := behind, discarded := p.discarded + before }

theorem takeIdle_cases (p : Pool) (healthy : Connection → Bool) :
    (∃ sick connection behind, p.idle = sick ++ connection :: behind ∧
      (∀ x ∈ sick, healthy x = false) ∧ healthy connection = true ∧
      p.takeIdle healthy = (some connection, p.thin behind sick.length)) ∨
    (∀ x ∈ p.idle, healthy x = false) ∧
      p.takeIdle healthy = (none, p.thin [] p.idle.length) := by
  obtain ⟨sick, connection, behind, line, ill, well, found⟩ | ⟨ill, none⟩ :=
    firstHealthy_cases healthy p.idle
  · exact .inl ⟨sick, connection, behind, line, ill, well, by simp only [takeIdle, found, thin]⟩
  · exact .inr ⟨ill, by simp only [takeIdle, none, thin]⟩

/-- The pool after a connection was handed to a borrower. -/
def handOut (p : Pool) : Pool := { p with inUse := p.inUse + 1, acquisitions := p.acquisitions + 1 }

/-- The ways in which it ends with a borrower that has a permit: what was asked of the connector,
    latest first, what the borrower gets, and the pool that is left. -/
inductive Served (token : Option AuthToken) (p : Pool) :
    List Contact → Except Fault Connection → Pool → Prop
  /-- It gets a connection that was idle. -/
  | again {sick behind : List Connection} {connection : Connection}
    (line : p.idle = sick ++ connection :: behind) :
    Served token p [.authenticate connection token (.ok ())] (.ok connection)
      (p.thin behind sick.length).handOut
  /-- The connection that was idle does not authenticate. -/
  | againInVain {sick behind : List Connection} {connection : Connection} {fault : Fault}
    (line : p.idle = sick ++ connection :: behind) :
    Served token p [.authenticate connection token (.error fault)] (.error fault)
      (p.thin behind sick.length).returnPermit
  /-- It gets a new connection, because no idle one was healthy. -/
  | anew {connection : Connection} :
    Served token p [.authenticate connection token (.ok ()), .connect (.ok connection)]
      (.ok connection)
      { p.thin [] p.idle.length with created := p.created + 1 }.handOut
  /-- The new connection does not authenticate. -/
  | anewInVain {connection : Connection} {fault : Fault} :
    Served token p [.authenticate connection token (.error fault), .connect (.ok connection)]
      (.error fault)
      { p.thin [] p.idle.length with created := p.created + 1 }.returnPermit
  /-- There is no new connection. -/
  | unconnected {fault : Fault} :
    Served token p [.connect (.error fault)] (.error fault)
      (p.thin [] p.idle.length).returnPermit

/-- Serving a borrower ends in one of the listed ways. -/
theorem serve_serves (c : Connector ω) (request : AcquireRequest) (p : Pool) (w : Watched ω) :
    ∃ contacts outcome q w', serve c.watched request p w = (outcome, q, w') ∧
      Served request.auth p contacts outcome q ∧ w'.contacts = contacts ++ w.contacts := by
  rw [serve, connectionFor]
  obtain ⟨sick, connection, behind, line, -, -, taken⟩ | ⟨-, none⟩ :=
    p.takeIdle_cases (c.watched.isHealthy · w)
  · rw [taken]
    cases auth : (c.authenticate connection request.auth w.world).1 with
    | ok _ =>
      exact ⟨_, _, _, _, by simp only [Connector.watched, auth]; rfl, .again line, rfl⟩
    | error fault =>
      exact ⟨_, _, _, _, by simp only [Connector.watched, auth]; rfl, .againInVain line, rfl⟩
  · rw [none]
    cases new : (c.connect w.world).1 with
    | error fault =>
      exact ⟨_, _, _, _, by simp only [Connector.watched, new]; rfl, .unconnected, rfl⟩
    | ok connection =>
      cases auth : (c.authenticate connection request.auth (c.connect w.world).2).1 with
      | ok _ => exact ⟨_, _, _, _, by simp only [Connector.watched, new, auth]; rfl, .anew, rfl⟩
      | error fault =>
        exact ⟨_, _, _, _, by simp only [Connector.watched, new, auth]; rfl, .anewInVain, rfl⟩

end Pool

/-! ## The machine -/

/-- A pool at work. -/
structure Lending (ω : Type) where
  pool : Pool
  /-- The connections that borrowers have. -/
  lent : List Connection := []
  around : Watched ω

namespace Lending

/-- A pool that nobody has used. -/
def fresh (config : PoolConfig) (w : ω) : Lending ω :=
  { pool := .ofConfig config, around := ⟨w, []⟩ }

/-- A borrower asks for a connection and keeps what it gets. -/
def acquire (c : Connector ω) (request : AcquireRequest) (l : Lending ω) :
    Except Fault Connection × Lending ω :=
  let (outcome, pool, around) := l.pool.acquire c.watched request l.around
  (outcome, { pool, lent := outcome.toOption.toList ++ l.lent, around })

/-- A borrower gives a connection back. -/
def giveBack (c : Connector ω) (connection : Connection) (l : Lending ω) : Lending ω :=
  let (pool, around) := l.pool.release c.watched connection l.around
  { pool, lent := l.lent.erase connection, around }

def close (c : Connector ω) (l : Lending ω) : Lending ω :=
  let (pool, around) := l.pool.close c.watched l.around
  { l with pool, around }

end Lending

/-- An operation on a pool, or something that happens elsewhere. -/
inductive Dealing (ω : Type)
  | acquire (request : AcquireRequest)
  | giveBack (connection : Connection)
  | close
  | elsewhere (change : ω → ω)

/-- What a dealing does with a pool that nobody watches, with what is lent and with the
    surroundings. -/
def Dealing.perform (c : Connector ω) :
    Dealing ω → Pool × List Connection × ω → Pool × List Connection × ω
  | .acquire request, (p, lent, w) =>
    let (outcome, p, w) := p.acquire c request w
    (p, outcome.toOption.toList ++ lent, w)
  | .giveBack connection, (p, lent, w) =>
    if connection ∈ lent then
      let (p, w) := p.release c connection w
      (p, lent.erase connection, w)
    else (p, lent, w)
  | .close, (p, lent, w) =>
    let (p, w) := p.close c w
    (p, lent, w)
  | .elsewhere change, (p, lent, w) => (p, lent, change w)

namespace Lending

/-- The pool after one dealing.  Only what was lent comes back. -/
def after (c : Connector ω) (l : Lending ω) : Dealing ω → Lending ω
  | .acquire request => (l.acquire c request).2
  | .giveBack connection => if connection ∈ l.lent then l.giveBack c connection else l
  | .close => l.close c
  | .elsewhere change => { l with around := { l.around with world := change l.around.world } }

/-- The pool after one dealing after another. -/
def run (c : Connector ω) (l : Lending ω) (dealings : List (Dealing ω)) : Lending ω :=
  dealings.foldl (after c) l

/-- What every dealing keeps is true after all of them. -/
theorem run_keeps {P : Lending ω → Prop} (step : ∀ l d, P l → P (l.after c d))
    (dealings : List (Dealing ω)) {l : Lending ω} (h : P l) : P (l.run c dealings) := by
  induction dealings generalizing l with
  | nil => exact h
  | cons d rest ih => exact ih (step l d h)

/-- The pool, what is lent and the surroundings, without what the connector was asked for. -/
def unwatched (l : Lending ω) : Pool × List Connection × ω := (l.pool, l.lent, l.around.world)

theorem after_unwatched (c : Connector ω) (l : Lending ω) (d : Dealing ω) :
    (l.after c d).unwatched = d.perform c l.unwatched := by
  cases d with
  | acquire request =>
    simp only [unwatched, Dealing.perform, ← Pool.acquire_unwatched]
    rfl
  | giveBack connection =>
    simp only [unwatched, Dealing.perform, ← Pool.release_unwatched]
    by_cases mine : connection ∈ l.lent
    · simp only [after, mine, if_true]
      rfl
    · simp only [after, mine, if_false]
  | close =>
    simp only [unwatched, Dealing.perform, ← Pool.close_unwatched]
    rfl
  | elsewhere change => rfl

/-- The machine does with the pool what its operations do. -/
theorem run_unwatched (c : Connector ω) (l : Lending ω) (dealings : List (Dealing ω)) :
    (l.run c dealings).unwatched = dealings.foldl (fun s d => d.perform c s) l.unwatched := by
  induction dealings generalizing l with
  | nil => rfl
  | cons d rest ih =>
    show ((l.after c d).run c rest).unwatched = _
    rw [ih, after_unwatched, List.foldl_cons]

/-! ## How a request for a connection ends -/

/-- A closed pool lends nothing, and the request leaves no trace. -/
theorem acquire_closed (c : Connector ω) (request : AcquireRequest) {l : Lending ω}
    (closed : l.pool.closed = true) :
    l.acquire c request = (.error .poolClosed, l) := by
  simp [acquire, Pool.acquire, Pool.start, closed, Except.toOption]

/-- Who finds a free permit is served. -/
theorem acquire_served (c : Connector ω) (request : AcquireRequest) {l : Lending ω} {p : Pool}
    (opened : l.pool.closed = false) (free : l.pool.takePermit? = some p) :
    ∃ contacts outcome q w,
      l.acquire c request = (outcome, ⟨q, outcome.toOption.toList ++ l.lent, w⟩) ∧
      Pool.Served request.auth p contacts outcome q ∧
      w.contacts = contacts ++ l.around.contacts := by
  obtain ⟨contacts, outcome, q, w, served, ends, asked⟩ := Pool.serve_serves c request p l.around
  refine ⟨contacts, outcome, q, w, ?_, ends, asked⟩
  simp only [acquire, Pool.acquire, Pool.start, opened, free, served, Bool.false_eq_true, if_false]

/-- Who finds no permit, and nobody else waiting, is sent away when the time is over. -/
theorem acquire_exhausted (c : Connector ω) (request : AcquireRequest) {l : Lending ω}
    (opened : l.pool.closed = false) (none : l.pool.permits = 0) (line : l.pool.queue = [])
    (granted : l.pool.granted = []) :
    ∃ w, l.acquire c request =
        (.error (.poolExhausted (request.timeout.getD l.pool.config.acquisitionTimeout).text),
          ⟨{ l.pool with
              nextTicket := l.pool.nextTicket + 1, timeouts := l.pool.timeouts + 1 }, l.lent, w⟩) ∧
      w.contacts = l.around.contacts := by
  -- the time may be over at once, or the borrower waits for it
  by_cases late : Clock.ringsAt (c.now l.around.world)
      (request.timeout.getD l.pool.config.acquisitionTimeout) ≤ c.now l.around.world
  · refine ⟨l.around, ?_, rfl⟩
    simp [acquire, Pool.acquire, Pool.start, Pool.poll, opened, Pool.takePermit?, none,
      Pool.enqueue, Pool.claim?, granted, line, Connector.watched, late, Pool.expire, Pool.withdraw,
      Except.toOption]
  · refine ⟨c.watched.waitUntil (Clock.ringsAt (c.now l.around.world)
      (request.timeout.getD l.pool.config.acquisitionTimeout)) l.around, ?_, rfl⟩
    simp [acquire, Pool.acquire, Pool.start, Pool.poll, opened, Pool.takePermit?, none,
      Pool.enqueue, Pool.claim?, granted, line, Connector.watched, late, Pool.expire, Pool.withdraw,
      Except.toOption]

/-! ## How the other operations end -/

/-- A connection that comes back frees its permit; it joins the line, or is given up. -/
theorem giveBack_cases (c : Connector ω) (connection : Connection) {l : Lending ω}
    (lent : l.pool.inUse ≠ 0) (line : l.pool.queue = []) :
    ∃ q w, l.giveBack c connection = ⟨q, l.lent.erase connection, w⟩ ∧
      w.contacts = l.around.contacts ∧
      (l.pool.closed = false ∧ l.pool.idle.length < l.pool.config.maxIdle ∧
          q = { l.pool with
            idle := l.pool.idle ++ [connection], inUse := l.pool.inUse - 1,
            permits := l.pool.permits + 1 } ∨
        q = { l.pool with
          discarded := l.pool.discarded + 1, inUse := l.pool.inUse - 1,
          permits := l.pool.permits + 1 }) := by
  by_cases given : (l.pool.closed || !c.watched.isHealthy connection l.around ||
      decide (l.pool.config.maxIdle ≤ l.pool.idle.length)) = true
  · refine ⟨_, l.around, ?_, rfl, .inr rfl⟩
    simp only [giveBack, Pool.release, lent, if_false, Pool.returnPermit, line, Pool.shelve, given,
      if_true]
  · refine ⟨_, c.watched.note (.poolTookBack (l.pool.idle ++ [connection]).length) l.around, ?_,
      rfl, .inl ⟨?_, ?_, rfl⟩⟩
    · simp only [giveBack, Pool.release, lent, if_false, Pool.returnPermit, line, Pool.shelve,
        given, Bool.false_eq_true]
    · simp_all
    · simp_all

theorem close_eq (c : Connector ω) (l : Lending ω) :
    ∃ w, l.close c =
        ⟨{ l.pool with
            closed := true, queue := [], idle := [],
            discarded := l.pool.discarded + l.pool.idle.length }, l.lent, w⟩ ∧
      w.contacts = l.around.contacts :=
  ⟨_, rfl, rfl⟩

end Lending

end GraphSession
