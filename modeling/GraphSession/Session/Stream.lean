import GraphSession.Session.Target

/-!
  The stream of a result.

  A query starts a stream of records on the connection, and pulls bring them in batches.  The last
  batch, or a discard of what is left, brings the metadata of the end: an auto-commit result then
  takes in its bookmark and ends its unit of work.  When the connection fails, the result keeps the
  text of the fault, and its unit of work is over or its transaction failed.

  The loops end because every pull that leaves records behind lowers the peer's backlog.
-/

namespace GraphSession

variable {ω : Type}

/-- Marks a transaction as failed, unless something worse has happened to it. -/
def markFailed {m : Type → Type} [Monad m] [MonadState (State ω) m] (id : TransactionId) : m Unit :=
  changeTransaction id fun t => if t.state = .active then { t with state := .failed } else t

/-- The unit of work behind a result failed. -/
def abortOrigin (peer : Peer ω) : Origin → Act ω Unit
  | .autoCommit .. => abortUnit peer
  | .transaction id => markFailed id

/-- The unit of work behind a result is complete.  A failing report to the bookmark manager is the
    outcome, though the unit has ended. -/
def completeOrigin (peer : Peer ω) (summary : Summary) : Origin → Op ω Unit
  | .autoCommit sent pins => do
    if pins then pinDatabase peer summary.database
    let reported ← attempt (takeBookmark? peer sent summary.bookmark)
    endUnit peer
    settleOn reported
  | .transaction _ => pure ()

/-- The stream of a result ended well. -/
def finishStream (peer : Peer ω) (id : ResultId) (metadata : Metadata) : Op ω Unit := do
  let r := (← theSession).result id
  let summary := Summary.ofMetadata r.query r.server r.startMetadata metadata
  changeResult id ({ · with stream := .finished summary })
  completeOrigin peer summary r.origin

/-- The stream of a result failed. -/
def failStream (peer : Peer ω) (id : ResultId) (fault : Fault) : Act ω Unit := do
  let r := (← theSession).result id
  changeResult id ({ · with stream := .failed fault.text })
  abortOrigin peer r.origin

/-- Pulls one batch into the buffer of a result that is streaming.  The answer tells whether there
    is more. -/
def fetch (peer : Peer ω) (id : ResultId) : Op ω Bool := do
  match ← attempt (pullHeld peer id) with
  | .error fault =>
    failStream peer id fault
    throw fault
  | .ok batch =>
    changeResult id fun r => { r with buffer := r.buffer ++ batch.records.map (Record.mk r.keys) }
    if batch.more then return true
    finishStream peer id batch.metadata
    return false

/-- A fetch that promises more has lowered the backlog. -/
theorem backlog_lt_of_fetch {peer : Peer ω} {id : ResultId} {s t : State ω}
    (h : Op.exec (fetch peer id) s = (.ok true, t)) :
    peer.backlog t.world < peer.backlog s.world := by
  rw [fetch, Op.exec_bind, Op.exec_attempt] at h
  rcases hp : Op.exec (pullHeld peer id) s with ⟨_ | batch, u⟩
  · simp [hp, Op.exec_bind, Op.exec_lift, Op.exec_throw] at h
  · simp only [hp, changeResult, Op.exec_bind, Op.exec_changeSession] at h
    split at h
    · next more =>
      have ht := (Prod.mk.inj h).2
      subst ht
      exact (backlog_lt_of_pullHeld hp more).2
    · -- the end of the stream promises nothing
      rw [Op.exec_bind] at h
      split at h <;> cases h

/-- Whether a result has no record at hand. -/
def Result.isDry (r : Result) : Bool := r.buffer.isEmpty

/-- Drops what is left on the server of a result that is streaming. -/
def discardRest (peer : Peer ω) (id : ResultId) : Op ω Unit := do
  if ((← theSession).result id).isStreaming then
    match ← attempt (discardHeld peer id) with
    | .error fault =>
      failStream peer id fault
      throw fault
    | .ok metadata => finishStream peer id metadata

/-- Runs a query on the connection and pulls the first batch. -/
def startResult (peer : Peer ω) (request : RunRequest) (origin : Origin) : Op ω ResultId := do
  let s ← theSession
  let server := s.connection.map Connection.server
  match ← attempt (runHeld peer s.nextResult request) with
  | .error fault =>
    abortOrigin peer origin
    throw fault
  | .ok reply =>
    if origin.pins then pinDatabase peer reply.database
    let query : Query :=
      { text := request.query
        parameters := request.parameters
        metadata := request.work.metadata
        timeout := request.work.timeout }
    let id ← addResult
      { query, keys := reply.keys, server, startMetadata := reply.metadata, origin }
    let _ ← fetch peer id
    return id

end GraphSession
