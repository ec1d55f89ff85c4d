import GraphSession.Session.Stream

/-!
  Reading a result.

  Records come out in the order in which the server sent them.  `next` and `peek` fetch until there
  is a record at hand, `collect` reads to the end, `single` wants exactly one record and drops the
  rest, `consume` drops everything that is left and gives the summary.  A result that failed, was
  consumed, or lost its transaction gives no records.
-/

namespace GraphSession

variable {ω : Type}

/-- Pulls batches while the stream is open and `hungry` wants more: the outcome, and the state. -/
def fetchFrom (peer : Peer ω) (id : ResultId) (hungry : Result → Bool) (s : State ω) :
    Except Fault Unit × State ω :=
  let r := s.session.result id
  if r.isStreaming && hungry r then
    match _h : Op.exec (fetch peer id) s with
    | (.ok true, t) => fetchFrom peer id hungry t
    | (.ok false, t) => (.ok (), t)
    | (.error fault, t) => (.error fault, t)
  else (.ok (), s)
termination_by peer.backlog s.world
decreasing_by exact backlog_lt_of_fetch _h

/-- Pulls batches while the stream is open and `hungry` wants more. -/
def fetchWhile (peer : Peer ω) (id : ResultId) (hungry : Result → Bool) : Op ω Unit :=
  fetchFrom peer id hungry

/-- Fetches whatever is left. -/
def bufferAll (peer : Peer ω) (id : ResultId) : Op ω Unit := fetchWhile peer id fun _ => true

/-- Fails when no record can be read. -/
def checkUsable {m : Type → Type} [Monad m] [MonadState (State ω) m] [MonadExcept Fault m]
    (id : ResultId) : m Unit := do
  match ((← theSession).result id).unusable? with
  | some fault => throw fault
  | none => pure ()

/-- The next record, which stays where it is. -/
def peek (peer : Peer ω) (id : ResultId) : Op ω (Option Record) := do
  checkUsable id
  fetchWhile peer id Result.isDry
  return ((← theSession).result id).buffer.head?

/-- The next record. -/
def next (peer : Peer ω) (id : ResultId) : Op ω (Option Record) := do
  let record ← peek peer id
  changeResult id fun r => { r with buffer := r.buffer.tail }
  return record

/-- The state after all records at hand were handed out. -/
def State.emptied (s : State ω) (id : ResultId) : State ω :=
  { s with session := s.session.setResult id { s.session.result id with buffer := [] } }

/-- Handing records out leaves every stream. -/
theorem State.emptied_isStreaming (s : State ω) (id other : ResultId) :
    ((s.emptied id).session.result other).isStreaming = (s.session.result other).isStreaming := by
  simp only [State.emptied, Session.result_setResult_eq]
  split
  · next e => rw [e.1]; rfl
  · rfl

/-- Reads on after `read`: all records that were handed out, the fault that stopped the reading if
    one did, and the state.  Records are handed out before the next batch is fetched, so a failing
    fetch loses none of them to the buffer. -/
def drainFrom (peer : Peer ω) (id : ResultId) (read : List Record) (s : State ω) :
    (List Record × Option Fault) × State ω :=
  let r := s.session.result id
  let read := read ++ r.buffer
  if r.isStreaming then
    match _h : Op.exec (fetch peer id) (s.emptied id) with
    | (.ok true, t) => drainFrom peer id read t
    | (.ok false, t) => ((read ++ (t.session.result id).buffer, none), t.emptied id)
    | (.error fault, t) => ((read, some fault), t)
  else ((read, none), s.emptied id)
termination_by peer.backlog s.world
decreasing_by exact backlog_lt_of_fetch (s := s.emptied id) _h

/-- Reads to the end: the records, and the fault that stopped the reading if one did. -/
def drain (peer : Peer ω) (id : ResultId) : Act ω (List Record × Option Fault) := do
  match ((← theSession).result id).unusable? with
  | some fault => return ([], some fault)
  | none => drainFrom peer id []

/-- All records that are left. -/
def collect (peer : Peer ω) (id : ResultId) : Op ω (List Record) := do
  match ← drain peer id with
  | (records, none) => return records
  | (_, some fault) => throw fault

/-- The only record that is left.  Two records are read to tell, and the rest is dropped. -/
def single (peer : Peer ω) (id : ResultId) : Op ω Record := do
  let first ← next peer id
  let second ← if first.isSome then next peer id else pure none
  discardRest peer id
  match first, second with
  | some record, none => return record
  | none, _ => throw .noRecord
  | some _, some _ => throw .manyRecords

/-- Drops the records that are left and gives the summary. -/
def consume (peer : Peer ω) (id : ResultId) : Op ω Summary := do
  let r := (← theSession).result id
  failIf r.scopeFault?
  match r.consumed, r.stream.summary? with
  | true, some summary => return summary
  | _, _ =>
    discardRest peer id
    changeResult id ({ · with buffer := [], consumed := true })
    match ((← theSession).result id).stream with
    | .finished summary => return summary
    | .failed reason => throw (.resultFailed reason)
    | _ => throw .noSummary

/-- The transaction of a result commits: what is left on the server is dropped, and the result is
    out of scope even if that fails. -/
def endResult (peer : Peer ω) (id : ResultId) : Op ω Unit := do
  let discarded ← attempt (discardRest peer id)
  changeResult id ({ · with buffer := [], outOfScope := some .committed })
  settleOn discarded

/-- The transaction of a result is rolled back, which ends the stream on the server as well. -/
def abandonResult {m : Type → Type} [Monad m] [MonadState (State ω) m] (id : ResultId) : m Unit :=
  changeResult id fun r =>
    { r with
      stream := if r.isStreaming then .abandoned else r.stream
      buffer := []
      outOfScope := some .closed }

end GraphSession
