import GraphSession.Session.Description
import GraphSession.Session.Lifecycle
import GraphSession.Session.Reading

/-!
  Results and sessions in the hands of callers that wait.

  A result is iterated over item by item: a record, a fault, or the end.  A session that is let go
  of closes itself.
-/

namespace GraphSession.Blocking

variable {ω : Type}

/-- The next item of a result; there is none at the end. -/
def nextItem (peer : Peer ω) (id : ResultId) : Act ω (Option (Except Fault Record)) := do
  match ← (next peer id).run with
  | .ok none => return none
  | .ok (some record) => return some (.ok record)
  | .error fault => return some (.error fault)

/-- The caller lets go of the session, which closes it. -/
def abandon (peer : Peer ω) : Act ω Unit := do
  if (← theSession).isOpen then close peer

/-- A session in diagnostic output. -/
def debugSession (s : Session) : String := Text.debugRecord "BlockingSession" [("session", s.debug)]

/-- A result in diagnostic output. -/
def debugResult (r : ResultView) : String :=
  Text.debugRecord "BlockingResult" [("keys", Text.debugList (r.keys.map Text.debug))]

/-- A transaction in diagnostic output. -/
def debugTransaction (t : TransactionView) : String :=
  if t.managed then Text.debugRecord "BlockingManagedTransaction" [("tx", t.debug)]
  else Text.debugRecord "BlockingTransaction" [("state", t.state.name)]

end GraphSession.Blocking
