import GraphSession.Session.Act

/-!
  Units of work and the connection they share.

  A unit begins before it needs the connection and ends when it is done with it.  A unit that failed
  resets the connection first, so that whoever borrows it next finds it clean; a failing reset is
  only noted.  The last unit to end returns the connection to the pool.
-/

namespace GraphSession

variable {ω : Type}

/-- Returns the connection to the pool, if the session holds one. -/
def releaseConnection (peer : Peer ω) : Act ω Unit := do
  match (← theSession).connection with
  | none => pure ()
  | some connection =>
    changeSession ({ · with connection := none })
    giveBack peer connection
    note peer .connectionReleased

/-- One more unit needs the connection. -/
def beginUnit {m : Type → Type} [Monad m] [MonadState (State ω) m] : m Unit :=
  changeSession fun s => { s with units := s.units + 1 }

/-- A unit is done with the connection. -/
def endUnit (peer : Peer ω) : Act ω Unit := do
  changeSession fun s => { s with units := s.units - 1 }
  if (← theSession).units = 0 then releaseConnection peer

/-- A unit failed: its connection is reset before the unit ends. -/
def abortUnit (peer : Peer ω) : Act ω Unit := do
  match (← theSession).connection with
  | none => pure ()
  | some connection =>
    match ← (send peer connection .session .reset).run with
    | .ok _ => pure ()
    | .error fault => note peer (.resetFailed fault)
  endUnit peer

/-- No unit needs the connection any more. -/
def endAllUnits (peer : Peer ω) : Act ω Unit := do
  changeSession ({ · with units := 0 })
  releaseConnection peer

end GraphSession
