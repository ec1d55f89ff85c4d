import GraphSession.Session.Execute

/-!
  Transaction functions of callers that wait.

  A caller that blocks drives the series of attempts itself, one step at a time: a step makes one
  attempt and, when it failed, either waits or ends the series.  `Progress` is what the caller
  knows between two steps.
-/

namespace GraphSession.Blocking

variable {ω α : Type}

/-- How far a series of attempts has come. -/
inductive Progress (α : Type)
  /-- Another attempt is due; the function has been called this often. -/
  | trying (calls : Nat) (backoff : Backoff)
  | finished (outcome : Except Fault α)

/-- The outcome, once there is one. -/
def Progress.outcome? : Progress α → Option (Except Fault α)
  | trying .. => none
  | finished outcome => some outcome

/-- Waits after a failed attempt, or ends the series. -/
def afterFailure (peer : Peer ω) (calls : Nat) (backoff : Backoff) (fault : Fault) :
    Act ω (Progress α) := do
  match ← decide peer backoff fault with
  | (.giveUp fault, _) => return .finished (.error fault)
  | (.retryAfter delay, backoff) =>
    note peer (.retryScheduled backoff.attempts delay)
    ask peer (.sleep delay)
    return .trying calls backoff

/-- One step of a series: an attempt and what follows it. -/
def step (peer : Peer ω) (options : ExecuteOptions) (work : TransactionFunction ω α) :
    Progress α → Act ω (Progress α)
  | .finished outcome => return .finished outcome
  | .trying calls backoff => do
    match ← (openTransaction peer options.mode options.api options.config .session).run with
    | .error fault => afterFailure peer calls backoff fault
    | .ok id =>
      let outcome ← ((work calls id).perform peer).run
      match ← (settle peer id outcome).run with
      | .ok a => return .finished (.ok a)
      | .error fault => afterFailure peer (calls + 1) backoff fault

/-- As many steps as the caller has patience for, or fewer when the series is over before. -/
def drive (peer : Peer ω) (options : ExecuteOptions) (work : TransactionFunction ω α) :
    (patience : Nat) → Progress α → Act ω (Progress α)
  | 0, progress => return progress
  | patience + 1, .trying calls backoff => do
    drive peer options work patience (← step peer options work (.trying calls backoff))
  | _ + 1, .finished outcome => return .finished outcome

/-- The start of a series; it may be over before the first attempt. -/
def begin (peer : Peer ω) : Act ω (Progress α) := do
  match ← (prepareExecute peer).run with
  | .error fault => return .finished (.error fault)
  | .ok () =>
    let now ← ask peer .readClock
    return .trying 0 (.start (← theSession).config.retry now)

/-- Runs a transaction function.  There is no outcome when the patience ends first. -/
def execute (peer : Peer ω) (mode : AccessMode) (config : TransactionConfig) (patience : Nat)
    (work : TransactionFunction ω α) : Act ω (Option (Except Fault α)) := do
  let start ← begin peer
  return (← drive peer { mode, config } work patience start).outcome?

end GraphSession.Blocking
