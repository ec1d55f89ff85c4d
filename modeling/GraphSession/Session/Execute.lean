import GraphSession.Session.Begin
import GraphSession.Session.Work

/-!
  Transaction functions.

  A transaction function is tried until its transaction commits: each attempt opens a transaction,
  does the work and settles it.  A failure that another attempt may get past is waited out for the
  time that the back-off gives; any other failure, or one after the deadline, is the outcome.

  Nothing bounds the number of attempts, so a series is run with a patience: the number of attempts
  after which nobody waits for it any longer.  An outcome that was reached does not depend on the
  patience.
-/

namespace GraphSession

variable {ω α : Type}

/-- The code of a transaction function: what it does when it is called for the first time, the
    second time and so on, given its transaction. -/
abbrev TransactionFunction (ω α : Type) := Nat → TransactionId → Work ω α

/-- How a transaction function is run. -/
structure ExecuteOptions where
  mode : AccessMode
  api : ApiKind := .transactionFunction
  config : TransactionConfig := {}

/-- Checks and settles what must be over before a transaction function may start. -/
def prepareExecute (peer : Peer ω) : Op ω Unit := do
  checkOpen
  reapTransaction peer
  bufferAutoResult peer

/-- One attempt: its outcome, and how often the function has been called then. -/
def attemptOnce (peer : Peer ω) (options : ExecuteOptions) (work : TransactionFunction ω α)
    (calls : Nat) : Act ω (Except Fault α × Nat) := do
  match ← (openTransaction peer options.mode options.api options.config .session).run with
  | .error fault => return (.error fault, calls)
  | .ok id =>
    let outcome ← ((work calls id).perform peer).run
    return (← (settle peer id outcome).run, calls + 1)

/-- What to do after a failed attempt, by the clock of now. -/
def decide (peer : Peer ω) (backoff : Backoff) (fault : Fault) : Act ω (Decision × Backoff) := do
  let now ← ask peer .readClock
  let sample ← ask peer .drawSample
  return backoff.onFailure now sample fault

/-- Attempts until there is an outcome, at most `patience` of them. -/
def attemptFrom (peer : Peer ω) (options : ExecuteOptions) (work : TransactionFunction ω α) :
    (patience : Nat) → (calls : Nat) → Backoff → Act ω (Option (Except Fault α))
  | 0, _, _ => return none
  | patience + 1, calls, backoff => do
    let (outcome, calls) ← attemptOnce peer options work calls
    match outcome with
    | .ok a => return some (.ok a)
    | .error fault =>
      match ← decide peer backoff fault with
      | (.giveUp fault, _) => return some (.error fault)
      | (.retryAfter delay, backoff) =>
        note peer (.retryScheduled backoff.attempts delay)
        ask peer (.sleep delay)
        attemptFrom peer options work patience calls backoff

/-- Runs a transaction function.  There is no outcome when the patience ends first. -/
def executeWith (peer : Peer ω) (options : ExecuteOptions) (patience : Nat)
    (work : TransactionFunction ω α) : Act ω (Option (Except Fault α)) := do
  match ← (prepareExecute peer).run with
  | .error fault => return some (.error fault)
  | .ok () =>
    let now ← ask peer .readClock
    attemptFrom peer options work patience 0 (.start (← theSession).config.retry now)

/-- Runs a transaction function that only reads, or one that writes. -/
def execute (peer : Peer ω) (mode : AccessMode) (config : TransactionConfig) (patience : Nat)
    (work : TransactionFunction ω α) : Act ω (Option (Except Fault α)) :=
  executeWith peer { mode, config } patience work

/-- The same under its former name, which the journal is told. -/
def executeRenamed (peer : Peer ω) (mode : AccessMode) (patience : Nat)
    (work : TransactionFunction ω α) : Act ω (Option (Except Fault α)) := do
  note peer (.executeRenamed mode)
  execute peer mode {} patience work

/-- A result that was read in one go. -/
structure EagerResult where
  keys : List String
  records : List Record
  summary : Summary
  deriving Inhabited

/-- Work that runs a query, reads its records and then its summary. -/
def Work.eager (id : TransactionId) (source : QuerySource) (params : Option Params) :
    Work ω EagerResult := do
  let result ← access (.run id source params)
  let view ← access (.viewResult result)
  let records ← access (.collect result)
  let summary ← access (.consume result)
  return { keys := view.keys, records, summary }

/-- Runs a transaction function that `work` makes of one query, in a transaction of its own.
    Metadata and timeout of the query become those of the transaction. -/
def executeQueryWith (peer : Peer ω) (source : QuerySource) (mode : AccessMode) (patience : Nat)
    (work : Query → TransactionFunction ω α) : Act ω (Option (Except Fault α)) := do
  match Query.ofSource source with
  | .error fault => return some (.error fault)
  | .ok query =>
    let config : TransactionConfig :=
      { timeout := query.timeout, metadata := query.metadata.getD .empty }
    let plain : Query := { query with metadata := none, timeout := none }
    executeWith peer { mode, api := .internal, config } patience (work plain)

/-- Runs one query in a transaction of its own and reads its result. -/
def executeQuery (peer : Peer ω) (source : QuerySource) (params : Option Params)
    (mode : AccessMode) (patience : Nat) : Act ω (Option (Except Fault EagerResult)) :=
  executeQueryWith peer source mode patience fun query _ id => .eager id (.query query) params

end GraphSession
