import GraphSession.Session.Reading

/-!
  Transactions.

  A transaction is active until a query in it fails or it ends.  A failed transaction can only be
  rolled back, and the server has ended it already, so that resets the connection instead.  Ending
  a transaction ends its results and its unit of work, whatever fails on the way.
-/

namespace GraphSession

variable {ω α : Type}

/-- Why a transaction cannot do what `action` says, if it cannot. -/
def Transaction.refusal? (t : Transaction) (action : String) : Option Fault :=
  match t.state with
  | .active => none
  | .failed => some (.transactionFailed action)
  | _ => some .transactionClosed

/-- Sets the state of a transaction. -/
def setState {m : Type → Type} [Monad m] [MonadState (State ω) m] (id : TransactionId)
    (state : TransactionState) : m Unit :=
  changeTransaction id ({ · with state })

/-- The results of a transaction, which no longer has them. -/
def takeResults {m : Type → Type} [Monad m] [MonadState (State ω) m] (id : TransactionId) :
    m (List ResultId) := do
  let results := ((← theSession).transaction id).results
  changeTransaction id ({ · with results := [] })
  return results

/-- Runs a query in a transaction.  Its latest result is fetched to the end first, because the
    connection carries one stream at a time.  Reserved parameters have no meaning here. -/
def runIn (peer : Peer ω) (id : TransactionId) (source : QuerySource) (params : Option Params) :
    Op ω ResultId := do
  let query ← settleOn (Query.ofSource source)
  let t := (← theSession).transaction id
  failIf (t.refusal? "run a query")
  if query.metadata.isSome || query.timeout.isSome then throw .queryOptionsInTransaction
  let parameters := mergeParameters params query.parameters
  if let some latest := t.results.getLast? then bufferAll peer latest
  let result ← startResult peer { query := query.text, parameters } (.transaction id)
  changeTransaction id fun t => { t with results := t.results ++ [result] }
  return result

/-- Ends results one after the other; the first failure stops it. -/
def endResults (peer : Peer ω) : List ResultId → Op ω Unit
  | [] => pure ()
  | id :: rest => do
    endResult peer id
    endResults peer rest

/-- Commits a transaction.  When that fails, the transaction is closed.  A failing report to the
    bookmark manager is the outcome although the transaction is committed. -/
def commit (peer : Peer ω) (id : TransactionId) : Op ω Unit := do
  let t := (← theSession).transaction id
  failIf (t.refusal? "commit")
  let results ← takeResults id
  match ← attempt (do endResults peer results; commitHeld peer id) with
  | .error fault =>
    setState id .closed
    abortUnit peer
    throw fault
  | .ok token =>
    setState id .committed
    let reported ← attempt (takeBookmark? peer t.sent token)
    endUnit peer
    settleOn reported

/-- Rolls a transaction back. -/
def rollback (peer : Peer ω) (id : TransactionId) : Op ω Unit := do
  let t := (← theSession).transaction id
  if t.state.isTerminated then throw .transactionClosed
  let results ← takeResults id
  results.forM fun result => abandonResult result
  setState id .rolledBack
  if t.state = .failed then
    -- the server has ended the transaction already
    abortUnit peer
  else
    match ← attempt (rollbackHeld peer id) with
    | .ok _ => endUnit peer
    | .error fault =>
      abortUnit peer
      throw fault

/-- Rolls a transaction back unless it is over. -/
def closeTransaction (peer : Peer ω) (id : TransactionId) : Op ω Unit := do
  if !((← theSession).transaction id).state.isTerminated then rollback peer id

/-- As `closeTransaction`; a failure is only noted. -/
def closeQuietly (peer : Peer ω) (id : TransactionId) : Act ω Unit := do
  match ← (closeTransaction peer id).run with
  | .ok _ => pure ()
  | .error fault => note peer (.rollbackFailed fault)

/-- Commits the transaction of a function that succeeded.  When the function or the commit failed,
    closes it and fails with that fault. -/
def settle (peer : Peer ω) (id : TransactionId) (outcome : Except Fault α) : Op ω α := do
  let committed ← attempt do
    let a ← settleOn outcome
    commit peer id
    return a
  match committed with
  | .ok a => return a
  | .error fault =>
    closeQuietly peer id
    throw fault

/-- The caller lets go of the handle of an explicit transaction. -/
def dropHandle (peer : Peer ω) (id : TransactionId) : Act ω Unit := do
  let t := (← theSession).transaction id
  if t.holder = .caller then
    if !t.state.isTerminated then note peer .transactionDropped
    changeTransaction id ({ · with holder := .nobody })

end GraphSession
