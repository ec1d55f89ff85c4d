import GraphSession.Rehearsal.Surroundings
import GraphSession.Session.Execute

/-!
  Scenarios of a rehearsal.

  A scenario is a list of steps over some sessions.  Results and transactions are kept under names.
  A transaction function of a scenario plays a plan: the first call plays the first attempt of it,
  and so on, and further calls repeat the last.  `ρ` is what such functions return.
-/

namespace GraphSession.Rehearsal

/-- Something done with a result. -/
inductive ResultStep
  | next
  | peek
  | single
  | collect
  /-- Reads to the end and lets go of the result. -/
  | drain
  | consume
  | isOpen
  | keys
  | debug
  | drop

/-- Something done with a transaction.  The result of a query is kept under a name. -/
inductive TransactionStep
  | run (source : QuerySource) (params : Option Params) (keep : String)
  | commit
  | rollback
  | close
  | state
  | isOpen
  | debug
  | drop

/-- Something done with what is kept under a name. -/
inductive HandleStep
  | result (name : String) (step : ResultStep)
  | transaction (name : String) (step : TransactionStep)

/-- Something that a transaction function does. -/
inductive InnerStep
  | run (source : QuerySource) (params : Option Params) (keep : String)
  /-- Keeps the transaction under a name. -/
  | save (keep : String)
  | isOpen
  | debug
  | handle (step : HandleStep)

/-- A step with the name it has in the log.  The fault of a step that is caught does not end the
    function that makes it. -/
structure Labelled (σ : Type) where
  label : String
  caught : Bool := false
  step : σ

/-- What a function does in one call. -/
structure Attempt (σ ρ : Type) where
  steps : List (Labelled σ)
  finish : Except Fault ρ

/-- What a transaction function does in its calls. -/
structure Plan (ρ : Type) where
  first : Attempt InnerStep ρ
  later : List (Attempt InnerStep ρ) := []

/-- The attempt that a call plays, where the first call has number zero. -/
def Plan.attempt {ρ : Type} (p : Plan ρ) (call : Nat) : Attempt InnerStep ρ :=
  (pick? (p.first :: p.later) call).getD p.first

/-- Something done with a session. -/
inductive SessionStep (ρ : Type)
  | run (source : QuerySource) (params : Option Params) (keep : String)
  | begin (config : TransactionConfig) (keep : String)
  | executeQuery (source : QuerySource) (params : Option Params) (mode : AccessMode)
  /-- Runs a transaction function; `renamed` uses the former name of the call. -/
  | execute (mode : AccessMode) (config : TransactionConfig) (renamed : Bool) (plan : Plan ρ)
  | lastBookmarks
  | lastBookmark
  | serverInfo
  | close
  | debug
  | mode

/-- Something done with one session or with a handle. -/
inductive EnclosedStep (ρ : Type)
  | session (step : SessionStep ρ)
  | handle (step : HandleStep)

/-- A step of a scenario. -/
inductive Step (ρ : Type)
  | session (number : Nat) (step : SessionStep ρ)
  | handle (step : HandleStep)
  /-- A function that has the session to itself; the session is closed and gone afterwards. -/
  | enclosed (number : Nat) (body : Attempt (EnclosedStep ρ) ρ)
  /-- Lets go of a session. -/
  | drop (number : Nat)
  | advance (time : Duration)
  | metrics

/-- What a step is answered. -/
inductive Answer (ρ : Type)
  | nothing
  /-- Nothing is kept under this name. -/
  | missing (name : String)
  | flag (value : Bool)
  | text (value : String)
  | keys (keys : List String)
  | record (record : Option Record)
  | records (records : List Record)
  /-- Records, and the fault after them if there was one. -/
  | items (records : List Record) (fault : Option Fault)
  | summary (summary : Summary)
  | eager (result : EagerResult)
  | bookmarks (bookmarks : Bookmarks)
  | bookmark (bookmark : Option String)
  | state (state : TransactionState)
  | mode (mode : AccessMode)
  | metrics (metrics : Option PoolMetrics)
  | returned (value : ρ)
  /-- Nobody waited long enough. -/
  | unfinished

/-- What the functions of a scenario write into the log: their calls, and each of their steps. -/
inductive Mark (ρ : Type)
  | attempt (call : Nat) (now : Instant)
  | step (label : String) (outcome : Except Fault (Answer ρ))

end GraphSession.Rehearsal
