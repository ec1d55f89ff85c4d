import GraphSession.Session.Transaction

/-!
  Work through handles.

  An `Access` is one thing that a caller does with a transaction or a result it holds.  `Work` is
  the code of a transaction function: a tree that makes accesses, goes on by what they are answered,
  and in between may look at and change the caller's own surroundings.  So a statement about every
  transaction function is a statement about every such tree.

  A transaction function runs queries in its transaction but does not end it; only the caller who
  began a transaction can do that.
-/

namespace GraphSession

variable {ω α β : Type}

/-- What a caller sees of a result without reading it. -/
structure ResultView where
  query : String
  keys : List String
  isOpen : Bool
  deriving DecidableEq, Repr, Inhabited

/-- What a caller sees of a transaction. -/
structure TransactionView where
  state : TransactionState
  /-- Whether it belongs to a transaction function. -/
  managed : Bool
  deriving DecidableEq, Repr

/-- A result as its caller sees it. -/
def Result.view (r : Result) : ResultView := ⟨r.query.text, r.keys, r.isOpen⟩

/-- A transaction as its caller sees it. -/
def Transaction.view (t : Transaction) : TransactionView := ⟨t.state, t.holder = .session⟩

/-- One thing done through a handle. -/
inductive Access
  | run (transaction : TransactionId) (source : QuerySource) (params : Option Params)
  | commit (transaction : TransactionId)
  | rollback (transaction : TransactionId)
  | close (transaction : TransactionId)
  /-- Lets go of the handle. -/
  | drop (transaction : TransactionId)
  | viewTransaction (transaction : TransactionId)
  | next (result : ResultId)
  | peek (result : ResultId)
  | single (result : ResultId)
  | collect (result : ResultId)
  /-- Reads to the end and keeps what was read before a fault. -/
  | drain (result : ResultId)
  | consume (result : ResultId)
  | viewResult (result : ResultId)

/-- What an access is answered when it succeeds. -/
@[reducible] def Access.Reply : Access → Type
  | .run .. => ResultId
  | .commit _ | .rollback _ | .close _ | .drop _ => Unit
  | .viewTransaction _ => TransactionView
  | .next _ | .peek _ => Option Record
  | .single _ => Record
  | .collect _ => List Record
  | .drain _ => List Record × Option Fault
  | .consume _ => Summary
  | .viewResult _ => ResultView

/-- Fails unless the holder of a transaction is one of those allowed.  To anybody else the
    transaction is closed. -/
def checkHolder (id : TransactionId) (allowed : Holder → Bool) : Op ω Unit := do
  if !allowed ((← theSession).transaction id).holder then throw .transactionClosed

/-- Makes an access. -/
def Access.perform (peer : Peer ω) : (access : Access) → Op ω access.Reply
  | .run id source params => do
    checkHolder id (· ≠ .nobody)
    runIn peer id source params
  | .commit id => do
    checkHolder id (· = .caller)
    GraphSession.commit peer id
  | .rollback id => do
    checkHolder id (· = .caller)
    GraphSession.rollback peer id
  | .close id => do
    checkHolder id (· = .caller)
    closeTransaction peer id
  | .drop id => dropHandle peer id
  | .viewTransaction id => do return ((← theSession).transaction id).view
  | .next id => GraphSession.next peer id
  | .peek id => GraphSession.peek peer id
  | .single id => GraphSession.single peer id
  | .collect id => GraphSession.collect peer id
  | .drain id => GraphSession.drain peer id
  | .consume id => GraphSession.consume peer id
  | .viewResult id => do return ((← theSession).result id).view

/-- The code of a transaction function. -/
inductive Work (ω α : Type) : Type
  | done (outcome : Except Fault α)
  /-- Makes an access and goes on by its outcome. -/
  | call (access : Access) (next : Except Fault access.Reply → Work ω α)
  /-- Looks at the caller's surroundings. -/
  | look (next : ω → Work ω α)
  /-- Changes the caller's surroundings. -/
  | change (f : ω → ω) (rest : Work ω α)

namespace Work

/-- Does the work. -/
def perform (peer : Peer ω) : Work ω α → Op ω α
  | done outcome => settleOn outcome
  | call access next => do
    let outcome ← attempt (access.perform peer)
    (next outcome).perform peer
  | look next => do (next (← get).world).perform peer
  | change f rest => do
    modify fun s => { s with world := f s.world }
    rest.perform peer

/-- One piece of work after another, which sees the outcome of the first. -/
def andThen (first : Work ω α) (next : Except Fault α → Work ω β) : Work ω β :=
  match first with
  | done outcome => next outcome
  | call access more => call access fun outcome => (more outcome).andThen next
  | look more => look fun w => (more w).andThen next
  | change f rest => change f (rest.andThen next)

/-- Work that stops at the first fault. -/
def bind (first : Work ω α) (next : α → Work ω β) : Work ω β :=
  first.andThen fun
    | .ok a => next a
    | .error fault => done (.error fault)

instance : Monad (Work ω) where
  pure a := done (.ok a)
  bind := bind

instance : MonadExcept Fault (Work ω) where
  throw fault := done (.error fault)
  tryCatch work handler := work.andThen fun
    | .ok a => done (.ok a)
    | .error fault => handler fault

/-- An access as work. -/
def access (a : Access) : Work ω a.Reply := call a done

/-- The outcome of work, as a value. -/
def outcome (work : Work ω α) : Work ω (Except Fault α) := work.andThen fun o => done (.ok o)

end Work

end GraphSession
