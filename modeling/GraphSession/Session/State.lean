import GraphSession.Exchange.Request
import GraphSession.Record
import GraphSession.Result.Summary
import GraphSession.Session.Config

/-!
  The state of a session.

  A session holds at most one connection, which its units of work share one after the other: an
  auto-commit result until its stream ends, a transaction until it is over.  `units` counts the
  units that need the connection; the last one to end gives it back.

  Every result and every transaction that a session ever gave out has a number and keeps its state
  here, so a handle is that number.  A number never given out names a result that is over and a
  transaction that is closed.
-/

namespace GraphSession

/-- The unit of work that a result belongs to. -/
inductive Origin
  /-- A unit of its own.  `sent` are the bookmarks its request carried; `pins` says whether the
      database the server names becomes the session's. -/
  | autoCommit (sent : Bookmarks) (pins : Bool)
  | transaction (id : TransactionId)
  deriving Inhabited

/-- Whether the database that a response names becomes the session's. -/
def Origin.pins : Origin → Bool
  | autoCommit _ pins => pins
  | transaction _ => false

/-- How far the stream of a result has come. -/
inductive StreamState
  /-- Records may be left on the server. -/
  | open
  | finished (summary : Summary)
  /-- Fetching failed; `reason` is the text of the fault. -/
  | failed (reason : String)
  /-- The transaction was closed before the stream ended. -/
  | abandoned
  deriving Inhabited

namespace StreamState

def isOpen : StreamState → Bool
  | «open» => true
  | _ => false

def summary? : StreamState → Option Summary
  | finished summary => some summary
  | _ => none

def failure? : StreamState → Option String
  | failed reason => some reason
  | _ => none

end StreamState

/-- How the transaction of a result ended. -/
inductive ScopeEnd
  | committed
  | closed
  deriving DecidableEq

/-- A result: records on their way from the server to the caller. -/
structure Result where
  query : Query
  keys : List String
  server : Option ServerInfo
  /-- What the server told at the start. -/
  startMetadata : Metadata
  origin : Origin
  /-- Records that were fetched and not yet handed out. -/
  buffer : List Record := []
  stream : StreamState := .open
  consumed : Bool := false
  outOfScope : Option ScopeEnd := none
  deriving Inhabited

namespace Result

/-- What a number stands for that was never given out. -/
def absent : Result :=
  { query := { text := "" }, keys := [], server := none, startMetadata := .empty
    origin := .autoCommit .empty false, stream := .abandoned, consumed := true }

/-- Whether records may be left on the server. -/
def isStreaming (r : Result) : Bool := r.stream.isOpen

/-- The fault for a result whose transaction has ended. -/
def scopeFault? (r : Result) : Option Fault :=
  r.outOfScope.map fun e => .resultOutOfScope (e = .committed)

/-- Why no record can be read, if none can. -/
def unusable? (r : Result) : Option Fault :=
  match r.scopeFault? with
  | some fault => some fault
  | none =>
    if r.consumed then some .resultConsumed
    else r.stream.failure?.map .resultFailed

/-- Whether records can be read. -/
def isOpen (r : Result) : Bool := r.unusable?.isNone

/-- A result that can be read is in scope and was not consumed. -/
theorem usable_iff {r : Result} : r.unusable? = none ↔
    r.scopeFault? = none ∧ r.consumed = false ∧ r.stream.failure? = none := by
  unfold unusable?
  cases r.scopeFault? with
  | some e => simp
  | none => cases r.consumed <;> simp

/-- What the end of its transaction, its consumption and a failed stream have in common. -/
theorem unusable_iff {r : Result} : r.unusable? ≠ none ↔
    r.outOfScope ≠ none ∨ r.consumed = true ∨ r.stream.failure? ≠ none := by
  unfold unusable? scopeFault?
  cases r.outOfScope with
  | some e => simp
  | none => cases r.consumed <;> simp

end Result

/-- What may still be done with a transaction. -/
inductive TransactionState
  | active
  /-- A query failed; only a rollback is left. -/
  | failed
  | committed
  | rolledBack
  /-- Ended by a failed commit. -/
  | closed
  deriving DecidableEq, Repr

/-- Whether a transaction is over. -/
def TransactionState.isTerminated : TransactionState → Bool
  | committed | rolledBack | closed => true
  | active | failed => false

/-- Who decides how a transaction ends. -/
inductive Holder
  /-- A caller who holds the handle. -/
  | caller
  /-- Nobody: the caller dropped the handle. -/
  | nobody
  /-- The session, for a transaction function. -/
  | session
  deriving DecidableEq, Repr

/-- A transaction. -/
structure Transaction where
  /-- The bookmarks its begin carried. -/
  sent : Bookmarks
  state : TransactionState := .active
  /-- Its results, oldest first. -/
  results : List ResultId := []
  holder : Holder

/-- What a number stands for that was never given out. -/
def Transaction.absent : Transaction := { sent := .empty, state := .closed, holder := .nobody }

/-- The database that a session's work goes to. -/
inductive Target
  /-- Not known yet. -/
  | unresolved
  /-- Known; `none` is the server's default. -/
  | resolved (database : Option String)
  deriving DecidableEq, Repr, Inhabited

/-- The database, once it is known. -/
def Target.database? : Target → Option (Option String)
  | unresolved => none
  | resolved database => some database

/-- A session. -/
structure Session where
  config : SessionConfig
  /-- The session's own bookmarks; those of the manager are never among them. -/
  bookmarks : Bookmarks
  target : Target
  /-- The units of work that need the connection. -/
  units : Nat := 0
  closed : Bool := false
  connection : Option Connection := none
  results : List Result := []
  transactions : List Transaction := []
  /-- The latest auto-commit result. -/
  autoResult : Option ResultId := none
  /-- The explicit transaction that has not been seen to be over. -/
  current : Option TransactionId := none
  deriving Inhabited

namespace Session

/-- A new session. -/
def ofConfig (config : SessionConfig) : Session :=
  { config
    bookmarks := config.bookmarks
    target := match config.database with
      | some database => .resolved (some database)
      | none => .unresolved }

def isOpen (s : Session) : Bool := !s.closed

def hasConnection (s : Session) : Bool := s.connection.isSome

def result (s : Session) (id : ResultId) : Result := s.results.getD id .absent

def setResult (s : Session) (id : ResultId) (r : Result) : Session :=
  { s with results := s.results.set id r }

def transaction (s : Session) (id : TransactionId) : Transaction := s.transactions.getD id .absent

def setTransaction (s : Session) (id : TransactionId) (t : Transaction) : Session :=
  { s with transactions := s.transactions.set id t }

/-- A result that was given out is the one that was set last, and any other is as before. -/
theorem result_setResult (s : Session) {id : ResultId} (other : ResultId) (r : Result)
    (h : id < s.results.length) :
    (s.setResult id r).result other = if other = id then r else s.result other := by
  simp only [result, setResult, List.getD_eq_getElem?_getD, List.getElem?_set]
  by_cases e : id = other
  · subst e
    simp [h]
  · rw [if_neg e, if_neg (Ne.symm e)]

/-- A transaction that was given out is the one that was set last, and any other is as before. -/
theorem transaction_setTransaction (s : Session) {id : TransactionId} (other : TransactionId)
    (t : Transaction) (h : id < s.transactions.length) :
    (s.setTransaction id t).transaction other = if other = id then t else s.transaction other := by
  simp only [transaction, setTransaction, List.getD_eq_getElem?_getD, List.getElem?_set]
  by_cases e : id = other
  · subst e
    simp [h]
  · rw [if_neg e, if_neg (Ne.symm e)]

/-- The number that the next result gets. -/
def nextResult (s : Session) : ResultId := s.results.length

/-- The number that the next transaction gets. -/
def nextTransaction (s : Session) : TransactionId := s.transactions.length

/-- A result after another one, or it itself, was set. -/
theorem result_setResult_eq (s : Session) (id other : ResultId) (r : Result) :
    (s.setResult id r).result other =
      if id = other ∧ id < s.results.length then r else s.result other := by
  by_cases h : id < s.results.length
  · rw [result_setResult s other r h]
    by_cases e : other = id
    · simp [e, h]
    · simp [e, Ne.symm e]
  · simp only [h, and_false, if_false]
    simp only [result, setResult, List.set_eq_of_length_le (Nat.le_of_not_lt h)]

/-- A transaction after another one, or it itself, was set. -/
theorem transaction_setTransaction_eq (s : Session) (id other : TransactionId) (t : Transaction) :
    (s.setTransaction id t).transaction other =
      if id = other ∧ id < s.transactions.length then t else s.transaction other := by
  by_cases h : id < s.transactions.length
  · rw [transaction_setTransaction s other t h]
    by_cases e : other = id
    · simp [e, h]
    · simp [e, Ne.symm e]
  · simp only [h, and_false, if_false]
    simp only [transaction, setTransaction, List.set_eq_of_length_le (Nat.le_of_not_lt h)]

/-- The results after a new one was added. -/
theorem result_add (s : Session) (r : Result) (other : ResultId) :
    ({ s with results := s.results ++ [r] } : Session).result other =
      if other = s.nextResult then r else s.result other := by
  unfold result nextResult
  simp only [List.getD_eq_getElem?_getD]
  rcases Nat.lt_trichotomy other s.results.length with h | h | h
  · rw [List.getElem?_append_left h, if_neg (Nat.ne_of_lt h)]
  · simp [h]
  · have beyond : (s.results ++ [r]).length ≤ other := by
      rw [List.length_append]
      exact h
    rw [List.getElem?_eq_none beyond, List.getElem?_eq_none (Nat.le_of_lt h),
      if_neg (Nat.ne_of_gt h)]

/-- The results of a session that has one more. -/
theorem result_added {s t : Session} {r : Result} (added : t.results = s.results ++ [r])
    (other : ResultId) : t.result other = if other = s.nextResult then r else s.result other := by
  rw [← result_add]
  simp only [result, added]

/-- The transactions after a new one was added. -/
theorem transaction_add (s : Session) (t : Transaction) (other : TransactionId) :
    ({ s with transactions := s.transactions ++ [t] } : Session).transaction other =
      if other = s.nextTransaction then t else s.transaction other := by
  unfold transaction nextTransaction
  simp only [List.getD_eq_getElem?_getD]
  rcases Nat.lt_trichotomy other s.transactions.length with h | h | h
  · rw [List.getElem?_append_left h, if_neg (Nat.ne_of_lt h)]
  · simp [h]
  · have beyond : (s.transactions ++ [t]).length ≤ other := by
      rw [List.length_append]
      exact h
    rw [List.getElem?_eq_none beyond, List.getElem?_eq_none (Nat.le_of_lt h),
      if_neg (Nat.ne_of_gt h)]

/-- A number never given out names no result. -/
theorem result_of_le {s : Session} {id : ResultId} (h : s.results.length ≤ id) :
    s.result id = .absent := by
  rw [result, List.getD_eq_getElem?_getD, List.getElem?_eq_none h]
  rfl

/-- A number never given out names no transaction. -/
theorem transaction_of_le {s : Session} {id : TransactionId} (h : s.transactions.length ≤ id) :
    s.transaction id = .absent := by
  rw [transaction, List.getD_eq_getElem?_getD, List.getElem?_eq_none h]
  rfl

/-- Only a result that was given out can be read. -/
theorem lt_of_usable {s : Session} {id : ResultId} (h : (s.result id).unusable? = none) :
    id < s.results.length := by
  apply Nat.lt_of_not_le
  intro hle
  rw [result_of_le hle] at h
  cases h

/-- A result that was set to one that cannot be read cannot be read. -/
theorem unusable_setResult (s : Session) (id : ResultId) {r : Result} (h : r.unusable? ≠ none) :
    ((s.setResult id r).result id).unusable? ≠ none := by
  rw [result_setResult_eq]
  split
  · exact h
  · next e =>
    rw [result_of_le (Nat.le_of_not_lt fun hlt => e ⟨rfl, hlt⟩)]
    exact Option.some_ne_none _

/-- Only a result that was given out is streaming. -/
theorem lt_of_isStreaming {s : Session} {id : ResultId} (h : (s.result id).isStreaming = true) :
    id < s.results.length := by
  apply Nat.lt_of_not_le
  intro hle
  rw [result_of_le hle] at h
  cases h

/-- Only a transaction that was given out is open. -/
theorem lt_of_not_isTerminated {s : Session} {id : TransactionId}
    (h : (s.transaction id).state.isTerminated = false) : id < s.transactions.length := by
  apply Nat.lt_of_not_le
  intro hle
  rw [transaction_of_le hle] at h
  cases h

/-- How many records each pull of this session asks for. -/
def fetchSize (s : Session) : FetchSize := .ofInt s.config.fetchSize

/-- The user a request acts for: that of the run, or else that of the session. -/
def actingUser (s : Session) (override : Option String) : Option String :=
  override.or s.config.impersonatedUser

end Session

end GraphSession
