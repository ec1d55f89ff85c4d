/-!
  The terms in which a session tells a server what it is about to do.

  `AccessMode` says whether work reads or writes, `ApiKind` which kind of call the work came
  through, and `NotificationFilter` which notifications the server may leave out.
-/

namespace GraphSession

/-- Whether work only reads.  Work writes unless it says otherwise. -/
inductive AccessMode
  | read
  | write
  deriving DecidableEq, Repr

namespace AccessMode

instance : Inhabited AccessMode := ⟨write⟩

/-- The letter in requests. -/
def code : AccessMode → String
  | read => "r"
  | write => "w"

/-- The word in messages. -/
def text : AccessMode → String
  | read => "read"
  | write => "write"

end AccessMode

/-- The kind of call that work came through, as the server counts it. -/
inductive ApiKind
  | transactionFunction
  | explicitTransaction
  | autoCommit
  /-- Work of the library's own: a query run through one call. -/
  | internal
  deriving DecidableEq, Repr

namespace ApiKind

/-- The number of a kind. -/
def code : ApiKind → Nat
  | transactionFunction => 0
  | explicitTransaction => 1
  | autoCommit => 2
  | internal => 3

/-- The kind with a number. -/
def ofCode? : Nat → Option ApiKind
  | 0 => some transactionFunction
  | 1 => some explicitTransaction
  | 2 => some autoCommit
  | 3 => some internal
  | _ => none

/-- The name of a kind on the wire. -/
def tag : ApiKind → String
  | transactionFunction => "TX_FUNC"
  | explicitTransaction => "TX"
  | autoCommit => "AUTO_COMMIT"
  | internal => "DRIVER"

/-- The name of a kind in diagnostic output. -/
def debug : ApiKind → String
  | transactionFunction => "TxFunc"
  | explicitTransaction => "Tx"
  | autoCommit => "AutoCommit"
  | internal => "Driver"

end ApiKind

/-- The least severity of the notifications to send. -/
inductive Severity
  | off
  | warning
  | information
  deriving DecidableEq, Repr

/-- A class of notifications. -/
inductive Classification
  | hint
  | unrecognized
  | unsupported
  | performance
  | deprecation
  | security
  | topology
  | schema
  | generic
  | other (name : String)
  deriving DecidableEq, Repr

/-- Which notifications the server may leave out; `none` leaves the choice to the server. -/
structure NotificationFilter where
  minimumSeverity : Option Severity := none
  disabled : Option (List Classification) := none
  deriving DecidableEq, Repr, Inhabited

end GraphSession
