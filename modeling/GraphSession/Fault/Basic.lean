/-!
  What can go wrong.

  A fault is a failure the server reported, a text of one of sixteen kinds, an error raised by the
  caller's own code, or the end of a series of attempts.  The classification says which faults are
  worth another attempt and which are the caller's own doing; it looks at the kind and at the
  server's code, never at the text.
-/

namespace GraphSession

/-- Whether `text` begins with `start`. -/
def beginsWith (start text : String) : Bool :=
  start.toList.isPrefixOf text.toList

/-- A failure as the server reports it: a dotted code and a text. -/
structure ServerFailure where
  code : String
  message : String
  deriving DecidableEq, Repr, Inhabited

/-- The kinds of fault that carry nothing but a text. -/
inductive FaultKind
  | connection
  | authentication
  | protocol
  | session
  | transaction
  | resultConsumed
  | resultNotSingle
  | invalidArgument
  | invalidType
  | timeout
  | pool
  | configuration
  | typeConversion
  | serviceUnavailable
  | sessionExpired
  | internal
  deriving DecidableEq, Repr

/-- A failed operation. -/
inductive Fault
  /-- A text of some kind. -/
  | plain (kind : FaultKind) (message : String)
  /-- The server refused or failed a request. -/
  | server (failure : ServerFailure)
  /-- The time for further attempts is over; `source` is what the last attempt failed with. -/
  | retriesExhausted (attempts : UInt32) (source : Fault)
  /-- The caller's own code failed. -/
  | callback (message : String)
  deriving DecidableEq, Repr

/-- The words in front of the text of a fault of this kind. -/
def FaultKind.label : FaultKind → String
  | connection => "Connection error"
  | authentication => "Authentication error"
  | protocol => "Protocol error"
  | session => "Session error"
  | transaction => "Transaction error"
  | resultConsumed => "Result consumed"
  | resultNotSingle => "Result not single"
  | invalidArgument => "Invalid argument"
  | invalidType => "Invalid type"
  | timeout => "Timeout"
  | pool => "Pool error"
  | configuration => "Configuration error"
  | typeConversion => "Type conversion error"
  | serviceUnavailable => "Service unavailable"
  | sessionExpired => "Session expired"
  | internal => "Internal error"

/-- Kinds that another attempt may get past. -/
def FaultKind.isRetryable : FaultKind → Bool
  | connection | serviceUnavailable | sessionExpired => true
  | _ => false

/-- Kinds that come from wrong use of the library. -/
def FaultKind.isUsage : FaultKind → Bool
  | session | transaction | resultConsumed | resultNotSingle | invalidArgument | invalidType => true
  | _ => false

namespace ServerFailure

/-- The code belongs to the client's errors. -/
def isClientError (f : ServerFailure) : Bool := beginsWith "Neo.ClientError" f.code

/-- The code belongs to the database's errors. -/
def isDatabaseError (f : ServerFailure) : Bool := beginsWith "Neo.DatabaseError" f.code

/-- The code belongs to the passing errors. -/
def isTransientError (f : ServerFailure) : Bool := beginsWith "Neo.TransientError" f.code

/-- The codes of a failed authentication. -/
def authenticationCodes : List String :=
  ["Neo.ClientError.Security.Unauthorized", "Neo.ClientError.Security.CredentialsExpired",
   "Neo.ClientError.Security.TokenExpired", "Neo.ClientError.Security.AuthenticationRateLimit"]

def isAuthenticationError (f : ServerFailure) : Bool := authenticationCodes.contains f.code

/-- Passing errors that the client itself asked for, so that another attempt is not wanted. -/
def terminationCodes : List String :=
  ["Neo.TransientError.Transaction.Terminated", "Neo.TransientError.Transaction.LockClientStopped"]

/-- Client errors that another server, or another attempt, may not have. -/
def passingClientCodes : List String :=
  ["Neo.ClientError.Cluster.NotALeader", "Neo.ClientError.General.ForbiddenOnReadOnlyDatabase",
   "Neo.ClientError.Security.AuthorizationExpired"]

/-- Whether another attempt may get past the failure.  The listed codes decide first. -/
def isRetryable (f : ServerFailure) : Bool :=
  if terminationCodes.contains f.code then false
  else if passingClientCodes.contains f.code then true
  else f.isTransientError

/-- A failure on its own: `code: message`. -/
def text (f : ServerFailure) : String := f.code ++ ": " ++ f.message

/-- A failure as a fault; a failed authentication loses its code. -/
def toFault (f : ServerFailure) : Fault :=
  if f.isAuthenticationError then .plain .authentication f.message else .server f

end ServerFailure

namespace Fault

/-- The text of a fault. -/
def text : Fault → String
  | plain kind message => kind.label ++ ": " ++ message
  | server f => "Server error: " ++ f.code ++ " - " ++ f.message
  | retriesExhausted attempts source =>
    "Transaction failed after " ++ toString attempts ++ " attempt(s): " ++ source.text
  | callback message => "User callback error: " ++ message

/-- Whether another attempt may get past the fault. -/
def isRetryable : Fault → Bool
  | plain kind _ => kind.isRetryable
  | server f => f.isRetryable
  | _ => false

/-- Whether the fault comes from wrong use of the library. -/
def isUsageError : Fault → Bool
  | plain kind _ => kind.isUsage
  | _ => false

/-- Whether the fault lies with the client. -/
def isClientError : Fault → Bool
  | plain .authentication _ | plain .configuration _ | plain .typeConversion _ => true
  | plain kind _ => kind.isUsage
  | server f => f.isClientError
  | _ => false

/-- The server's code, also of the last of several attempts. -/
def code? : Fault → Option String
  | server f => some f.code
  | retriesExhausted _ source => source.code?
  | _ => none

/-- The texts of the faults behind a fault, nearest first. -/
def sources : Fault → List String
  | retriesExhausted _ source => source.text :: source.sources
  | callback message => [message]
  | _ => []

end Fault

end GraphSession
