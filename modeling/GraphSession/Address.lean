import GraphSession.Fault.Wording

/-!
  Addresses of servers.

  An address is written `host:port`, and the host may hold colons itself: the last colon counts.
  A text without any colon is a host with the default port.
-/

namespace GraphSession

/-- Where a server listens. -/
structure ServerAddress where
  host : String
  port : UInt16
  deriving DecidableEq, Repr, Inhabited

/-- What a connection knows of the server it leads to. -/
structure ServerInfo where
  address : ServerAddress
  agent : String
  protocol : String
  deriving DecidableEq, Repr, Inhabited

namespace ServerAddress

/-- The port when an address names none. -/
def defaultPort : UInt16 := 7687

/-- What stands before and after the last colon; `none` without a colon. -/
def splitAtLastColon? (cs : List Char) : Option (List Char × List Char) :=
  let reversed := cs.reverse
  match reversed.dropWhile (· != ':') with
  | [] => none
  | _ :: before => some (before.reverse, (reversed.takeWhile (· != ':')).reverse)

/-- The value of a numeral of ASCII digits. -/
def digitsValue? (cs : List Char) : Option Nat :=
  if cs.isEmpty || !cs.all Char.isDigit then none
  else some (cs.foldl (fun n c => n * 10 + (c.toNat - 48)) 0)

/-- A port: an optional plus sign and a numeral up to 65535. -/
def port? (cs : List Char) : Option UInt16 :=
  let digits := match cs with
    | '+' :: rest => rest
    | rest => rest
  (digitsValue? digits).bind fun n => if n < 65536 then some (UInt16.ofNat n) else none

/-- Reads an address. -/
def parse (text : String) : Except Fault ServerAddress :=
  match splitAtLastColon? text.toList with
  | none => if text.isEmpty then .error (.invalidAddress text) else .ok ⟨text, defaultPort⟩
  | some (host, port) =>
    if host.isEmpty then .error (.invalidAddress text)
    else match port? port with
      | some p => .ok ⟨String.ofList host, p⟩
      | none => .error (.invalidPort (String.ofList port))

/-- An address in writing. -/
def text (a : ServerAddress) : String := a.host ++ ":" ++ toString a.port.toNat

end ServerAddress

/-- A server in a message. -/
def ServerInfo.text (s : ServerInfo) : String :=
  "Server @ " ++ s.address.text ++ " (Agent: " ++ s.agent ++ ", Protocol: " ++ s.protocol ++ ")"

end GraphSession
