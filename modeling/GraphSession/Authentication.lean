import GraphSession.Text.Quoted

/-!
  Authentication tokens.

  A token says who the client is and how it proves that.  Diagnostic output never shows the proof.
-/

namespace GraphSession

/-- How a client authenticates. -/
inductive AuthToken
  | none
  | basic (username password : String) (realm : Option String)
  | bearer (token : String)
  | custom (principal credentials realm scheme : String)
  deriving DecidableEq, Repr, Inhabited

namespace AuthToken

/-- The name of the scheme. -/
def scheme : AuthToken → String
  | .none => "none"
  | .basic .. => "basic"
  | .bearer _ => "bearer"
  | .custom _ _ _ scheme => scheme

/-- Whom the token names. -/
def principal? : AuthToken → Option String
  | .basic username _ _ => some username
  | .custom principal _ _ _ => some principal
  | _ => Option.none

/-- The token a client has unless it chooses one. -/
def default : AuthToken := .none

/-- The diagnostic text: scheme and principal only. -/
def debug (a : AuthToken) : String :=
  "AuthToken \x7b scheme: " ++ Text.debug a.scheme ++ ", principal: " ++
    Text.debugOption (a.principal?.map Text.debug) ++ ", .. \x7d"

end AuthToken

end GraphSession
