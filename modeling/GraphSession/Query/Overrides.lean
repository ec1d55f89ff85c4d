import GraphSession.Decimal.Layout
import GraphSession.Query.Basic

/-!
  Reserved parameters.

  Five names are not parameters of an auto-commit query but settings of its run: `timeout` in
  seconds, the impersonated user under two names and the database under two names.  They are taken
  out one after the other; null counts as not given, and of two names for one setting the second
  wins when it is given.  The first value of a wrong type or range stops the extraction, and the
  names taken out until then stay out.
-/

namespace GraphSession

/-- Parameters given by position together with those of the query; the query's win. -/
def mergeParameters (positional : Option Params) (keyword : Params) : Params :=
  (positional.getD .empty).merge keyword

/-- The settings of one run. -/
structure Overrides where
  timeout : Option Duration := none
  impersonatedUser : Option String := none
  database : Option String := none
  deriving DecidableEq, Repr, Inhabited

namespace Overrides

def isEmpty (o : Overrides) : Bool :=
  o.timeout.isNone && o.impersonatedUser.isNone && o.database.isNone

/-- The names of the settings. -/
def reservedNames : List String := ["timeout", "imp_user", "impersonated_user", "db", "database"]

/-- A timeout: null for none, otherwise a number of seconds. -/
def timeoutOf (value : Value) : Except Fault (Option Duration) :=
  if value.isNull then .ok none
  else match value.asFloat? with
    | none => .error (.timeoutNotNumber value.typeName)
    | some seconds =>
      if !seconds.isFinite || seconds < 0 then .error (.timeoutNegative (Decimal.plain seconds))
      else match Duration.ofSeconds? seconds with
        | some d => .ok (some d)
        | none => .error (.timeoutOutOfRange (Decimal.plain seconds))

/-- A text: null for none. -/
def textOf (name : String) : Value → Except Fault (Option String)
  | .null => .ok none
  | .string s => .ok (some s)
  | v => .error (.reservedNotText name v.typeName)

/-- A partial extraction: the settings so far, or the fault that stopped it, and the parameters
    that are left. -/
abbrev Extraction := Except Fault Overrides × Params

/-- Takes one name out and puts its value where it belongs. -/
def take (name : String) (set : Overrides → Value → Except Fault Overrides) (e : Extraction) :
    Extraction :=
  match e with
  | (.error fault, params) => (.error fault, params)
  | (.ok o, params) =>
    match params.get? name with
    | none => (.ok o, params)
    | some value => (set o value, params.erase name)

/-- Sets the user from the value of `name`, unless that is null. -/
def setUser (name : String) (o : Overrides) (value : Value) : Except Fault Overrides :=
  (textOf name value).map fun user => { o with impersonatedUser := user.or o.impersonatedUser }

/-- Sets the database from the value of `name`, unless that is null. -/
def setDatabase (name : String) (o : Overrides) (value : Value) : Except Fault Overrides :=
  (textOf name value).map fun database => { o with database := database.or o.database }

/-- The settings of a run, and the parameters without the reserved names. -/
def extract (params : Params) : Extraction :=
  let start : Extraction := (.ok {}, params)
  start
    |> take "timeout" (fun o value => (timeoutOf value).map fun t => { o with timeout := t })
    |> take "imp_user" (setUser "imp_user")
    |> take "impersonated_user" (setUser "impersonated_user")
    |> take "db" (setDatabase "db")
    |> take "database" (setDatabase "database")

end Overrides

end GraphSession
