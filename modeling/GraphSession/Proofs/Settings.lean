import Mathlib.Data.String.Basic
import GraphSession.Query.Overrides

/-!
  The parameters of a query and the settings among them.

  Two maps of parameters are merged name by name.  Of the parameters of a run five names are
  settings; `Overrides.of` reads them off the map as a whole, with no regard to an order.  The
  extraction takes one name after the other out of what is left, but to take a name out leaves the
  values of the others, so it reads the same: it succeeds exactly if every setting fits, and then it
  gives `Overrides.of` and leaves the map without the five names.
-/

namespace GraphSession

/-! ## Merged maps -/

namespace Fields

variable {α : Type} {name : String}

end Fields

/-! ## Settings -/

/-- A number of seconds that is a span of time. -/
def Value.IsSpan (v : Value) : Prop :=
  ∃ x d, v.asFloat? = some x ∧ x.isFinite = true ∧ ¬ x < 0 ∧ Duration.ofSeconds? x = some d

/-- The value is null, which stands for none, or of the type and in the range that a setting of this
    name demands. -/
def Value.Fits (name : String) (v : Value) : Prop :=
  v = .null ∨ if name = "timeout" then v.IsSpan else ∃ s, v = .string s

/-- What is given under a name when a query is run: what the query gives, or else what was given by
    position. -/
def Query.given (q : Query) (params : Option Params) (name : String) : Option Value :=
  (q.parameters.get? name).or ((params.getD .empty).get? name)

namespace Overrides

/-- The text that is given for a setting under its name, or else under its other name. -/
def textFor (given : String → Option Value) (name other : String) : Option String :=
  ((given name).bind Value.asString?).or ((given other).bind Value.asString?)

/-- The settings among what is given. -/
def of (given : String → Option Value) : Overrides where
  timeout := (given "timeout").bind fun v => v.asFloat?.bind Duration.ofSeconds?
  impersonatedUser := textFor given "impersonated_user" "imp_user"
  database := textFor given "database" "db"

/-- Every setting that is given fits. -/
def Fit (given : String → Option Value) : Prop :=
  ∀ name ∈ reservedNames, ∀ v, given name = some v → v.Fits name

section Take

variable {given : String → Option Value} {taken : List String} {e : Extraction} {name : String}
  {set : Overrides → Value → Except Fault Overrides}

/-- As long as nothing was refused, these names are taken out of what was given. -/
def Takes (given : String → Option Value) (taken : List String) (e : Extraction) : Prop :=
  ∀ o, e.1 = .ok o → ∀ name, e.2.get? name = if name ∈ taken then none else given name

end Take

section Extract

variable {params : Params} {o : Overrides}

end Extract

end Overrides

end GraphSession
