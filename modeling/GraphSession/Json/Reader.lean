import GraphSession.Json.Token

/-!
  Reading JSON texts.

  The reader keeps the containers that are still open on a stack and takes one token at a time, so
  it is a fold over the tokens.  Containers nest at most one hundred and twenty-seven deep.
-/

namespace GraphSession.Json

/-- A container that is still open, with what it holds so far in reverse.  A map also has the name
    whose value comes next. -/
inductive Open
  | list (items : List Json)
  | map (entries : List (String × Json)) (name : String)

/-- What the reader waits for, with the open containers, innermost first. -/
inductive Reader
  | value (stack : List Open)
  /-- The first item of a list, or its end. -/
  | firstItem (stack : List Open)
  /-- The first name of a map, or its end. -/
  | firstName (stack : List Open)
  | name (entries : List (String × Json)) (stack : List Open)
  | colon (name : String) (entries : List (String × Json)) (stack : List Open)
  | afterItem (items : List Json) (stack : List Open)
  | afterEntry (entries : List (String × Json)) (stack : List Open)
  | finished (document : Json)

namespace Reader

/-- The deepest nesting that is read. -/
def depthLimit : Nat := 127

/-- A value is complete and goes into the innermost container. -/
def complete (value : Json) : List Open → Reader
  | [] => finished value
  | .list items :: stack => afterItem (value :: items) stack
  | .map entries key :: stack => afterEntry ((key, value) :: entries) stack

/-- A token where a value may begin. -/
def begin? (stack : List Open) : Token → Option Reader
  | .scalar v => some (complete v stack)
  | .openList => if stack.length < depthLimit then some (firstItem stack) else none
  | .openMap => if stack.length < depthLimit then some (firstName stack) else none
  | _ => none

/-- One token. -/
def step? (state : Reader) (token : Token) : Option Reader :=
  match state, token with
  | value stack, t => begin? stack t
  | firstItem stack, .closeList => some (complete (.list []) stack)
  | firstItem stack, t => begin? (.list [] :: stack) t
  | firstName stack, .closeMap => some (complete (.map []) stack)
  | firstName stack, .scalar (.string key) => some (colon key [] stack)
  | name entries stack, .scalar (.string key) => some (colon key entries stack)
  | colon key entries stack, .colon => some (value (.map entries key :: stack))
  | afterItem items stack, .comma => some (value (.list items :: stack))
  | afterItem items stack, .closeList => some (complete (.list items.reverse) stack)
  | afterEntry entries stack, .comma => some (name entries stack)
  | afterEntry entries stack, .closeMap => some (complete (.map entries.reverse) stack)
  | _, _ => none

/-- The rest of the tokens. -/
def run? (state : Reader) : List Token → Option Json
  | [] => match state with
    | finished document => some document
    | _ => none
  | t :: ts => (state.step? t).bind fun next => run? next ts

end Reader

/-- The document a text holds; `none` when it is not a JSON text. -/
def parse? (text : String) : Option Json :=
  (tokens? text.toList).bind (Reader.run? (.value []))

end GraphSession.Json
