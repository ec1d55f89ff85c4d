import GraphSession.Duration
import GraphSession.Fault.Wording
import GraphSession.Text.Blank
import GraphSession.Value.Basic

/-!
  Queries.

  A query is a text with parameters; metadata and timeout apply to a query that runs as a
  transaction of its own.  What a caller hands over may also be a value or nothing at all:
  `Query.ofSource` accepts exactly texts that are not blank.
-/

namespace GraphSession

/-- A query and what goes with it. -/
structure Query where
  text : String
  parameters : Params := .empty
  metadata : Option Metadata := none
  timeout : Option Duration := none
  deriving Inhabited

/-- What a caller hands over to be run. -/
inductive QuerySource
  | text (s : String)
  | query (q : Query)
  | value (v : Value)
  | absent

namespace Query

/-- The query, unless its text is blank. -/
def checked (q : Query) : Except Fault Query :=
  if Text.isBlank q.text then .error .emptyQuery else .ok q

/-- The query that a source stands for. -/
def ofSource : QuerySource → Except Fault Query
  | .text s => checked { text := s }
  | .query q => checked q
  | .value (.string s) => checked { text := s }
  | .value .null => .error .nullQuery
  | .value v => .error (.queryNotText v.typeName)
  | .absent => .error .nullQuery

/-- The query with one more parameter. -/
def withParam (q : Query) (name : String) (value : Value) : Query :=
  { q with parameters := Fields.insert name value q.parameters }

/-- The query with the parameters of a map, which win over its own. -/
def withParams (q : Query) (params : Params) : Query :=
  { q with parameters := q.parameters.merge params }

/-- The query with one more entry of metadata. -/
def withMetadata (q : Query) (name : String) (value : Value) : Query :=
  { q with metadata := some (Fields.insert name value (q.metadata.getD .empty)) }

end Query

end GraphSession
