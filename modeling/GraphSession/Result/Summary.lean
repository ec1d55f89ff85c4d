import GraphSession.Address
import GraphSession.Query.Basic

/-!
  Summaries of results.

  When a result is complete, the server's metadata tell what the query was and did.  The metadata
  have no fixed form: what is missing or of another type counts as not told.
-/

namespace GraphSession

/-- What a query does to the graph. -/
inductive QueryType
  | readOnly
  | readWrite
  | writeOnly
  | schemaWrite
  deriving DecidableEq, Repr

def QueryType.ofCode? : String → Option QueryType
  | "r" => some readOnly
  | "rw" => some readWrite
  | "w" => some writeOnly
  | "s" => some schemaWrite
  | _ => none

def QueryType.name : QueryType → String
  | readOnly => "ReadOnly"
  | readWrite => "ReadWrite"
  | writeOnly => "WriteOnly"
  | schemaWrite => "SchemaWrite"

/-- How much a query changed. -/
structure Counters where
  nodesCreated : Int64 := 0
  nodesDeleted : Int64 := 0
  relationshipsCreated : Int64 := 0
  relationshipsDeleted : Int64 := 0
  propertiesSet : Int64 := 0
  labelsAdded : Int64 := 0
  labelsRemoved : Int64 := 0
  indexesAdded : Int64 := 0
  indexesRemoved : Int64 := 0
  constraintsAdded : Int64 := 0
  constraintsRemoved : Int64 := 0
  systemUpdates : Int64 := 0
  deriving DecidableEq, Inhabited

/-- An integer in a map; zero when there is none. -/
def integerIn (entries : Metadata) (name : String) : Int64 :=
  ((entries.get? name).bind Value.asInt?).getD 0

/-- A text in a map; empty when there is none. -/
def textIn (entries : Metadata) (name : String) : String :=
  ((entries.get? name).bind Value.asString?).getD ""

namespace Counters

def ofMetadata (stats : Metadata) : Counters :=
  { nodesCreated := integerIn stats "nodes-created"
    nodesDeleted := integerIn stats "nodes-deleted"
    relationshipsCreated := integerIn stats "relationships-created"
    relationshipsDeleted := integerIn stats "relationships-deleted"
    propertiesSet := integerIn stats "properties-set"
    labelsAdded := integerIn stats "labels-added"
    labelsRemoved := integerIn stats "labels-removed"
    indexesAdded := integerIn stats "indexes-added"
    indexesRemoved := integerIn stats "indexes-removed"
    constraintsAdded := integerIn stats "constraints-added"
    constraintsRemoved := integerIn stats "constraints-removed"
    systemUpdates := integerIn stats "system-updates" }

/-- The counts of changes to the graph, in the order of the fields. -/
def graphCounts (c : Counters) : List Int64 :=
  [c.nodesCreated, c.nodesDeleted, c.relationshipsCreated, c.relationshipsDeleted,
   c.propertiesSet, c.labelsAdded, c.labelsRemoved, c.indexesAdded, c.indexesRemoved,
   c.constraintsAdded, c.constraintsRemoved]

/-- Whether the graph changed. -/
def containsUpdates (c : Counters) : Bool := c.graphCounts.any (0 < ·)

/-- Whether the system changed. -/
def containsSystemUpdates (c : Counters) : Bool := 0 < c.systemUpdates

end Counters

/-- A place in a query. -/
structure InputPosition where
  offset : Int64
  line : Int64
  column : Int64
  deriving DecidableEq, Inhabited

/-- A hint or warning of the server. -/
structure Notification where
  code : String
  title : String
  description : String
  severity : String
  category : String
  position : Option InputPosition
  deriving DecidableEq, Inhabited

/-- A notification from a map; no other value is one. -/
def Notification.ofValue? (value : Value) : Option Notification := do
  let entries ← value.asMap?
  some
    { code := textIn entries "code"
      title := textIn entries "title"
      description := textIn entries "description"
      severity := textIn entries "severity"
      category := textIn entries "category"
      position := ((entries.get? "position").bind Value.asMap?).map fun p =>
        ⟨integerIn p "offset", integerIn p "line", integerIn p "column"⟩ }

/-- What is known of a result when it is complete. -/
structure Summary where
  query : Query
  queryType : Option QueryType
  counters : Counters
  /-- The server's time until the first record. -/
  availableAfter : Option Duration
  /-- The server's time until the last record. -/
  consumedAfter : Option Duration
  database : Option String
  server : Option ServerInfo
  notifications : List Notification
  bookmark : Option String
  deriving Inhabited

namespace Summary

/-- A number of milliseconds; a negative one counts as not told. -/
def millisIn (entries : Metadata) (name : String) : Option Duration :=
  match (entries.get? name).bind Value.asInt? with
  | some ms => if 0 ≤ ms.toInt then some (.ofMillis ms.toInt.toNat) else none
  | none => none

/-- The summary of a result, from the metadata of its start and of its end.  The end decides on
    the database as soon as it names one in any way. -/
def ofMetadata (query : Query) (server : Option ServerInfo) (start finish : Metadata) : Summary :=
  { query
    queryType := ((finish.get? "type").bind Value.asString?).bind QueryType.ofCode?
    counters := (((finish.get? "stats").bind Value.asMap?).map Counters.ofMetadata).getD {}
    availableAfter := millisIn start "t_first"
    consumedAfter := millisIn finish "t_last"
    database := ((finish.get? "db").or (start.get? "db")).bind Value.asString?
    server
    notifications := (((finish.get? "notifications").bind Value.asList?).getD []).filterMap
      Notification.ofValue?
    bookmark := (finish.get? "bookmark").bind Value.asString? }

end Summary

end GraphSession
