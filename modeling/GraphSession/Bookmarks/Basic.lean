import GraphSession.Bookmarks.TokenSet
import GraphSession.Json.Reader
import GraphSession.Text.Quoted

/-!
  Bookmarks.

  A server answers a completed unit of work with a bookmark, and a later unit that carries it sees
  what that one wrote.  A value of `Bookmarks` is a set of such tokens that also remembers which one
  came last.  The last token is a courtesy: equality and the written forms look at the set alone.
-/

namespace GraphSession

/-- A set of bookmarks and the one that was added last, if that is known. -/
structure Bookmarks where
  tokens : TokenSet
  latest : Option String
  deriving Inhabited

namespace Bookmarks

instance : BEq Bookmarks := ⟨fun a b => a.tokens == b.tokens⟩

instance : Hashable Bookmarks := ⟨fun b => hash b.tokens.toList⟩

/-- No bookmarks. -/
def empty : Bookmarks := ⟨.empty, none⟩

/-- The bookmarks of a list; the last one given is the latest. -/
def ofList (values : List String) : Bookmarks := ⟨.ofList values, values.getLast?⟩

/-- One bookmark. -/
def singleton (value : String) : Bookmarks := ofList [value]

/-- The bookmarks in ascending order. -/
def toList (b : Bookmarks) : List String := b.tokens.toList

def size (b : Bookmarks) : Nat := b.tokens.size

def isEmpty (b : Bookmarks) : Bool := b.toList.isEmpty

def contains (b : Bookmarks) (value : String) : Bool := decide (value ∈ b.tokens)

/-- The bookmarks of both; the latest is that of `b`, or that of `a` when `b` knows none. -/
def union (a b : Bookmarks) : Bookmarks := ⟨a.tokens.union b.tokens, b.latest.or a.latest⟩

/-- The bookmarks of `a` that are not in `b`; the latest stays only if it is one of them. -/
def difference (a b : Bookmarks) : Bookmarks :=
  let tokens := a.tokens.difference b.tokens
  ⟨tokens, a.latest.filter fun x => x ∈ tokens⟩

/-- Takes the bookmarks of `b` in one by one, then its latest if it knows one. -/
def extend (a b : Bookmarks) : Bookmarks :=
  let tokens := b.toList.foldl (fun s x => s.insert x) a.tokens
  match b.latest with
  | none => ⟨tokens, a.latest⟩
  | some x => ⟨tokens, some x⟩

/-- The diagnostic text. -/
def debug (b : Bookmarks) : String :=
  Text.debugRecord "Bookmarks"
    [("values", Text.debugSet (b.toList.map Text.debug)),
     ("latest", Text.debugOption (b.latest.map Text.debug))]

/-- The JSON text: the list of the bookmarks in ascending order. -/
def toJsonText (b : Bookmarks) : String :=
  let items := b.toList.map fun x => Text.jsonChars x.toList
  String.ofList ('[' :: [','].intercalate items ++ [']'])

/-- The text of a JSON string; `none` for any other document. -/
private def string? : Json → Option String
  | .string s => some s
  | _ => none

/-- The bookmarks of a JSON list of strings; which one came last is not known. -/
def ofJsonText? (text : String) : Option Bookmarks :=
  match Json.parse? text with
  | some (.list items) => (items.mapM string?).map fun values => ⟨.ofList values, none⟩
  | _ => none

end Bookmarks

end GraphSession
