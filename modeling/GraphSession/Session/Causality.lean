import GraphSession.Session.Unit

/-!
  Bookmarks along the units of a session.

  A unit carries the session's own bookmarks and, when there is a manager, those the manager holds
  at that moment.  The token that a unit returns becomes the session's only bookmark and is then
  reported to the manager, together with the bookmarks that the unit carried.
-/

namespace GraphSession

variable {ω : Type}

/-- The bookmarks that new work carries. -/
def bookmarksForWork (peer : Peer ω) : Op ω Bookmarks := do
  let s ← theSession
  if s.config.hasManager then
    return s.bookmarks.union (← askBookmarks peer)
  else
    return s.bookmarks

/-- Takes in the token of a completed unit that carried `sent`.  The session has it even when the
    report to the manager fails. -/
def takeBookmark (peer : Peer ω) (sent : Bookmarks) (token : String) : Op ω Unit := do
  let new := Bookmarks.singleton token
  changeSession ({ · with bookmarks := new })
  if (← theSession).config.hasManager then
    reportBookmarks peer sent new

/-- As `takeBookmark`, for a unit that may have returned no token. -/
def takeBookmark? (peer : Peer ω) (sent : Bookmarks) (token : Option String) : Op ω Unit :=
  match token with
  | some token => takeBookmark peer sent token
  | none => pure ()

end GraphSession
