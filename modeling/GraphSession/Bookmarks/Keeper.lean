import GraphSession.Bookmarks.Basic

/-!
  Bookmarks shared by several sessions.

  A keeper holds the bookmarks that new work should wait for.  When a unit of work completes, the
  bookmarks it carried are covered by the ones it returned, so these replace them.  A report
  without new bookmarks changes nothing.
-/

namespace GraphSession.Bookmarks

/-- What a keeper holds after a unit that carried `previous` returned `new`. -/
def settle (current previous new : Bookmarks) : Bookmarks :=
  if new.isEmpty then current else (current.difference previous).union new

end GraphSession.Bookmarks
