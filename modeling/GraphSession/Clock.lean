import GraphSession.Duration

/-!
  Instants and timers.

  The clock counts nanoseconds and ends after `2 ^ 63 - 1` seconds.  Timers ring at whole
  milliseconds: at the first one that is not before the time they were set for.
-/

namespace GraphSession

/-- Nanoseconds since the clock started. -/
abbrev Instant := Nat

namespace Clock

/-- The first second that the clock does not reach. -/
def limit : Nat := Nat.pow 2 63 - 1

/-- The instant a time after another, if the clock reaches that far. -/
def after? (now : Instant) (d : Duration) : Option Instant :=
  let sum := now + d.nanos
  if sum / Duration.nanosPerSecond < limit then some sum else none

/-- As long as nobody waits: thirty years of 365 days. -/
def farFuture : Duration := .ofSeconds (30 * 365 * 24 * 60 * 60)

/-- The next whole millisecond, or `t` itself if it is one. -/
def ceilMillis (t : Instant) : Instant :=
  (t + (Duration.nanosPerMilli - 1)) / Duration.nanosPerMilli * Duration.nanosPerMilli

/-- When a timer rings that is set now for a time later.  A time that the clock does not reach
    counts as the far future. -/
def ringsAt (now : Instant) (d : Duration) : Instant :=
  ceilMillis ((after? now d).getD (now + farFuture.nanos))

end Clock

end GraphSession
