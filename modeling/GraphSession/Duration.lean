import GraphSession.Decimal.Dyadic
import GraphSession.Text.Padded

/-!
  Spans of time.

  A duration is a whole number of nanoseconds, at most `2 ^ 64` seconds less one nanosecond.
  `ofSeconds?` rounds a double to the nearest nanosecond and refuses what is negative, not finite
  or too long; `toSeconds` goes back with one rounding for each part.
-/

namespace GraphSession

/-- A span of time in nanoseconds. -/
structure Duration where
  nanos : Nat
  deriving DecidableEq, Repr, Inhabited

namespace Duration

instance : LE Duration := ⟨fun a b => a.nanos ≤ b.nanos⟩
instance : LT Duration := ⟨fun a b => a.nanos < b.nanos⟩
instance (a b : Duration) : Decidable (a ≤ b) := inferInstanceAs (Decidable (a.nanos ≤ b.nanos))
instance (a b : Duration) : Decidable (a < b) := inferInstanceAs (Decidable (a.nanos < b.nanos))
instance : Min Duration := ⟨fun a b => if a.nanos ≤ b.nanos then a else b⟩
instance : Max Duration := ⟨fun a b => if a.nanos ≤ b.nanos then b else a⟩

theorem nanos_min (a b : Duration) : (min a b).nanos = min a.nanos b.nanos := by
  show (if a.nanos ≤ b.nanos then a else b).nanos = _
  split <;> omega

theorem nanos_max (a b : Duration) : (max a b).nanos = max a.nanos b.nanos := by
  show (if a.nanos ≤ b.nanos then b else a).nanos = _
  split <;> omega

/-- The nanoseconds of one second. -/
def nanosPerSecond : Nat := 1000000000

/-- The nanoseconds of one millisecond. -/
def nanosPerMilli : Nat := 1000000

def zero : Duration := ⟨0⟩
def ofSeconds (n : Nat) : Duration := ⟨n * nanosPerSecond⟩
def ofMillis (n : Nat) : Duration := ⟨n * nanosPerMilli⟩

/-- The whole seconds of a duration. -/
def seconds (d : Duration) : Nat := d.nanos / nanosPerSecond

/-- The nanoseconds beyond the last whole second. -/
def subsecond (d : Duration) : Nat := d.nanos % nanosPerSecond

/-- Seconds as a double: the whole seconds plus the rest, each rounded on its own. -/
def toSeconds (d : Duration) : Float :=
  Float.ofNat d.seconds + Float.ofNat d.subsecond / 1e9

/-- The first number of seconds that no duration reaches. -/
def secondsLimit : Nat := Nat.pow 2 64

/-- The duration of a number of seconds, rounded to the nearest nanosecond with ties going to the
    even one.  `none` when the number is negative, not finite or not below `2 ^ 64`. -/
def ofSeconds? (x : Float) : Option Duration :=
  if x < 0 then none
  else match Dyadic.ofFloat? x with
    | none => none
    | some d =>
      let (numerator, denominator) := d.magnitude
      if secondsLimit * denominator ≤ numerator then none
      else some ⟨roundHalfEven (numerator * nanosPerSecond) denominator⟩

/-- A number with its decimal places, where `rest` counts units of `10 ^ -width`. -/
private def withPlaces (whole width rest : Nat) : String :=
  let fraction := Text.places width rest
  if fraction = "" then toString whole else toString whole ++ "." ++ fraction

/-- A duration in the largest unit among `s`, `ms`, `µs` and `ns` that it fills at least once,
    with an exact fraction: `1.5s`, `100ms`, `0ns`. -/
def text (d : Duration) : String :=
  if 1000000000 ≤ d.nanos then
    withPlaces (d.nanos / 1000000000) 9 (d.nanos % 1000000000) ++ "s"
  else if 1000000 ≤ d.nanos then withPlaces (d.nanos / 1000000) 6 (d.nanos % 1000000) ++ "ms"
  else if 1000 ≤ d.nanos then withPlaces (d.nanos / 1000) 3 (d.nanos % 1000) ++ "µs"
  else toString d.nanos ++ "ns"

end Duration

end GraphSession
