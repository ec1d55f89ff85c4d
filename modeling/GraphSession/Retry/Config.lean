import GraphSession.Duration

/-!
  How long and how often a transaction function is tried.
-/

namespace GraphSession

/-- The settings of a series of attempts. -/
structure RetryConfig where
  /-- The time from the start after which no further attempt is made. -/
  maxRetryTime : Duration := .ofSeconds 30
  /-- The first delay. -/
  initialDelay : Duration := .ofSeconds 1
  /-- The factor from one delay to the next. -/
  multiplier : Float := 2.0
  /-- The share of a delay that is random, to either side. -/
  jitter : Float := 0.2
  /-- The longest delay. -/
  maxDelay : Duration := .ofSeconds 30
  deriving Inhabited

namespace RetryConfig

/-- Sets the factor; delays never shrink, so the least factor is one. -/
def withMultiplier (c : RetryConfig) (x : Float) : RetryConfig :=
  { c with multiplier := if x > 1 then x else 1 }

/-- Sets the random share, kept between nothing and all. -/
def withJitter (c : RetryConfig) (x : Float) : RetryConfig :=
  { c with jitter := if x < 0 then 0 else if x > 1 then 1 else x }

end RetryConfig

end GraphSession
