import GraphSession.Clock
import GraphSession.Fault.Basic
import GraphSession.Retry.Config

/-!
  When to try again.

  After a failure that another attempt may get past, the next attempt waits.  Delays grow by a
  factor and vary by a random share; they never shrink, never exceed the configured maximum, and
  are cut at the deadline.  At or past the deadline the failure is final.  The clock reading and
  the random sample are arguments, so the decision is a function.
-/

namespace GraphSession

/-- The state of one series of attempts. -/
structure Backoff where
  config : RetryConfig
  /-- `none` when the time allowed reaches past the end of the clock. -/
  deadline : Option Instant
  /-- The number of failures so far, in a word of 32 bits that goes round after the last number. -/
  attempts : UInt32 := 0
  /-- The next delay before it is varied. -/
  baseDelay : Duration
  lastDelay : Duration := .zero
  deriving Inhabited

/-- What to do after a failure. -/
inductive Decision
  | retryAfter (delay : Duration)
  | giveUp (fault : Fault)

namespace Backoff

/-- A series of attempts that starts now. -/
def start (config : RetryConfig) (now : Instant) : Backoff :=
  { config, deadline := Clock.after? now config.maxRetryTime, baseDelay := config.initialDelay }

/-- A number of seconds as a duration of at most `cap`.  What is not positive counts as nothing;
    what is too large, or not a number, as `cap`. -/
def saturating (seconds : Float) (cap : Duration) : Duration :=
  if seconds <= 0 then .zero else min ((Duration.ofSeconds? seconds).getD cap) cap

/-- The delay in seconds, varied by a sample between zero and one. -/
def vary (base jitter sample : Float) : Float :=
  let spread := base * jitter
  if spread > 0 then base - spread + 2 * spread * sample else base

/-- The next delay, and the state after it. -/
def nextDelay (b : Backoff) (sample : Float) : Duration × Backoff :=
  let base := b.baseDelay.toSeconds
  let cap := b.config.maxDelay
  let delay := min (max (saturating (vary base b.config.jitter sample) cap) b.lastDelay) cap
  (delay, { b with lastDelay := delay, baseDelay := saturating (base * b.config.multiplier) cap })

/-- The decision after a failure at `now`, and the state after it. -/
def onFailure (b : Backoff) (now : Instant) (sample : Float) (fault : Fault) :
    Decision × Backoff :=
  let b := { b with attempts := b.attempts + 1 }
  if !fault.isRetryable then (.giveUp fault, b)
  else match b.deadline with
    | none =>
      let (delay, b) := b.nextDelay sample
      (.retryAfter delay, b)
    | some deadline =>
      if deadline ≤ now then (.giveUp (.retriesExhausted b.attempts fault), b)
      else
        let (delay, b) := b.nextDelay sample
        (.retryAfter (min delay ⟨deadline - now⟩), b)

end Backoff

end GraphSession
