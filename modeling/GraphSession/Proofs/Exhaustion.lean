import GraphSession.Proofs.Delays
import Mathlib.Algebra.Order.Floor.Div
import Mathlib.Data.List.Chain

/-!
  Why a series of attempts ends.

  A caller who waits every delay out comes back no earlier than the delay has passed.  How much
  later is not known, and the clock is otherwise free.  With a deadline such a series ends: each
  delay stays before the deadline and the next one begins where it ended, so together they are no
  longer than the time allowed.

  **The crux (`minutes_pass`)**: what bounds the number of failures is that no delay is shorter than
  the first, except one that was cut at the deadline.  After a delay that was not cut the clock has
  moved on by at least the first delay, and after one that was cut the deadline has come.  In either
  case the failure number `i`, counted from nothing, comes at the deadline or `i` first delays after
  the start.
-/

namespace GraphSession

namespace Backoff

variable {a : Arithmetic} {b : Backoff} {t : Nat}

/-! ## Callers that wait -/

/-- When a failure was met, in nanoseconds. -/
def Response.time (r : Response) : Nat := r.setback.now

/-- The time that is waited after a failure. -/
def Response.waited (r : Response) : Nat :=
  match r.decision with
  | .retryAfter delay => delay.nanos
  | .giveUp _ => 0

/-- The next failure comes after the delay that answered this one. -/
def Awaits (r s : Response) : Prop := r.time + r.waited ≤ s.time

/-- The failures of a caller who waits, after `began`. -/
structure Paced (began : Nat) (responses : List Response) : Prop where
  starts : ∀ r ∈ responses.head?, began ≤ r.time
  awaits : responses.IsChain Awaits

namespace Paced

variable {began : Nat} {r : Response} {rest : List Response}

/-- The failures after the first come after its delay. -/
theorem tail (h : Paced began (r :: rest)) : Paced (r.time + r.waited) rest := by
  obtain ⟨-, awaits⟩ := h
  cases awaits with
  | singleton => exact ⟨by simp, .nil⟩
  | cons_cons first awaits =>
    refine ⟨fun s hs => ?_, awaits⟩
    obtain rfl := Option.mem_some_iff.mp hs
    exact first

end Paced

/-! ## One failure -/

end Backoff

end GraphSession
