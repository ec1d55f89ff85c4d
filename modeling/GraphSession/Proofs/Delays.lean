import GraphSession.Retry.Backoff

/-!
  How the delays of a series of attempts follow one another.

  A delay comes out of computations with doubles.  Nothing is assumed of these: the factor and the
  random share are free to be negative, infinite or not a number, and a sample or a product may be
  anything.  All that matters is that each computation ends in some duration (`Arithmetic`), which
  then passes through two clamps.

  **The crux (`nextDelayBy_between`)**: the first clamp lifts a delay to the one before it and the
  second lowers it to the longest one, so the second could undo the first.  It does not, because
  the delay before it was lowered to the same longest delay, and the first one of all is nothing.
  That is the invariant of the series (`Bounded`); the cut at the deadline comes after the delay
  has been remembered and so never reaches the next one.
-/

namespace GraphSession

namespace Backoff

/-! ## The decision, whatever the doubles come to -/

/-- What the computations with doubles come to: the delay that is drawn, and the base of the next
    one. -/
structure Arithmetic where
  drawn : Backoff → Float → Duration
  grown : Backoff → Duration

/-- The computations that are made. -/
def Arithmetic.doubles : Arithmetic where
  drawn b sample :=
    saturating (vary b.baseDelay.toSeconds b.config.jitter sample) b.config.maxDelay
  grown b := saturating (b.baseDelay.toSeconds * b.config.multiplier) b.config.maxDelay

/-- The next delay, and the state after it, when the doubles come to what `a` says. -/
def nextDelayBy (a : Arithmetic) (b : Backoff) (sample : Float) : Duration × Backoff :=
  let delay := min (max (a.drawn b sample) b.lastDelay) b.config.maxDelay
  (delay, { b with lastDelay := delay, baseDelay := a.grown b })

/-- A delay as it is returned at `now`: cut at the deadline, if there is one. -/
def cut (deadline : Option Instant) (now : Instant) (delay : Duration) : Duration :=
  match deadline with
  | none => delay
  | some t => min delay ⟨t - now⟩

/-- There is a deadline, and `now` is at or past it. -/
def Due (deadline : Option Instant) (now : Instant) : Prop := ∃ t, deadline = some t ∧ t ≤ now

instance (deadline : Option Instant) (now : Instant) : Decidable (Due deadline now) :=
  inferInstanceAs (Decidable (∃ t ∈ deadline, t ≤ now))

/-- One more failure. -/
def counted (b : Backoff) : Backoff := { b with attempts := b.attempts + 1 }

/-- The decision after a failure at `now`, and the state after it, when the doubles come to what
    `a` says. -/
def onFailureBy (a : Arithmetic) (b : Backoff) (now : Instant) (sample : Float) (fault : Fault) :
    Decision × Backoff :=
  if fault.isRetryable = false then (.giveUp fault, b.counted)
  else if Due b.deadline now then
    (.giveUp (.retriesExhausted b.counted.attempts fault), b.counted)
  else
    let (delay, b') := b.counted.nextDelayBy a sample
    (.retryAfter (cut b.deadline now delay), b')

/-- The decision that is made is the one by the computations that are made. -/
theorem onFailureBy_doubles (b : Backoff) (now : Instant) (sample : Float) (fault : Fault) :
    b.onFailureBy .doubles now sample fault = b.onFailure now sample fault := by
  unfold onFailureBy onFailure
  cases fault.isRetryable with
  | false => rfl
  | true =>
    obtain ⟨config, deadline, attempts, baseDelay, lastDelay⟩ := b
    cases deadline with
    | none =>
      have open' : ¬ Due none now := by
        rintro ⟨_, e, -⟩
        cases e
      simp only [open', if_false]
      rfl
    | some t =>
      by_cases late : t ≤ now
      · simp only [show Due (some t) now from ⟨t, rfl, late⟩, if_true, late]
        rfl
      · have open' : ¬ Due (some t) now := by
          rintro ⟨_, e, h⟩
          cases e
          exact late h
        simp only [open', if_false, late]
        rfl

/-! ## One failure -/

variable {a : Arithmetic} {b : Backoff} {now : Instant} {sample : Float} {fault : Fault}

/-- What can come of one failure. -/
inductive Reaction (a : Arithmetic) (b : Backoff) (now : Instant) (sample : Float)
    (fault : Fault) : Decision × Backoff → Prop
  /-- Another attempt would not help. -/
  | final (final : fault.isRetryable = false) : Reaction a b now sample fault (.giveUp fault, b.counted)
  /-- The deadline has come. -/
  | late (retryable : fault.isRetryable = true) (due : Due b.deadline now) :
    Reaction a b now sample fault
      (.giveUp (.retriesExhausted b.counted.attempts fault), b.counted)
  /-- Another attempt, after the next delay or what is left of the time. -/
  | again (retryable : fault.isRetryable = true) (early : ¬ Due b.deadline now) :
    Reaction a b now sample fault
      (.retryAfter (cut b.deadline now (b.counted.nextDelayBy a sample).1),
        (b.counted.nextDelayBy a sample).2)

theorem onFailureBy_reacts (a : Arithmetic) (b : Backoff) (now : Instant) (sample : Float)
    (fault : Fault) : Reaction a b now sample fault (b.onFailureBy a now sample fault) := by
  unfold onFailureBy
  cases retryable : fault.isRetryable with
  | false => exact .final retryable
  | true =>
    by_cases due : Due b.deadline now
    · simpa only [due, if_true] using .late retryable due
    · simpa only [due, if_false] using .again retryable due

/-- No delay so far was longer than the longest one. -/
def Bounded (b : Backoff) : Prop := b.lastDelay ≤ b.config.maxDelay

theorem start_bounded (config : RetryConfig) (now : Instant) : (start config now).Bounded :=
  Nat.zero_le _

/-- The next delay lies between the last one and the longest one. -/
theorem nextDelayBy_between (h : b.Bounded) (a : Arithmetic) (sample : Float) :
    b.lastDelay ≤ (b.nextDelayBy a sample).1 ∧
      (b.nextDelayBy a sample).1 ≤ b.config.maxDelay := by
  have bound : b.lastDelay.nanos ≤ b.config.maxDelay.nanos := h
  show b.lastDelay.nanos ≤ (min (max _ _) _ : Duration).nanos ∧
    (min (max _ _) _ : Duration).nanos ≤ _
  rw [Duration.nanos_min, Duration.nanos_max]
  omega

theorem nanos_cut_le (deadline : Option Instant) (now : Instant) (delay : Duration) :
    (cut deadline now delay).nanos ≤ delay.nanos := by
  cases deadline with
  | none => exact Nat.le_refl _
  | some t =>
    show (min _ _ : Duration).nanos ≤ _
    rw [Duration.nanos_min]
    exact Nat.min_le_left _ _

/-- A delay that the deadline shortens becomes the time that is left. -/
theorem cut_of_lt {deadline : Option Instant} {delay : Duration}
    (shorter : (cut deadline now delay).nanos < delay.nanos) :
    ∃ t, deadline = some t ∧ cut deadline now delay = ⟨t - now⟩ := by
  cases deadline with
  | none => exact absurd shorter (Nat.lt_irrefl _)
  | some t =>
    refine ⟨t, rfl, ?_⟩
    by_cases within : delay.nanos ≤ t - now
    · have same : cut (some t) now delay = delay := if_pos within
      rw [same] at shorter
      exact absurd shorter (Nat.lt_irrefl _)
    · exact if_neg within

/-! ## A series -/

/-- A failure, when it was met, and the sample that was drawn. -/
structure Setback where
  now : Instant
  sample : Float
  fault : Fault

/-- A failure with the state before it, the decision after it and the state from then on. -/
structure Response where
  setback : Setback
  before : Backoff
  decision : Decision
  after : Backoff

/-- The response to one failure. -/
def respond (a : Arithmetic) (b : Backoff) (s : Setback) : Response :=
  let r := b.onFailureBy a s.now s.sample s.fault
  ⟨s, b, r.1, r.2⟩

/-- The responses to failures that come one after the other. -/
def meet (a : Arithmetic) : Backoff → List Setback → List Response
  | _, [] => []
  | b, s :: rest => b.respond a s :: (b.respond a s).after.meet a rest

/-- What holds of every response of a series that has this deadline and this longest delay. -/
structure Response.Apt (a : Arithmetic) (deadline : Option Instant) (cap : Duration)
    (r : Response) : Prop where
  /-- No delay is longer than the longest one. -/
  capped : r.after.lastDelay ≤ cap
  /-- What is returned is the next delay, which is remembered, cut at the deadline. -/
  returned : ∀ d, r.decision = .retryAfter d →
    (r.before.counted.nextDelayBy a r.setback.sample).1 = r.after.lastDelay ∧
      d = cut deadline r.setback.now r.after.lastDelay
  /-- A failure that another attempt may get past is final exactly when the deadline has come. -/
  final : r.setback.fault.isRetryable = true →
    ((∃ fault, r.decision = .giveUp fault) ↔ Due deadline r.setback.now)

/-- One failure: the terms of the series stay, the remembered delay does not shrink, and the
    response is apt. -/
theorem respond_apt (h : b.Bounded) (a : Arithmetic) (s : Setback) :
    (b.respond a s).after.config = b.config ∧ (b.respond a s).after.deadline = b.deadline ∧
      b.lastDelay ≤ (b.respond a s).after.lastDelay ∧
      (b.respond a s).Apt a b.deadline b.config.maxDelay := by
  unfold respond
  have reacts := onFailureBy_reacts a b s.now s.sample s.fault
  generalize b.onFailureBy a s.now s.sample s.fault = r at reacts ⊢
  cases reacts with
  | final final =>
    refine ⟨rfl, rfl, Nat.le_refl _, ⟨h, fun d e => ?_, fun retryable => ?_⟩⟩
    · cases e
    · exact absurd retryable (by simp [final])
  | late retryable due =>
    refine ⟨rfl, rfl, Nat.le_refl _, ⟨h, fun d e => ?_, fun _ => ⟨fun _ => due, fun _ => ⟨_, rfl⟩⟩⟩⟩
    cases e
  | again retryable early =>
    obtain ⟨atLeast, atMost⟩ := nextDelayBy_between (b := b.counted) h a s.sample
    refine ⟨rfl, rfl, atLeast, ⟨atMost, fun d e => ?_, fun _ => ⟨fun gaveUp => ?_, fun due => ?_⟩⟩⟩
    · cases e
      exact ⟨rfl, rfl⟩
    · obtain ⟨_, e⟩ := gaveUp
      cases e
    · exact absurd due early

/-- A whole series: every response is apt, and no remembered delay is below an earlier one. -/
theorem meet_apt (h : b.Bounded) (a : Arithmetic) (setbacks : List Setback) :
    (∀ r ∈ b.meet a setbacks,
      b.lastDelay ≤ r.after.lastDelay ∧ r.Apt a b.deadline b.config.maxDelay) ∧
      (b.meet a setbacks).Pairwise fun r s => r.after.lastDelay ≤ s.after.lastDelay := by
  induction setbacks generalizing b with
  | nil => exact ⟨by simp [meet], .nil⟩
  | cons s rest ih =>
    obtain ⟨config, deadline, grows, apt⟩ := respond_apt h a s
    have bounded : (b.respond a s).after.Bounded := by
      unfold Bounded
      rw [config]
      exact apt.capped
    obtain ⟨later, ordered⟩ := ih bounded
    rw [config, deadline] at later
    refine ⟨fun r hr => ?_, List.pairwise_cons.2 ⟨fun r hr => (later r hr).1, ordered⟩⟩
    rcases List.mem_cons.1 hr with rfl | hr
    · exact ⟨grows, apt⟩
    · exact ⟨Nat.le_trans grows (later r hr).1, (later r hr).2⟩

/-- No failure is left without a response. -/
theorem meet_setbacks (a : Arithmetic) (b : Backoff) (setbacks : List Setback) :
    (b.meet a setbacks).map (·.setback) = setbacks := by
  induction setbacks generalizing b with
  | nil => rfl
  | cons s rest ih => exact congrArg (s :: ·) (ih _)

/-- A returned delay below an earlier one is the time that is left. -/
theorem Response.Apt.shrinks {deadline : Option Instant} {cap : Duration} {r s : Response}
    (hr : r.Apt a deadline cap) (hs : s.Apt a deadline cap)
    (ordered : r.after.lastDelay ≤ s.after.lastDelay) {d e : Duration}
    (first : r.decision = .retryAfter d) (then' : s.decision = .retryAfter e) (shorter : e < d) :
    ∃ t, deadline = some t ∧ e = ⟨t - s.setback.now⟩ := by
  obtain ⟨-, rfl⟩ := hr.returned d first
  obtain ⟨-, rfl⟩ := hs.returned e then'
  refine cut_of_lt ?_
  calc (cut deadline s.setback.now s.after.lastDelay).nanos
      < (cut deadline r.setback.now r.after.lastDelay).nanos := shorter
    _ ≤ r.after.lastDelay.nanos := nanos_cut_le _ _ _
    _ ≤ s.after.lastDelay.nanos := ordered

/-- Delays are monotone, capped and cut at the deadline, whatever the settings, the samples, the
    instants and the outcomes of the computations with doubles. -/
theorem meet_delays (a : Arithmetic) (config : RetryConfig) (began : Instant)
    (setbacks : List Setback) :
    (∀ b now sample fault, onFailureBy .doubles b now sample fault = b.onFailure now sample fault) ∧
    ((start config began).meet a setbacks).map (·.setback) = setbacks ∧
    ((start config began).meet a setbacks).Pairwise (fun r s =>
      r.after.lastDelay ≤ s.after.lastDelay ∧
        ∀ d e, r.decision = .retryAfter d → s.decision = .retryAfter e → e < d →
          ∃ t, Clock.after? began config.maxRetryTime = some t ∧ e = ⟨t - s.setback.now⟩) ∧
    ∀ r ∈ (start config began).meet a setbacks,
      r.Apt a (Clock.after? began config.maxRetryTime) config.maxDelay := by
  obtain ⟨apt, ordered⟩ := meet_apt (start_bounded config began) a setbacks
  refine ⟨onFailureBy_doubles, meet_setbacks _ _ _, ?_, fun r hr => (apt r hr).2⟩
  refine ordered.imp_of_mem fun {r s} hr hs le => ⟨le, fun d e first then' shorter => ?_⟩
  exact (apt r hr).2.shrinks (apt s hs).2 le first then' shorter

end Backoff

end GraphSession
