import GraphSession.Proofs.Operation

/-!
  Connections that go back.

  Another session gets the connection that the pool gets back, so whatever went wrong on it must
  have been cleared up.  `Proper` says that the dialogue on it is clean; here that is read off the
  messages since the connection was lent.  If one of them failed, a reset was sent after the last
  that did; if none did, no stream and no transaction is open.

  Telemetry is the exception, because its failure says nothing of the dialogue: a connection on
  which telemetry failed goes back at once, as it was lent.
-/

namespace GraphSession

variable {ω : Type}

/-! ## Since the loan -/

/-- Whether a message was sent on the connection. -/
def Happening.isOn (c : Connection) : Happening → Bool
  | asked (.send c' _ _) _ => c' = c
  | _ => false

theorem Happening.IsAside.isOn {e : Happening} (h : e.IsAside) (c : Connection) :
    e.isOn c = false := by
  unfold Happening.isOn
  split
  · cases h
  · rfl

theorem Happening.IsAside.lends {e : Happening} (h : e.IsAside) (c : Connection) :
    e.lends c = false := by
  unfold Happening.lends
  split
  · cases h
  · rfl

theorem Happening.IsAside.returns {e : Happening} (h : e.IsAside) (c : Connection) :
    e.returns c = false := by
  unfold Happening.returns
  split
  · cases h
  · rfl

namespace History

/-- The connection was lent, and `since` happened since; it did not go back. -/
def LentSince (c : Connection) (h since : History) : Prop :=
  ∃ request before, h = since ++ .asked (.acquire request) (.ok c) :: before ∧
    ∀ e ∈ since, e.lends c = false ∧ e.returns c = false

/-- After every message that failed on the connection, telemetry apart, a reset was sent on it. -/
def ResetAfterFailures (c : Connection) (since : History) : Prop :=
  ∀ later e earlier, since = later ++ e :: earlier → e.isOn c = true → e.fails = true →
    ∃ e' ∈ later, e'.isOn c = true ∧ e'.resets = true

variable {c : Connection} {d : Dialogue} {e : Happening} {since h : History}

/-- One thing more happened, and it did not fail. -/
theorem ResetAfterFailures.cons (cleared : ResetAfterFailures c since) (well : e.fails = false) :
    ResetAfterFailures c (e :: since) := by
  intro later e' earlier split on fails
  cases later with
  | nil =>
    obtain ⟨rfl, -⟩ := List.cons.inj split
    rw [well] at fails
    cases fails
  | cons e₀ later =>
    obtain ⟨-, rest⟩ := List.cons.inj split
    obtain ⟨e'', he, reset⟩ := cleared later e' earlier rest on fails
    exact ⟨e'', List.mem_cons_of_mem e₀ he, reset⟩

/-- After a reset every earlier failure is followed by one. -/
theorem resetAfterFailures_of_reset (on : e.isOn c = true) (reset : e.resets = true)
    (well : e.fails = false) : ResetAfterFailures c (e :: since) := by
  intro later e' earlier split _ fails
  cases later with
  | nil =>
    obtain ⟨rfl, -⟩ := List.cons.inj split
    rw [well] at fails
    cases fails
  | cons e₀ later =>
    obtain ⟨rfl, -⟩ := List.cons.inj split
    exact ⟨e, List.mem_cons_self, on, reset⟩

/-- What a dialogue remembers of failures and resets is what happened since the loan. -/
theorem lentSince_of_dialogue (proper : Always Proper h)
    (lent : History.dialogue c h = some d) :
    ∃ since, h.LentSince c since ∧
      (d.failed = true ↔ ∃ e ∈ since, e.isOn c = true ∧ e.fails = true) ∧
        (d.reset = true → d.failed = true ∧ ResetAfterFailures c since) := by
  induction h generalizing d with
  | nil => cases lent
  | cons e past ih =>
    rcases dialogue_before proper lent with ⟨request, rfl, rfl⟩ |
      ⟨sender, m, answer, d', rfl, lent', allowed, warranted, rfl⟩ | ⟨aside, lent'⟩
    · exact ⟨[], ⟨request, past, rfl, by simp⟩, by simp, fun e => by cases e⟩
    · obtain ⟨since, ⟨request, before, rfl, calm⟩, failed, reset⟩ := ih proper.2 lent'
      refine ⟨_ :: since, ⟨request, before, rfl, fun e he => ?_⟩, ?_, fun now => ?_⟩
      · rcases List.mem_cons.mp he with rfl | he
        · exact ⟨rfl, rfl⟩
        · exact calm e he
      · rw [Dialogue.failed_after (c := c), Bool.or_eq_true, failed, or_comm]
        simp only [Happening.isOn, List.mem_cons, exists_eq_or_imp, decide_true, true_and]
      · -- nothing follows a reset, so it is this one
        obtain rfl : m = .reset := Classical.byContradiction fun work => by
          rw [Dialogue.reset_after (c := c), Bool.or_eq_true, (allowed.isSound work).2] at now
          cases m with
          | reset => exact work rfl
          | telemetry _ | run _ | pull _ | discard | begin _ | commit | rollback =>
            simp [Happening.resets] at now
        refine ⟨?_, resetAfterFailures_of_reset (by simp [Happening.isOn]) rfl rfl⟩
        rw [Dialogue.failed_after (c := c), Bool.or_eq_true]
        exact .inl warranted
    · obtain ⟨since, ⟨request, before, rfl, calm⟩, failed, reset⟩ := ih proper.2 lent'
      refine ⟨e :: since, ⟨request, before, rfl, fun e' he => ?_⟩, ?_, fun now => ?_⟩
      · rcases List.mem_cons.mp he with rfl | he
        · exact ⟨aside.lends c, aside.returns c⟩
        · exact calm e' he
      · rw [failed]
        simp [aside.isOn c]
      · exact (reset now).imp id fun cleared => cleared.cons aside.fails

end History

/-! ## Failed telemetry -/

/-- After telemetry that failed, the connection goes back, and it was lent just before. -/
def SentBack (past : History) (e : Happening) : Prop :=
  ∀ c sender kind fault before,
    past = .asked (.send c sender (.telemetry kind)) (.error fault) :: before →
      e = .asked (.release c) () ∧ ∃ request earlier,
        before = .asked (.acquire request) (.ok c) :: earlier

/-- Whatever follows on something else than telemetry that failed. -/
theorem sentBack_of_failsTelemetry {past : History} {e : Happening}
    (unfailed : ∀ e' ∈ past.head?, e'.failsTelemetry = false) : SentBack past e := by
  rintro c sender kind fault before rfl
  cases unfailed _ rfl

/-- Connections on which telemetry failed went back, and it is not telemetry that happened last. -/
structure State.Settles (σ : State (Recorded ω)) : Prop where
  sentBack : Always SentBack σ.history
  unfailed : ∀ e ∈ σ.history.head?, e.failsTelemetry = false

namespace State

variable {σ τ : State (Recorded ω)}

/-- No telemetry failed. -/
theorem Settles.quiet (h : σ.Settles) {later : History}
    (quiet : ∀ e ∈ later, e.failsTelemetry = false)
    (history : τ.history = later ++ σ.history) : τ.Settles := by
  obtain ⟨sentBack, unfailed⟩ := h
  suffices all : Always SentBack (later ++ σ.history) ∧
      ∀ e ∈ (later ++ σ.history).head?, e.failsTelemetry = false from
    ⟨history ▸ all.1, history ▸ all.2⟩
  clear history
  induction later with
  | nil => exact ⟨sentBack, unfailed⟩
  | cons e later ih =>
    obtain ⟨sentBack, unfailed⟩ := ih fun e' he => quiet e' (List.mem_cons_of_mem e he)
    refine ⟨⟨sentBack_of_failsTelemetry unfailed, sentBack⟩, fun e' last => ?_⟩
    cases last
    exact quiet _ List.mem_cons_self

theorem Settles.one (h : σ.Settles) {e : Happening} (quiet : e.failsTelemetry = false)
    (history : τ.history = e :: σ.history) : τ.Settles :=
  h.quiet (fun _ he => List.mem_singleton.mp he ▸ quiet)
    (show τ.history = [e] ++ σ.history from history)

theorem Settles.same (h : σ.Settles) (history : τ.history = σ.history) : τ.Settles :=
  ⟨history ▸ h.sentBack, history ▸ h.unfailed⟩

/-- A connection was borrowed and went back. -/
theorem Settles.loanRefused (h : σ.Settles) {request : AcquireRequest} {c : Connection}
    {kind : ApiKind} {fault : Fault}
    (history : τ.history = History.loanRefused request c kind fault ++ σ.history) :
    τ.Settles := by
  have lent : Always SentBack (.asked (.acquire request) (.ok c) :: σ.history) :=
    ⟨sentBack_of_failsTelemetry h.unfailed, h.sentBack⟩
  constructor
  · rw [history]
    refine ⟨?_, sentBack_of_failsTelemetry fun e last => by cases last; rfl, lent⟩
    intro c' sender kind' fault' before split
    cases split
    exact ⟨rfl, request, σ.history, rfl⟩
  · rw [history]
    intro e last
    cases last
    rfl

end State

theorem Happening.IsAside.failsTelemetry {e : Happening} (h : e.IsAside) :
    e.failsTelemetry = false := by
  unfold Happening.failsTelemetry
  split
  · cases h
  · rfl

theorem Happening.IsBorrowing.failsTelemetry {e : Happening} (h : e.IsBorrowing) :
    e.failsTelemetry = false := by
  unfold Happening.failsTelemetry
  split
  · simp [IsBorrowing] at h
  · rfl

theorem Course.settles {may : License} {σ τ : State (Recorded ω)} (h : Course may σ τ)
    (settles : σ.Settles) : τ.Settles := by
  induction h with
  | andThen _ _ ih₁ ih₂ => exact ih₂ (ih₁ settles)
  | tend _ _ history => exact settles.same history
  | aside _ aside => exact settles.one aside.failsTelemetry rfl
  | borrowing _ _ borrowing => exact settles.one borrowing.failsTelemetry rfl
  | loanRefused => exact settles.loanRefused rfl
  | message _ _ _ _ unfailed _ => exact settles.one unfailed rfl
  | start _ history asides | begun _ history asides =>
    exact settles.quiet (History.forall_noted asides (fun _ => rfl) rfl)
      (history.trans (List.append_cons _ _ _))
  | release | absorb => exact settles.one rfl rfl
  | spend _ _ ih => exact ih settles
  | rest | finish | take | retire => exact settles.same rfl

theorem settles_kept {peer : Peer ω} : Kept peer (State.Settles (ω := ω)) :=
  .of_courses (fun h course => course.settles h)
    (fun _ _ aside h => h.one aside.failsTelemetry rfl) fun _ _ h => h.same rfl

/-! ## Every return -/

/-- A connection goes back with a reset after every failure, and where none was with nothing open.
    Only when telemetry failed, which came right after the loan, it goes back as it is. -/
def ReturnsClean (past : History) : Happening → Prop
  | .asked (.release c) _ => ∃ since, past.LentSince c since ∧
    ((∃ sender kind fault, since = [.asked (.send c sender (.telemetry kind)) (.error fault)]) ∨
      (∀ e ∈ since, e.isOn c = true → e.failsTelemetry = false) ∧
        History.ResetAfterFailures c since ∧
        ((∀ e ∈ since, e.isOn c = true → e.fails = false) →
          ∃ d, History.dialogue c past = some d ∧ d.stream = none ∧ d.transaction = none))
  | _ => True

/-- What came next is the last thing that happened, or something before that. -/
theorem Always.next {P : History → Happening → Prop} {last e : Happening} {later past : History}
    (h : Always P (last :: (later ++ e :: past))) :
    ∃ next, P (e :: past) next ∧ (later = [] ∨ next ∈ later) := by
  induction later generalizing last with
  | nil => exact ⟨last, h.1, .inl rfl⟩
  | cons e' later ih =>
    obtain ⟨next, here, rfl | mem⟩ := ih h.2
    · exact ⟨e', h.2.1, .inr List.mem_cons_self⟩
    · exact ⟨next, here, .inr (List.mem_cons_of_mem e' mem)⟩

theorem Happening.eq_of_failsTelemetry {e : Happening} {c : Connection} (on : e.isOn c = true)
    (failsTelemetry : e.failsTelemetry = true) :
    ∃ sender kind fault, e = .asked (.send c sender (.telemetry kind)) (.error fault) := by
  unfold Happening.failsTelemetry at failsTelemetry
  split at failsTelemetry
  · next c' sender kind fault =>
    obtain rfl : c' = c := by simpa [Happening.isOn] using on
    exact ⟨sender, kind, fault, rfl⟩
  · cases failsTelemetry

/-- If telemetry failed on a connection that goes back, nothing else happened since the loan. -/
theorem History.LentSince.eq_of_failsTelemetry {c : Connection} {past since later earlier : History}
    {e : Happening} (lent : past.LentSince c since)
    (sentBack : Always SentBack (.asked (.release c) () :: past))
    (split : since = later ++ e :: earlier) (on : e.isOn c = true)
    (fails : e.failsTelemetry = true) :
    ∃ sender kind fault, since = [.asked (.send c sender (.telemetry kind)) (.error fault)] := by
  obtain ⟨request, before, rfl, calm⟩ := lent
  obtain ⟨sender, kind, fault, rfl⟩ := Happening.eq_of_failsTelemetry on fails
  subst split
  rw [List.append_assoc, List.cons_append] at sentBack
  obtain ⟨next, here, between⟩ := sentBack.next
  obtain ⟨rfl, request', rest, loan⟩ := here _ _ _ _ _ rfl
  -- the return that came next is this one
  have none_later : later = [] := by
    refine between.resolve_right fun mem => ?_
    have kept := (calm _ (List.mem_append_left _ mem)).2
    simp [Happening.returns] at kept
  -- and the loan that came before is the last one
  have none_earlier : earlier = [] := by
    cases earlier with
    | nil => rfl
    | cons e' earlier =>
      obtain rfl := (List.cons.inj loan).1
      have kept := (calm (.asked (.acquire request') (.ok c)) (by simp)).1
      simp [Happening.lends] at kept
  subst none_later none_earlier
  exact ⟨sender, kind, fault, rfl⟩

theorem Always.returnsClean {h : History} (proper : Always Proper h)
    (sentBack : Always SentBack h) : Always ReturnsClean h := by
  induction h with
  | nil => trivial
  | cons e past ih =>
    refine ⟨?_, ih proper.2 sentBack.2⟩
    unfold ReturnsClean
    split
    · next c answer =>
      obtain ⟨d, lent, clean⟩ := proper.1
      obtain ⟨since, lentSince, failed, reset⟩ := History.lentSince_of_dialogue proper.2 lent
      refine ⟨since, lentSince, ?_⟩
      by_cases telemetryFailed : ∃ e ∈ since, e.isOn c = true ∧ e.failsTelemetry = true
      · obtain ⟨e, he, on, fails⟩ := telemetryFailed
        obtain ⟨later, earlier, split⟩ := List.append_of_mem he
        exact .inl (lentSince.eq_of_failsTelemetry sentBack split on fails)
      · refine .inr ⟨fun e he on => Bool.eq_false_iff.mpr fun fails =>
          telemetryFailed ⟨e, he, on, fails⟩, ?_, fun well => ⟨d, lent, ?_⟩⟩
        · rcases clean with cleared | ⟨sound, -⟩
          · exact (reset cleared).2
          · intro later e earlier split on fails
            have was := failed.mpr
              ⟨e, split ▸ List.mem_append_right _ List.mem_cons_self, on, fails⟩
            rw [sound.1] at was
            cases was
        · rcases clean with cleared | ⟨-, transaction, stream⟩
          · -- a reset comes only after a failure
            obtain ⟨e, he, on, fails⟩ := failed.mp (reset cleared).1
            rw [well e he on] at fails
            cases fails
          · exact ⟨stream, transaction⟩
    · trivial

/-- Whatever a session has been through, and whatever failed on the way: of a connection that it
    gives back every message that failed since the loan was followed by a reset on it, and when none
    failed no stream and no transaction is open on it.  The one exception is telemetry that fails
    right after the loan: then the connection goes back with no other message on it. -/
theorem play_returnsClean (peer : Peer ω) (config : SessionConfig) (w : ω)
    (ops : List (Operation ω)) : Always ReturnsClean (play peer config w ops).history := by
  have settles : (play peer config w ops).Settles :=
    settles_kept.play (fun w => ⟨trivial, fun e last => by cases last⟩) w ops
  exact (play_proper peer config w ops).returnsClean settles.sentBack

end GraphSession
