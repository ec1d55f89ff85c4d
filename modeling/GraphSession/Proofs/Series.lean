import GraphSession.Proofs.Faults
import GraphSession.Proofs.Waiting

/-!
  What a transaction function comes to.

  `Attempt` lists the ways in which one attempt can go, each with the fault that it fails with: that
  of the request that failed while the transaction was opened, that of the code, or that of the
  request that failed while it was committed.  `Tries` are failed attempts one after the other: each
  was worth another one, the deadline had not come, and while the session waited it held nothing.
  `Series` puts them together: what comes of the call is told by its last attempt, or there was
  none.

  The recursion of a call is on its patience, so the induction is too; what it carries is that the
  faults counted by the back-off are the attempts that were tried, and that nothing is open between
  two of them.
-/

namespace GraphSession

variable {ω α : Type} {peer : Peer ω} {σ τ υ : State (Recorded ω)}

/-! ## Before the first attempt -/

/-- What is asked for before the first attempt: results are fetched to their end, and a transaction
    that was dropped is rolled back. -/
def Request.Prepares : Request → Prop
  | release _ | note _ | updateBookmarks .. => True
  | send _ _ .reset | send _ _ .rollback | send _ _ (.pull _) | send _ _ .discard => True
  | _ => False

/-- Something that is done before the first attempt. -/
def Happening.Prepares : Happening → Prop
  | asked request _ => request.Prepares
  | _ => False

/-- Nothing was done but to prepare for an attempt. -/
abbrev State.PreparesTo (σ τ : State (Recorded ω)) : Prop := σ.Only Happening.Prepares τ

/-- What is asked to clear up may come before the first attempt. -/
theorem Request.ClearsUp.prepares {request : Request} (clearing : request.ClearsUp) :
    request.Prepares := by
  cases request with
  | release | note => trivial
  | send c sender m => cases m <;> trivial
  | _ => cases clearing

theorem prepares_clearsUp (peer : Peer ω) : ClearsUp peer.recorded (State.PreparesTo (ω := ω)) :=
  clearsUp_only fun _ _ clearing => clearing.prepares

theorem sendHeld_prepares {sender : Sender} {m : Message}
    (prepares : ∀ c, (Request.send c sender m).Prepares) :
    (sendHeld peer.recorded sender m).Obeys (State.PreparesTo (ω := ω)) := by
  refine .bind .theSession fun s => ?_
  split
  · exact .throw _
  · exact ask_only fun _ => prepares _

theorem reportAndEnd_prepares (sent : Bookmarks) (token : Option String) :
    (reportAndEnd peer.recorded sent token).Obeys (State.PreparesTo (ω := ω)) := by
  have taken : (takeBookmark? peer.recorded sent token).Obeys (State.PreparesTo (ω := ω)) := by
    cases token with
    | none => exact .pure ()
    | some token =>
      refine .bind ((prepares_clearsUp peer).changeOp fun _ => ?_) fun _ =>
        .bind .theSession fun s => ?_
      · exact .same rfl rfl rfl
      · split
        · exact ask_only fun _ => trivial
        · exact .pure ()
  exact .bind (.attempt taken) fun _ => .bind (.lift (prepares_clearsUp peer).endUnit) fun _ =>
    .settleOn _

theorem finishStream_prepares (id : ResultId) (metadata : Metadata) :
    (finishStream peer.recorded id metadata).Obeys (State.PreparesTo (ω := ω)) := by
  refine .bind .theSession fun s =>
    .bind ((prepares_clearsUp peer).changeOp fun _ => .setResult rfl) fun _ => ?_
  cases (s.result id).origin with
  | transaction t => exact .pure ()
  | autoCommit sent pins =>
    rw [completeOrigin]
    split
    · exact .bind (.lift ((prepares_clearsUp peer).pinDatabase _)) fun _ =>
        reportAndEnd_prepares _ _
    · exact reportAndEnd_prepares _ _

theorem reads_prepares : Reads peer.recorded (State.PreparesTo (ω := ω)) := by
  refine (prepares_clearsUp peer).reads (fun id σ _ => ?_) fun id => ?_
  · have fetches : (fetch peer.recorded id).Obeys (State.PreparesTo (ω := ω)) := by
      refine .bind (.attempt (.bind .theSession fun s => sendHeld_prepares fun _ => trivial))
        fun outcome => ?_
      split
      · exact .failAfter ((prepares_clearsUp peer).failStream id _) _
      · refine .bind ((prepares_clearsUp peer).changeOp fun _ => .setResult rfl) fun _ => ?_
        split
        · exact .pure _
        · exact .bind (finishStream_prepares id _) fun _ => .pure _
    exact fetches σ
  · refine .bind .theSession fun s => ?_
    split
    · refine .bind (.attempt (sendHeld_prepares fun _ => trivial)) fun outcome => ?_
      split
      · exact .failAfter ((prepares_clearsUp peer).failStream id _) _
      · exact finishStream_prepares id _
    · exact .pure _

/-! ## One attempt -/

/-- The session holds nothing: no connection is on loan, and every transaction is over. -/
structure State.HoldsNothing (σ : State (Recorded ω)) : Prop where
  connection : σ.session.connection = none
  returned : ∀ c, History.dialogue c σ.history = none
  ended : ∀ t, (σ.session.transaction t).state.isTerminated = true

theorem State.Stands.holdsNothing (h : σ.Stands {}) : σ.HoldsNothing where
  connection := h.slot
  returned := h.loan
  ended t := h.isTerminated (by simp)

/-- How one attempt can lead from `σ` to `τ` when the code was called `calls` times before: what it
    comes to, and how often the code was called then. -/
inductive Attempt (peer : Peer ω) (work : TransactionFunction ω α) (calls : Nat)
    (σ τ : State (Recorded ω)) : Except Fault α → Nat → Prop
  /-- The transaction could not be opened. -/
  | unopened {fault : Fault} (failed : σ.Since (History.FailedBy Request.Opens fault) τ) :
    Attempt peer work calls σ τ (.error fault) calls
  /-- The code failed. -/
  | failed {t : TransactionId} {υ φ : State (Recorded ω)} {fault : Fault}
    (opened : State.Opened t σ υ)
    (code : ((work calls t).recorded.perform peer.recorded).exec υ = (.error fault, φ))
    (cleared : φ.Clears τ) : Attempt peer work calls σ τ (.error fault) (calls + 1)
  /-- The code went well, although something had failed in its transaction. -/
  | refused {t : TransactionId} {υ φ : State (Recorded ω)} {a : α} (opened : State.Opened t σ υ)
    (code : ((work calls t).recorded.perform peer.recorded).exec υ = (.ok a, φ))
    (spoiled : (φ.session.transaction t).state = .failed) (cleared : φ.Clears τ) :
    Attempt peer work calls σ τ (.error (.transactionFailed "commit")) (calls + 1)
  /-- The code went well, and the commit failed. -/
  | uncommitted {t : TransactionId} {υ φ : State (Recorded ω)} {a : α} {fault : Fault}
    (opened : State.Opened t σ υ)
    (code : ((work calls t).recorded.perform peer.recorded).exec υ = (.ok a, φ))
    (failed : φ.Since (History.FailedBy Request.Commits fault) τ) :
    Attempt peer work calls σ τ (.error fault) (calls + 1)
  /-- The code went well, and the commit was acknowledged. -/
  | committed {t : TransactionId} {υ φ : State (Recorded ω)} {a : α} (opened : State.Opened t σ υ)
    (code : ((work calls t).recorded.perform peer.recorded).exec υ = (.ok a, φ))
    (acknowledged : φ.Since (fun later =>
      ∃ c token, .asked (.send c (.transaction t) .commit) (.ok token) ∈ later) τ) :
    Attempt peer work calls σ τ (.ok a) (calls + 1)

/-- What is done when the code has failed: its fault stays, whatever the clearing up comes to. -/
theorem settle_failed (t : TransactionId) (fault : Fault) :
    (settle peer.recorded t (.error fault : Except Fault α)).Ends σ (fun _ _ => False)
      fun f τ => f = fault ∧ σ.Clears τ := by
  rw [settle, Op.ends_bind, Op.ends_attempt, Op.ends_bind, Op.ends_settleOn]
  refine ⟨by simp, fun f e => ?_⟩
  cases e
  refine Op.ends_failAfter.mpr ((clears_clearsUp.closeQuietly t).ends σ |>.imp ?_)
  intro _ τ cleared
  exact ⟨rfl, cleared⟩

/-- What is done when the code went well. -/
theorem settle_succeeded {t : TransactionId} (h : σ.Managed t) (a : α) :
    (settle peer.recorded t (.ok a)).Ends σ
      (fun b τ => b = a ∧ σ.Since (fun later =>
        ∃ c token, .asked (.send c (.transaction t) .commit) (.ok token) ∈ later) τ)
      fun fault τ =>
        ((σ.session.transaction t).state = .failed ∧ fault = .transactionFailed "commit" ∧
          σ.Clears τ) ∨ σ.Since (History.FailedBy Request.Commits fault) τ := by
  rw [settle, Op.ends_bind, Op.ends_attempt, Op.ends_bind, Op.ends_settleOn]
  refine ⟨fun b e => ?_, by simp⟩
  cases e
  rw [Op.ends_bind]
  refine ((commit_failsBy h).and (commit_acknowledged σ t)).imp ?_ ?_
  · rintro _ τ ⟨-, -, acknowledged⟩
    exact ⟨rfl, acknowledged⟩
  · rintro fault τ ⟨fails, -⟩
    refine Op.ends_failAfter.mpr ((clears_clearsUp.closeQuietly t).ends τ |>.imp ?_)
    intro _ υ cleared
    rcases fails with ⟨spoiled, rfl, rfl⟩ | failed
    · exact .inl ⟨spoiled, rfl, cleared⟩
    · exact .inr (failed.failedBy_before cleared)

/-- Every attempt goes in one of these ways. -/
theorem attemptOnce_attempt (h : σ.Stands {}) (options : ExecuteOptions)
    (work : TransactionFunction ω α) (calls : Nat) :
    (attemptOnce peer.recorded options (TransactionFunction.recorded work) calls).Ends σ
      fun r τ => Attempt peer work calls σ τ r.1 r.2 := by
  rw [attemptOnce, Act.ends_bind, Act.ends_run]
  refine ((openTransaction_stands h _ _ _ _).and (openTransaction_opens _ _ _ _ σ)).imp ?_ ?_
  · rintro t υ ⟨⟨v, holder, live⟩, opened⟩
    have managed : υ.Managed t :=
      ⟨v, none, holder, .quiet, .inl (live.busy (.inl (Option.some_ne_none _)))⟩
    dsimp only
    rw [Act.ends_bind, Act.ends_run]
    refine Op.ends_of_exec_eq (fun a φ code => ?_) fun fault φ code => ?_
    · have managed : φ.Managed t := (Work.perform_managed managed (work calls t)).of_ok code
      rw [Act.ends_bind, Act.ends_run]
      refine (settle_succeeded managed a).imp ?_ ?_
      · rintro b τ ⟨rfl, acknowledged⟩
        exact .committed opened code acknowledged
      · rintro fault τ (⟨spoiled, rfl, cleared⟩ | failed)
        · exact .refused opened code spoiled cleared
        · exact .uncommitted opened code failed
    · rw [Act.ends_bind, Act.ends_run]
      refine (settle_failed t fault).imp (fun _ _ never => never.elim) ?_
      rintro f τ ⟨rfl, cleared⟩
      exact .failed opened code cleared
  · rintro fault τ ⟨-, failed⟩
    exact .unopened failed

/-! ## What is decided after a failure -/

/-- What a back-off decides after a failure at `now`, and what it knows then. -/
inductive Backoff.Decides (b : Backoff) (now : Instant) (fault : Fault) : Decision × Backoff → Prop
  /-- Another attempt would not help. -/
  | final {b' : Backoff} (final : fault.isRetryable = false) :
    Decides b now fault (.giveUp fault, b')
  /-- The deadline has come. -/
  | exhausted {b' : Backoff} {deadline : Instant} (retryable : fault.isRetryable = true)
    (due : b.deadline = some deadline) (late : deadline ≤ now) :
    Decides b now fault (.giveUp (.retriesExhausted (b.attempts + 1) fault), b')
  /-- There is time for another attempt, and the failure is counted. -/
  | again {b' : Backoff} {delay : Duration} (retryable : fault.isRetryable = true)
    (early : ∀ deadline, b.deadline = some deadline → now < deadline)
    (counted : b'.attempts = b.attempts + 1) (due : b'.deadline = b.deadline) :
    Decides b now fault (.retryAfter delay, b')

theorem Backoff.onFailure_decides (b : Backoff) (now : Instant) (sample : Float) (fault : Fault) :
    b.Decides now fault (b.onFailure now sample fault) := by
  unfold onFailure
  cases retryable : fault.isRetryable with
  | false => exact .final retryable
  | true =>
    cases due : b.deadline with
    | none =>
      have early (deadline : Instant) (e : b.deadline = some deadline) : now < deadline := by
        rw [due] at e
        cases e
      exact .again retryable early rfl due.symm
    | some deadline =>
      by_cases late : deadline ≤ now
      · dsimp only
        rw [if_pos late]
        exact .exhausted retryable due late
      · have early (d : Instant) (e : b.deadline = some d) : now < d := by
          rw [due] at e
          cases e
          exact Nat.lt_of_not_le late
        dsimp only
        rw [if_neg late]
        exact .again retryable early rfl due.symm

/-- The clock and a sample were looked at, and nothing else. -/
def State.Looked (now : Instant) (σ τ : State (Recorded ω)) : Prop :=
  τ.session = σ.session ∧ ∃ sample,
    τ.history = .asked .drawSample sample :: .asked .readClock now :: σ.history

theorem decide_decides (b : Backoff) (fault : Fault) :
    (decide peer.recorded b fault).Ends σ fun r τ =>
      ∃ now, b.Decides now fault r ∧ State.Looked now σ τ := by
  rw [decide, Act.ends_bind]
  refine Act.ends_ask fun now w => ?_
  rw [Act.ends_bind]
  refine Act.ends_ask fun sample w' => ?_
  exact ⟨now, b.onFailure_decides now sample fault, rfl, sample, rfl⟩

/-! ## A series of attempts -/

/-- The session waited, and nothing else happened. -/
def State.Waited (σ τ : State (Recorded ω)) : Prop :=
  τ.session = σ.session ∧ ∃ delay event,
    τ.history = .asked (.sleep delay) () :: .asked (.note event) () :: σ.history

/-- Attempts that failed, one after the other, from `start` on: their faults, the latest first, and
    how often the code was called.  Each was worth another one and ended before the deadline, and
    then the session waited, holding nothing. -/
inductive Tries (peer : Peer ω) (work : TransactionFunction ω α) (deadline : Option Instant)
    (start : State (Recorded ω)) : List Fault → Nat → State (Recorded ω) → Prop
  | none : Tries peer work deadline start [] 0 start
  | again {faults : List Fault} {fault : Fault} {calls calls' : Nat} {now : Instant}
    {σ τ υ φ : State (Recorded ω)} (before : Tries peer work deadline start faults calls σ)
    (attempt : Attempt peer work calls σ τ (.error fault) calls')
    (retryable : fault.isRetryable = true) (looked : State.Looked now τ υ)
    (early : ∀ d, deadline = some d → now < d) (idle : υ.HoldsNothing) (waited : υ.Waited φ) :
    Tries peer work deadline start (fault :: faults) calls' φ

/-- What a series comes to that begins at `start`. -/
inductive Ended (peer : Peer ω) (work : TransactionFunction ω α) (deadline : Option Instant)
    (patience : Nat) (start : State (Recorded ω)) :
    Option (Except Fault α) → State (Recorded ω) → Prop
  /-- The last attempt succeeded. -/
  | committed {faults : List Fault} {calls calls' : Nat} {σ τ : State (Recorded ω)} {a : α}
    (tries : Tries peer work deadline start faults calls σ)
    (attempt : Attempt peer work calls σ τ (.ok a) calls') :
    Ended peer work deadline patience start (some (.ok a)) τ
  /-- The last attempt failed, and another one would not have helped. -/
  | final {faults : List Fault} {calls calls' : Nat} {now : Instant} {σ τ υ : State (Recorded ω)}
    {fault : Fault} (tries : Tries peer work deadline start faults calls σ)
    (attempt : Attempt peer work calls σ τ (.error fault) calls')
    (final : fault.isRetryable = false) (looked : State.Looked now τ υ) :
    Ended peer work deadline patience start (some (.error fault)) υ
  /-- The last attempt failed, and the deadline had come. -/
  | exhausted {faults : List Fault} {calls calls' : Nat} {now d : Instant}
    {σ τ υ : State (Recorded ω)} {fault : Fault}
    (tries : Tries peer work deadline start faults calls σ)
    (attempt : Attempt peer work calls σ τ (.error fault) calls')
    (retryable : fault.isRetryable = true) (looked : State.Looked now τ υ)
    (due : deadline = some d) (late : d ≤ now) :
    Ended peer work deadline patience start
      (some (.error (.retriesExhausted (.ofNat (faults.length + 1)) fault))) υ
  /-- As many attempts failed as there was patience for. -/
  | impatient {faults : List Fault} {calls : Nat} {τ : State (Recorded ω)}
    (tries : Tries peer work deadline start faults calls τ) (all : faults.length = patience) :
    Ended peer work deadline patience start none τ

/-- What a call comes to that runs a transaction function for at most `limit`. -/
inductive Series (peer : Peer ω) (work : TransactionFunction ω α) (limit : Duration)
    (patience : Nat) (σ : State (Recorded ω)) :
    Option (Except Fault α) → State (Recorded ω) → Prop
  /-- Preparing for it failed, and no attempt was made. -/
  | unprepared {fault : Fault} {τ : State (Recorded ω)}
    (failed : (prepareExecute peer.recorded).exec σ = (.error fault, τ))
    (unattempted : σ.PreparesTo τ) : Series peer work limit patience σ (some (.error fault)) τ
  /-- Attempts were made, and the time for them began when the clock was read before the first. -/
  | tried {now : Instant} {τ start υ : State (Recorded ω)} {outcome : Option (Except Fault α)}
    (prepared : (prepareExecute peer.recorded).exec σ = (.ok (), τ)) (prepares : σ.PreparesTo τ)
    (session : start.session = τ.session)
    (read : start.history = .asked .readClock now :: τ.history)
    (ended : Ended peer work (Clock.after? now limit) patience start outcome υ) :
    Series peer work limit patience σ outcome υ

/-- What is left of a series after some tries ends as the whole series does. -/
theorem attemptFrom_ended {start : State (Recorded ω)} {work : TransactionFunction ω α}
    {deadline : Option Instant} {faults : List Fault} {calls : Nat} {b : Backoff}
    (tries : Tries peer work deadline start faults calls σ) (h : σ.Stands {})
    (due : b.deadline = deadline) (counted : b.attempts = .ofNat faults.length)
    (options : ExecuteOptions) {patience all : Nat} (total : faults.length + patience = all) :
    (attemptFrom peer.recorded options (TransactionFunction.recorded work) patience calls b).Ends σ
      fun outcome τ => Ended peer work deadline all start outcome τ := by
  induction patience generalizing σ faults calls b with
  | zero => exact .impatient tries total
  | succ patience ih =>
    rw [attemptFrom, Act.ends_bind]
    refine ((attemptOnce_attempt h options work calls).and
      (attemptOnce_stands h options work calls)).imp ?_
    rintro ⟨outcome, calls'⟩ τ ⟨attempt, bare, answers⟩
    cases outcome with
    | ok a => exact .committed tries attempt
    | error fault =>
      dsimp only
      rw [Act.ends_bind]
      refine ((decide_decides b fault).and (decide_stands bare b (answers fault rfl))).imp ?_
      rintro ⟨decision, b'⟩ υ ⟨⟨now, decides, looked⟩, idle, -⟩
      cases decides with
      | final final => exact .final tries attempt final looked
      | exhausted retryable late due' =>
        rw [counted, ← UInt32.ofNat_one, ← UInt32.ofNat_add]
        exact .exhausted tries attempt retryable looked (due ▸ late) due'
      | @again _ delay retryable early counted' due' =>
        dsimp only
        rw [Act.ends_bind]
        refine Act.ends_note fun w => ?_
        rw [Act.ends_bind]
        refine Act.ends_ask fun _ w' => ?_
        have noted := idle.noted (.retryScheduled b'.attempts delay) w
        have slept : State.Stands
            ((υ.heard (.note (.retryScheduled b'.attempts delay)) () w).heard (.sleep delay) () w')
            {} := noted.aside (by trivial) (by trivial) w'
        have tried : Tries peer work deadline start (fault :: faults) calls'
            ((υ.heard (.note (.retryScheduled b'.attempts delay)) () w).heard (.sleep delay) ()
              w') :=
          .again tries attempt retryable looked (due ▸ early) idle.holdsNothing ⟨rfl, _, _, rfl⟩
        refine ih tried slept (due'.trans due) ?_ ?_
        · rw [counted', counted, List.length_cons, UInt32.ofNat_add]
          rfl
        · rw [List.length_cons]
          omega

/-- What comes of a call is told by its attempts. -/
theorem executeWith_series (h : σ.Rests) (options : ExecuteOptions) (patience : Nat)
    (work : TransactionFunction ω α) :
    (executeWith peer.recorded options patience (TransactionFunction.recorded work)).Ends σ
      fun outcome τ =>
        Series peer work σ.session.config.retry.maxRetryTime patience σ outcome τ := by
  have prepares := (prepares_clearsUp peer).prepareExecute reads_prepares σ
  have within : (prepareExecute peer.recorded).Within { directs := True, concludes := True } :=
    prepareExecute_within trivial trivial
  have kept := (within σ).keeps.config
  rw [executeWith, Act.ends_bind, Act.ends_run]
  refine Op.ends_of_exec_eq (fun _ τ prepared => ?_) fun fault τ failed => ?_
  · have bare : τ.Stands {} := (prepareExecute_stands h).of_ok prepared
    rw [prepared] at prepares kept
    rw [Act.ends_bind]
    refine Act.ends_ask fun now w => ?_
    rw [Act.ends_bind, Act.ends_theSession]
    have read : State.Stands (τ.heard .readClock now w) {} := bare.aside (by trivial) (by trivial) w
    have due : (Backoff.start τ.session.config.retry now).deadline =
        Clock.after? now σ.session.config.retry.maxRetryTime := by
      rw [kept]
      rfl
    refine (attemptFrom_ended .none read due rfl options (Nat.zero_add _)).imp ?_
    intro outcome υ ended
    have same : (τ.heard .readClock now w).session = τ.session := rfl
    exact .tried prepared prepares same rfl ended
  · rw [failed] at prepares
    exact .unprepared failed prepares

/-- How an operation that runs a transaction function can end: as its series of attempts does.  The
    former name is noted first, and a query whose overrides are not allowed is never tried. -/
def Operation.Comes (peer : Peer ω) (limit : Duration) (σ : State (Recorded ω)) :
    (op : Operation ω) → Option (Except Fault op.Reply) → State (Recorded ω) → Prop
  | .execute _ _ patience work => Series peer work limit patience σ
  | .executeBlocking _ _ patience work => Series peer work limit patience σ
  | .executeRenamed mode patience work => fun outcome τ =>
    ∃ w, Series peer work limit patience (σ.heard (.note (.executeRenamed mode)) () w) outcome τ
  | .executeQuery source params _ patience => fun outcome τ =>
    match Query.ofSource source with
    | .error fault => outcome = some (.error fault) ∧ τ = σ
    | .ok query =>
      let plain : Query := { query with metadata := none, timeout := none }
      Series peer (fun _ t => .eager t (.query plain) params) limit patience σ outcome τ
  | _ => fun _ _ => True

/-- What comes of a transaction function, whatever its code does and whatever fails.  If the
    outcome is a value, the code of the last attempt returned it, that attempt's commit was
    acknowledged, and every attempt before it failed in a way that was worth another attempt, and
    before the deadline.  If it is a fault, either preparing for the first attempt failed and there
    was none, or it comes from how the last attempt failed: it is that fault itself when another
    attempt would not have helped; otherwise the deadline had come, and the fault wraps it with the
    number of attempts, in a word of 32 bits.  Faults of clearing up take no part in this.  Whenever
    the session waits, it holds no connection, and no transaction is open. -/
theorem play_comes (peer : Peer ω) (config : SessionConfig) (w : ω) (ops : List (Operation ω))
    (op : Operation ω) :
    (op.perform peer).Ends (play peer config w ops) fun outcome τ =>
      op.Comes peer config.retry.maxRetryTime (play peer config w ops) outcome τ := by
  have rests := play_rests peer config w ops
  have configured : (play peer config w ops).session.config = config :=
    (configured_kept config).play (fun _ => rfl) w ops
  generalize play peer config w ops = σ at rests configured
  subst configured
  cases op with
  | execute mode settings patience work => exact executeWith_series rests _ patience work
  | executeBlocking mode settings patience work =>
    rw [Operation.perform, Blocking.execute_eq]
    exact executeWith_series rests _ patience work
  | executeRenamed mode patience work =>
    rw [Operation.perform, executeRenamed, Act.ends_bind]
    refine Act.ends_note fun w' => ?_
    have noted : State.Rests
        (σ.heard (.note (.executeRenamed mode)) () w') :=
      rests.aside (by trivial) (by trivial) w'
    refine (executeWith_series noted _ patience work).imp ?_
    intro outcome τ series
    exact ⟨w', series⟩
  | executeQuery source params mode patience =>
    rw [Operation.perform, executeQueryWith]
    dsimp only [Operation.Comes]
    cases Query.ofSource source with
    | error fault => exact ⟨rfl, rfl⟩
    | ok query => exact executeWith_series rests _ patience _
  | _ => trivial

end GraphSession
