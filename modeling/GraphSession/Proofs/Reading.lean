import GraphSession.Proofs.Commits
import GraphSession.Proofs.Stock

/-!
  What reading hands out.

  What a reader is given was in the buffer, and what is given leaves the buffer, so with every
  record that is given one more of the stock is gone.  A reader that fails may lose what it had
  taken out already.  When the stream failed this does not show, because the result cannot be read
  any more.  But a result whose stream ended well stays readable even if the report of its bookmark
  failed, and then the loss shows; and `single`, which takes two records to tell that there is more
  than one, loses them.
-/

namespace GraphSession

variable {ω α : Type} {peer : Peer ω} {id r : ResultId} {gone : List Record}
  {σ τ : State (Recorded ω)}

/-! ## Streams that end well -/

/-- A report to the bookmark manager failed with this fault, and only its aftermath came since. -/
def History.Reported (fault : Fault) (h : History) : Prop :=
  ∃ later past previous new,
    h = later ++ .asked (.updateBookmarks previous new) (.error fault) :: past ∧
      ∀ e ∈ later, e.IsAftermath

/-- A fault after which the result can still be read is that of a report. -/
def State.ReportFault (id : ResultId) (fault : Fault) (σ : State (Recorded ω)) : Prop :=
  (σ.session.result id).unusable? = none → σ.history.Reported fault

theorem endUnit_results :
    (endUnit peer.recorded).Ends σ fun _ τ => τ.session.results = σ.session.results := by
  rw [endUnit, Act.ends_bind, Act.ends_changeSession, Act.ends_bind, Act.ends_theSession]
  split
  · rw [releaseConnection, Act.ends_bind, Act.ends_theSession]
    split
    · rfl
    · rw [Act.ends_bind, Act.ends_changeSession, Act.ends_bind]
      exact Act.ends_giveBack fun w => Act.ends_note fun w' => rfl
  · rfl

theorem takeBookmark?_results (sent : Bookmarks) (token : Option String) :
    (takeBookmark? peer.recorded sent token).Ends σ
      (fun _ τ => τ.session.results = σ.session.results)
      fun _ τ => τ.session.results = σ.session.results := by
  cases token with
  | none => rfl
  | some token =>
    rw [takeBookmark?, takeBookmark, Op.ends_bind, Op.ends_changeSession, Op.ends_bind,
      Op.ends_theSession]
    split
    · exact Op.ends_reportBookmarks (fun w => rfl) fun fault w => rfl
    · rfl

theorem reportAndEnd_results (sent : Bookmarks) (token : Option String) :
    (reportAndEnd peer.recorded sent token).Ends σ
      (fun _ τ => τ.session.results = σ.session.results)
      fun _ τ => τ.session.results = σ.session.results := by
  have ended {τ : State (Recorded ω)} (same : τ.session.results = σ.session.results) :
      (endUnit peer.recorded).Ends τ fun _ υ => υ.session.results = σ.session.results :=
    endUnit_results.imp fun _ _ h => h.trans same
  exact Op.ends_attemptThen.mpr ((takeBookmark?_results sent token).imp (fun _ _ h => ended h)
    fun _ _ h => ended h)

/-- The unit behind a result is complete: no result changes, and only a report fails. -/
theorem completeOrigin_reported (summary : Summary) (origin : Origin) :
    (completeOrigin peer.recorded summary origin).Ends σ
      (fun _ τ => τ.session.results = σ.session.results)
      fun fault τ => τ.session.results = σ.session.results ∧ τ.history.Reported fault := by
  cases origin with
  | transaction t => rfl
  | autoCommit sent pins =>
    have settled {τ : State (Recorded ω)} (same : τ.session.results = σ.session.results) :
        (reportAndEnd peer.recorded sent summary.bookmark).Ends τ
          (fun _ τ => τ.session.results = σ.session.results)
          fun fault τ => τ.session.results = σ.session.results ∧ τ.history.Reported fault := by
      refine ((reportAndEnd_results sent _).and (reportAndEnd_settling sent _)).imp
        (fun _ _ h => h.1.trans same) fun fault υ h => ⟨h.1.trans same, ?_⟩
      obtain ⟨-, new, _, history, later, rfl, aftermath⟩ := h
      exact ⟨later, τ.history, sent, new, by rw [history, List.append_assoc]; rfl, aftermath⟩
    cases pins with
    | true =>
      refine Op.ends_bind.mpr (Op.ends_lift.mpr (pinDatabase_ends fun later target w notes => ?_))
      exact settled rfl
    | false => exact settled rfl

theorem abortUnit_results :
    (abortUnit peer.recorded).Ends σ fun _ τ => τ.session.results = σ.session.results := by
  rw [abortUnit, Act.ends_bind, Act.ends_theSession]
  cases σ.session.connection with
  | none => exact endUnit_results
  | some c =>
    rw [Act.ends_bind, Act.ends_run]
    refine Op.ends_send (fun _ w => ?_) fun fault w => ?_
    · exact endUnit_results.imp fun _ _ h => h
    · rw [Act.ends_bind]
      exact Act.ends_note fun w' => endUnit_results.imp fun _ _ h => h

theorem abortOrigin_results (origin : Origin) :
    (abortOrigin peer.recorded origin).Ends σ
      fun _ τ => τ.session.results = σ.session.results := by
  cases origin with
  | autoCommit sent pins => exact abortUnit_results
  | transaction t => rfl

/-- A result that can be read. -/
abbrev State.Readable (id : ResultId) (σ : State (Recorded ω)) : Prop :=
  (σ.session.result id).unusable? = none

/-- The stream of a result that can be read ends, and it can still be read. -/
theorem finishStream_reported (metadata : Metadata) (can : σ.Readable id) :
    (finishStream peer.recorded id metadata).Ends σ
      (fun _ τ => τ.Readable id ∧ (τ.session.result id).isStreaming = false)
      fun fault τ => τ.history.Reported fault := by
  rw [finishStream, Op.ends_bind, Op.ends_theSession, Op.ends_bind, Op.ends_changeResult]
  refine (completeOrigin_reported _ _).imp (fun _ τ same => ?_) fun _ _ h => h.2
  have here := Session.lt_of_usable can
  obtain ⟨scope, consumed, -⟩ := Result.usable_iff.mp can
  have now : τ.session.result id = _ :=
    (congrArg (List.getD · id Result.absent) same).trans
      ((Session.result_setResult σ.session id _ here).trans (if_pos rfl))
  refine ⟨?_, by rw [now]; rfl⟩
  show (τ.session.result id).unusable? = none
  rw [now]
  exact Result.usable_iff.mpr ⟨scope, consumed, rfl⟩

/-- A stream that failed leaves a result that cannot be read. -/
theorem failStream_spent (fault : Fault) :
    (failStream peer.recorded id fault).Ends σ fun _ τ => ¬ τ.Readable id := by
  rw [failStream, Act.ends_bind, Act.ends_theSession, Act.ends_bind, Act.ends_changeResult]
  refine (abortOrigin_results _).imp fun _ τ same => ?_
  have now : τ.session.result id = _ := congrArg (List.getD · id Result.absent) same
  show (τ.session.result id).unusable? ≠ none
  rw [now]
  exact Session.unusable_setResult _ id
    (Result.unusable_iff.mpr (.inr (.inr (by simp [StreamState.failure?]))))

/-! ## Batches -/

/-- A fetch leaves the result readable, or fails; the answer tells whether it is streaming. -/
theorem fetch_reads (can : σ.Readable id) (streaming : (σ.session.result id).isStreaming = true) :
    (fetch peer.recorded id).Ends σ
      (fun more τ => τ.Readable id ∧ (τ.session.result id).isStreaming = more)
      (fun fault τ => τ.ReportFault id fault) := by
  have here := Session.lt_of_usable can
  have failed (fault : Fault) (τ : State (Recorded ω)) :
      (failAfter (failStream peer.recorded id fault) fault : Op (Recorded ω) Bool).Ends τ
        (fun more τ => τ.Readable id ∧ (τ.session.result id).isStreaming = more)
        (fun fault τ => τ.ReportFault id fault) :=
    Op.ends_failAfter.mpr ((failStream_spent fault).imp fun _ _ spent can => absurd can spent)
  rw [fetch, Op.ends_bind, Op.ends_attempt, pullHeld, Op.ends_bind, Op.ends_theSession]
  cases held : σ.session.connection with
  | none =>
    rw [sendHeld, Op.ends_bind, Op.ends_theSession, held]
    exact failed _ σ
  | some c =>
    refine Op.ends_sendHeld held (fun batch w => ?_) fun fault w => failed fault _
    rw [Op.ends_bind, Op.ends_changeResult]
    have now (v : Result) : (σ.session.setResult id v).result id = v := by
      rw [Session.result_setResult _ _ _ here, if_pos rfl]
    have arrived {τ : State (Recorded ω)} (can : τ.Readable id)
        (streaming : (τ.session.result id).isStreaming = true) : Op.Ends (do
          if batch.more then return true
          finishStream peer.recorded id batch.metadata
          return false : Op (Recorded ω) Bool) τ
        (fun more τ => τ.Readable id ∧ (τ.session.result id).isStreaming = more)
        (fun fault τ => τ.ReportFault id fault) := by
      cases batch.more with
      | true => exact ⟨can, streaming⟩
      | false =>
        exact Op.ends_bind.mpr ((finishStream_reported _ can).imp (fun _ _ h => h)
          fun _ _ h _ => h)
    refine arrived ?_ ?_
    · show ((σ.session.setResult id _).result id).unusable? = none
      rw [now]
      exact can
    · show ((σ.session.setResult id _).result id).isStreaming = true
      rw [now]
      exact streaming

theorem fetchWhile_reads (can : σ.Readable id) (hungry : Result → Bool) :
    (fetchWhile peer.recorded id hungry).Ends σ
      (fun _ τ => τ.Readable id ∧
        ((τ.session.result id).isStreaming && hungry (τ.session.result id)) = false)
      (fun fault τ => τ.ReportFault id fault) := by
  refine fetchWhile_ends (·.Readable id) can (fun τ can streaming => ?_) fun τ can enough =>
    ⟨can, enough⟩
  refine (fetch_reads can streaming).imp (fun more υ h => ?_) fun _ _ h => h
  cases more with
  | true => exact h.1
  | false => exact ⟨h.1, by rw [h.2]; rfl⟩

/-- Dropping the rest leaves the result readable, or fails. -/
theorem discardRest_reads (can : σ.Readable id) :
    (discardRest peer.recorded id).Ends σ (fun _ τ => τ.Readable id)
      (fun fault τ => τ.ReportFault id fault) := by
  have failed (fault : Fault) (τ : State (Recorded ω)) :
      (failAfter (failStream peer.recorded id fault) fault : Op (Recorded ω) Unit).Ends τ
        (fun _ τ => τ.Readable id) (fun fault τ => τ.ReportFault id fault) :=
    Op.ends_failAfter.mpr ((failStream_spent fault).imp fun _ _ spent can => absurd can spent)
  rw [discardRest, Op.ends_bind, Op.ends_theSession]
  split
  · rw [Op.ends_bind, Op.ends_attempt, discardHeld]
    cases held : σ.session.connection with
    | none =>
      rw [sendHeld, Op.ends_bind, Op.ends_theSession, held]
      exact failed _ σ
    | some c =>
      refine Op.ends_sendHeld held (fun metadata w => ?_) fun fault w => failed fault _
      have can : (σ.heard (.send c (.result id) .discard) (.ok metadata) w).Readable id := can
      exact (finishStream_reported metadata can).imp (fun _ _ h => h.1) fun _ _ h _ => h
  · exact can

/-! ## Records that are handed out -/

/-- All records of a result that can be read have been taken out of its buffer, and its stream has
    ended. -/
structure State.AtEnd (id : ResultId) (σ : State (Recorded ω)) : Prop where
  readable : σ.Readable id
  ended : (σ.session.result id).isStreaming = false
  empty : (σ.session.result id).buffer = []

namespace State

/-- The state with only `rest` at hand of a result. -/
def keeping (id : ResultId) (rest : List Record) (σ : State (Recorded ω)) : State (Recorded ω) :=
  { σ with session := σ.session.setResult id { σ.session.result id with buffer := rest } }

theorem result_keeping (can : σ.Readable id) (rest : List Record) :
    (σ.keeping id rest).session.result id = { σ.session.result id with buffer := rest } :=
  (Session.result_setResult σ.session id _ (Session.lt_of_usable can)).trans (if_pos rfl)

theorem readable_keeping (can : σ.Readable id) (rest : List Record) :
    (σ.keeping id rest).Readable id := by
  show ((σ.keeping id rest).session.result id).unusable? = none
  rw [result_keeping can]
  exact can

theorem atEnd_keeping (can : σ.Readable id) (ended : (σ.session.result id).isStreaming = false) :
    (σ.keeping id []).AtEnd id := by
  refine ⟨readable_keeping can [], ?_, ?_⟩
  · rw [result_keeping can]
    exact ended
  · rw [result_keeping can]

/-- What was taken out of the buffer is gone. -/
theorem Stock.take (h : σ.Stock id gone) (can : σ.Readable id) {out rest : List Record}
    (split : (σ.session.result id).buffer = out ++ rest) :
    (σ.keeping id rest).Stock id (gone ++ out) := by
  have all : gone ++ out ++ rest = σ.records id := by
    rw [List.append_assoc, ← split]
    exact h.readable can
  refine ⟨⟨rest, all⟩, fun _ => ?_⟩
  rw [result_keeping can]
  exact all

/-- Where a result cannot be read, it does not matter what else is gone. -/
theorem Stock.shrink {lost : List Record} (h : σ.Stock id (gone ++ lost))
    (spent : ¬ σ.Readable id) : σ.Stock id gone :=
  ⟨(List.prefix_append gone lost).trans h.inOrder, fun can => absurd can spent⟩

/-- At the end everything that came has gone. -/
theorem Stock.atEnd (h : σ.Stock id gone) (atEnd : σ.AtEnd id) : gone = σ.records id := by
  have all := h.readable atEnd.readable
  rwa [atEnd.empty, List.append_nil] at all

/-- After an action that hands nothing out the stock is the same. -/
theorem Stock.kept {may : License} (h : σ.Stock id gone) (tracked : σ.Tracked)
    (course : Course may σ τ) (n : ¬ may.takes id) : τ.Tracked ∧ τ.Stock id gone :=
  ⟨(course.resultKept tracked).1, ((course.resultKept tracked).2 id).stock n gone h⟩

end State

/-- A look at the next record leaves it where it is. -/
theorem peek_reads :
    (peek peer.recorded id).Ends σ
      (fun out τ => τ.Readable id ∧ out = (τ.session.result id).buffer.head? ∧
        (out = none → τ.AtEnd id))
      (fun fault τ => τ.ReportFault id fault) := by
  rw [peek, Op.ends_bind, Op.ends_checkUsable]
  refine ⟨?_, ?_⟩
  · intro can
    rw [Op.ends_bind]
    refine (fetchWhile_reads can _).imp (fun _ τ h => ?_) fun _ _ h => h
    refine ⟨h.1, rfl, fun dry => ?_⟩
    have empty : (τ.session.result id).buffer = [] := List.head?_eq_none_iff.mp dry
    refine ⟨h.1, ?_, empty⟩
    have enough := h.2
    unfold Result.isDry at enough
    rw [empty] at enough
    simpa using enough
  · intro fault e can
    rw [can] at e
    cases e

/-- The next record, and nothing else, is gone. -/
theorem next_reads (tracked : σ.Tracked) (h : σ.Stock id gone) :
    (next peer.recorded id).Ends σ
      (fun out τ => τ.Readable id ∧ τ.Tracked ∧ τ.Stock id (gone ++ out.toList) ∧
        (out = none → τ.AtEnd id))
      (fun fault τ => τ.Tracked ∧ τ.Stock id gone ∧ τ.ReportFault id fault) := by
  have course : (peek peer.recorded id).Within {} := peek_within id
  rw [next, Op.ends_bind]
  refine (peek_reads.and (course.ends σ)).imp ?_ ?_
  · intro out τ hτ
    obtain ⟨⟨can, rfl, dry⟩, course⟩ := hτ
    obtain ⟨tracked, stock⟩ := h.kept tracked course (fun h => h)
    have split : (τ.session.result id).buffer = (τ.session.result id).buffer.head?.toList ++
        (τ.session.result id).buffer.tail := by
      cases (τ.session.result id).buffer <;> rfl
    rw [Op.ends_bind, Op.ends_changeResult, Op.ends_pure]
    refine ⟨State.readable_keeping can _, tracked.setResult rfl, stock.take can split,
      fun nothing => ?_⟩
    have empty : (τ.session.result id).buffer.tail = [] := by
      rw [(dry nothing).empty]
      rfl
    rw [empty]
    exact State.atEnd_keeping can (dry nothing).ended
  · intro fault τ hτ
    obtain ⟨reportFault, course⟩ := hτ
    obtain ⟨tracked, stock⟩ := h.kept tracked course (fun h => h)
    exact ⟨tracked, stock, reportFault⟩

/-- The only record is gone.  A failure loses what was read to tell that it is the only one: nothing
    when there was none, two records when there were more, and else whatever had been read. -/
theorem single_reads (tracked : σ.Tracked) (h : σ.Stock id gone) :
    (single peer.recorded id).Ends σ (fun record τ => τ.Stock id (gone ++ [record]))
      (fun fault τ => ∃ lost, τ.Stock id (gone ++ lost) ∧
        (lost = [] ∨ fault = .manyRecords ∨ τ.ReportFault id fault)) := by
  have verdict (first second : Option Record) (dry : first = none → second = none)
      {τ : State (Recorded ω)} (can : τ.Readable id) (tracked : τ.Tracked)
      (stock : τ.Stock id (gone ++ (first.toList ++ second.toList))) : Op.Ends (do
        discardRest peer.recorded id
        settleOn (onlyRecord first second) : Op (Recorded ω) Record) τ
      (fun record τ => τ.Stock id (gone ++ [record]))
      (fun fault τ => ∃ lost, τ.Stock id (gone ++ lost) ∧
        (lost = [] ∨ fault = .manyRecords ∨ τ.ReportFault id fault)) := by
    have course : (discardRest peer.recorded id).Within { drops := (· = id) } :=
      discardRest_within rfl
    rw [Op.ends_bind]
    refine ((discardRest_reads can).and (course.ends τ)).imp ?_ ?_
    · intro _ υ hυ
      have stock := (stock.kept tracked hυ.2 (fun h => h)).2
      cases first with
      | none =>
        obtain rfl := dry rfl
        exact ⟨[], stock, .inl rfl⟩
      | some record =>
        cases second with
        | none => exact stock
        | some other => exact ⟨[record, other], stock, .inr (.inl rfl)⟩
    · intro fault υ hυ
      exact ⟨_, (stock.kept tracked hυ.2 (fun h => h)).2, .inr (.inr hυ.1)⟩
  rw [single_eq, Op.ends_bind]
  refine (next_reads tracked h).imp ?_ ?_
  · intro first τ hτ
    obtain ⟨can, tracked, stock, -⟩ := hτ
    cases first with
    | none => exact verdict none none (fun _ => rfl) can tracked stock
    | some record =>
      refine Op.ends_bind.mpr ?_
      refine (next_reads tracked stock).imp ?_ ?_
      · intro second υ hυ
        obtain ⟨can, tracked, stock, -⟩ := hυ
        refine verdict (some record) second (by simp) can tracked ?_
        rw [List.append_assoc] at stock
        exact stock
      · intro fault υ hυ
        exact ⟨[record], hυ.2.1, .inr (.inr hυ.2.2)⟩
  · intro fault τ hτ
    refine ⟨[], ?_, .inl rfl⟩
    rw [List.append_nil]
    exact hτ.2.1

/-- What reading to the end leaves: all that was read is gone, and the end was reached or a fault
    came. -/
structure State.Drained (id : ResultId) (gone : List Record)
    (out : List Record × Option Fault) (σ : State (Recorded ω)) : Prop where
  stock : σ.Stock id (gone ++ out.1)
  atEnd : out.2 = none → σ.AtEnd id
  reportFault : ∀ fault, out.2 = some fault → σ.ReportFault id fault

/-- All that was read on is gone, also when a failure stopped the reading. -/
theorem drainFrom_drained {read : List Record} (tracked : σ.Tracked) (can : σ.Readable id)
    (h : σ.Stock id (gone ++ read)) :
    State.Drained id gone (drainFrom peer.recorded id read σ).1
      (drainFrom peer.recorded id read σ).2 := by
  -- what is in the buffer is read next
  have emptied {read : List Record} {τ : State (Recorded ω)} (can : τ.Readable id)
      (stock : τ.Stock id (gone ++ read)) :
      (τ.emptied id).Stock id (gone ++ (read ++ (τ.session.result id).buffer)) := by
    rw [← List.append_assoc]
    exact stock.take can (List.append_nil _).symm
  refine drainFrom_ends (fun read τ => τ.Tracked ∧ τ.Readable id ∧ τ.Stock id (gone ++ read))
    (State.Drained id gone) ⟨tracked, can, h⟩ (fun read τ hτ streaming => ?_)
    fun read τ hτ quiet => ?_
  · obtain ⟨tracked, can, stock⟩ := hτ
    have stock := emptied can stock
    have tracked : (τ.emptied id).Tracked := tracked.setResult rfl
    have streaming : ((τ.emptied id).session.result id).isStreaming = true :=
      (State.emptied_isStreaming τ id id).trans streaming
    have fetched : Course {} (τ.emptied id) ((fetch peer.recorded id).exec (τ.emptied id)).2 :=
      fetch_course streaming
    refine ((fetch_reads (State.readable_keeping can []) streaming).and ((Course.rest {} _).ends
      fetched)).imp ?_ ?_
    · intro more υ hυ
      obtain ⟨⟨can, still⟩, course⟩ := hυ
      obtain ⟨tracked, stock⟩ := stock.kept tracked course (fun h => h)
      cases more with
      | true => exact ⟨tracked, can, stock⟩
      | false => exact ⟨emptied can stock, fun _ => State.atEnd_keeping can still, by simp⟩
    · intro fault υ hυ
      obtain ⟨reportFault, course⟩ := hυ
      refine ⟨(stock.kept tracked course (fun h => h)).2, by simp, fun f e => ?_⟩
      cases e
      exact reportFault
  · obtain ⟨tracked, can, stock⟩ := hτ
    exact ⟨emptied can stock, fun _ => State.atEnd_keeping can quiet, by simp⟩

theorem drain_drained (tracked : σ.Tracked) (h : σ.Stock id gone) :
    (drain peer.recorded id).Ends σ (State.Drained id gone) := by
  rw [drain, Act.ends_bind, Act.ends_theSession]
  have all : σ.Stock id (gone ++ []) := (List.append_nil gone).symm ▸ h
  cases spent : (σ.session.result id).unusable? with
  | some fault =>
    refine ⟨all, (fun e => by cases e), fun f _ can => ?_⟩
    have can : (σ.session.result id).unusable? = none := can
    rw [spent] at can
    cases can
  | none => exact drainFrom_drained tracked spent all

/-- All that is collected is gone; a failure loses what had been read until then. -/
theorem collect_reads (tracked : σ.Tracked) (h : σ.Stock id gone) :
    (collect peer.recorded id).Ends σ
      (fun records τ => τ.Stock id (gone ++ records) ∧ τ.AtEnd id)
      (fun fault τ => ∃ lost, τ.Stock id (gone ++ lost) ∧ τ.ReportFault id fault) := by
  rw [collect, Op.ends_bind, Op.ends_lift]
  refine (drain_drained tracked h).imp fun out τ hτ => ?_
  obtain ⟨records, fault⟩ := out
  obtain ⟨stock, atEnd, reportFault⟩ := hτ
  cases fault with
  | none => exact ⟨stock, atEnd rfl⟩
  | some fault => exact ⟨records, stock, reportFault fault rfl⟩

section Exec

variable {peer : Peer ω} {s : State ω}

/-- Collecting a result that can be read is reading on to its end. -/
theorem collect_exec (can : (s.session.result id).unusable? = none) :
    Op.exec (collect peer id) s = match drainFrom peer id [] s with
      | ((records, none), t) => (.ok records, t)
      | ((_, some fault), t) => (.error fault, t) := by
  have drained : Act.exec (drain peer id) s = drainFrom peer id [] s := by
    rw [drain, Act.exec_bind, Act.exec_theSession]
    dsimp only
    rw [can]
    rfl
  rw [collect, Op.exec_bind, Op.exec_lift, drained]
  rcases drainFrom peer id [] s with ⟨⟨records, _ | fault⟩, t⟩ <;> rfl

/-- A result whose stream has ended is collected as it is. -/
theorem collect_ended (can : (s.session.result id).unusable? = none)
    (ended : (s.session.result id).isStreaming = false) :
    Op.exec (collect peer id) s = (.ok (s.session.result id).buffer, s.emptied id) := by
  rw [collect_exec can, drainFrom, ended]
  rfl

/-- The next record is the first one at hand once there is one, and it is taken from there. -/
theorem next_exec (can : (s.session.result id).unusable? = none) :
    Op.exec (next peer id) s = match fetchFrom peer id Result.isDry s with
      | (.ok (), t) => (.ok (t.session.result id).buffer.head?,
        { t with
          session := t.session.setResult id
            { t.session.result id with buffer := (t.session.result id).buffer.tail } })
      | (.error fault, t) => (.error fault, t) := by
  have peeked : Op.exec (peek peer id) s = match fetchFrom peer id Result.isDry s with
      | (.ok (), t) => (.ok (t.session.result id).buffer.head?, t)
      | (.error fault, t) => (.error fault, t) := by
    have usable : Op.exec (checkUsable id) s = (.ok (), s) := by
      rw [checkUsable, Op.exec_bind, Op.exec_theSession]
      dsimp only
      rw [can]
      rfl
    rw [peek, Op.exec_bind, usable]
    dsimp only
    rw [Op.exec_bind, show Op.exec (fetchWhile peer id Result.isDry) s =
      fetchFrom peer id Result.isDry s from rfl]
    rcases fetchFrom peer id Result.isDry s with ⟨_ | _, _⟩ <;> rfl
  rw [next, Op.exec_bind, peeked]
  rcases fetchFrom peer id Result.isDry s with ⟨_ | _, _⟩ <;> rfl

end Exec

/-- With a record at hand, taking the next one fetches nothing. -/
theorem next_at_hand {record : Record} {rest : List Record} (can : σ.Readable id)
    (hand : (σ.session.result id).buffer = record :: rest) :
    Op.exec (next peer.recorded id) σ = (.ok (some record), σ.keeping id rest) := by
  have enough : ((σ.session.result id).isStreaming && (σ.session.result id).isDry) = false := by
    rw [Result.isDry, hand]
    exact Bool.and_false _
  rw [next_exec can, fetchFrom_enough enough]
  show (Except.ok (σ.session.result id).buffer.head?,
    σ.keeping id (σ.session.result id).buffer.tail) = _
  rw [hand]
  rfl

end GraphSession
