import GraphSession.Proofs.Delivery
import GraphSession.Proofs.Faults

/-!
  Reading as a cursor over what is left.

  What is left of a result lies in two places: some records are at hand, and the rest is ahead, on
  the server.  A fetch moves the next records from there to here, and a reader fetches when nothing
  is at hand.  `State.Holds` says what is where.  So what a reader does is told by a function of the
  two lists and of the number of records that a fetch asks for.

  The server is `Exact`: it answers every pull by the records that are next, and promises more
  exactly when some are left.
-/

namespace GraphSession

variable {ω α β : Type} {peer : Peer ω} {id : ResultId} {σ τ : State (Recorded ω)}

/-! ## Servers that promise what they hold -/

/-- The server answers a pull by the records that are next in the stream that is open, as many as
    were asked for, and promises more exactly when some are left. -/
def Exact (content : ResultId → List (List Value)) (past : History) : Happening → Prop
  | .asked (.send c _ (.pull size)) (.ok batch) =>
    ∀ d r, History.dialogue c past = some d → d.stream = some r →
      batch.records = size.take ((content r).drop d.served) ∧
        (batch.more = true ↔ size.drop ((content r).drop d.served) ≠ [])
  | _ => True

/-- The same, told without the dialogue: what is next of a result follows what has come for it. -/
def Continues (content : ResultId → List (List Value)) (past : History) : Happening → Prop
  | .asked (.send _ (.result r) (.pull size)) (.ok batch) =>
    batch.records = size.take ((content r).drop (past.sent r).length) ∧
      (batch.more = true ↔ size.drop ((content r).drop (past.sent r).length) ≠ [])
  | _ => True

section Servers

variable {content : ResultId → List (List Value)} {past h : History} {e : Happening}

/-- A server that is exact is faithful. -/
theorem Exact.faithful (exact : Exact content past e) : Faithful content past e := by
  unfold Exact at exact
  unfold Faithful
  split
  · intro d r lent stream
    obtain ⟨records, more⟩ := exact d r lent stream
    refine ⟨records, fun last => ?_⟩
    rw [last] at more
    simpa using more
  · trivial

/-- An exact server continues every result where it was. -/
theorem continues_of_exact (proper : Always Proper h) (fresh : Always Fresh h)
    (exact : Always (Exact content) h) : Always (Continues content) h := by
  induction h with
  | nil => trivial
  | cons e past ih =>
    refine ⟨?_, ih proper.2 fresh.2 exact.2⟩
    unfold Continues
    split
    · next c r size batch =>
      obtain ⟨d, lent, ⟨-, _, same, stream⟩, -⟩ := proper.1
      cases same
      have faithful : Always (Faithful content) past := exact.2.imp fun _ _ => Exact.faithful
      have served := ((supplied proper.2 fresh.2 faithful r).served c d lent stream).2
      rw [← served]
      exact exact.1 d r lent stream
    · trivial

theorem Always.of_suffix {P : History → Happening → Prop} (always : Always P h)
    (grown : past <:+ h) : Always P past := by
  obtain ⟨later, rfl⟩ := grown
  exact always.of_append

end Servers

/-! ## Pulls of a list -/

namespace FetchSize

variable {size : FetchSize} {l : List α}

theorem take_nil : size.take ([] : List α) = [] := by
  cases size <;> simp [take]

theorem drop_nil : size.drop ([] : List α) = [] := by
  cases size <;> simp [drop]

/-- A pull takes something if there is anything. -/
theorem take_ne_nil (some_left : l ≠ []) : size.take l ≠ [] := by
  cases size with
  | all => exact some_left
  | upTo n =>
    have positive : 0 < n.val := n.property
    simp only [take, ne_eq, List.take_eq_nil_iff, not_or]
    exact ⟨Nat.ne_of_gt positive, some_left⟩

theorem map_take (f : α → β) : (size.take l).map f = size.take (l.map f) := by
  cases size with
  | all => rfl
  | upTo n => exact List.map_take

theorem map_drop (f : α → β) : (size.drop l).map f = size.drop (l.map f) := by
  cases size with
  | all => rfl
  | upTo n => exact List.map_drop

/-- What is left after a pull follows what came with it. -/
theorem drop_eq_drop_length : size.drop l = l.drop (size.take l).length := by
  cases size with
  | all => exact List.drop_length.symm
  | upTo n =>
    simp only [take, drop, List.length_take]
    rcases Nat.le_total n.val l.length with short | long
    · rw [Nat.min_eq_left short]
    · rw [Nat.min_eq_right long, List.drop_of_length_le long, List.drop_length]

end FetchSize

/-! ## What is left -/

/-- The records of a result that are left on the server, which holds `content` behind it. -/
def State.ahead (content : ResultId → List (List Value)) (r : ResultId)
    (σ : State (Recorded ω)) : List Record :=
  if (σ.session.result r).isStreaming then
    ((content r).drop (σ.history.sent r).length).map (Record.mk (σ.session.result r).keys)
  else []

/-- A result that can be read, with the records at hand and those that are ahead. -/
structure State.Holds (content : ResultId → List (List Value)) (size : FetchSize) (r : ResultId)
    (hand ahead : List Record) (σ : State (Recorded ω)) : Prop where
  readable : σ.Readable r
  sized : σ.session.fetchSize = size
  hand : (σ.session.result r).buffer = hand
  ahead : σ.ahead content r = ahead

/-- A result that is not streaming has nothing ahead. -/
theorem State.ahead_of_over {content : ResultId → List (List Value)} {r : ResultId}
    (ceased : (σ.session.result r).isStreaming = false) : σ.ahead content r = [] := by
  rw [State.ahead, ceased]
  rfl

/-! ## Actions against such a server -/

/-- How an action ends if everything that has happened by then is `P`. -/
def Op.EndsIf (P : History → Happening → Prop) (op : Op (Recorded ω) α) (σ : State (Recorded ω))
    (good : α → State (Recorded ω) → Prop) (bad : Fault → State (Recorded ω) → Prop) : Prop :=
  op.Ends σ (fun a τ => Always P τ.history → good a τ) fun fault τ => Always P τ.history →
    bad fault τ

namespace Op.EndsIf

variable {P : History → Happening → Prop} {may : License} {op : Op (Recorded ω) α}
  {good : α → State (Recorded ω) → Prop} {bad : Fault → State (Recorded ω) → Prop}

/-- What has happened before the action is `P` then, too. -/
theorem assume (grows : Course may σ (op.exec σ).2)
    (h : Always P σ.history → op.EndsIf P σ good bad) : op.EndsIf P σ good bad := by
  by_cases always : Always P σ.history
  · exact h always
  · unfold EndsIf Op.Ends
    split
    · next e =>
      rw [e] at grows
      exact fun after => absurd (after.of_suffix grows.grows) always
    · next e =>
      rw [e] at grows
      exact fun after => absurd (after.of_suffix grows.grows) always

end Op.EndsIf

/-! ## Fetching -/

section Fetching

variable {content : ResultId → List (List Value)} {size : FetchSize} {hand rest : List Record}

/-- A batch that is what is next moves it from the server to the session. -/
theorem State.Holds.absorb (h : σ.Holds content size id hand rest)
    (streaming : (σ.session.result id).isStreaming = true) {c : Connection} {batch : Batch} {w : ω}
    (continues : Continues content σ.history
      (.asked (.send c (.result id) (.pull size)) (.ok batch))) :
    (σ.absorbed id c size batch w).Holds content size id (hand ++ size.take rest) (size.drop rest) ∧
      (batch.more = true ↔ size.drop rest ≠ []) := by
  obtain ⟨readable, sized, rfl, rfl⟩ := h
  have result : (σ.absorbed id c size batch w).session.result id = _ :=
    (Session.result_setResult σ.session id _ (Session.lt_of_isStreaming streaming)).trans
      (if_pos rfl)
  obtain ⟨records, more⟩ := continues
  have left : σ.ahead content id = ((content id).drop (σ.history.sent id).length).map
      (Record.mk (σ.session.result id).keys) := if_pos streaming
  refine ⟨⟨?_, sized, ?_, ?_⟩, ?_⟩
  · show ((σ.absorbed id c size batch w).session.result id).unusable? = none
    rw [result]
    exact readable
  · rw [result, left, ← FetchSize.map_take, ← records]
  · have still : ((σ.absorbed id c size batch w).session.result id).isStreaming = true := by
      rw [result]
      exact streaming
    rw [State.ahead, if_pos still, result, State.sent_absorbed, if_pos rfl, left,
      ← FetchSize.map_drop, List.length_append, records, ← List.drop_drop,
      ← FetchSize.drop_eq_drop_length]
  · rw [more, left, ← FetchSize.map_drop]
    simp

/-- A stream that ends leaves what is at hand, and nothing ahead. -/
theorem State.Holds.finish {summary : Summary} (h : σ.Holds content size id hand rest)
    (config : τ.session.config = σ.session.config)
    (results : τ.session.results = (σ.session.setResult id
      { σ.session.result id with stream := .finished summary }).results) :
    τ.Holds content size id hand [] ∧ (τ.session.result id).isStreaming = false := by
  obtain ⟨readable, rfl, rfl, -⟩ := h
  have now : τ.session.result id = { σ.session.result id with stream := .finished summary } :=
    (congrArg (List.getD · id Result.absent) results).trans
      ((Session.result_setResult σ.session id _ (Session.lt_of_usable readable)).trans (if_pos rfl))
  have ceased : (τ.session.result id).isStreaming = false := by
    rw [now]
    rfl
  obtain ⟨scope, consumed, -⟩ := Result.usable_iff.mp readable
  refine ⟨⟨?_, ?_, ?_, State.ahead_of_over ceased⟩, ceased⟩
  · show (τ.session.result id).unusable? = none
    rw [now]
    exact Result.usable_iff.mpr ⟨scope, consumed, rfl⟩
  · rw [Session.fetchSize, config]
    rfl
  · rw [now]

theorem finishStream_sets (metadata : Metadata) :
    (finishStream peer.recorded id metadata).Ends σ
      (fun _ τ => ∃ summary, τ.session.results = (σ.session.setResult id
        { σ.session.result id with stream := .finished summary }).results)
      fun _ τ => ∃ summary, τ.session.results = (σ.session.setResult id
        { σ.session.result id with stream := .finished summary }).results := by
  rw [finishStream, Op.ends_bind, Op.ends_theSession, Op.ends_bind, Op.ends_changeResult]
  exact (completeOrigin_reported _ _).imp (fun _ _ same => ⟨_, same⟩) fun _ _ h => ⟨_, h.1⟩

theorem finishStream_holds (h : σ.Holds content size id hand rest)
    (streaming : (σ.session.result id).isStreaming = true) (metadata : Metadata) :
    (finishStream peer.recorded id metadata).Ends σ
      (fun _ τ => τ.Holds content size id hand [] ∧ (τ.session.result id).isStreaming = false)
      fun _ _ => True := by
  have course : Course { drops := (· = id) } σ
      ((finishStream peer.recorded id metadata).exec σ).2 :=
    finishStream_course metadata streaming (.inl rfl)
  refine ((finishStream_sets metadata).and ((Course.rest _ σ).ends course)).imp
    (fun _ τ hτ => ?_) fun _ _ _ => trivial
  obtain ⟨⟨summary, results⟩, course⟩ := hτ
  exact h.finish course.keeps.config results

/-- What a fetch leaves of `hand` and `rest`, when it tells whether there is more. -/
structure State.Arrived (content : ResultId → List (List Value)) (size : FetchSize) (r : ResultId)
    (hand rest : List Record) (more : Bool) (σ : State (Recorded ω)) : Prop where
  holds : σ.Holds content size r (hand ++ size.take rest) (size.drop rest)
  streaming : (σ.session.result r).isStreaming = more
  more : more = true ↔ size.drop rest ≠ []

/-- A fetch brings what is next, and tells whether something is left. -/
theorem fetch_holds (h : σ.Holds content size id hand rest)
    (streaming : (σ.session.result id).isStreaming = true) :
    (fetch peer.recorded id).EndsIf (Continues content) σ
      (fun more τ => τ.Arrived content size id hand rest more) fun _ _ => True := by
  obtain rfl := h.sized
  have failed (fault : Fault) (τ : State (Recorded ω)) :
      Op.EndsIf (Continues content)
        (failAfter (failStream peer.recorded id fault) fault : Op (Recorded ω) Bool) τ
        (fun more τ => τ.Arrived content σ.session.fetchSize id hand rest more) fun _ _ => True :=
    Op.ends_failAfter.mpr fun _ => trivial
  rw [Op.EndsIf, fetch, Op.ends_bind, Op.ends_attempt, pullHeld, Op.ends_bind, Op.ends_theSession]
  cases held : σ.session.connection with
  | none =>
    rw [sendHeld, Op.ends_bind, Op.ends_theSession, held]
    exact failed _ σ
  | some c =>
    refine Op.ends_sendHeld held (fun batch w => ?_) fun fault w => failed fault _
    have still : ((σ.absorbed id c σ.session.fetchSize batch w).session.result id).isStreaming =
        true := by
      rw [show (σ.absorbed id c σ.session.fetchSize batch w).session.result id = _ from
        Session.result_setResult σ.session id _ (Session.lt_of_isStreaming streaming), if_pos rfl]
      exact streaming
    have arrived (always : Always (Continues content)
        (σ.absorbed id c σ.session.fetchSize batch w).history) :=
      h.absorb streaming (w := w) always.1
    have ended : Op.EndsIf (Continues content) (do
        if batch.more then return true
        finishStream peer.recorded id batch.metadata
        return false : Op (Recorded ω) Bool) (σ.absorbed id c σ.session.fetchSize batch w)
        (fun more τ => τ.Arrived content σ.session.fetchSize id hand rest more)
        fun _ _ => True := by
      cases last : batch.more with
      | true =>
        intro always
        obtain ⟨holds, more⟩ := arrived always
        exact ⟨holds, still, by rw [← more, last]⟩
      | false =>
        have course : Course { drops := (· = id) } _ (Op.exec (do
            finishStream peer.recorded id batch.metadata
            return false : Op (Recorded ω) Bool) (σ.absorbed id c σ.session.fetchSize batch w)).2 :=
          Op.course_bind (finishStream_course _ still (.inl rfl)) fun _ τ _ => .rest _ τ
        refine .assume course fun always => ?_
        obtain ⟨holds, more⟩ := arrived always
        have nothing : σ.session.fetchSize.drop rest = [] := by
          rw [last] at more
          simpa using more
        refine Op.ends_bind.mpr ((finishStream_holds holds still _).imp (fun _ τ hτ _ => ?_)
          fun _ _ _ _ => trivial)
        exact ⟨by rw [nothing]; exact hτ.1, hτ.2, by simp [nothing]⟩
    exact ended

/-- What is at hand and what is ahead once a reader has looked for a record: it fetches if there is
    none at hand. -/
def ready (size : FetchSize) (hand ahead : List α) : List α × List α :=
  if hand = [] then (size.take ahead, size.drop ahead) else (hand, ahead)

/-- Who looks for a record fetches until there is one or nothing is left. -/
theorem dry_holds (h : σ.Holds content size id hand rest) :
    (fetchWhile peer.recorded id Result.isDry).EndsIf (Continues content) σ
      (fun _ τ => τ.Holds content size id (ready size hand rest).1 (ready size hand rest).2)
      fun _ _ => True := by
  -- either nothing has been fetched yet, or one batch has come and there is more
  let Looked (τ : State (Recorded ω)) : Prop := τ.Holds content size id hand rest ∨
    hand = [] ∧ size.drop rest ≠ [] ∧ τ.Holds content size id (size.take rest) (size.drop rest)
  refine fetchWhile_turns (fun τ => Always (Continues content) τ.history → Looked τ)
    (fun _ => .inl h) (fun τ looked streaming hungry => ?_) fun τ looked enough always => ?_
  · have grows : Course {} τ ((fetch peer.recorded id).exec τ).2 := fetch_course streaming
    suffices fetched : (fetch peer.recorded id).EndsIf (Continues content) τ
        (fun more υ => if more then Looked υ else
          υ.Holds content size id (ready size hand rest).1 (ready size hand rest).2)
        fun _ _ => True by
      refine Op.Ends.imp fetched (fun more υ h => ?_) fun _ _ h => h
      cases more <;> exact h
    refine .assume grows fun always => ?_
    have empty : (τ.session.result id).buffer = [] := by simpa [Result.isDry] using hungry
    rcases looked always with holds | ⟨rfl, more, holds⟩
    · obtain rfl : hand = [] := holds.hand.symm.trans empty
      refine Op.Ends.imp (fetch_holds holds streaming) (fun more υ h always => ?_) fun _ _ h => h
      obtain ⟨holds, -, more⟩ := h always
      rw [ready, if_pos rfl]
      split
      · next yes => exact .inr ⟨rfl, more.mp yes, holds⟩
      · exact holds
    · -- a batch is not empty when there is more
      have nothing : size.take rest = [] := holds.hand.symm.trans empty
      refine absurd nothing (FetchSize.take_ne_nil ?_)
      rintro rfl
      exact more FetchSize.drop_nil
  · rcases looked always with holds | ⟨rfl, more, holds⟩
    · by_cases empty : hand = []
      · -- nothing at hand and nothing ahead
        subst empty
        have ceased : (τ.session.result id).isStreaming = false := by
          rw [Result.isDry, holds.hand] at enough
          simpa using enough
        obtain rfl : rest = [] := holds.ahead.symm.trans (State.ahead_of_over ceased)
        rw [ready, if_pos rfl, FetchSize.take_nil, FetchSize.drop_nil]
        exact holds
      · rw [ready, if_neg empty]
        exact holds
    · rw [ready, if_pos rfl]
      exact holds

end Fetching

/-! ## Single records -/

section Records

variable {content : ResultId → List (List Value)} {size : FetchSize} {hand rest : List Record}

/-- What was taken out of the buffer is not at hand any more. -/
theorem State.Holds.keep (h : σ.Holds content size id hand rest) (kept : List Record) :
    (σ.keeping id kept).Holds content size id kept rest := by
  obtain ⟨readable, sized, -, ahead⟩ := h
  have now := State.result_keeping readable kept
  refine ⟨State.readable_keeping readable kept, sized, by rw [now], ?_⟩
  rw [State.ahead, now]
  exact ahead

/-- A look shows what is next. -/
theorem peek_holds (h : σ.Holds content size id hand rest) :
    (peek peer.recorded id).EndsIf (Continues content) σ
      (fun out τ => out = (ready size hand rest).1.head? ∧
        τ.Holds content size id (ready size hand rest).1 (ready size hand rest).2)
      fun _ _ => True := by
  rw [Op.EndsIf, peek, Op.ends_bind, Op.ends_checkUsable]
  refine ⟨fun _ => ?_, fun _ _ _ => trivial⟩
  rw [Op.ends_bind]
  refine Op.Ends.imp (dry_holds h) (fun _ τ looked => ?_) fun _ _ h => h
  rw [Op.ends_bind, Op.ends_theSession, Op.ends_pure]
  intro always
  exact ⟨by rw [(looked always).hand], looked always⟩

/-- The next record is taken. -/
theorem next_holds (h : σ.Holds content size id hand rest) :
    (next peer.recorded id).EndsIf (Continues content) σ
      (fun out τ => out = (ready size hand rest).1.head? ∧
        τ.Holds content size id (ready size hand rest).1.tail (ready size hand rest).2)
      fun _ _ => True := by
  rw [Op.EndsIf, next, Op.ends_bind]
  refine Op.Ends.imp (peek_holds h) (fun out τ peeked => ?_) fun _ _ h => h
  rw [Op.ends_bind, Op.ends_changeResult, Op.ends_pure]
  intro always
  obtain ⟨rfl, holds⟩ := peeked always
  refine ⟨rfl, ?_⟩
  rw [holds.hand]
  exact holds.keep _

/-- Dropping the rest leaves what is at hand, and nothing ahead. -/
theorem discardRest_holds (h : σ.Holds content size id hand rest) :
    (discardRest peer.recorded id).Ends σ
      (fun _ τ => τ.Holds content size id hand [] ∧ (τ.session.result id).isStreaming = false)
      fun _ _ => True := by
  have failed (fault : Fault) (τ : State (Recorded ω)) :
      (failAfter (failStream peer.recorded id fault) fault : Op (Recorded ω) Unit).Ends τ
        (fun _ τ => τ.Holds content size id hand [] ∧ (τ.session.result id).isStreaming = false)
        fun _ _ => True := Op.ends_failAfter.mpr trivial
  rw [discardRest, Op.ends_bind, Op.ends_theSession]
  cases streaming : (σ.session.result id).isStreaming with
  | false =>
    rw [if_neg Bool.false_ne_true]
    obtain ⟨readable, sized, same, -⟩ := h
    exact ⟨⟨readable, sized, same, State.ahead_of_over streaming⟩, streaming⟩
  | true =>
    rw [if_pos rfl, Op.ends_bind, Op.ends_attempt, discardHeld]
    cases held : σ.session.connection with
    | none =>
      rw [sendHeld, Op.ends_bind, Op.ends_theSession, held]
      exact failed .noConnection σ
    | some c =>
      refine Op.ends_sendHeld held (fun metadata w => ?_) fun fault w => failed fault _
      have plain : (Happening.asked (.send c (.result id) .discard) (.ok metadata)).IsPlain :=
        trivial
      have heard : (σ.heard (.send c (.result id) .discard) (.ok metadata) w).Holds content size id
          hand rest := by
        obtain ⟨readable, sized, same, ahead⟩ := h
        refine ⟨readable, sized, same, ?_⟩
        rw [State.ahead, State.heard_history, History.sent_plain plain]
        exact ahead
      exact finishStream_holds heard streaming metadata

end Records

/-! ## What reading fails with -/

/-- What may be asked for while a result is read. -/
def Request.Reads : Request → Prop
  | send _ _ (.pull _) => True
  | request => request.Commits

section Failures

variable {u : Option (TransactionId × Transaction)} {s : Option ResultId}

theorem Op.FailsBy.mono {kind kind' : Request → Prop} {op : Op (Recorded ω) α}
    (h : op.FailsBy kind σ) (wider : ∀ request, kind request → kind' request) :
    op.FailsBy kind' σ := by
  refine Op.Ends.imp h (fun _ _ smooth => smooth) fun fault τ failed => ?_
  refine failed.imp fun l failed => ?_
  obtain ⟨cleanup, e, before, rfl, fails, rest⟩ := failed
  refine ⟨cleanup, e, before, rfl, ?_, rest⟩
  cases e with
  | asked request answer => exact ⟨wider _ fails.1, fails.2⟩
  | used | returned => exact fails

theorem Request.Commits.reads {request : Request} (h : request.Commits) : request.Reads := by
  unfold Reads
  split
  · trivial
  · exact h

theorem fetch_failsBy {c : Connection} (held : σ.session.connection = some c) (id : ResultId) :
    (fetch peer.recorded id).FailsBy Request.Reads σ := by
  have pulls : (pullHeld peer.recorded id).FailsBy Request.Reads σ := by
    rw [pullHeld, Op.FailsBy, Op.ends_bind, Op.ends_theSession]
    exact Op.FailsBy.sendHeld held trivial
  have ended (batch : Batch) (τ : State (Recorded ω)) : Op.FailsBy Request.Reads (do
      changeResult id fun r => { r with buffer := r.buffer ++ batch.records.map (Record.mk r.keys) }
      if batch.more then return true
      finishStream peer.recorded id batch.metadata
      return false : Op (Recorded ω) Bool) τ := by
    refine .bind (.changeSession _) fun _ υ _ => ?_
    cases batch.more with
    | true => exact .pure true
    | false =>
      have finished : (finishStream peer.recorded id batch.metadata).FailsBy Request.Reads υ :=
        .mono (finishStream_failsBy id batch.metadata υ) fun _ => Request.Commits.reads
      exact .bind finished fun _ _ _ => .pure false
  rw [fetch, Op.FailsBy, Op.ends_bind, Op.ends_attempt]
  refine Op.Ends.imp pulls ?_ ?_
  · intro batch τ smooth
    exact (ended batch τ).after smooth
  · intro fault τ failed
    exact Op.FailsBy.failAfter failed (clears_clearsUp.failStream id fault)

/-- A turn of a loop that reads, as long as nothing has failed. -/
theorem fetch_failsAfter (steady : τ.Steady u s)
    (streaming : (τ.session.result id).isStreaming = true) (smooth : σ.Smooth τ) :
    (fetch peer.recorded id).Ends τ (fun _ υ => υ.Steady u s ∧ σ.Smooth υ) fun fault υ =>
      σ.Since (History.FailedBy Request.Reads fault) υ := by
  obtain ⟨-, -, c, d, -, line⟩ := steady.live streaming
  have fetches : (fetch peer.recorded id).FailsBy Request.Reads τ := fetch_failsBy line.slot id
  exact ((fetch_steady steady streaming).and (fetches.after smooth)).imp (fun _ _ h => h)
    fun _ _ h => h.2

theorem fetchWhile_failsBy (h : σ.Steady u s) (hungry : Result → Bool) :
    (fetchWhile peer.recorded id hungry).FailsBy Request.Reads σ := by
  refine fetchWhile_ends (fun τ => τ.Steady u s ∧ σ.Smooth τ) ⟨h, IsFrame.rest σ⟩
    (fun τ hτ streaming => ?_) fun τ hτ _ => hτ.2
  refine (fetch_failsAfter hτ.1 streaming hτ.2).imp (fun more υ h => ?_) fun fault υ h => h
  cases more with
  | true => exact h
  | false => exact h.2

theorem peek_failsBy (h : σ.Steady u s) (can : σ.Readable id) :
    (peek peer.recorded id).FailsBy Request.Reads σ := by
  rw [Op.FailsBy, peek, Op.ends_bind, Op.ends_checkUsable]
  refine ⟨fun _ => ?_, fun fault e => ?_⟩
  · rw [Op.ends_bind]
    exact Op.Ends.imp (fetchWhile_failsBy h _) (fun _ _ smooth => smooth) fun _ _ failed => failed
  · have can : (σ.session.result id).unusable? = none := can
    rw [can] at e
    cases e

theorem next_failsBy (h : σ.Steady u s) (can : σ.Readable id) :
    (next peer.recorded id).FailsBy Request.Reads σ :=
  .bind (peek_failsBy h can) fun _ _ _ => .bind (.changeSession _) fun _ _ _ => .pure _

/-- Reading to the end stopped at this fault, which a request failed with, or at none. -/
def State.StopsAt (σ : State (Recorded ω)) : Option Fault → State (Recorded ω) → Prop
  | none, τ => σ.Smooth τ
  | some fault, τ => σ.Since (History.FailedBy Request.Reads fault) τ

theorem drain_stopsAt (h : σ.Steady u s) (can : σ.Readable id) :
    (drain peer.recorded id).Ends σ fun out τ => σ.StopsAt out.2 τ := by
  rw [drain, Act.ends_bind, Act.ends_theSession]
  have usable : (σ.session.result id).unusable? = none := can
  simp only [usable]
  refine drainFrom_ends (fun _ τ => τ.Steady u s ∧ σ.Smooth τ) (fun out τ => σ.StopsAt out.2 τ)
    ⟨h, IsFrame.rest σ⟩ (fun read τ hτ streaming => ?_) fun _ τ hτ _ => hτ.2
  -- records are handed out before the next batch is fetched
  have emptied : (τ.emptied id).Steady u s := hτ.1.changeResult rfl rfl fun _ => rfl
  have still := (State.emptied_isStreaming τ id id).trans streaming
  refine (fetch_failsAfter emptied still hτ.2).imp (fun more υ h => ?_) fun fault υ h => h
  cases more with
  | true => exact h
  | false => exact h.2

theorem collect_failsBy (h : σ.Steady u s) (can : σ.Readable id) :
    (collect peer.recorded id).FailsBy Request.Reads σ := by
  rw [Op.FailsBy, collect, Op.ends_bind, Op.ends_lift]
  refine (drain_stopsAt h can).imp fun out τ h => ?_
  obtain ⟨records, fault⟩ := out
  cases fault with
  | none => exact h
  | some fault => exact h

theorem discardRest_failsReading (h : σ.Steady u s) :
    (discardRest peer.recorded id).FailsBy Request.Reads σ := by
  cases streaming : (σ.session.result id).isStreaming with
  | true =>
    obtain ⟨-, -, c, d, -, line⟩ := h.live streaming
    exact .mono (discardRest_failsBy line.slot id) fun _ => Request.Commits.reads
  | false =>
    rw [discardRest, Op.FailsBy, Op.ends_bind, Op.ends_theSession, streaming,
      if_neg Bool.false_ne_true]
    exact Op.FailsBy.pure ()

/-- A request that failed is not passed over. -/
theorem State.Since.not_smooth {kind : Request → Prop} {fault : Fault}
    (failed : σ.Since (History.FailedBy kind fault) τ) : ¬ σ.Smooth τ := by
  rintro ⟨l, history, smooth⟩
  obtain ⟨l', history', cleanup, e, before, rfl, fails, -⟩ := failed
  obtain rfl := List.append_cancel_right (history.symm.trans history')
  have well := smooth e (by simp)
  cases e with
  | asked request answer => cases fails.2.symm.trans well
  | used | returned => exact fails

end Failures

end GraphSession
