import GraphSession.Proofs.Pulling
import GraphSession.Proofs.Surplus

/-!
  What is left of a result on the server, and what it takes to get it or to be rid of it.

  A result that is streaming while nobody is at work has records left on the server: its first batch
  was asked for as soon as its query had run, and the stream would be over if that had been all.  So
  the session knows of each result whether something is left, and `consume` declines the rest with
  one message exactly when there is a rest.  Reading to the end declines nothing, and pulls as often
  as the records and the configured size make batches.
-/

namespace GraphSession

variable {ω α : Type} {peer : Peer ω} {config : SessionConfig} {w : ω} {phase : Phase}
  {content : ResultId → List (List Value)} {id r : ResultId} {σ τ : State (Recorded ω)}
  {u : Option (TransactionId × Transaction)} {s : Option ResultId}

/-! ## Whether something is left -/

/-- In the stream of a result, which is open, the server holds some of the result's records. -/
def History.Leaves (content : List (List Value)) (r : ResultId) (h : History) : Prop :=
  ∃ c d, History.dialogue c h = some d ∧ d.IsSound ∧ d.stream = some r ∧
    content.drop d.served ≠ []

namespace Reached

/-- What the session did with a result, by numbers. -/
theorem counted (h : Reached peer config w phase σ) (exact : Always (Exact content) σ.history)
    (r : ResultId) : Counted (content r) (.ofInt config.fetchSize) r σ.history :=
  GraphSession.counted h.proper h.delivering.1.fresh exact h.pulls.pullsBy.sized r

/-- Something is left of a result exactly while it is streaming. -/
theorem leaves_iff (h : Reached peer config w phase σ) (exact : Always (Exact content) σ.history) :
    σ.history.Leaves (content r) r ↔ (σ.session.result r).isStreaming = true := by
  obtain ⟨-, u, s, steady, -⟩ := h.steady
  constructor
  · rintro ⟨c, d, lent, sound, stream, -⟩
    obtain ⟨-, broken | same⟩ := steady.lent lent
    · exact absurd sound broken.not_isSound
    · exact (same r).mpr stream
  · intro streaming
    obtain ⟨-, -, c, d, ⟨sound, -, stream⟩, line⟩ := steady.live streaming
    have lent : History.dialogue c σ.history = some d := line.lent
    have faithful : Always (Faithful content) σ.history := exact.imp fun _ _ => Exact.faithful
    have started := ((supplied h.proper h.delivering.1.fresh faithful r).served c d lent stream).1
    have some_pull := h.pulls.pullsBy.prompt r started
    have left := (h.counted exact r).left c d lent sound stream
    exact ⟨c, d, lent, sound, stream, left.2.2 some_pull⟩

end Reached

/-! ## Declining what is left -/

/-- Whether a message was sent to a server. -/
def Happening.IsMessage : Happening → Prop
  | asked (.send ..) _ => True
  | _ => False

/-- What is left of a result is declined by one message.  No other message is sent, unless that one
    fails and there is something to clear up. -/
def History.Declines (r : ResultId) (h : History) : Prop :=
  ∃ (after : History) (c : Connection) (answer : Except Fault Metadata),
    h = after ++ [.asked (.send c (.result r) .discard) answer] ∧
      ∀ e ∈ after, e.IsMessage → (∃ fault, answer = .error fault) ∧ e.IsCleanup

/-- Completing work sends no message. -/
theorem completing_sends_nothing :
    Completing peer.recorded (State.Only (ω := ω) (¬ ·.IsMessage)) where
  toEndsUnits := endsUnits_only fun request _ endsUnits message => by
    cases request with
    | send _ _ _ => exact endsUnits
    | _ => exact message
  report _ _ := ask_only fun _ message => message

/-- Dropping the rest of a result that is streaming declines what is left of it. -/
theorem discardRest_declines (steady : σ.Steady u s)
    (streaming : (σ.session.result id).isStreaming = true) :
    (discardRest peer.recorded id).Ends σ (fun _ => σ.Since (History.Declines id)) fun _ =>
      σ.Since (History.Declines id) := by
  obtain ⟨-, -, c, d, -, line⟩ := steady.live streaming
  have held : σ.session.connection = some c := line.slot
  -- what comes after the message
  have declines {answer : Except Fault Metadata} {w : ω} {P : Happening → Prop}
      (allowed : ∀ e, P e → e.IsMessage → (∃ fault, answer = .error fault) ∧ e.IsCleanup)
      {τ : State (Recorded ω)}
      (after : (σ.heard (.send c (.result id) .discard) answer w).Only P τ) :
      σ.Since (History.Declines id) τ := by
    obtain ⟨after, history, only⟩ := after
    exact ⟨after ++ [_], history.trans (List.append_cons _ _ _), after, c, answer, rfl,
      fun e he => allowed e (only e he)⟩
  rw [discardRest, Op.ends_bind, Op.ends_theSession, if_pos streaming, Op.ends_bind,
    Op.ends_attempt, discardHeld]
  refine Op.ends_sendHeld held (fun metadata w => ?_) fun fault w => ?_
  · have quiet (e : Happening) (no_message : ¬ e.IsMessage) (message : e.IsMessage) :
        (∃ fault, (Except.ok metadata : Except Fault Metadata) = .error fault) ∧ e.IsCleanup :=
      absurd message no_message
    exact ((completing_sends_nothing.finishStream id metadata).ends _).imp
      (fun _ _ => declines quiet) fun _ _ => declines quiet
  · have clears (e : Happening) (cleanup : e.IsCleanup) (_ : e.IsMessage) :
        (∃ fault', (Except.error fault : Except Fault Metadata) = .error fault') ∧ e.IsCleanup :=
      ⟨⟨fault, rfl⟩, cleanup⟩
    have failed : Op.Obeys (State.Clears (ω := ω))
        (failAfter (failStream peer.recorded id fault) fault : Op (Recorded ω) Unit) :=
      .failAfter (clears_clearsUp.failStream id fault) _
    exact (failed.ends _).imp (fun _ _ => declines clears) fun _ _ => declines clears

/-- Dropping the rest of a result that is not streaming does nothing. -/
theorem discardRest_forgetsAtMost (ceased : (σ.session.result id).isStreaming = false) :
    (discardRest peer.recorded id).exec σ = (.ok (), σ) := by
  rw [discardRest, Op.exec_bind, Op.exec_theSession]
  dsimp only
  rw [if_neg (Bool.eq_false_iff.mp ceased)]
  rfl

/-- Whatever `consume` does beside dropping the rest, it makes no request. -/
theorem consume_after {post : State (Recorded ω) → Prop}
    (dropped : (discardRest peer.recorded id).Ends σ (fun _ => post) fun _ => post)
    (session : ∀ (τ : State (Recorded ω)) (t : Session), post τ → post { τ with session := t })
    (here : σ.Readable id ∨ post σ) :
    (consume peer.recorded id).Ends σ (fun _ => post) fun _ => post := by
  rw [consume, Op.ends_bind, Op.ends_theSession, Op.ends_bind, Op.ends_failIf]
  refine ⟨fun _ => ?_, fun fault gone => ?_⟩
  · split
    · next summary consumed _ =>
      refine here.resolve_left fun readable => ?_
      obtain ⟨-, unconsumed, -⟩ := Result.usable_iff.mp readable
      cases unconsumed.symm.trans consumed
    · rw [Op.ends_bind]
      refine dropped.imp (fun _ τ h => ?_) fun _ _ h => h
      have consumed (t : Session) : post { τ with session := t } := session τ t h
      rw [Op.ends_bind, Op.ends_changeResult, Op.ends_bind, Op.ends_theSession]
      split <;> exact consumed _
  · refine here.resolve_left fun readable => ?_
    obtain ⟨scope, -⟩ := Result.usable_iff.mp readable
    cases scope.symm.trans gone

/-- `consume` declines what is left of a result, if something is. -/
theorem consume_declines (steady : σ.Steady u s)
    (streaming : (σ.session.result id).isStreaming = true) :
    (consume peer.recorded id).Ends σ (fun _ => σ.Since (History.Declines id)) fun _ =>
      σ.Since (History.Declines id) := by
  obtain ⟨-, -, c, d, -, line⟩ := steady.live streaming
  exact consume_after (discardRest_declines steady streaming) (fun _ _ h => h)
    (.inl (line.usable id rfl))

/-- Otherwise it asks for nothing. -/
theorem consume_forgetsAtMost (ceased : (σ.session.result id).isStreaming = false) :
    (consume peer.recorded id).Ends σ (fun _ τ => τ.history = σ.history) fun _ τ =>
      τ.history = σ.history := by
  refine consume_after ?_ (fun _ _ h => h) (.inr rfl)
  rw [Op.Ends, discardRest_forgetsAtMost ceased]

/-! ## Buffering what is left -/

/-- A fetch that tells that there is no more has got the last records. -/
theorem fetch_completes (id : ResultId) (σ : State (Recorded ω)) :
    (fetch peer.recorded id).Ends σ (fun more τ => more = false → τ.history.Complete id)
      fun _ _ => True := by
  have failed (fault : Fault) (τ : State (Recorded ω)) :
      (failAfter (failStream peer.recorded id fault) fault : Op (Recorded ω) Bool).Ends τ
        (fun more τ => more = false → τ.history.Complete id) fun _ _ => True :=
    Op.ends_failAfter.mpr trivial
  rw [fetch, Op.ends_bind, Op.ends_attempt, pullHeld, Op.ends_bind, Op.ends_theSession]
  cases held : σ.session.connection with
  | none =>
    rw [sendHeld, Op.ends_bind, Op.ends_theSession, held]
    exact failed .noConnection σ
  | some c =>
    refine Op.ends_sendHeld held (fun batch w => ?_) fun fault w => failed fault _
    rw [Op.ends_bind, Op.ends_changeResult]
    split
    · exact fun last => by cases last
    · next last =>
      have completes : (Happening.asked (.send c (.result id) (.pull σ.session.fetchSize))
          (.ok batch)).Completes id := ⟨rfl, by simpa using last⟩
      -- whatever completing the work adds, the last pull stays in the history
      have ended : (finishStream peer.recorded id batch.metadata).Obeys
          (State.Only (ω := ω) (¬ ·.IsMessage)) := completing_sends_nothing.finishStream id _
      refine Op.ends_bind.mpr ((ended.ends _).imp (fun _ τ h _ => ?_) fun _ _ _ => trivial)
      obtain ⟨after, history, -⟩ := h
      exact ⟨_, history ▸ List.mem_append_right after List.mem_cons_self, completes⟩

/-- Who buffers a result that is streaming gets all of its records. -/
theorem bufferAll_completes (live : σ.Live 0 u (some id)) :
    (bufferAll peer.recorded id).Ends σ (fun _ τ => τ.history.Complete id) fun _ _ => True := by
  refine fetchWhile_turns (·.Live 0 u (some id)) live (fun τ live _ _ => ?_)
    fun τ live enough => ?_
  · refine ((fetch_stands live).and (fetch_completes id τ)).imp (fun more υ h => ?_)
      fun _ _ _ => trivial
    cases more with
    | true => exact State.Busy.live_some h.1
    | false => exact h.2 rfl
  · rw [(live.busy_some.streaming id).mpr rfl] at enough
    cases enough

/-! ## Turns of the loops that read -/

/-- From `σ` to `τ` the loops that read a result have gone `n` turns: each time its stream was open
    and a fetch told that there is more.  What is at hand may be handed out in between. -/
inductive State.Turns (peer : Peer ω) (r : ResultId) (σ : State (Recorded ω)) :
    Nat → State (Recorded ω) → Prop
  | start : Turns peer r σ 0 σ
  | emptied {n : Nat} {τ : State (Recorded ω)} : Turns peer r σ n τ →
    Turns peer r σ n (τ.emptied r)
  | turn {n : Nat} {τ υ : State (Recorded ω)} : Turns peer r σ n τ →
    (τ.session.result r).isStreaming = true → (fetch peer.recorded r).exec τ = (.ok true, υ) →
    Turns peer r σ (n + 1) υ

variable {n : Nat}

/-- Every turn pulls. -/
theorem State.Turns.pulls (turns : State.Turns peer r σ n τ) (steady : σ.Steady u s) :
    Course { takes := (· = r) } σ τ ∧ τ.Steady u s ∧ σ.Pulls τ ∧
      σ.history.pulls r + n ≤ τ.history.pulls r := by
  have k : Routine peer.recorded (State.Pulls (ω := ω)) := routine_pulls
  induction turns with
  | start => exact ⟨.rest _ _, steady, IsFrame.rest σ, Nat.le_refl _⟩
  | emptied _ ih =>
    obtain ⟨course, steady, path, count⟩ := ih
    exact ⟨course.andThen (.take rfl _), steady.changeResult rfl rfl fun _ => rfl,
      IsFrame.andThen path ⟨rfl, .nothing .nothing rfl⟩, count⟩
  | @turn n τ υ _ streaming e ih =>
    obtain ⟨course, steady, path, count⟩ := ih
    obtain ⟨-, -, c, d, -, line⟩ := steady.live streaming
    have fetched : Course { takes := (· = r) } τ ((fetch peer.recorded r).exec τ).2 :=
      fetch_course streaming
    have pulled := k.fetch r τ
    rw [e] at fetched pulled
    obtain ⟨later, history, some_pull⟩ := (fetch_pulls line.slot).of_ok e
    have more : υ.history.pulls r = History.pulls r later + τ.history.pulls r := by
      rw [history, History.pulls_append]
    exact ⟨course.andThen fetched, (fetch_steady steady streaming).of_ok e,
      IsFrame.andThen path pulled, by omega⟩

/-- So there are no more turns than pulls left to be made. -/
theorem Reached.turns_le (h : Reached peer config w phase σ) (turns : State.Turns peer r σ n τ)
    (exact : Always (Exact content) τ.history) :
    σ.history.pulls r + n ≤ batchCount config.fetchSize (content r).length := by
  obtain ⟨-, u, s, steady, -⟩ := h.steady
  obtain ⟨course, steady', path, count⟩ := turns.pulls steady
  have tracked : τ.Tracked := (course.resultKept h.delivering.1).1
  have pulls : (State.initial config w).Pulls τ := IsFrame.andThen h.pulls path
  have counted : Counted (content r) (.ofInt config.fetchSize) r τ.history :=
    GraphSession.counted steady'.proper tracked.fresh exact pulls.pullsBy.sized r
  calc σ.history.pulls r + n
    _ ≤ τ.history.pulls r := count
    _ ≤ (FetchSize.ofInt config.fetchSize).batches (content r).length := counted.bounded
    _ = batchCount config.fetchSize (content r).length := FetchSize.batches_ofInt _ _

/-! ## Reading in batches -/

/-- What it takes to read a result in batches of a configured size, when the server holds `content`
    behind the results. -/
structure State.Frugal (peer : Peer ω) (size : Int) (content : ResultId → List (List Value))
    (r : ResultId) (σ : State (Recorded ω)) : Prop where
  /-- Every pull asks for as many records as were configured, or for all of them; never for none. -/
  sized : ∀ c sender n answer, .asked (.send c sender (.pull n)) answer ∈ σ.history →
    n.toInt = (if 0 < size then size else -1) ∧ n.toInt ≠ 0
  /-- The pulls are never more than the records make batches, and the records that are handed out
      never more than there are. -/
  bounded : σ.history.pulls r ≤ batchCount size (content r).length ∧
    (σ.history.handed r).length ≤ (content r).length
  /-- Once all records have come, the pulls were just as many, and nothing was declined. -/
  complete : σ.history.Complete r →
    σ.history.pulls r = batchCount size (content r).length ∧ σ.history.discards r = 0
  /-- All records have come when a reader is told that there are no more. -/
  readOut : ∀ (later past : History) (e : Happening), σ.history = later ++ e :: past →
    e.ReadsOut r → ¬ past.Dropped r → past.Complete r
  /-- They have also come when its stream has ended otherwise, -/
  ended : σ.Readable r → ¬ σ.history.Dropped r → (σ.session.result r).isStreaming = false →
    σ.history.Complete r
  /-- and when the session buffers those that are left. -/
  buffered : (σ.session.result r).isStreaming = true →
    (bufferAll peer.recorded r).Ends σ (fun _ τ => τ.history.Complete r) fun _ _ => True
  /-- A loop that reads goes on for no more turns than there are pulls left to be made. -/
  turns : ∀ n τ, State.Turns peer r σ n τ → Always (Exact content) τ.history →
    σ.history.pulls r + n ≤ batchCount size (content r).length
  /-- So reading comes to an end, and well unless a request fails. -/
  reads : σ.Readable r → (next peer.recorded r).FailsBy Request.Reads σ ∧
    (peek peer.recorded r).FailsBy Request.Reads σ ∧
    (collect peer.recorded r).FailsBy Request.Reads σ ∧
    (bufferAll peer.recorded r).FailsBy Request.Reads σ
  /-- Who consumes it declines what is left on the server by one message, -/
  declined : σ.history.Leaves (content r) r →
    (consume peer.recorded r).Ends σ (fun _ => σ.Since (History.Declines r)) fun _ =>
      σ.Since (History.Declines r)
  /-- and makes no request at all if nothing is left there. -/
  spared : ¬ σ.history.Leaves (content r) r →
    (consume peer.recorded r).Ends σ (fun _ τ => τ.history = σ.history) fun _ τ =>
      τ.history = σ.history

/-- Against a server that is exact, a session reads every result frugally, in whatever ways and in
    whatever order it is read, whatever else is done meanwhile. -/
theorem reached_frugal (h : Reached peer config w phase σ)
    (content : ResultId → List (List Value)) (exact : Always (Exact content) σ.history)
    (r : ResultId) : σ.Frugal peer config.fetchSize content r := by
  obtain ⟨-, u, s, steady, -⟩ := h.steady
  have delivers : σ.Delivers r := h.delivering.2 r
  have counted : Counted (content r) (.ofInt config.fetchSize) r σ.history := h.counted exact r
  have faithful : Always (Faithful content) σ.history := exact.imp fun _ _ => Exact.faithful
  have supplied : Supplied (content r) r σ.history :=
    supplied h.proper h.delivering.1.fresh faithful r
  refine ⟨fun c sender n answer asked => ?_, ⟨?_, ?_⟩, fun complete => ?_,
    fun later past e split readOut n => ?_, fun readable n ceased => ?_,
    fun streaming => bufferAll_completes (steady.live streaming).2,
    fun n τ turns exact => h.turns_le turns exact, fun readable => ?_, fun leaves => ?_,
    fun none_left => ?_⟩
  · obtain rfl : n = .ofInt config.fetchSize := h.pulls.pullsBy.sized _ asked
    rw [FetchSize.toInt_ofInt]
    refine ⟨rfl, ?_⟩
    split <;> omega
  · rw [← FetchSize.batches_ofInt]
    exact counted.bounded
  · obtain ⟨gone, sublist, stock, -⟩ := delivers.stock
    calc (σ.history.handed r).length
      _ ≤ gone.length := sublist.length_le
      _ ≤ (σ.records r).length := stock.inOrder.length_le
      _ = (σ.history.sent r).length := List.length_map _
      _ ≤ (content r).length := supplied.inOrder.length_le
  · obtain ⟨discards, pulls⟩ := counted.complete complete
    exact ⟨pulls.trans (FetchSize.batches_ofInt _ _), discards⟩
  · have told := delivers.told
    rw [split] at told
    exact told.at.complete readOut n
  · refine ((delivers.whole.resolve_left n) readable).resolve_left fun streaming => ?_
    rw [ceased] at streaming
    cases streaming
  · exact ⟨next_failsBy steady readable, peek_failsBy steady readable,
      collect_failsBy steady readable, fetchWhile_failsBy steady _⟩
  · exact consume_declines steady ((h.leaves_iff exact).mp leaves)
  · refine consume_forgetsAtMost (Bool.eq_false_iff.mpr fun streaming => none_left ?_)
    exact (h.leaves_iff exact).mpr streaming

/-- Three records are collected in two batches of at most two. -/
theorem three_collected_frugally :
    Always (Exact fun _ => [[.integer 1], [.integer 2], [.integer 3]])
        (play threeRecords { fetchSize := 2 } [] queryCollected).history ∧
      (play threeRecords { fetchSize := 2 } [] queryCollected).history.Complete 0 ∧
      (play threeRecords { fetchSize := 2 } [] queryCollected).history.pulls 0 = 2 ∧
      (play threeRecords { fetchSize := 2 } [] queryCollected).Frugal threeRecords 2
        (fun _ => [[.integer 1], [.integer 2], [.integer 3]]) 0 := by
  let queried := play threeRecords { fetchSize := 2 } [] [.run (.query { text := "RETURN n" }) none]
  let last := (Op.exec (fetch threeRecords.recorded 0) (queried.emptied 0)).2
  have collected : Op.exec (collect threeRecords.recorded 0) queried =
      (.ok [⟨["n"], [.integer 1]⟩, ⟨["n"], [.integer 2]⟩, ⟨["n"], [.integer 3]⟩],
        last.emptied 0) := by
    rw [collect_exec rfl, drainFrom_turn rfl]
    rfl
  have read : (play threeRecords { fetchSize := 2 } [] queryCollected).history =
      .used (.collect 0) (.ok [⟨["n"], [.integer 1]⟩, ⟨["n"], [.integer 2]⟩,
        ⟨["n"], [.integer 3]⟩]) :: last.history := by
    show (Operation.after threeRecords queried (.access (.collect 0))).history = _
    rw [Operation.after, Operation.perform, Act.exec_bind, Access.performTold, Act.exec_bind,
      Act.exec_run, Access.perform, collected]
    rfl
  -- the last pull, after which the connection goes back
  have grown : last.history = .asked (.note .connectionReleased) () ::
      .asked (.release default) () :: .asked (.send default (.result 0) (.pull (.ofInt 2)))
        (.ok ⟨[[.integer 3]], false, .empty⟩) :: queried.history := rfl
  rw [grown] at read
  have first : Always (Exact fun _ => [[.integer 1], [.integer 2], [.integer 3]])
      queried.history := by
    refine ⟨fun d r lent opened => ?_, trivial, trivial, trivial, trivial, trivial⟩
    cases lent
    exact ⟨rfl, fun _ => List.cons_ne_nil [Value.integer 3] [], fun _ => rfl⟩
  have exact : Always (Exact fun _ => [[.integer 1], [.integer 2], [.integer 3]])
      (play threeRecords { fetchSize := 2 } [] queryCollected).history := by
    rw [read]
    refine ⟨trivial, trivial, trivial, fun d r lent opened => ?_, first⟩
    cases lent
    exact ⟨rfl, Bool.false_ne_true.elim, fun left => absurd rfl left⟩
  have frugal := reached_frugal (reached_play threeRecords { fetchSize := 2 } [] queryCollected)
    _ exact 0
  have complete : (play threeRecords { fetchSize := 2 } [] queryCollected).history.Complete 0 := by
    rw [read]
    exact ⟨_, .tail _ (.tail _ (.tail _ (.head _))), rfl, rfl⟩
  exact ⟨exact, complete, (frugal.complete complete).1, frugal⟩

end GraphSession
