import GraphSession.Proofs.Situation

/-!
  How streams move a session between situations.

  A fetch leaves its result streaming or ends its unit; a failing fetch leaves the unit down.
  Reading a result is fetching, discarding and changes that no situation depends on, so every way
  of reading leaves the session steady: what was open is still open, has ended, or is down.
-/

namespace GraphSession

variable {ω α : Type} {peer : Peer ω} {k : Nat} {u : Option (TransactionId × Transaction)}
  {s : Option ResultId} {c : Connection} {d : Dialogue} {id : ResultId} {σ : State (Recorded ω)}

/-! ## One stream -/

theorem abortOrigin_stands (h : σ.Line k u none c d) (hd : d.IsBroken)
    (transaction : d.transaction = u.map Prod.fst)
    (active : ∀ p, u = some p → p.2.state = .active) {origin : Origin}
    (own : origin.transaction? = u.map Prod.fst) :
    (abortOrigin peer.recorded origin).Ends σ fun _ τ => τ.Down k u := by
  cases origin with
  | autoCommit _ _ =>
    obtain rfl : u = none := Option.map_eq_none_iff.mp own.symm
    exact abortUnit_stands h hd
  | transaction t =>
    obtain ⟨⟨t', v⟩, rfl, rfl⟩ := Option.map_eq_some_iff.mp own.symm
    have was : σ.session.transaction t' = v := ((h.opened t' v).mpr rfl).1
    rw [abortOrigin, markFailed, Act.ends_changeTransaction, was, if_pos (active _ rfl)]
    exact ⟨c, d, ⟨hd, transaction⟩, h.setTransaction rfl rfl⟩

theorem failStream_stands (h : σ.Line k u (some id) c d) (hd : d.IsBroken)
    (transaction : d.transaction = u.map Prod.fst)
    (active : ∀ p, u = some p → p.2.state = .active) (fault : Fault) :
    (failStream peer.recorded id fault).Ends σ fun _ τ => τ.Down k u := by
  rw [failStream, Act.ends_bind, Act.ends_theSession, Act.ends_bind, Act.ends_changeResult]
  exact abortOrigin_stands (h.closeResult rfl rfl) hd transaction active (h.origin id rfl)

/-- Whatever the report of the bookmark comes to, the unit ends, and its token is taken in. -/
theorem reportAndEnd_stands {token : Option String} (h : σ.Line k none none c d token)
    (hd : d.IsAt none none) (sent : Bookmarks) :
    (reportAndEnd peer.recorded sent token).Ends σ (fun _ τ => τ.StreamEnded k none)
      fun fault τ => τ.Idle (·.IsAt none none) k ∧ Blamed τ.history fault := by
  have idle {υ : State (Recorded ω)} (h : υ.Line k none none c d) :
      υ.Idle (·.IsAt none none) (k + 1) := State.Line.idle h hd
  have clean (d : Dialogue) : d.IsAt none none → d.IsClean := Dialogue.IsAt.isClean
  refine Op.ends_attemptThen.mpr ((takeBookmark?_stands h sent rfl).imp (fun _ υ h => ?_)
    fun fault υ h => ?_)
  · by_cases another : 0 < k
    · have many : 1 < υ.session.units := by
        rw [h.units]
        exact Nat.lt_add_of_pos_left another
      refine ((endUnit_stands (idle h) clean).and (endUnit_keeps many)).imp fun _ τ h' =>
        ⟨h'.1, fun _ => ?_⟩
      rw [h'.2, h.slot]
      exact Option.some_ne_none c
    · exact (endUnit_stands (idle h) clean).imp fun _ τ h => ⟨h, fun more => absurd more another⟩
  · exact ((endUnit_stands (idle h.1) clean).and (endUnit_within.grows υ)).imp fun _ _ h' =>
      ⟨h'.1, h.2.mono h'.2⟩

/-- The unit behind a result is complete.  Only the unit of an auto-commit result can fail at this,
    and then it has ended all the same. -/
theorem completeOrigin_stands {summary : Summary}
    (h : σ.Line k u none c d (if u.isNone then summary.bookmark else none))
    (hd : d.IsAt (u.map Prod.fst) none)
    (active : ∀ p, u = some p → p.2.state = .active) {origin : Origin}
    (own : origin.transaction? = u.map Prod.fst) :
    (completeOrigin peer.recorded summary origin).Ends σ (fun _ τ => τ.StreamEnded k u)
      fun fault τ => τ.Down k u ∧ Blamed τ.history fault := by
  cases origin with
  | transaction t =>
    obtain ⟨p, rfl, -⟩ := Option.map_eq_some_iff.mp own.symm
    refine ⟨State.Live.busy ⟨active, c, d, hd, h⟩ (.inl (Option.some_ne_none p)), fun _ => ?_⟩
    rw [h.slot]
    exact Option.some_ne_none c
  | autoCommit sent pins =>
    obtain rfl : u = none := Option.map_eq_none_iff.mp own.symm
    have settled {τ : State (Recorded ω)} (h : τ.Line k none none c d summary.bookmark) :
        (reportAndEnd peer.recorded sent summary.bookmark).Ends τ (fun _ τ => τ.StreamEnded k none)
          fun fault τ => τ.Down k none ∧ Blamed τ.history fault :=
      (reportAndEnd_stands h hd sent).imp (fun _ _ h => h) fun _ _ h =>
        ⟨h.1.imp fun _ => Dialogue.IsAt.isClean, h.2⟩
    cases pins with
    | true =>
      refine Op.ends_bind.mpr (Op.ends_lift.mpr ?_)
      exact (pinDatabase_stands h _).imp fun _ τ h => settled h
    | false => exact settled h

/-- The stream has ended on the server, and then it ends for the session. -/
theorem finishStream_stands {metadata : Metadata}
    (h : σ.Line k u (some id) c d (if u.isNone then tokenOf metadata else none))
    (hd : d.IsAt (u.map Prod.fst) none) (active : ∀ p, u = some p → p.2.state = .active) :
    (finishStream peer.recorded id metadata).Ends σ (fun _ τ => τ.StreamEnded k u)
      fun fault τ => τ.Down k u ∧ Blamed τ.history fault := by
  rw [finishStream, Op.ends_bind, Op.ends_theSession, Op.ends_bind, Op.ends_changeResult]
  refine completeOrigin_stands (c := c) ?_ hd active (h.origin id rfl)
  rw [bookmark_ofMetadata]
  exact h.closeResult rfl rfl

/-- A result that is streaming fetches. -/
theorem fetch_stands (h : σ.Live k u (some id)) :
    (fetch peer.recorded id).Ends σ
      (fun more τ => if more then τ.Busy k u (some id) else τ.StreamEnded k u)
      fun fault τ => τ.Down k u ∧ Blamed τ.history fault := by
  obtain ⟨active, c, d, ⟨sound, transaction, stream⟩, h⟩ := h
  have allowed (size : FetchSize) : d.Allows (.result id) (.pull size) :=
    ⟨sound, id, rfl, stream⟩
  rw [fetch, Op.ends_bind, Op.ends_attempt, pullHeld, Op.ends_bind, Op.ends_theSession]
  refine Op.ends_sendHeld h.slot (fun batch w => ?_) fun fault w => ?_
  · have pulled := h.message rfl (allowed σ.session.fetchSize) (.ok batch) w trivial trivial trivial
    have arrived {τ : State (Recorded ω)} (h : τ.Line k u (some id) c
        (d.after (.result id) (.pull σ.session.fetchSize) (.ok batch))
        ((d.token? (.pull σ.session.fetchSize) (.ok batch)).or none)) : Op.Ends (do
          if batch.more then return true
          finishStream peer.recorded id batch.metadata
          return false : Op (Recorded ω) Bool) τ
        (fun more τ => if more then τ.Busy k u (some id) else τ.StreamEnded k u)
        fun fault τ => τ.Down k u ∧ Blamed τ.history fault := by
      -- what the batch returns, if it is the last one and no transaction is open
      simp only [Dialogue.token?, transaction, Option.isNone_map, Option.or_none] at h
      cases more : batch.more with
      | true =>
        rw [more, Bool.not_true, Bool.and_false, if_neg Bool.false_ne_true] at h
        have still : (d.after (.result id) (.pull σ.session.fetchSize) (.ok batch)).IsAt
            (u.map Prod.fst) (some id) :=
          ⟨sound, transaction, by simp only [Dialogue.after, more, if_true]; exact stream⟩
        exact State.Live.busy_some ⟨active, c, _, still, h⟩
      | false =>
        rw [more, Bool.not_false, Bool.and_true] at h
        refine Op.ends_bind.mpr (finishStream_stands h ⟨sound, transaction, ?_⟩ active)
        simp only [Dialogue.after, more, Bool.false_eq_true, if_false]
    rw [Op.ends_bind, Op.ends_changeResult]
    exact arrived (pulled.changeResult rfl rfl fun _ => rfl)
  · have failed := h.message rfl (allowed σ.session.fetchSize) (.error fault) w trivial trivial
      trivial
    rw [Op.ends_bind, Op.ends_lift]
    refine ((failStream_stands failed ⟨rfl, sound.2⟩ transaction active fault).and
      ((failStream_within id fault).grows _)).imp fun _ _ h => ?_
    exact ⟨h.1, Blamed.mono (.here rfl) h.2⟩

/-! ## Until a stream ends -/

namespace State

/-- The only result that is streaming. -/
theorem Busy.streaming (h : σ.Busy k u s) (r : ResultId) :
    (σ.session.result r).isStreaming = true ↔ s = some r := by
  match u, s, h with
  | none, none, h => exact h.elim (·.streaming r) fun ⟨_, _, _, _, h⟩ => h.streaming r
  | some p, s, h =>
    obtain ⟨_, _, _, _, h⟩ := h.live (.inl (Option.some_ne_none p))
    exact h.streaming r
  | none, some r', h =>
    obtain ⟨_, _, _, _, h⟩ := h.live_some
    exact h.streaming r

/-- After a failure no result is streaming. -/
theorem Down.not_streaming (h : σ.Down k u) (r : ResultId) :
    (σ.session.result r).isStreaming = false := by
  apply Bool.eq_false_iff.mpr
  intro streaming
  match u, h with
  | none, .inl h => cases (h.streaming r).mp streaming
  | none, .inr ⟨_, _, _, _, h⟩ => cases (h.streaming r).mp streaming
  | some (_, _), ⟨_, _, _, h⟩ => cases (h.streaming r).mp streaming

end State

/-- Fetching until there is enough. -/
theorem fetchWhile_stands (h : σ.Busy k u s) (hungry : Result → Bool) :
    (fetchWhile peer.recorded id hungry).Ends σ
      (fun _ τ => τ.Busy k u s ∧
          ((τ.session.result id).isStreaming && hungry (τ.session.result id)) = false ∨
        s = some id ∧ τ.StreamEnded k u)
      fun fault τ => s = some id ∧ τ.Down k u ∧ Blamed τ.history fault := by
  refine fetchWhile_ends (·.Busy k u s) h (fun τ h streaming => ?_) fun τ h enough =>
    .inl ⟨h, enough⟩
  obtain rfl := (h.streaming id).mp streaming
  refine (fetch_stands h.live_some).imp (fun more υ h => ?_) fun _ _ h => ⟨rfl, h⟩
  cases more with
  | true => exact h
  | false => exact .inr ⟨rfl, h⟩

/-- Fetching to the end: the stream is over if it was this result's. -/
theorem bufferAll_stands (h : σ.Busy k u s) :
    (bufferAll peer.recorded id).Ends σ
      (fun _ τ => τ.Busy k u (if s = some id then none else s))
      fun fault τ => s = some id ∧ τ.Down k u ∧ Blamed τ.history fault := by
  refine (fetchWhile_stands h _).imp (fun _ τ h => ?_) fun _ _ h => h
  rcases h with ⟨h, enough⟩ | ⟨own, ended⟩
  · have other : s ≠ some id := fun e => by
      rw [(h.streaming id).mpr e] at enough
      cases enough
    rwa [if_neg other]
  · rw [if_pos own]
    exact ended.busy

/-- With another unit reserved, the session still has its connection when a stream has been fetched
    to its end. -/
theorem bufferAll_keeps (h : σ.Live k u (some id)) (another : 0 < k) :
    (bufferAll peer.recorded id).Ends σ (fun _ τ => τ.session.connection ≠ none)
      fun _ _ => True := by
  refine (fetchWhile_stands h.busy_some _).imp (fun _ τ h => ?_) fun _ _ _ => trivial
  rcases h with ⟨h, enough⟩ | ⟨-, h⟩
  · rw [(h.streaming id).mpr rfl] at enough
    cases enough
  · exact h.held another

/-- Dropping the rest: the stream is over if it was this result's. -/
theorem discardRest_stands (h : σ.Busy k u s) :
    (discardRest peer.recorded id).Ends σ
      (fun _ τ => τ.Busy k u (if s = some id then none else s))
      fun fault τ => s = some id ∧ τ.Down k u ∧ Blamed τ.history fault := by
  rw [discardRest, Op.ends_bind, Op.ends_theSession]
  by_cases own : s = some id
  · subst own
    rw [if_pos ((h.streaming id).mpr rfl), if_pos rfl]
    obtain ⟨active, c, d, ⟨sound, transaction, stream⟩, h⟩ := h.live_some
    have allowed : d.Allows (.result id) .discard := ⟨sound, id, rfl, stream⟩
    rw [Op.ends_bind, Op.ends_attempt, discardHeld]
    refine Op.ends_sendHeld h.slot (fun metadata w => ?_) fun fault w => ?_
    · have discarded : State.Line k u (some id) c (d.after (.result id) .discard (.ok metadata))
          (σ.heard (.send c (.result id) .discard) (.ok metadata) w)
          (if u.isNone then tokenOf metadata else none) := by
        have h := h.message rfl allowed (.ok metadata) w trivial trivial trivial
        simp only [Dialogue.token?, transaction, Option.isNone_map, Option.or_none] at h
        exact h
      exact (finishStream_stands discarded ⟨sound, transaction, rfl⟩ active).imp
        (fun _ _ h => h.busy) fun _ _ h => ⟨rfl, h⟩
    · rw [Op.ends_bind, Op.ends_lift]
      have failed := h.message rfl allowed (.error fault) w trivial trivial trivial
      refine ((failStream_stands failed ⟨rfl, sound.2⟩ transaction active fault).and
        ((failStream_within id fault).grows _)).imp fun _ _ h => ?_
      exact ⟨rfl, h.1, Blamed.mono (.here rfl) h.2⟩
  · have quiet : ¬ (σ.session.result id).isStreaming = true := fun e => own ((h.streaming id).mp e)
    rw [if_neg quiet, if_neg own]
    exact h

/-! ## Reading -/

/-- What was open is open, has ended, or is down. -/
def State.Steady (u : Option (TransactionId × Transaction)) (s : Option ResultId)
    (σ : State (Recorded ω)) : Prop :=
  σ.Busy 0 u s ∨ σ.Busy 0 u none ∨ σ.Down 0 u

/-- The failure of an action that leaves the session steady. -/
def State.Failing (u : Option (TransactionId × Transaction)) (s : Option ResultId) (fault : Fault)
    (σ : State (Recorded ω)) : Prop :=
  σ.Steady u s ∧ Blamed σ.history fault

namespace State

/-- All that a situation says is a standing. -/
theorem Busy.stands (h : σ.Busy k u s) :
    ∃ x : Standing, σ.Stands x ∧ ∀ {τ : State (Recorded ω)}, τ.Stands x → τ.Busy k u s := by
  match u, s, h with
  | none, none, .inl h => exact ⟨_, h, .inl⟩
  | none, none, .inr ⟨hk, c, d, hd, h⟩ => exact ⟨_, h, fun h => .inr ⟨hk, c, d, hd, h⟩⟩
  | some p, s, h =>
    obtain ⟨active, c, d, hd, h⟩ := h.live (.inl (Option.some_ne_none p))
    exact ⟨_, h, fun h => Live.busy ⟨active, c, d, hd, h⟩ (.inl (Option.some_ne_none p))⟩
  | none, some r, h =>
    obtain ⟨active, c, d, hd, h⟩ := h.live_some
    exact ⟨_, h, fun h => Live.busy_some ⟨active, c, d, hd, h⟩⟩

theorem Down.stands (h : σ.Down k u) :
    ∃ x : Standing, σ.Stands x ∧ ∀ {τ : State (Recorded ω)}, τ.Stands x → τ.Down k u := by
  match u, h with
  | none, .inl h => exact ⟨_, h, .inl⟩
  | none, .inr ⟨hk, c, d, hd, h⟩ => exact ⟨_, h, fun h => .inr ⟨hk, c, d, hd, h⟩⟩
  | some (_, _), ⟨c, d, hd, h⟩ => exact ⟨_, h, fun h => ⟨c, d, hd, h⟩⟩

theorem Steady.stands (h : σ.Steady u s) :
    ∃ x : Standing, σ.Stands x ∧ ∀ {τ : State (Recorded ω)}, τ.Stands x → τ.Steady u s := by
  rcases h with h | h | h
  · obtain ⟨x, hx, back⟩ := h.stands
    exact ⟨x, hx, fun h => .inl (back h)⟩
  · obtain ⟨x, hx, back⟩ := h.stands
    exact ⟨x, hx, fun h => .inr (.inl (back h))⟩
  · obtain ⟨x, hx, back⟩ := h.stands
    exact ⟨x, hx, fun h => .inr (.inr (back h))⟩

theorem Steady.proper (h : σ.Steady u s) : Always Proper σ.history := by
  obtain ⟨x, hx, -⟩ := h.stands
  exact hx.proper

/-- A change of a result that leaves its stream leaves the session steady. -/
theorem Steady.changeResult (h : σ.Steady u s) {r : Result}
    (streaming : r.isStreaming = (σ.session.result id).isStreaming)
    (origin : r.origin = (σ.session.result id).origin)
    (usable : r.isStreaming = true → r.unusable? = (σ.session.result id).unusable?) :
    State.Steady u s { σ with session := σ.session.setResult id r } := by
  obtain ⟨x, hx, back⟩ := h.stands
  exact back (hx.changeResult streaming origin usable)

/-- A result that is streaming is streaming in a dialogue. -/
theorem Steady.live (h : σ.Steady u s) (streaming : (σ.session.result id).isStreaming = true) :
    s = some id ∧ σ.Live 0 u (some id) := by
  rcases h with h | h | h
  · obtain rfl := (h.streaming id).mp streaming
    exact ⟨rfl, h.live_some⟩
  · cases (h.streaming id).mp streaming
  · rw [h.not_streaming] at streaming
    cases streaming

theorem Steady.failing {fault : Fault} (h : σ.Steady u s) (own : fault ≠ .noConnection) :
    σ.Failing u s fault :=
  ⟨h, fun e => absurd e own⟩

end State

theorem fetch_steady (h : σ.Steady u s) (streaming : (σ.session.result id).isStreaming = true) :
    (fetch peer.recorded id).Ends σ (fun _ τ => τ.Steady u s) (State.Failing u s) := by
  obtain ⟨rfl, live⟩ := h.live streaming
  refine (fetch_stands live).imp (fun more τ h => ?_) fun _ _ h => ⟨.inr (.inr h.1), h.2⟩
  cases more with
  | true => exact .inl h
  | false => exact .inr (.inl h.busy)

theorem fetchWhile_steady (h : σ.Steady u s) (hungry : Result → Bool) :
    (fetchWhile peer.recorded id hungry).Ends σ (fun _ τ => τ.Steady u s) (State.Failing u s) := by
  refine fetchWhile_ends (·.Steady u s) h (fun τ h streaming => ?_) fun _ h _ => h
  refine (fetch_steady h streaming).imp (fun more υ h => ?_) fun _ _ h => h
  cases more <;> exact h

/-- Dropping the rest ends the stream if it does not fail. -/
theorem discardRest_steady (h : σ.Steady u s) :
    (discardRest peer.recorded id).Ends σ
      (fun _ τ => τ.Steady u s ∧ (τ.session.result id).isStreaming = false)
      (State.Failing u s) := by
  cases streaming : (σ.session.result id).isStreaming with
  | true =>
    obtain ⟨rfl, live⟩ := h.live streaming
    refine (discardRest_stands live.busy_some).imp (fun _ τ h => ?_) fun _ _ h =>
      ⟨.inr (.inr h.2.1), h.2.2⟩
    rw [if_pos rfl] at h
    exact ⟨.inr (.inl h), Bool.eq_false_iff.mpr fun e => by cases (h.streaming id).mp e⟩
  | false =>
    rw [discardRest, Op.ends_bind, Op.ends_theSession, streaming, if_neg Bool.false_ne_true]
    exact ⟨h, streaming⟩

/-- A result that cannot be read says why, and a missing connection is never the reason. -/
theorem scopeFault?_ne_noConnection (r : Result) : r.scopeFault? ≠ some .noConnection := by
  unfold Result.scopeFault?
  cases r.outOfScope with
  | none => simp
  | some e => exact fun h => by cases Option.some.inj h

theorem unusable?_ne_noConnection (r : Result) : r.unusable? ≠ some .noConnection := by
  unfold Result.unusable?
  split
  · next h => exact fun e => scopeFault?_ne_noConnection r (h.trans e)
  · split
    · exact fun h => by cases Option.some.inj h
    · cases r.stream.failure? with
      | none => simp
      | some reason => exact fun h => by cases Option.some.inj h

theorem peek_steady (h : σ.Steady u s) :
    (peek peer.recorded id).Ends σ (fun _ τ => τ.Steady u s) (State.Failing u s) := by
  rw [peek, Op.ends_bind, Op.ends_checkUsable]
  refine ⟨fun _ => ?_, fun fault e => h.failing fun h => unusable?_ne_noConnection _ (h ▸ e)⟩
  rw [Op.ends_bind]
  exact (fetchWhile_steady h _).imp (fun _ _ h => h) fun _ _ h => h

theorem next_steady (h : σ.Steady u s) :
    (next peer.recorded id).Ends σ (fun _ τ => τ.Steady u s) (State.Failing u s) := by
  rw [next, Op.ends_bind]
  exact (peek_steady h).imp (fun _ _ h => h.changeResult rfl rfl fun _ => rfl) fun _ _ h => h

theorem drain_steady (h : σ.Steady u s) :
    (drain peer.recorded id).Ends σ fun outcome τ =>
      τ.Steady u s ∧ ∀ fault, outcome.2 = some fault → Blamed τ.history fault := by
  have emptied {τ : State (Recorded ω)} (h : τ.Steady u s) : (τ.emptied id).Steady u s :=
    h.changeResult rfl rfl fun _ => rfl
  rw [drain, Act.ends_bind, Act.ends_theSession]
  cases usable : (σ.session.result id).unusable? with
  | some fault =>
    refine ⟨h, fun f e => ?_⟩
    cases e
    exact fun e => absurd (e ▸ usable) (unusable?_ne_noConnection _)
  | none =>
    refine drainFrom_ends (fun _ => (·.Steady u s))
      (fun outcome τ => τ.Steady u s ∧ ∀ fault, outcome.2 = some fault → Blamed τ.history fault)
      h (fun read τ h streaming => ?_) fun _ τ h _ => ⟨emptied h, by simp⟩
    refine (fetch_steady (emptied h)
      ((State.emptied_isStreaming τ id id).trans streaming)).imp (fun more υ h => ?_)
      fun fault υ h => ⟨h.1, fun f e => by cases e; exact h.2⟩
    cases more with
    | true => exact h
    | false => exact ⟨emptied h, by simp⟩

theorem collect_steady (h : σ.Steady u s) :
    (collect peer.recorded id).Ends σ (fun _ τ => τ.Steady u s) (State.Failing u s) := by
  rw [collect, Op.ends_bind, Op.ends_lift]
  refine (drain_steady h).imp fun outcome τ h => ?_
  obtain ⟨records, fault⟩ := outcome
  cases fault with
  | none => exact h.1
  | some fault => exact ⟨h.1, h.2 fault rfl⟩

theorem single_steady (h : σ.Steady u s) :
    (single peer.recorded id).Ends σ (fun _ τ => τ.Steady u s) (State.Failing u s) := by
  have verdict (first second : Option Record) {τ : State (Recorded ω)} (h : τ.Steady u s) :
      Op.Ends (do
        discardRest peer.recorded id
        settleOn (onlyRecord first second) : Op (Recorded ω) Record) τ
        (fun _ τ => τ.Steady u s) (State.Failing u s) := by
    rw [Op.ends_bind]
    refine (discardRest_steady h).imp (fun _ υ h => ?_) fun _ _ h => h
    rw [Op.ends_settleOn]
    exact ⟨fun _ _ => h.1, fun fault e => h.1.failing (onlyRecord_ne_noConnection e)⟩
  rw [single_eq, Op.ends_bind]
  refine (next_steady h).imp (fun first τ h => ?_) fun _ _ h => h
  dsimp only
  split
  · rw [Op.ends_bind]
    exact (next_steady h).imp (fun second υ h => verdict first second h) fun _ _ h => h
  · exact verdict first none h

theorem consume_steady (h : σ.Steady u s) :
    (consume peer.recorded id).Ends σ (fun _ τ => τ.Steady u s) (State.Failing u s) := by
  rw [consume, Op.ends_bind, Op.ends_theSession, Op.ends_bind, Op.ends_failIf]
  refine ⟨fun _ => ?_, fun fault e => h.failing ?_⟩
  · split
    · exact h
    · rw [Op.ends_bind]
      refine (discardRest_steady h).imp (fun _ τ h => ?_) fun _ _ h => h
      obtain ⟨h, quiet⟩ := h
      rw [Op.ends_bind, Op.ends_changeResult, Op.ends_bind, Op.ends_theSession]
      have consumed : State.Steady u s
          { τ with
            session := τ.session.setResult id
              { τ.session.result id with buffer := [], consumed := true } } :=
        h.changeResult rfl rfl fun e => by cases quiet.symm.trans e
      split
      · exact consumed
      · exact consumed.failing fun e => by cases e
      · exact consumed.failing fun e => by cases e
  · rintro rfl
    exact scopeFault?_ne_noConnection _ e

end GraphSession
