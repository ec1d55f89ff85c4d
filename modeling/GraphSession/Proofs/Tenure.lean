import GraphSession.Proofs.Arguments
import GraphSession.Proofs.Flow

/-!
  How transactions move a session between situations.

  A transaction holds the connection from its begin to its end.  Its results share the connection:
  at most the latest of them is streaming.  However a transaction ends, whatever fails on the way,
  nothing is open afterwards and the connection has gone back.
-/

namespace GraphSession

variable {ω α : Type} {peer : Peer ω} {k : Nat} {u : Option (TransactionId × Transaction)}
  {s : Option ResultId} {c : Connection} {d : Dialogue} {id : ResultId} {σ : State (Recorded ω)}

/-- An argument was refused, not for a missing connection. -/
theorem RefusesArguments.ne_noConnection {outcome : Except Fault α}
    (h : RefusesArguments outcome) {fault : Fault} (e : outcome = .error fault) :
    fault ≠ .noConnection := by
  rintro rfl
  cases h _ e

/-! ## Starting a result -/

/-- A query that succeeds starts a stream, which the first batch may end at once. -/
theorem startResult_stands (h : σ.Live k u none) {request : RunRequest} {origin : Origin}
    (own : origin.transaction? = u.map Prod.fst)
    (bears : if u.isSome then request.work.bookmarks = .empty
      else Bears σ.session.config σ.history request.work.bookmarks)
    (fetched : u = none → Fetched σ.session.config σ.history request.work.bookmarks) :
    (startResult peer.recorded request origin).Ends σ
      (fun id τ => τ.Busy k u (some id) ∨ τ.Busy k u none)
      fun fault τ => τ.Down k u ∧ Blamed τ.history fault := by
  obtain ⟨active, c, d, ⟨sound, transaction, stream⟩, h⟩ := h
  have allowed : d.Allows (.result σ.session.nextResult) (.run request) :=
    ⟨sound, stream, _, rfl⟩
  have carried (answer : Except Fault RunReply) : Carries σ.session.config σ.history
      (.asked (.send c (.result σ.session.nextResult) (.run request)) answer) := by
    refine ⟨d, h.lent, ?_⟩
    rw [transaction, Option.isSome_map]
    exact bears
  have fresh (answer : Except Fault RunReply) : CarriesFresh σ.session.config σ.history
      (.asked (.send c (.result σ.session.nextResult) (.run request)) answer) := by
    intro d' lent alone
    obtain rfl : d = d' := Option.some.inj (h.lent.symm.trans lent)
    rw [transaction] at alone
    exact fetched (Option.map_eq_none_iff.mp alone)
  rw [startResult, Op.ends_bind, Op.ends_theSession, Op.ends_bind, Op.ends_attempt, runHeld]
  refine Op.ends_sendHeld h.slot (fun reply w => ?_) fun fault w => ?_
  · -- the stream is open on the server before the session has a result for it
    have opened := h.message rfl allowed (.ok reply) w trivial (carried _) (fresh _)
    have added (r : Result) (streaming : r.isStreaming = true) (usable : r.unusable? = none)
        (origin : r.origin.transaction? = u.map Prod.fst) {τ : State (Recorded ω)}
        (h : τ.Line k u none c (d.after (.result σ.session.nextResult) (.run request) (.ok reply)))
        (number : τ.session.nextResult = σ.session.nextResult) : Op.Ends (do
          let id ← addResult r
          let _ ← fetch peer.recorded id
          return id : Op (Recorded ω) ResultId) τ
        (fun id τ => τ.Busy k u (some id) ∨ τ.Busy k u none)
        fun fault τ => τ.Down k u ∧ Blamed τ.history fault := by
      rw [Op.ends_bind, Op.ends_addResult, Op.ends_bind]
      have started := h.addResult rfl streaming origin usable
      rw [number] at started ⊢
      have now : (d.after (.result σ.session.nextResult) (.run request) (.ok reply)).IsAt
          (u.map Prod.fst) (some σ.session.nextResult) := ⟨sound, transaction, rfl⟩
      refine (fetch_stands ⟨active, c, _, now, started⟩).imp
        (fun more υ h => ?_) fun _ _ h => h
      cases more with
      | true => exact .inl h
      | false => exact .inr h.busy
    cases origin.pins with
    | true =>
      refine Op.ends_bind.mpr (Op.ends_lift.mpr ?_)
      have counted : (pinDatabase peer.recorded reply.database).Ends
          (σ.heard (.send c (.result σ.session.nextResult) (.run request)) (.ok reply) w)
          fun _ τ => τ.session.nextResult = σ.session.nextResult :=
        pinDatabase_ends fun _ _ _ _ => rfl
      exact ((pinDatabase_stands opened _).and counted).imp fun _ τ h =>
        added _ rfl rfl own h.1 h.2
    | false => exact added _ rfl rfl own opened rfl
  · rw [Op.ends_bind, Op.ends_lift]
    refine ((abortOrigin_stands (h.message rfl allowed (.error fault) w trivial (carried _)
      (fresh _))
      ⟨rfl, sound.2⟩ transaction active own).and ((abortOrigin_within origin).grows _)).imp
        fun _ _ h => ?_
    exact ⟨h.1, Blamed.mono (.here rfl) h.2⟩

/-! ## The results of a transaction -/

/-- Of the results of a transaction, only the latest can be streaming. -/
def Linked (u : Option (TransactionId × Transaction)) (s : Option ResultId) : Prop :=
  ∀ p r, u = some p → s = some r → p.2.results.getLast? = some r

theorem Linked.none : Linked .none s := fun _ _ e => by cases e

theorem Linked.quiet : Linked u .none := fun _ _ _ e => by cases e

namespace State

/-- A transaction that is open is the one that the situation says. -/
theorem Steady.opened (h : σ.Steady u s) {t : TransactionId}
    (isOpen : (σ.session.transaction t).state.isTerminated = false) :
    ∃ v, u = some (t, v) ∧ v.results = (σ.session.transaction t).results ∧
      v.holder = (σ.session.transaction t).holder ∧
      ((∃ s', (s' = s ∨ s' = none) ∧ v = σ.session.transaction t ∧ v.state = .active ∧
          σ.Live 0 u s') ∨
        (σ.session.transaction t).state = .failed ∧ σ.Down 0 u) := by
  have busy {s' : Option ResultId} (hs : s' = s ∨ s' = none) (h : σ.Busy 0 u s') :
      ∃ v, u = some (t, v) ∧ v.results = (σ.session.transaction t).results ∧
        v.holder = (σ.session.transaction t).holder ∧
        ((∃ s', (s' = s ∨ s' = none) ∧ v = σ.session.transaction t ∧ v.state = .active ∧
            σ.Live 0 u s') ∨
          (σ.session.transaction t).state = .failed ∧ σ.Down 0 u) := by
    match u, s', h with
    | none, none, h => cases (Idle.bare h).transaction_eq isOpen
    | none, some r, h =>
      obtain ⟨_, _, _, _, h⟩ := h.live_some
      cases h.transaction_eq isOpen
    | some p, s', h =>
      have isLive := h.live (.inl (Option.some_ne_none p))
      have ⟨active, _, _, _, h⟩ := isLive
      obtain rfl : p = (t, σ.session.transaction t) := Option.some.inj (h.transaction_eq isOpen)
      exact ⟨_, rfl, rfl, rfl, .inl ⟨s', hs, rfl, active _ rfl, isLive⟩⟩
  rcases h with h | h | h
  · exact busy (.inl rfl) h
  · exact busy (.inr rfl) h
  · match u, h with
    | none, h => cases (Idle.bare h).transaction_eq isOpen
    | some (t', v), h =>
      have down := h
      obtain ⟨_, _, _, h⟩ := h
      obtain ⟨rfl, e⟩ := Prod.mk.inj (Option.some.inj (h.transaction_eq isOpen))
      exact ⟨v, rfl, by rw [← e], by rw [← e], .inr ⟨by rw [← e], down⟩⟩

/-- The transaction that a situation says is open is open. -/
theorem Steady.isOpen {t : TransactionId} {v : Transaction} (h : σ.Steady (some (t, v)) s) :
    (σ.session.transaction t).state.isTerminated = false := by
  rcases h with h | h | ⟨_, _, _, h⟩
  · obtain ⟨_, _, _, _, h⟩ := h.live (.inl (Option.some_ne_none _))
    obtain ⟨e, isOpen⟩ := (h.opened t v).mpr rfl
    rwa [e]
  · obtain ⟨_, _, _, _, h⟩ := h.live (.inl (Option.some_ne_none _))
    obtain ⟨e, isOpen⟩ := (h.opened t v).mpr rfl
    rwa [e]
  · obtain ⟨e, isOpen⟩ := (h.opened t _).mpr rfl
    rwa [e]

/-- Nothing is open. -/
theorem Steady.bare (h : σ.Steady none none) : σ.Stands {} :=
  h.elim Idle.bare fun h => h.elim Idle.bare Idle.bare

/-- A session without a connection has nothing open. -/
theorem Steady.bare_of_unconnected (h : σ.Steady u s) (free : σ.session.connection = none) :
    σ.Stands {} := by
  have busy {s : Option ResultId} (h : σ.Busy 0 u s) : σ.Stands {} := by
    match u, s, h with
    | none, none, h => exact Idle.bare h
    | some p, s, h =>
      obtain ⟨_, _, _, _, h⟩ := h.live (.inl (Option.some_ne_none p))
      cases free.symm.trans h.slot
    | none, some r, h =>
      obtain ⟨_, _, _, _, h⟩ := h.live_some
      cases free.symm.trans h.slot
  rcases h with h | h | h
  · exact busy h
  · exact busy h
  · match u, h with
    | none, h => exact Idle.bare h
    | some (_, _), ⟨_, _, _, h⟩ => cases free.symm.trans h.slot

theorem Stands.steady (h : σ.Stands {}) : σ.Steady none none := .inl (.inl h)

/-- A change of the open transaction that leaves its state. -/
theorem Busy.setTransaction {t : TransactionId} {v : Transaction} (h : σ.Busy k (some (t, v)) s)
    (f : Transaction → Transaction) (state : (f v).state = v.state) :
    State.Busy k (some (t, f v)) s
      { σ with session := σ.session.setTransaction t (f (σ.session.transaction t)) } := by
  obtain ⟨active, c, d, hd, h⟩ := h.live (.inl (Option.some_ne_none _))
  have was : σ.session.transaction t = v := ((h.opened t v).mpr rfl).1
  have still : (f v).state = .active := state.trans (active _ rfl)
  rw [was]
  refine Live.busy ⟨fun p e => ?_, c, d, hd, h.setTransaction rfl ?_⟩
    (.inl (Option.some_ne_none _))
  · obtain rfl := Option.some.inj e
    exact still
  · rw [still]
    rfl

/-- A change of the open transaction that has to do with nothing else. -/
theorem Steady.setTransaction {t : TransactionId} {v : Transaction} (h : σ.Steady (some (t, v)) s)
    (f : Transaction → Transaction) (state : ∀ v, (f v).state = v.state)
    (apart : ∀ v, f { v with state := .failed } = { f v with state := .failed }) :
    State.Steady (some (t, f v)) s
      { σ with session := σ.session.setTransaction t (f (σ.session.transaction t)) } := by
  rcases h with h | h | ⟨c, d, hd, h⟩
  · exact .inl (h.setTransaction f (state v))
  · exact .inr (.inl (h.setTransaction f (state v)))
  · have was : σ.session.transaction t = { v with state := .failed } := ((h.opened t _).mpr rfl).1
    rw [was, apart]
    exact .inr (.inr ⟨c, d, hd, h.setTransaction rfl rfl⟩)

end State

/-- A refusal is never about a missing connection. -/
theorem refusal?_ne_noConnection (t : Transaction) (action : String) :
    t.refusal? action ≠ some .noConnection := by
  unfold Transaction.refusal?
  split
  · simp
  · exact fun h => by cases Option.some.inj h
  · exact fun h => by cases Option.some.inj h

/-- Of a transaction that is active only the latest result can be streaming. -/
theorem State.Steady.active (h : σ.Steady u s) (linked : Linked u s) {t : TransactionId}
    (active : (σ.session.transaction t).state = .active) :
    u = some (t, σ.session.transaction t) ∧ ∃ s', σ.Live 0 u s' ∧
      ∀ {r}, s' = some r → (σ.session.transaction t).results.getLast? = some r := by
  obtain ⟨v, rfl, -, -, ⟨s', hs, rfl, -, live⟩ | ⟨failed, -⟩⟩ := h.opened (by rw [active]; rfl)
  · refine ⟨rfl, s', live, fun hr => ?_⟩
    rcases hs with rfl | rfl
    · exact linked _ _ rfl hr
    · cases hr
  · rw [active] at failed
    cases failed

/-! ## Running queries in a transaction -/

/-- A query in a transaction waits for the stream before it. -/
theorem runIn_stands (h : σ.Steady u s) (linked : Linked u s) (t : TransactionId)
    (source : QuerySource) (params : Option Params) :
    (runIn peer.recorded t source params).Ends σ
      (fun r τ => ∃ v v' s', u = some (t, v) ∧ v'.holder = v.holder ∧
        v'.results.getLast? = some r ∧ (s' = some r ∨ s' = none) ∧ τ.Steady (some (t, v')) s')
      (State.Failing u s) := by
  rw [runIn, Op.ends_bind, Op.ends_settleOn]
  refine ⟨fun query _ => ?_, fun fault e =>
    h.failing ((Query.ofSource_refuses source).ne_noConnection e)⟩
  rw [Op.ends_bind, Op.ends_theSession, Op.ends_bind, Op.ends_failIf]
  refine ⟨fun allowed => ?_, fun fault e => h.failing fun e' =>
    refusal?_ne_noConnection _ _ (e' ▸ e)⟩
  -- the stream is that of the latest result, and is fetched to its end first
  obtain ⟨rfl, s', live, latest⟩ := h.active linked (active_of_refusal? allowed)
  have started (request : RunRequest) (plain : request.work.bookmarks = .empty)
      {τ : State (Recorded ω)} (h : τ.Live 0 (some (t, σ.session.transaction t)) none) : Op.Ends (do
        let result ← startResult peer.recorded request (.transaction t)
        changeTransaction t fun t => { t with results := t.results ++ [result] }
        return result : Op (Recorded ω) ResultId) τ
      (fun r τ => ∃ v v' s', some (t, σ.session.transaction t) = some (t, v) ∧
        v'.holder = v.holder ∧ v'.results.getLast? = some r ∧ (s' = some r ∨ s' = none) ∧
        τ.Steady (some (t, v')) s')
      (State.Failing (some (t, σ.session.transaction t)) s) := by
    rw [Op.ends_bind]
    refine (startResult_stands h rfl plain (by simp)).imp (fun r υ h => ?_) fun fault υ h =>
      ⟨.inr (.inr h.1), h.2⟩
    rw [Op.ends_bind, Op.ends_changeTransaction]
    let extend (v : Transaction) : Transaction := { v with results := v.results ++ [r] }
    have last (v : Transaction) : (extend v).results.getLast? = some r := by simp [extend]
    rcases h with h | h
    · exact ⟨_, extend _, some r, rfl, rfl, last _, .inl rfl, .inl (h.setTransaction extend rfl)⟩
    · exact ⟨_, extend _, none, rfl, rfl, last _, .inr rfl, .inl (h.setTransaction extend rfl)⟩
  dsimp only
  split
  · exact h.failing fun e => by cases e
  · cases hlast : (σ.session.transaction t).results.getLast? with
    | none =>
      have quiet : s' = none := by
        cases hs' : s' with
        | none => rfl
        | some r => rw [latest hs'] at hlast; cases hlast
      exact started _ rfl (quiet ▸ live)
    | some r =>
      rw [Op.ends_bind]
      refine (bufferAll_stands (live.busy (.inl (Option.some_ne_none _)))).imp
        (fun _ τ h => started _ rfl ?_) fun fault τ h => ⟨.inr (.inr h.2.1), h.2.2⟩
      have quiet : (if s' = some r then none else s') = none := by
        cases hs' : s' with
        | none => rfl
        | some r' => rw [latest hs'] at hlast; rw [if_pos (by rw [Option.some.inj hlast])]
      rw [quiet] at h
      exact h.live (.inl (Option.some_ne_none _))

/-! ## The end of a transaction -/

/-- The transaction of a result commits, and the result is not streaming any more. -/
theorem endResult_stands {p : TransactionId × Transaction} (h : σ.Live 0 (some p) s) :
    (endResult peer.recorded id).Ends σ
      (fun _ τ => τ.Live 0 (some p) (if s = some id then none else s))
      fun fault τ => τ.Down 0 (some p) ∧ Blamed τ.history fault := by
  rw [endResult, Op.ends_bind, Op.ends_attempt]
  refine (discardRest_stands (h.busy (.inl (Option.some_ne_none p)))).imp ?_ ?_
  · intro _ τ h
    rw [Op.ends_bind, Op.ends_changeResult, Op.ends_settleOn]
    refine ⟨fun _ _ => ?_, by simp⟩
    have quiet : (τ.session.result id).isStreaming = false := by
      apply Bool.eq_false_iff.mpr
      intro streaming
      have e := (h.streaming id).mp streaming
      split at e
      · cases e
      · next other => exact other e
    obtain ⟨x, hx, back⟩ := h.stands
    exact State.Busy.live (back (hx.changeResult rfl rfl fun e => by cases quiet.symm.trans e))
      (.inl (Option.some_ne_none p))
  · intro fault τ h
    rw [Op.ends_bind, Op.ends_changeResult, Op.ends_settleOn]
    refine ⟨by simp, fun f e => ?_⟩
    cases e
    obtain ⟨x, hx, back⟩ := h.2.1.stands
    exact ⟨back (hx.changeResult rfl rfl fun e => by cases (h.2.1.not_streaming id).symm.trans e),
      h.2.2⟩

/-- The results of a transaction end, and with them its stream. -/
theorem endResults_stands {p : TransactionId × Transaction} {ids : List ResultId}
    (h : σ.Live 0 (some p) s) (covered : ∀ r, s = some r → r ∈ ids) :
    (endResults peer.recorded ids).Ends σ (fun _ τ => τ.Live 0 (some p) none)
      fun fault τ => τ.Down 0 (some p) ∧ Blamed τ.history fault := by
  induction ids generalizing σ s with
  | nil =>
    obtain rfl : s = none := by
      cases s with
      | none => rfl
      | some r => cases covered r rfl
    exact h
  | cons id rest ih =>
    rw [endResults, Op.ends_bind]
    refine (endResult_stands h).imp (fun _ τ h => ih h fun r e => ?_) fun _ _ h => h
    split at e
    · cases e
    · next other =>
      exact (List.mem_cons.mp (covered r e)).resolve_left fun same => other (same ▸ e)

/-- The commit of a transaction that is not active is refused, and changes nothing. -/
theorem commit_refused {good : Unit → State (Recorded ω) → Prop}
    {bad : Fault → State (Recorded ω) → Prop} {t : TransactionId}
    (inactive : (σ.session.transaction t).state ≠ .active)
    (refused : ∀ fault, (σ.session.transaction t).refusal? "commit" = some fault → bad fault σ) :
    (commit peer.recorded t).Ends σ good bad := by
  rw [commit, Op.ends_bind, Op.ends_theSession, Op.ends_bind, Op.ends_failIf]
  exact ⟨fun e => absurd (active_of_refusal? e) inactive, refused⟩

/-- A commit ends the transaction and its unit of work, whatever it comes to. -/
theorem commit_stands (h : σ.Steady u s) (linked : Linked u s) {t : TransactionId}
    (active : (σ.session.transaction t).state = .active) :
    (commit peer.recorded t).Ends σ (fun _ τ => τ.Stands {})
      fun fault τ => τ.Stands {} ∧ Blamed τ.history fault := by
  obtain ⟨rfl, s', live, latest⟩ := h.active linked active
  have covered (r : ResultId) (hr : s' = some r) : r ∈ (σ.session.transaction t).results :=
    List.mem_of_getLast? (latest hr)
  have refused : (σ.session.transaction t).refusal? "commit" = none := by
    rw [Transaction.refusal?, active]
  let drained (v : Transaction) : Transaction := { v with results := [] }
  -- the server has ended a transaction in which something failed
  have aborted (fault : Fault) {τ : State (Recorded ω)} {v : Transaction} {c : Connection}
      {d : Dialogue} (h : τ.Line 0 (some (t, v)) none c d) (hd : d.IsBroken)
      (hb : Blamed τ.history fault) : Op.Ends (do
        setState t .closed
        failAfter (abortUnit peer.recorded) fault : Op (Recorded ω) Unit) τ
      (fun _ τ => τ.Stands {}) fun fault τ => τ.Stands {} ∧ Blamed τ.history fault := by
    rw [Op.ends_bind, setState, Op.ends_changeTransaction, Op.ends_failAfter]
    exact ((abortUnit_stands (h.endTransaction rfl rfl rfl) hd).and
      (abortUnit_within.grows _)).imp fun _ _ h => ⟨h.1.bare, hb.mono h.2⟩
  have reported (token : Option String) {τ : State (Recorded ω)} {v : Transaction}
      {c : Connection} {d : Dialogue} (h : τ.Line 0 (some (t, v)) none c d (token.or none))
      (hd : d.IsAt none none) : Op.Ends (do
        setState t .committed
        reportAndEnd peer.recorded (σ.session.transaction t).sent token : Op (Recorded ω) Unit) τ
      (fun _ τ => τ.Stands {}) fun fault τ => τ.Stands {} ∧ Blamed τ.history fault := by
    rw [Option.or_none] at h
    rw [Op.ends_bind, setState, Op.ends_changeTransaction]
    have committed := h.endTransaction (t := { τ.session.transaction t with state := .committed })
      rfl rfl rfl
    exact (reportAndEnd_stands committed hd _).imp (fun _ _ h => State.Idle.bare h.busy)
      fun _ _ h => ⟨h.1.bare, h.2⟩
  rw [commit, Op.ends_bind, Op.ends_theSession, Op.ends_bind, Op.ends_failIf]
  refine ⟨fun _ => ?_, fun f e => absurd (refused.symm.trans e) (by simp)⟩
  rw [Op.ends_bind, takeResults, Op.ends_bind, Op.ends_theSession, Op.ends_bind,
    Op.ends_changeTransaction, Op.ends_pure, Op.ends_bind, Op.ends_attempt, Op.ends_bind]
  have taken := ((live.busy (.inl (Option.some_ne_none _))).setTransaction drained rfl).live
    (.inl (Option.some_ne_none _))
  refine (endResults_stands taken covered).imp ?_ ?_
  · intro _ τ h
    obtain ⟨-, c, d, ⟨sound, transaction, stream⟩, h⟩ := h
    have allowed : d.Allows (.transaction t) .commit := ⟨sound, stream, t, rfl, transaction⟩
    rw [commitHeld]
    refine Op.ends_sendHeld h.slot (fun token w => ?_) fun fault w => ?_
    · have committed := h.message rfl allowed (.ok token) w trivial trivial trivial
      exact reported token committed ⟨sound, rfl, rfl⟩
    · have lost := h.message rfl allowed (.error fault) w trivial trivial trivial
      exact aborted fault lost ⟨rfl, sound.2⟩ (.here rfl)
  · intro fault τ h
    obtain ⟨⟨c, d, ⟨hd, -⟩, h⟩, hb⟩ := h
    exact aborted fault h hd hb

/-- The results of a transaction that is rolled back are not streaming any more. -/
theorem abandonResults_stands {x : Standing} {ids : List ResultId} (h : σ.Stands x)
    (covered : ∀ r, x.stream = some r → r ∈ ids) {bad : Fault → State (Recorded ω) → Prop} :
    Op.Ends (ids.forM fun result => abandonResult result : Op (Recorded ω) Unit) σ
      (fun _ τ => τ.Stands { x with stream := none }) bad := by
  induction ids generalizing σ x with
  | nil =>
    obtain ⟨n, s, u, slot, loan⟩ := x
    cases s with
    | none => exact h
    | some r => cases covered r rfl
  | cons id rest ih =>
    refine Op.ends_bind.mpr (Op.ends_changeResult.mpr ?_)
    by_cases own : x.stream = some id
    · rw [(h.streaming id).mpr own, if_pos rfl]
      have ended {τ : State (Recorded ω)} (h : τ.Stands { x with stream := none }) :=
        ih h (fun _ e => by cases e)
      exact ended (h.closeResult own rfl)
    · have quiet : (σ.session.result id).isStreaming = false :=
        Bool.eq_false_iff.mpr fun e => own ((h.streaming id).mp e)
      rw [quiet, if_neg Bool.false_ne_true]
      refine ih (h.changeResult rfl rfl fun e => by cases quiet.symm.trans e) fun r e => ?_
      exact (List.mem_cons.mp (covered r e)).resolve_left fun same => own (same ▸ e)

/-- A rollback ends the transaction and its unit of work, whatever it comes to. -/
theorem rollback_stands (h : σ.Steady u s) (linked : Linked u s) {t : TransactionId}
    (isOpen : (σ.session.transaction t).state.isTerminated = false) :
    (rollback peer.recorded t).Ends σ (fun _ τ => τ.Stands {})
      fun fault τ => τ.Stands {} ∧ Blamed τ.history fault := by
  obtain ⟨v, rfl, hresults, -, situation⟩ := h.opened isOpen
  let drained (v : Transaction) : Transaction := { v with results := [] }
  rw [rollback, Op.ends_bind, Op.ends_theSession]
  dsimp only
  rw [isOpen, if_neg Bool.false_ne_true, Op.ends_bind, takeResults, Op.ends_bind,
    Op.ends_theSession, Op.ends_bind, Op.ends_changeTransaction, Op.ends_pure, Op.ends_bind]
  rcases situation with ⟨s', hs, rfl, active, live⟩ | ⟨failed, down⟩
  · -- the rollback ends the stream on the server as well
    have covered (r : ResultId) (hr : s' = some r) : r ∈ (σ.session.transaction t).results := by
      rcases hs with rfl | rfl
      · exact List.mem_of_getLast? (linked _ r rfl hr)
      · cases hr
    have taken := ((live.busy (.inl (Option.some_ne_none _))).setTransaction drained rfl).live
      (.inl (Option.some_ne_none _))
    obtain ⟨-, c, d, ⟨sound, transaction, -⟩, taken⟩ := taken
    have allowed : d.Allows (.transaction t) .rollback := ⟨sound, t, rfl, transaction⟩
    refine (abandonResults_stands taken covered).imp (fun _ τ h => ?_) fun _ _ h => h
    rw [Op.ends_bind, setState, Op.ends_changeTransaction, active, if_neg (by simp), Op.ends_bind,
      Op.ends_attempt, rollbackHeld]
    have spent := h.endTransaction (t := { τ.session.transaction t with state := .rolledBack })
      rfl rfl rfl
    refine Op.ends_sendHeld spent.slot (fun _ w => ?_) fun fault w => ?_
    · rw [Op.ends_lift]
      exact (endUnit_stands (State.Line.idle (P := (·.IsAt none none))
        (spent.message rfl allowed (.ok ()) w trivial trivial trivial) ⟨sound, rfl, rfl⟩)
          fun _ => Dialogue.IsAt.isClean).imp fun _ _ h => h.bare
    · rw [Op.ends_bind, Op.ends_lift]
      have lost := spent.message rfl allowed (.error fault) w trivial trivial trivial
      refine ((abortUnit_stands lost ⟨rfl, sound.2⟩).and (abortUnit_within.grows _)).imp
        fun _ _ h => ?_
      exact ⟨h.1.bare, Blamed.mono (.here rfl) h.2⟩
  · -- the server has ended the transaction already
    obtain ⟨c, d, ⟨hd, -⟩, h⟩ := down
    have taken := h.setTransaction (t := drained (σ.session.transaction t)) rfl isOpen
    refine (abandonResults_stands taken (by simp)).imp (fun _ τ h => ?_) fun _ _ h => h
    rw [Op.ends_bind, setState, Op.ends_changeTransaction, failed, if_pos rfl, Op.ends_lift]
    exact (abortUnit_stands (h.endTransaction rfl rfl rfl) hd).imp fun _ _ h => h.bare

/-- Closing a transaction ends it if it is open. -/
theorem closeQuietly_stands (h : σ.Steady u s) (linked : Linked u s) {t : TransactionId}
    (own : ∀ p, u = some p → p.1 = t) :
    (closeQuietly peer.recorded t).Ends σ fun _ τ => τ.Steady none (u.elim s fun _ => none) := by
  rw [closeQuietly, Act.ends_bind, Act.ends_run, closeTransaction, Op.ends_bind,
    Op.ends_theSession]
  cases isOpen : (σ.session.transaction t).state.isTerminated with
  | false =>
    obtain ⟨v, rfl, -⟩ := h.opened isOpen
    refine (rollback_stands h linked isOpen).imp (fun _ _ h => h.steady) fun fault τ h => ?_
    exact Act.ends_note fun w => State.Stands.steady (h.1.noted _ w)
  | true =>
    cases u with
    | none => exact h
    | some p =>
      obtain ⟨t', v⟩ := p
      obtain rfl : t' = t := own _ rfl
      rw [h.isOpen] at isOpen
      cases isOpen

/-- After an attempt nothing is open, whatever the function and the commit came to. -/
theorem settle_stands (h : σ.Steady u s) (linked : Linked u s) {t : TransactionId}
    (own : ∀ p, u = some p → p.1 = t) (held : u ≠ none) {outcome : Except Fault α}
    (blamed : ∀ fault, outcome = .error fault → Blamed σ.history fault) :
    (settle peer.recorded t outcome).Ends σ (fun _ τ => τ.Stands {})
      fun fault τ => τ.Stands {} ∧ Blamed τ.history fault := by
  obtain ⟨⟨t', v⟩, rfl⟩ := Option.ne_none_iff_exists'.mp held
  obtain rfl : t' = t := own _ rfl
  have failed (fault : Fault) {τ : State (Recorded ω)} {u : Option (TransactionId × Transaction)}
      {s : Option ResultId} (h : τ.Steady u s) (linked : Linked u s)
      (own : ∀ p, u = some p → p.1 = t') (quiet : u = none → s = none)
      (hb : Blamed τ.history fault) :
      (failAfter (closeQuietly peer.recorded t') fault : Op (Recorded ω) α).Ends τ
        (fun _ τ => τ.Stands {}) fun fault τ => τ.Stands {} ∧ Blamed τ.history fault := by
    rw [Op.ends_failAfter]
    refine ((closeQuietly_stands h linked own).and ((closeQuietly_within trivial t').grows τ)).imp
      fun _ _ h => ⟨State.Steady.bare ?_, hb.mono h.2⟩
    cases u with
    | none => rw [← quiet rfl]; exact h.1
    | some p => exact h.1
  rw [settle, Op.ends_bind, Op.ends_attempt, Op.ends_bind, Op.ends_settleOn]
  refine ⟨fun a _ => ?_, fun fault e => failed fault h linked own (by simp) (blamed fault e)⟩
  rw [Op.ends_bind]
  by_cases active : (σ.session.transaction t').state = .active
  · exact (commit_stands h linked active).imp (fun _ _ h => h) fun fault τ h =>
      failed fault h.1.steady Linked.none (by simp) (fun _ => rfl) h.2
  · refine commit_refused active fun fault e => failed fault h linked own (fun e => by cases e) ?_
    exact fun e' => absurd (e' ▸ e) (refusal?_ne_noConnection _ _)

/-- Letting go of a handle closes nothing. -/
theorem dropHandle_stands (h : σ.Steady u s) (t : TransactionId) :
    (dropHandle peer.recorded t).Ends σ fun _ τ => τ.Steady u s ∨
      ∃ v, u = some (t, v) ∧ v.holder = .caller ∧
        τ.Steady (some (t, { v with holder := .nobody })) s := by
  have dropped {τ : State (Recorded ω)} (h : τ.Steady u s)
      (same : τ.session.transaction t = σ.session.transaction t)
      (mine : (σ.session.transaction t).holder = .caller) :
      Act.Ends (changeTransaction t ({ · with holder := .nobody }) : Act (Recorded ω) Unit) τ
        fun _ τ => τ.Steady u s ∨ ∃ v, u = some (t, v) ∧ v.holder = .caller ∧
          τ.Steady (some (t, { v with holder := .nobody })) s := by
    rw [Act.ends_changeTransaction]
    cases isOpen : (τ.session.transaction t).state.isTerminated with
    | true =>
      obtain ⟨x, hx, back⟩ := h.stands
      exact .inl (back (hx.changeTransaction isOpen isOpen))
    | false =>
      obtain ⟨v, rfl, -, holder, -⟩ := h.opened isOpen
      exact .inr ⟨v, rfl, by rw [holder, same, mine],
        h.setTransaction (fun v => { v with holder := .nobody }) (fun _ => rfl) fun _ => rfl⟩
  rw [dropHandle, Act.ends_bind, Act.ends_theSession]
  dsimp only
  split
  · next mine =>
    split
    · rw [Act.ends_bind]
      obtain ⟨x, hx, back⟩ := h.stands
      exact Act.ends_note fun w => dropped (back (hx.noted _ w)) rfl mine
    · exact dropped h rfl mine
  · exact .inl h

/-! ## The begin of a transaction -/

/-- Either a transaction is open, and nothing else is, or nothing is. -/
theorem openTransaction_stands (h : σ.Stands {}) (mode : AccessMode) (api : ApiKind)
    (config : TransactionConfig) (holder : Holder) :
    (openTransaction peer.recorded mode api config holder).Ends σ
      (fun t τ => ∃ v, v.holder = holder ∧ τ.Live 0 (some (t, v)) none)
      fun fault τ => τ.Stands {} ∧ Blamed τ.history fault := by
  rw [openTransaction, Op.ends_bind, beginUnit, Op.ends_changeSession, Op.ends_bind,
    Op.ends_attempt, Op.ends_bind]
  have reserved := h.setUnits (n := σ.session.units + 1) (m := 1) (by rw [h.units])
  -- without a connection the unit ends as it began
  have failed (fault : Fault) {τ : State (Recorded ω)} (h : τ.Idle (·.IsAt none none) 1)
      (hb : Blamed τ.history fault) :
      (failAfter (endUnit peer.recorded) fault : Op (Recorded ω) TransactionId).Ends τ
        (fun t τ => ∃ v, v.holder = holder ∧ τ.Live 0 (some (t, v)) none)
        fun fault τ => τ.Stands {} ∧ Blamed τ.history fault :=
    Op.ends_failAfter.mpr (((endUnit_stands h fun _ => Dialogue.IsAt.isClean).and
      (endUnit_within.grows τ)).imp fun _ _ h => ⟨h.1.bare, hb.mono h.2⟩)
  refine (connect_stands (k := 0) (.inl reserved) mode api {}).imp (fun database τ h => ?_)
    fun fault τ h => failed fault h.1 h.2
  obtain ⟨-, c, d, hd, h⟩ := h
  rw [Op.ends_bind]
  refine ((bookmarksForWork_fetches h rfl).and (bookmarksForWork_bears h rfl)).imp
    (fun bookmarks υ h => ?_) fun fault υ h => failed fault (State.Line.idle h.1.1 hd) h.1.2
  obtain ⟨⟨h, fetched⟩, bears⟩ := h
  rw [Op.ends_pure, Op.ends_bind, Op.ends_theSession, Op.ends_bind, Op.ends_attempt, beginHeld]
  obtain ⟨sound, transaction, stream⟩ := hd
  have allowed (request : WorkRequest) :
      d.Allows (.transaction υ.session.nextTransaction) (.begin request) :=
    ⟨sound, stream, transaction, _, rfl⟩
  refine Op.ends_sendHeld h.slot (fun named w => ?_) fun fault w => ?_
  · rw [Op.ends_bind, Op.ends_lift]
    -- the number that the begin was sent for is still the next one
    have counted (request : WorkRequest) : (pinDatabase peer.recorded named).Ends
        (υ.heard (.send c (.transaction υ.session.nextTransaction) (.begin request)) (.ok named) w)
        fun _ τ => τ.session.nextTransaction = υ.session.nextTransaction :=
      pinDatabase_ends fun _ _ _ _ => rfl
    refine ((pinDatabase_stands
      (h.message rfl (allowed _) (.ok named) w trivial bears fetched) named).and
      (counted _)).imp fun _ τ h => ?_
    rw [Op.ends_addTransaction]
    have now : ({ d with transaction := some τ.session.nextTransaction } : Dialogue).IsAt
        (some τ.session.nextTransaction) none := ⟨sound, rfl, stream⟩
    have active (p : TransactionId × Transaction)
        (e : some (τ.session.nextTransaction, { sent := bookmarks, holder }) = some p) :
        p.2.state = .active := by
      cases e
      rfl
    refine ⟨_, rfl, active, c, _, now, ?_⟩
    have added := h.1.addTransaction (t := { sent := bookmarks, holder }) rfl rfl rfl
    rw [← h.2] at added
    exact added
  · rw [Op.ends_bind, Op.ends_lift]
    refine ((abortUnit_stands (h.message rfl (allowed _) (.error fault) w trivial ?_ ?_)
      ⟨rfl, sound.2⟩).and (abortUnit_within.grows _)).imp fun _ _ h =>
        ⟨h.1.bare, Blamed.mono (.here rfl) h.2⟩
    · exact bears
    · exact fetched

end GraphSession
