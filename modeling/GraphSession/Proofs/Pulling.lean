import GraphSession.Proofs.Batches
import GraphSession.Proofs.Ordinary

/-!
  When records are asked for.

  A session asks for records in batches of the configured size, and for the first batch of a result
  as soon as its query has run.  So a result that is streaming when nobody is at work has had a
  batch already, and what the last batch left is on the server.
-/

namespace GraphSession

variable {ω α : Type} {peer : Peer ω} {size : FetchSize} {id r : ResultId} {later past : History}
  {e : Happening} {σ τ υ : State (Recorded ω)}

/-! ## Pulls that an action makes -/

/-- Pulls ask for this many records, and a result that was started was asked for some. -/
structure History.PullsBy (size : FetchSize) (later : History) : Prop where
  sized : ∀ e ∈ later, e.Sized size
  prompt : ∀ r, (later.keys? r).isSome = true → 0 < later.pulls r

/-- From `σ` to `τ` the settings stayed, and records were asked for like that. -/
def State.Pulls (σ τ : State (Recorded ω)) : Prop :=
  τ.session.config = σ.session.config ∧ σ.Since (History.PullsBy σ.session.fetchSize) τ

theorem History.keys?_append : (later ++ past).keys? r = (later.keys? r).or (past.keys? r) :=
  List.findSome?_append

namespace History.PullsBy

theorem nothing : PullsBy size [] := ⟨by simp, fun _ started => by cases started⟩

theorem append (h : PullsBy size past) (h' : PullsBy size later) :
    PullsBy size (later ++ past) := by
  refine ⟨fun e he => (List.mem_append.mp he).elim (h'.sized e) (h.sized e), fun r started => ?_⟩
  rw [pulls_append]
  rw [keys?_append, Option.isSome_or, Bool.or_eq_true] at started
  rcases started with new | before
  · exact Nat.add_pos_left (h'.prompt r new) _
  · exact Nat.add_pos_right _ (h.prompt r before)

/-- Something that starts no result. -/
theorem one (sized : e.Sized size) (quiet : ∀ r, e.keys? r = none) : PullsBy size [e] := by
  refine ⟨fun e' he => List.mem_singleton.mp he ▸ sized, fun r started => ?_⟩
  rw [keys?_cons, quiet r] at started
  cases started

/-- Notes start no result. -/
theorem notes (notes : ∀ e ∈ later, ∃ event, e = Happening.asked (.note event) ()) :
    PullsBy size later := by
  refine ⟨fun e he => ?_, fun r started => ?_⟩
  · obtain ⟨event, rfl⟩ := notes e he
    trivial
  · obtain ⟨e, he, keys⟩ := List.findSome?_isSome_iff.mp started
    obtain ⟨event, rfl⟩ := notes e he
    cases keys

end History.PullsBy

instance : IsFrame (State.Pulls (ω := ω)) where
  rest _ := ⟨rfl, .nothing .nothing rfl⟩
  andThen := by
    intro σ τ υ h h'
    have later := h'.2
    have same : τ.session.fetchSize = σ.session.fetchSize := by
      rw [Session.fetchSize, Session.fetchSize, h.1]
    rw [same] at later
    exact ⟨h'.1.trans h.1, h.2.andThen later fun _ _ => .append⟩

theorem State.Pulls.one (sized : e.Sized σ.session.fetchSize) (quiet : ∀ r, e.keys? r = none)
    (config : τ.session.config = σ.session.config) (next : τ.history = e :: σ.history) :
    σ.Pulls τ :=
  ⟨config, [e], next, .one sized quiet⟩

/-- A request that is neither a query nor a pull. -/
def Request.IsQuiet : Request → Prop
  | send _ _ (.run _) | send _ _ (.pull _) => False
  | _ => True

theorem Request.IsOrdinary.isQuiet {request : Request} (ordinary : request.IsOrdinary) :
    request.IsQuiet := by
  cases request with
  | send _ _ m => cases m <;> first | exact ordinary | trivial
  | _ => trivial

theorem ask_pulls (request : Request) (quiet : request.IsQuiet) :
    (ask peer.recorded request).Obeys (State.Pulls (ω := ω)) := by
  intro σ
  refine .one ?_ (fun r => ?_) rfl rfl
  · cases request with
    | send _ _ m => cases m <;> first | exact quiet.elim | trivial
    | _ => trivial
  · cases request with
    | send _ _ m => cases m <;> first | exact quiet.elim | rfl
    | _ => rfl

theorem State.Pulls.pulled {c : Connection} {answer : Except Fault Batch} {w : ω} :
    σ.Pulls (σ.heard (.send c (.result id) (.pull σ.session.fetchSize)) answer w) := by
  have sized : (Happening.asked (.send c (.result id) (.pull σ.session.fetchSize)) answer).Sized
      σ.session.fetchSize := rfl
  exact .one sized (fun _ => rfl) rfl rfl

theorem routine_pulls : Routine peer.recorded (State.Pulls (ω := ω)) where
  ask request routine := ask_pulls request routine.isOrdinary.isQuiet
  pull id σ := by
    refine Op.Ends.state ?_
    rw [pullHeld, Op.ends_bind, Op.ends_theSession]
    cases held : σ.session.connection with
    | none =>
      have rest : σ.Pulls σ := IsFrame.rest σ
      rw [sendHeld, Op.ends_bind, Op.ends_theSession, held]
      exact rest
    | some c => exact Op.ends_sendHeld held (fun _ _ => .pulled) fun _ _ => .pulled
  change _ _ config := ⟨config, .nothing .nothing rfl⟩

/-- With a connection, a fetch asks for records. -/
theorem fetch_pulls {c : Connection} (held : σ.session.connection = some c) :
    (fetch peer.recorded id).Ends σ (fun _ => σ.Since (0 < ·.pulls id)) fun _ =>
      σ.Since (0 < ·.pulls id) := by
  have k : Routine peer.recorded (State.Pulls (ω := ω)) := routine_pulls
  have asked {answer : Except Fault Batch} {w : ω} {τ : State (Recorded ω)}
      (on : (σ.heard (.send c (.result id) (.pull σ.session.fetchSize)) answer w).Pulls τ) :
      σ.Since (0 < ·.pulls id) τ := by
    obtain ⟨-, later, history, -⟩ := on
    refine ⟨later ++ [_], history.trans (List.append_cons _ _ _), ?_⟩
    show 0 < History.pulls id (later ++ [_])
    rw [History.pulls_append, Counted.pulls_pull]
    exact Nat.succ_pos _
  rw [fetch, Op.ends_bind, Op.ends_attempt, pullHeld, Op.ends_bind, Op.ends_theSession]
  refine Op.ends_sendHeld held (fun batch w => ?_) fun fault w => ?_
  · have ended : Op.Obeys (State.Pulls (ω := ω)) (do
        changeResult id fun r =>
          { r with buffer := r.buffer ++ batch.records.map (Record.mk r.keys) }
        if batch.more then return true
        finishStream peer.recorded id batch.metadata
        return false : Op (Recorded ω) Bool) := by
      refine .bind (k.changeOp fun _ => rfl) fun _ => ?_
      split
      · exact .pure _
      · exact .bind (k.completing.finishStream id _) fun _ => .pure _
    exact (ended.ends _).imp (fun _ _ => asked) fun _ _ => asked
  · have failed : Op.Obeys (State.Pulls (ω := ω))
        (failAfter (failStream peer.recorded id fault) fault : Op (Recorded ω) Bool) :=
      .failAfter (k.clearsUp.failStream id fault) _
    exact (failed.ends _).imp (fun _ _ => asked) fun _ _ => asked

/-- A query that has run, and whose records were asked for. -/
theorem State.Pulls.started {c : Connection} {request : RunRequest} {reply : RunReply} {w : ω}
    (on : (σ.heard (.send c (.result id) (.run request)) (.ok reply) w).Pulls τ)
    (asked : (σ.heard (.send c (.result id) (.run request)) (.ok reply) w).Since
      (0 < ·.pulls id) τ) : σ.Pulls τ := by
  obtain ⟨config, later, history, pulls⟩ := on
  obtain ⟨later', history', some_pull⟩ := asked
  obtain rfl := List.append_cancel_right (history.symm.trans history')
  refine ⟨config, later ++ [_], history.trans (List.append_cons _ _ _), ⟨fun e he => ?_,
    fun r started => ?_⟩⟩
  · rcases List.mem_append.mp he with here | last
    · exact pulls.sized e here
    · rw [List.mem_singleton.mp last]
      trivial
  · rw [History.pulls_append]
    rw [History.keys?_append, Option.isSome_or, Bool.or_eq_true] at started
    refine Nat.add_pos_left ?_ _
    rcases started with new | first
    · exact pulls.prompt r new
    · rw [History.keys?_run] at first
      split at first
      · next own => exact own ▸ some_pull
      · cases first

/-- A query that has run asks for its first batch.  A note about the database may come before. -/
theorem added_pulls {c : Connection} {request : RunRequest} {reply : RunReply} {w w' : ω}
    {target : Target} (held : σ.session.connection = some c) (r : Result)
    (notes : ∀ e ∈ later, ∃ event, e = Happening.asked (.note event) ()) :
    Op.Ends (do
      let id ← addResult r
      let _ ← fetch peer.recorded id
      return id : Op (Recorded ω) ResultId)
      { session := { σ.session with target }
        world := ⟨w', later ++ (σ.heard (.send c (.result σ.session.nextResult) (.run request))
          (.ok reply) w).history⟩ }
      (fun _ => σ.Pulls) fun _ => σ.Pulls := by
  let ran : State (Recorded ω) :=
    σ.heard (.send c (.result σ.session.nextResult) (.run request)) (.ok reply) w
  let now : State (Recorded ω) :=
    { session := { σ.session with target, results := σ.session.results ++ [r] }
      world := ⟨w', later ++ ran.history⟩ }
  have held : now.session.connection = some c := held
  have noted : ran.Pulls now := ⟨rfl, later, rfl, .notes notes⟩
  have asked {τ : State (Recorded ω)} (on : now.Pulls τ)
      (some_pull : now.Since (0 < ·.pulls σ.session.nextResult) τ) : σ.Pulls τ := by
    refine .started (IsFrame.andThen noted on) ?_
    obtain ⟨new, history, some_pull⟩ := some_pull
    refine ⟨new ++ later, history.trans (List.append_assoc _ _ _).symm, ?_⟩
    show 0 < History.pulls _ (new ++ later)
    rw [History.pulls_append]
    exact Nat.add_pos_left some_pull _
  rw [Op.ends_bind, Op.ends_addResult]
  have k : Routine peer.recorded (State.Pulls (ω := ω)) := routine_pulls
  have on := (k.fetch σ.session.nextResult).ends now
  exact Op.ends_bind.mpr ((on.and (fetch_pulls held)).imp (fun _ τ h => asked h.1 h.2)
    fun _ τ h => asked h.1 h.2)

theorem startResult_pulls (request : RunRequest) (origin : Origin) :
    (startResult peer.recorded request origin).Obeys (State.Pulls (ω := ω)) := by
  have k : Routine peer.recorded (State.Pulls (ω := ω)) := routine_pulls
  intro σ
  refine Op.Ends.state ?_
  have failed (fault : Fault) {τ : State (Recorded ω)} (on : σ.Pulls τ) :
      Op.Ends (failAfter (abortOrigin peer.recorded origin) fault : Op (Recorded ω) ResultId) τ
        (fun _ => σ.Pulls) fun _ => σ.Pulls :=
    Op.ends_after on (Op.Obeys.failAfter (k.clearsUp.abortOrigin origin) fault τ)
  rw [startResult, Op.ends_bind, Op.ends_theSession, Op.ends_bind, Op.ends_attempt, runHeld]
  cases held : σ.session.connection with
  | none =>
    rw [sendHeld, Op.ends_bind, Op.ends_theSession, held]
    exact failed .noConnection (IsFrame.rest σ)
  | some c =>
    refine Op.ends_sendHeld held (fun reply w => ?_) fun fault w =>
      failed fault (.one (by trivial) (fun _ => rfl) rfl rfl)
    cases origin.pins with
    | true =>
      exact Op.ends_bind.mpr (Op.ends_lift.mpr (pinDatabase_ends fun _ _ _ notes =>
        added_pulls held _ notes))
    | false => exact added_pulls (w := w) held _ (by simp : ∀ e ∈ [], _)

/-! ## Sessions -/

theorem ordinary_pulls : OrdinaryWork peer (State.Pulls (ω := ω)) where
  ask request ordinary := ask_pulls request ordinary.isQuiet
  pull := routine_pulls.pull
  started := startResult_pulls
  change _ _ config := ⟨config, .nothing .nothing rfl⟩
  used _ _ _ := .one (by trivial) (fun _ => rfl) rfl rfl
  returned _ _ := .one (by trivial) (fun _ => rfl) rfl rfl
  drift _ _ := ⟨rfl, .nothing .nothing rfl⟩

theorem fetching_pulls : Fetching peer.recorded (State.Pulls (ω := ω)) where
  toEndsUnits := routine_pulls.endsUnits
  fetch request fetching := ask_pulls request (by
    cases request with
    | send _ _ m => cases m <;> first | exact fetching.elim | trivial
    | _ => trivial)

variable {config : SessionConfig} {w : ω} {phase : Phase}

/-- All pulls since a session was new are of the configured size, and every query was followed by
    one. -/
theorem State.Pulls.pullsBy (h : (State.initial config w).Pulls σ) :
    σ.history.PullsBy (.ofInt config.fetchSize) := by
  obtain ⟨-, later, history, pulls⟩ := h
  obtain rfl : σ.history = later := history.trans (List.append_nil later)
  exact pulls

/-- Whatever a session has come to, it asked for records like that ever since it was new. -/
theorem Reached.pulls (h : Reached peer config w phase σ) : (State.initial config w).Pulls σ := by
  have k : OrdinaryWork peer (State.Pulls (ω := ω)) := ordinary_pulls
  have borrowed (mode : AccessMode) (database user : Option String) (api : Option ApiKind) :
      (acquire peer.recorded mode database user api).Obeys (State.Pulls (ω := ω)) :=
    fetching_pulls.acquire mode database user api
  have up := k.routineWork.upheld (Reached.upheld peer config w) (fun τ mode api settings _ =>
    k.openTransaction (fun _ _ => borrowed _ _ _ _) settings .session τ) (.initial config w)
  have keeps := h.keeps ⟨.start, IsFrame.rest _⟩
    (fun τ op plain here => ⟨here.1.operation op plain,
      IsFrame.andThen here.2 (k.operation op (fun _ _ _ => borrowed _ _ _ _) τ)⟩) up
  cases phase <;> exact keeps.2

end GraphSession
