import GraphSession.Proofs.Independence
import GraphSession.Proofs.Steering
import GraphSession.Proofs.Waiting

/-!
  Two runs of a session that differ in nothing but the answers to reports.

  `Peer.reporting` answers a report as it is told and anything else as before.  As long as reports
  are answered alike the two runs are one and the same.  The first report that is answered
  differently is where they fork: both have made it, after the same history.

  `Act.Tracks` and `Op.Tracks` say so of two actions.  A fork is never undone, because a history
  only grows; so whatever follows on a fork is no concern of the rules.
-/

namespace GraphSession

variable {ω α β : Type}

/-! ## Surroundings that answer reports differently -/

/-- How reports are answered: by the bookmarks that are reported, and the surroundings. -/
abbrev Reporting (ω : Type) : Type := Bookmarks → Bookmarks → ω → Except Fault Unit

/-- The same surroundings, but for the answers to reports. -/
def Peer.reporting (peer : Peer ω) (reports : Reporting ω) : Peer ω where
  routing := peer.routing
  answer
    | .updateBookmarks previous new, w =>
      (reports previous new w, (peer.answer (.updateBookmarks previous new) w).2)
    | request, w => peer.answer request w
  backlog := peer.backlog
  backlog_lt := peer.backlog_lt

/-- Both made a report after the same history, and it was answered differently. -/
def State.Forked (σ τ : State (Recorded ω)) : Prop :=
  ∃ (past : History) (previous new : Bookmarks) (answer answer' : Except Fault Unit),
    answer ≠ answer' ∧ .asked (.updateBookmarks previous new) answer :: past <:+ σ.history ∧
      .asked (.updateBookmarks previous new) answer' :: past <:+ τ.history

theorem State.Forked.mono {σ τ σ' τ' : State (Recorded ω)} (h : σ.Forked τ)
    (left : σ.history <:+ σ'.history) (right : τ.history <:+ τ'.history) : σ'.Forked τ' := by
  obtain ⟨past, previous, new, answer, answer', differ, hσ, hτ⟩ := h
  exact ⟨past, previous, new, answer, answer', differ, hσ.trans left, hτ.trans right⟩

/-- From every state the two actions come to the same, or they fork. -/
structure Act.Tracks (x y : Act (Recorded ω) α) : Prop where
  grows : ∀ σ, σ.history <:+ (x.exec σ).2.history
  grows' : ∀ σ, σ.history <:+ (y.exec σ).2.history
  tracks : ∀ σ, x.exec σ = y.exec σ ∨ State.Forked (x.exec σ).2 (y.exec σ).2

/-- As `Act.Tracks`, for actions that may fail. -/
def Op.Tracks (x y : Op (Recorded ω) α) : Prop := Act.Tracks x.run y.run

/-! ## Actions that always succeed -/

namespace Act.Tracks

variable {x y : Act (Recorded ω) α}

theorem of_eq (grows : ∀ σ, σ.history <:+ (x.exec σ).2.history) (same : x = y) : x.Tracks y := by
  subst same
  exact ⟨grows, grows, fun _ => .inl rfl⟩

/-- An action that makes no report. -/
theorem of_within (h : x.Within .working) (same : x = y) : x.Tracks y :=
  of_eq (fun σ => (h σ).grows) same

/-- An action that asks nothing. -/
theorem still (h : ∀ σ, (x.exec σ).2.history = σ.history) : x.Tracks x :=
  of_eq (fun σ => h σ ▸ List.suffix_refl _) rfl

theorem pure (a : α) : Act.Tracks (ω := ω) (Pure.pure a) (Pure.pure a) := still fun _ => rfl

theorem theSession : Act.Tracks (ω := ω) GraphSession.theSession GraphSession.theSession :=
  still fun _ => rfl

theorem changeSession (f : Session → Session) :
    Act.Tracks (ω := ω) (GraphSession.changeSession f) (GraphSession.changeSession f) :=
  still fun _ => rfl

/-- The history goes on. -/
theorem log (e : Happening) :
    Act.Tracks (modify fun σ : State (Recorded ω) => { σ with world := σ.world.add e })
      (modify fun σ : State (Recorded ω) => { σ with world := σ.world.add e }) :=
  of_eq (fun _ => List.suffix_cons _ _) rfl

theorem bind {u v : Act (Recorded ω) β} {f g : β → Act (Recorded ω) α} (hu : u.Tracks v)
    (hf : ∀ b, (f b).Tracks (g b)) : (u >>= f).Tracks (v >>= g) where
  grows σ := (hu.grows σ).trans ((hf _).grows _)
  grows' σ := (hu.grows' σ).trans ((hf _).grows' _)
  tracks σ := by
    rcases hu.tracks σ with same | forked
    · rw [Act.exec_bind, Act.exec_bind, same]
      exact (hf _).tracks _
    · exact .inr (forked.mono ((hf _).grows _) ((hf _).grows' _))

/-- What follows where two runs are one and the same, or have forked. -/
theorem onward {x y : Act (Recorded ω) α} (h : x.Tracks y) {σ τ : State (Recorded ω)}
    (before : σ = τ ∨ σ.Forked τ) :
    x.exec σ = y.exec τ ∨ State.Forked (x.exec σ).2 (y.exec τ).2 := by
  rcases before with rfl | forked
  · exact h.tracks σ
  · exact .inr (forked.mono (h.grows σ) (h.grows' τ))

end Act.Tracks

/-! ## Actions that may fail -/

namespace Op.Tracks

variable {x y : Op (Recorded ω) α}

/-- An action that makes no report. -/
theorem of_within (h : x.Within .working) (same : x = y) : x.Tracks y :=
  Act.Tracks.of_eq (fun σ => (h σ).grows) same

/-- An action that asks nothing. -/
theorem still (h : ∀ σ, (x.exec σ).2.history = σ.history) : x.Tracks x :=
  Act.Tracks.still h

theorem pure (a : α) : Op.Tracks (ω := ω) (Pure.pure a) (Pure.pure a) := still fun _ => rfl

theorem throw (fault : Fault) :
    Op.Tracks (ω := ω) (α := α) (MonadExcept.throw fault) (MonadExcept.throw fault) :=
  still fun _ => rfl

theorem settleOn (outcome : Except Fault α) :
    Op.Tracks (ω := ω) (GraphSession.settleOn outcome) (GraphSession.settleOn outcome) :=
  still fun _ => rfl

theorem theSession : Op.Tracks (ω := ω) GraphSession.theSession GraphSession.theSession :=
  still fun _ => rfl

theorem changeSession (f : Session → Session) :
    Op.Tracks (ω := ω) (GraphSession.changeSession f) (GraphSession.changeSession f) :=
  still fun _ => rfl

theorem log (e : Happening) :
    Op.Tracks (modify fun σ : State (Recorded ω) => { σ with world := σ.world.add e })
      (modify fun σ : State (Recorded ω) => { σ with world := σ.world.add e }) :=
  Act.Tracks.of_eq (fun _ => List.suffix_cons _ _) rfl

theorem failIf (fault : Option Fault) :
    Op.Tracks (ω := ω) (GraphSession.failIf fault) (GraphSession.failIf fault) := by
  cases fault with
  | none => exact pure ()
  | some fault => exact throw fault

theorem bind {u v : Op (Recorded ω) β} {f g : β → Op (Recorded ω) α} (hu : u.Tracks v)
    (hf : ∀ b, (f b).Tracks (g b)) : (u >>= f).Tracks (v >>= g) := by
  have follows (outcome : Except Fault β) :
      Act.Tracks (ExceptT.bindCont f outcome) (ExceptT.bindCont g outcome) := by
    cases outcome with
    | ok b => exact hf b
    | error fault => exact throw fault
  exact Act.Tracks.bind hu follows

theorem lift {u v : Act (Recorded ω) α} (h : u.Tracks v) :
    Op.Tracks (liftM u : Op (Recorded ω) α) (liftM v : Op (Recorded ω) α) := by
  have lifted : Act.Tracks (u >>= fun a => Pure.pure (.ok a : Except Fault α))
      (v >>= fun a => Pure.pure (.ok a)) := .bind h fun _ => .pure _
  exact lifted

theorem attempt (h : x.Tracks y) :
    Op.Tracks (GraphSession.attempt x) (GraphSession.attempt y) := by
  have attempted : Act.Tracks
      (x.run >>= fun outcome => Pure.pure (.ok outcome : Except Fault (Except Fault α)))
      (y.run >>= fun outcome => Pure.pure (.ok outcome)) := .bind h fun _ => .pure _
  exact attempted

/-- Where the one action leads is where the other leads, or they fork. -/
theorem meet (h : x.Tracks y) {σ σ' : State (Recorded ω)} {outcome : Except Fault α}
    (e : x.exec σ = (outcome, σ')) : y.exec σ = (outcome, σ') ∨ σ'.Forked (y.exec σ).2 := by
  have met : x.exec σ = y.exec σ ∨ State.Forked (x.exec σ).2 (y.exec σ).2 := h.tracks σ
  rw [e] at met
  exact met.imp Eq.symm id

end Op.Tracks

/-! ## Units of work -/

variable {p : Peer ω} {reports : Reporting ω}

/-- A request that is no report. -/
theorem ask_tracks {request : Request}
    (same : p.answer request = (p.reporting reports).answer request) :
    Act.Tracks (ask p.recorded request) (ask (p.reporting reports).recorded request) := by
  have recorded : p.recorded.answer request = (p.reporting reports).recorded.answer request := by
    funext w
    exact congrArg (fun answer : ω → request.Answer × ω =>
      ((answer w.world).1, Recorded.mk (answer w.world).2
        (.asked request (answer w.world).1 :: w.history))) same
  refine .of_eq (fun σ => List.suffix_cons _ _) ?_
  unfold ask
  rw [recorded]

theorem note_tracks (event : Event) :
    Act.Tracks (note p.recorded event) (note (p.reporting reports).recorded event) :=
  ask_tracks rfl

/-- The only place where two runs fork. -/
theorem reportBookmarks_tracks (sent new : Bookmarks) :
    Op.Tracks (reportBookmarks p.recorded sent new)
      (reportBookmarks (p.reporting reports).recorded sent new) where
  grows σ := List.suffix_cons _ _
  grows' σ := List.suffix_cons _ _
  tracks σ := by
    have left : (reportBookmarks p.recorded sent new).run.exec σ =
        ((p.answer (.updateBookmarks sent new) σ.world.world).1,
          σ.heard (.updateBookmarks sent new) (p.answer (.updateBookmarks sent new) σ.world.world).1
            (p.answer (.updateBookmarks sent new) σ.world.world).2) := rfl
    have right : (reportBookmarks (p.reporting reports).recorded sent new).run.exec σ =
        (reports sent new σ.world.world,
          σ.heard (.updateBookmarks sent new) (reports sent new σ.world.world)
            (p.answer (.updateBookmarks sent new) σ.world.world).2) := rfl
    rw [left, right]
    by_cases same : (p.answer (.updateBookmarks sent new) σ.world.world).1 =
        reports sent new σ.world.world
    · rw [same]
      exact .inl rfl
    · exact .inr ⟨σ.history, sent, new, _, _, same, List.suffix_refl _, List.suffix_refl _⟩

theorem takeBookmark?_tracks (sent : Bookmarks) (token : Option String) :
    Op.Tracks (takeBookmark? p.recorded sent token)
      (takeBookmark? (p.reporting reports).recorded sent token) := by
  cases token with
  | none => exact .pure ()
  | some token =>
    refine .bind (.changeSession _) fun _ => .bind .theSession fun s => ?_
    split
    · exact reportBookmarks_tracks sent _
    · exact .pure ()

theorem reportAndEnd_tracks (sent : Bookmarks) (token : Option String) :
    Op.Tracks (reportAndEnd p.recorded sent token)
      (reportAndEnd (p.reporting reports).recorded sent token) :=
  .bind (.attempt (takeBookmark?_tracks sent token)) fun reported =>
    .bind (.lift (.of_within endUnit_within rfl)) fun _ => .settleOn reported

theorem completeOrigin_tracks (summary : Summary) (origin : Origin) :
    Op.Tracks (completeOrigin p.recorded summary origin)
      (completeOrigin (p.reporting reports).recorded summary origin) := by
  cases origin with
  | transaction t => exact .pure ()
  | autoCommit sent pins =>
    have reported : Op.Tracks (reportAndEnd p.recorded sent summary.bookmark)
        (reportAndEnd (p.reporting reports).recorded sent summary.bookmark) :=
      reportAndEnd_tracks sent summary.bookmark
    cases pins with
    | true => exact .bind (.lift (.of_within (pinDatabase_within _) rfl)) fun _ => reported
    | false => exact reported

/-! ## Streams -/

theorem finishStream_tracks (id : ResultId) (metadata : Metadata) :
    Op.Tracks (finishStream p.recorded id metadata)
      (finishStream (p.reporting reports).recorded id metadata) :=
  .bind .theSession fun _ => .bind (.still fun _ => rfl) fun _ => completeOrigin_tracks _ _

theorem sendHeld_tracks (sender : Sender) (m : Message) :
    Op.Tracks (sendHeld p.recorded sender m)
      (sendHeld (p.reporting reports).recorded sender m) := by
  refine .bind .theSession fun s => ?_
  cases s.connection with
  | none => exact .throw _
  | some c =>
    have sent : Act.Tracks (ask p.recorded (.send c sender m))
        (ask (p.reporting reports).recorded (.send c sender m)) := ask_tracks rfl
    exact sent

theorem fetch_tracks (id : ResultId) :
    Op.Tracks (fetch p.recorded id) (fetch (p.reporting reports).recorded id) := by
  refine .bind (.attempt (.bind .theSession fun _ => sendHeld_tracks _ _)) fun outcome => ?_
  cases outcome with
  | error fault =>
    exact .bind (.lift (.of_within (failStream_within id fault) rfl)) fun _ => .throw fault
  | ok batch =>
    refine .bind (.still fun _ => rfl) fun _ => ?_
    split
    · exact .pure true
    · exact .bind (finishStream_tracks id _) fun _ => .pure false

theorem discardRest_tracks (id : ResultId) :
    Op.Tracks (discardRest p.recorded id) (discardRest (p.reporting reports).recorded id) := by
  refine .bind .theSession fun s => ?_
  split
  · refine .bind (.attempt (sendHeld_tracks _ .discard)) fun outcome => ?_
    cases outcome with
    | error fault =>
      exact .bind (.lift (.of_within (failStream_within id fault) rfl)) fun _ => .throw fault
    | ok metadata => exact finishStream_tracks id metadata
  · exact .pure ()

theorem startResult_tracks (request : RunRequest) (origin : Origin) :
    Op.Tracks (startResult p.recorded request origin)
      (startResult (p.reporting reports).recorded request origin) := by
  have started (r : Result) : Op.Tracks (do
      let id ← addResult r
      let _ ← fetch p.recorded id
      return id) (do
      let id ← addResult r
      let _ ← fetch (p.reporting reports).recorded id
      return id) :=
    .bind (.still fun _ => rfl) fun id => .bind (fetch_tracks id) fun _ => .pure id
  refine .bind .theSession fun s => .bind (.attempt (sendHeld_tracks _ _)) fun outcome => ?_
  cases outcome with
  | error fault =>
    exact .bind (.lift (.of_within (abortOrigin_within origin) rfl)) fun _ => .throw fault
  | ok reply =>
    dsimp only
    split
    · exact .bind (.lift (.of_within (pinDatabase_within _) rfl)) fun _ => started _
    · exact started _

/-! ## Reading -/

/-- The loop that fetches goes on after a fork, on both sides. -/
theorem fetchFrom_grows {peer : Peer ω} {id : ResultId} {hungry : Result → Bool}
    {σ : State (Recorded ω)}
    (goesOn : ((σ.session.result id).isStreaming && hungry (σ.session.result id)) = true) :
    (Op.exec (fetch peer.recorded id) σ).2.history <:+
      (fetchFrom peer.recorded id hungry σ).2.history := by
  rw [fetchFrom_turn goesOn]
  rcases Op.exec (fetch peer.recorded id) σ with ⟨fault | (_ | _), τ⟩
  · exact List.suffix_refl _
  · exact List.suffix_refl _
  · have within : (fetchWhile peer.recorded id hungry).Within .working :=
      fetchWhile_within id hungry
    exact (within τ).grows

theorem fetchWhile_tracks (id : ResultId) (hungry : Result → Bool) :
    Op.Tracks (fetchWhile p.recorded id hungry)
      (fetchWhile (p.reporting reports).recorded id hungry) := by
  have within (peer : Peer ω) : (fetchWhile peer.recorded id hungry).Within .working :=
    fetchWhile_within id hungry
  refine ⟨fun σ => (within _ σ).grows, fun σ => (within _ σ).grows, fun σ => ?_⟩
  show fetchFrom p.recorded id hungry σ = fetchFrom (p.reporting reports).recorded id hungry σ ∨
    State.Forked (fetchFrom p.recorded id hungry σ).2
      (fetchFrom (p.reporting reports).recorded id hungry σ).2
  -- without a fork both take the same turn
  fun_induction fetchFrom p.recorded id hungry σ with
  | case1 σ r more σ' e ih =>
    rcases (fetch_tracks id).meet e with same | forked
    · rw [fetchFrom_turn more, same]
      exact ih
    · exact .inr (forked.mono (within p σ').grows (fetchFrom_grows more))
  | case2 σ r more σ' e =>
    rcases (fetch_tracks id).meet e with same | forked
    · rw [fetchFrom_turn more, same]
      exact .inl rfl
    · exact .inr (forked.mono (List.suffix_refl _) (fetchFrom_grows more))
  | case3 σ r more fault σ' e =>
    rcases (fetch_tracks id).meet e with same | forked
    · rw [fetchFrom_turn more, same]
      exact .inl rfl
    · exact .inr (forked.mono (List.suffix_refl _) (fetchFrom_grows more))
  | case4 σ r stopped =>
    rw [fetchFrom, if_neg stopped]
    exact .inl rfl

theorem bufferAll_tracks (id : ResultId) :
    Op.Tracks (bufferAll p.recorded id) (bufferAll (p.reporting reports).recorded id) :=
  fetchWhile_tracks id _

theorem checkUsable_tracks (id : ResultId) :
    Op.Tracks (ω := ω) (checkUsable id) (checkUsable id) :=
  .of_within (checkUsable_within id) rfl

theorem peek_tracks (id : ResultId) :
    Op.Tracks (peek p.recorded id) (peek (p.reporting reports).recorded id) :=
  .bind (checkUsable_tracks id) fun _ => .bind (fetchWhile_tracks id _) fun _ =>
    .bind .theSession fun _ => .pure _

theorem next_tracks (id : ResultId) :
    Op.Tracks (next p.recorded id) (next (p.reporting reports).recorded id) :=
  .bind (peek_tracks id) fun record => .bind (.still fun _ => rfl) fun _ => .pure record

theorem drainFrom_grows (peer : Peer ω) (id : ResultId) (read : List Record)
    (σ : State (Recorded ω)) : σ.history <:+ (drainFrom peer.recorded id read σ).2.history := by
  have takes : (License.handling .working id).takes id := .inl rfl
  exact (drainFrom_course takes read σ).grows

/-- The loop that reads to the end goes on after a fork, on both sides. -/
theorem drainFrom_turn_grows {peer : Peer ω} {id : ResultId} {read : List Record}
    {σ : State (Recorded ω)} (goesOn : (σ.session.result id).isStreaming = true) :
    (Op.exec (fetch peer.recorded id) (σ.emptied id)).2.history <:+
      (drainFrom peer.recorded id read σ).2.history := by
  rw [drainFrom_turn goesOn]
  rcases Op.exec (fetch peer.recorded id) (σ.emptied id) with ⟨fault | (_ | _), τ⟩
  · exact List.suffix_refl _
  · exact List.suffix_refl _
  · exact drainFrom_grows peer id _ τ

theorem drainFrom_tracks (id : ResultId) (read : List Record) :
    Act.Tracks (drainFrom p.recorded id read)
      (drainFrom (p.reporting reports).recorded id read) := by
  refine ⟨drainFrom_grows p id read, drainFrom_grows _ id read, fun σ => ?_⟩
  show drainFrom p.recorded id read σ = drainFrom (p.reporting reports).recorded id read σ ∨
    State.Forked (drainFrom p.recorded id read σ).2
      (drainFrom (p.reporting reports).recorded id read σ).2
  fun_induction drainFrom p.recorded id read σ with
  | case1 read σ r read' more σ' e ih =>
    rcases (fetch_tracks id).meet e with same | forked
    · rw [drainFrom_turn more, same]
      exact ih
    · exact .inr (forked.mono (drainFrom_grows p id read' σ') (drainFrom_turn_grows more))
  | case2 read σ r read' more σ' e =>
    rcases (fetch_tracks id).meet e with same | forked
    · rw [drainFrom_turn more, same]
      exact .inl rfl
    · exact .inr (forked.mono (List.suffix_refl _) (drainFrom_turn_grows more))
  | case3 read σ r read' more fault σ' e =>
    rcases (fetch_tracks id).meet e with same | forked
    · rw [drainFrom_turn more, same]
      exact .inl rfl
    · exact .inr (forked.mono (List.suffix_refl _) (drainFrom_turn_grows more))
  | case4 read σ r read' stopped =>
    rw [drainFrom, if_neg stopped]
    exact .inl rfl

theorem drain_tracks (id : ResultId) :
    Act.Tracks (drain p.recorded id) (drain (p.reporting reports).recorded id) := by
  refine .bind .theSession fun s => ?_
  split
  · exact .pure _
  · exact drainFrom_tracks id []

theorem collect_tracks (id : ResultId) :
    Op.Tracks (collect p.recorded id) (collect (p.reporting reports).recorded id) := by
  refine .bind (.lift (drain_tracks id)) fun outcome => ?_
  split
  · exact .pure _
  · exact .throw _

theorem single_tracks (id : ResultId) :
    Op.Tracks (single p.recorded id) (single (p.reporting reports).recorded id) := by
  rw [single_eq, single_eq]
  have verdict (first second : Option Record) : Op.Tracks (do
      discardRest p.recorded id
      settleOn (onlyRecord first second)) (do
      discardRest (p.reporting reports).recorded id
      settleOn (onlyRecord first second)) :=
    .bind (discardRest_tracks id) fun _ => .settleOn _
  refine .bind (next_tracks id) fun first => ?_
  dsimp only
  split
  · exact .bind (next_tracks id) fun second => verdict first second
  · exact .bind (.pure none) fun second => verdict first second

theorem consume_tracks (id : ResultId) :
    Op.Tracks (consume p.recorded id) (consume (p.reporting reports).recorded id) := by
  refine .bind .theSession fun s => .bind (.failIf _) fun _ => ?_
  split
  · exact .pure _
  · refine .bind (discardRest_tracks id) fun _ => .bind (.still fun _ => rfl) fun _ =>
      .bind .theSession fun s => ?_
    split
    · exact .pure _
    · exact .throw _
    · exact .throw _

/-! ## Transactions -/

theorem endResult_tracks (id : ResultId) :
    Op.Tracks (endResult p.recorded id) (endResult (p.reporting reports).recorded id) :=
  .bind (.attempt (discardRest_tracks id)) fun discarded => .bind (.still fun _ => rfl) fun _ =>
    .settleOn discarded

theorem endResults_tracks (ids : List ResultId) :
    Op.Tracks (endResults p.recorded ids) (endResults (p.reporting reports).recorded ids) := by
  induction ids with
  | nil => exact .pure ()
  | cons id rest ih => exact .bind (endResult_tracks id) fun _ => ih

theorem runIn_tracks (id : TransactionId) (source : QuerySource) (params : Option Params) :
    Op.Tracks (runIn p.recorded id source params)
      (runIn (p.reporting reports).recorded id source params) := by
  refine .bind (.settleOn _) fun query => .bind .theSession fun s => .bind (.failIf _) fun _ => ?_
  have started (parameters : Params) : Op.Tracks (do
      let result ← startResult p.recorded { query := query.text, parameters } (.transaction id)
      changeTransaction id fun t => { t with results := t.results ++ [result] }
      return result) (do
      let result ← startResult (p.reporting reports).recorded
        { query := query.text, parameters } (.transaction id)
      changeTransaction id fun t => { t with results := t.results ++ [result] }
      return result) :=
    .bind (startResult_tracks _ _) fun result => .bind (.still fun _ => rfl) fun _ => .pure result
  dsimp only
  split
  · exact .throw _
  · split
    · exact .bind (bufferAll_tracks _) fun _ => started _
    · exact started _

theorem commit_tracks (id : TransactionId) :
    Op.Tracks (commit p.recorded id) (commit (p.reporting reports).recorded id) := by
  refine .bind .theSession fun s => .bind (.failIf _) fun _ =>
    .bind (.of_within (takeResults_within id) rfl) fun results =>
    .bind (.attempt (.bind (endResults_tracks results) fun _ => sendHeld_tracks _ _))
      fun outcome => ?_
  cases outcome with
  | error fault =>
    exact .bind (.still fun _ => rfl) fun _ => .bind (.lift (.of_within abortUnit_within rfl))
      fun _ => .throw fault
  | ok token => exact .bind (.still fun _ => rfl) fun _ => reportAndEnd_tracks _ token

theorem settle_tracks (id : TransactionId) (outcome : Except Fault α) :
    Op.Tracks (settle p.recorded id outcome)
      (settle (p.reporting reports).recorded id outcome) := by
  have committed : Op.Tracks (do
      let a ← settleOn outcome
      commit p.recorded id
      return a) (do
      let a ← settleOn outcome
      commit (p.reporting reports).recorded id
      return a) :=
    .bind (.settleOn outcome) fun a => .bind (commit_tracks id) fun _ => .pure a
  refine .bind (.attempt committed) fun outcome => ?_
  cases outcome with
  | ok a => exact .pure a
  | error fault =>
    exact .bind (.lift (.of_within (closeQuietly_within trivial id) rfl)) fun _ => .throw fault

/-- An access that makes no report is no concern; the others are followed to where they report. -/
theorem Access.perform_tracks (a : Access) :
    Op.Tracks (a.perform p.recorded) (a.perform (p.reporting reports).recorded) := by
  have held (id : TransactionId) (allowed : Holder → Bool) :
      Op.Tracks (ω := ω) (checkHolder id allowed) (checkHolder id allowed) := by
    refine .bind .theSession fun s => ?_
    split
    · exact .throw _
    · exact .pure ()
  cases a with
  | run id source params => exact .bind (held id _) fun _ => runIn_tracks id source params
  | commit id => exact .bind (held id _) fun _ => commit_tracks id
  | rollback id =>
    exact .bind (held id _) fun _ => .of_within (rollback_within trivial id) rfl
  | close id =>
    exact .bind (held id _) fun _ => .of_within (closeTransaction_within trivial id) rfl
  | drop id => exact .lift (.of_within (dropHandle_within id) rfl)
  | viewTransaction id => exact .bind .theSession fun _ => .pure _
  | next id => exact next_tracks id
  | peek id => exact peek_tracks id
  | single id => exact single_tracks id
  | collect id => exact collect_tracks id
  | drain id => exact .lift (drain_tracks id)
  | consume id => exact consume_tracks id
  | viewResult id => exact .bind .theSession fun _ => .pure _

theorem Access.performTold_tracks (a : Access) :
    Act.Tracks (a.performTold p) (a.performTold (p.reporting reports)) :=
  .bind a.perform_tracks fun outcome => .bind (.log _) fun _ => .pure outcome

/-! ## Sessions -/

theorem bufferAutoResult_tracks :
    Op.Tracks (bufferAutoResult p.recorded) (bufferAutoResult (p.reporting reports).recorded) := by
  refine .bind .theSession fun s => ?_
  split
  · exact .pure ()
  · exact .bind (.changeSession _) fun _ => bufferAll_tracks _

theorem lastBookmarks_tracks :
    Op.Tracks (lastBookmarks p.recorded) (lastBookmarks (p.reporting reports).recorded) := by
  refine .bind .theSession fun s => ?_
  split
  · exact .bind (bufferAll_tracks _) fun _ => .bind .theSession fun _ => .pure _
  · exact .bind .theSession fun _ => .pure _

theorem lastBookmark_tracks :
    Op.Tracks (lastBookmark p.recorded) (lastBookmark (p.reporting reports).recorded) :=
  .bind (.lift (note_tracks _)) fun _ => .bind lastBookmarks_tracks fun _ => .pure _

theorem run_tracks (source : QuerySource) (params : Option Params) :
    Op.Tracks (run p.recorded source params)
      (run (p.reporting reports).recorded source params) := by
  refine .bind (.settleOn _) fun query => .bind (.of_within checkOpen_within rfl) fun _ =>
    .bind (.of_within (reapTransaction_within trivial trivial) rfl) fun _ =>
    .bind (.settleOn _) fun o => .bind .theSession fun s => .bind (.changeSession _) fun _ =>
    .bind (.attempt (.bind bufferAutoResult_tracks fun _ =>
      .bind (.of_within (connect_within trivial _ _ o) rfl) fun _ =>
        .bind (.of_within bookmarksForWork_within rfl) fun _ => .pure _)) fun prepared => ?_
  cases prepared with
  | error fault => exact .bind (.lift (.of_within endUnit_within rfl)) fun _ => .throw fault
  | ok given =>
    exact .bind (startResult_tracks _ _) fun id => .bind (.changeSession _) fun _ => .pure id

theorem consumeAutoResult_tracks :
    Act.Tracks (consumeAutoResult p.recorded)
      (consumeAutoResult (p.reporting reports).recorded) := by
  refine .bind .theSession fun s => ?_
  split
  · exact .pure ()
  · refine .bind (.changeSession _) fun _ => .bind (consume_tracks _) fun outcome => ?_
    cases outcome with
    | ok _ => exact .pure ()
    | error fault => exact note_tracks _

theorem close_tracks : Act.Tracks (close p.recorded) (close (p.reporting reports).recorded) := by
  refine .bind .theSession fun s => ?_
  split
  · exact .bind (.of_within (endCurrent_within trivial trivial) rfl) fun _ =>
      .bind consumeAutoResult_tracks fun _ => .bind (.of_within endAllUnits_within rfl) fun _ =>
        .bind (.changeSession _) fun _ => note_tracks _
  · exact .pure ()

/-! ## Transaction functions -/

theorem Work.perform_tracks (w : Work ω α) :
    Op.Tracks (w.recorded.perform p.recorded)
      (w.recorded.perform (p.reporting reports).recorded) := by
  induction w with
  | done outcome =>
    exact .bind (.log _) fun _ => .settleOn outcome
  | call a next ih =>
    exact .bind (.attempt a.perform_tracks) fun outcome => .bind (.log _) fun _ => ih outcome
  | look next ih =>
    exact .bind (.still fun _ => rfl) fun σ => ih σ.world.world
  | change f rest ih => exact .bind (.still fun _ => rfl) fun _ => ih

theorem prepareExecute_tracks :
    Op.Tracks (prepareExecute p.recorded) (prepareExecute (p.reporting reports).recorded) :=
  .bind (.of_within checkOpen_within rfl) fun _ =>
    .bind (.of_within (reapTransaction_within trivial trivial) rfl) fun _ =>
      bufferAutoResult_tracks

theorem decide_tracks (b : Backoff) (fault : Fault) :
    Act.Tracks (decide p.recorded b fault) (decide (p.reporting reports).recorded b fault) :=
  .bind (ask_tracks rfl) fun _ => .bind (ask_tracks rfl) fun _ => .pure _

theorem attemptOnce_tracks (options : ExecuteOptions) (work : TransactionFunction ω α)
    (calls : Nat) :
    Act.Tracks (attemptOnce p.recorded options (TransactionFunction.recorded work) calls)
      (attemptOnce (p.reporting reports).recorded options (TransactionFunction.recorded work)
        calls) := by
  have opened : Op.Tracks (openTransaction p.recorded options.mode options.api options.config
      .session) (openTransaction (p.reporting reports).recorded options.mode options.api
        options.config .session) := .of_within (openTransaction_within trivial _ _ _ _) rfl
  refine .bind opened fun outcome => ?_
  cases outcome with
  | error fault => exact .pure _
  | ok id =>
    exact .bind (Work.perform_tracks (work calls id)) fun outcome =>
      .bind (settle_tracks id outcome) fun _ => .pure _

theorem attemptFrom_tracks (options : ExecuteOptions) (work : TransactionFunction ω α)
    (patience calls : Nat) (b : Backoff) :
    Act.Tracks (attemptFrom p.recorded options (TransactionFunction.recorded work) patience calls b)
      (attemptFrom (p.reporting reports).recorded options (TransactionFunction.recorded work)
        patience calls b) := by
  induction patience generalizing calls b with
  | zero => exact .pure none
  | succ patience ih =>
    refine .bind (attemptOnce_tracks options work calls) fun ended => ?_
    obtain ⟨outcome, calls⟩ := ended
    cases outcome with
    | ok a => exact .pure _
    | error fault =>
      refine .bind (decide_tracks b fault) fun decided => ?_
      obtain ⟨decision, b⟩ := decided
      cases decision with
      | giveUp fault => exact .pure _
      | retryAfter delay =>
        exact .bind (note_tracks _) fun _ => .bind (ask_tracks rfl) fun _ => ih calls b

theorem executeWith_tracks (options : ExecuteOptions) (patience : Nat)
    (work : TransactionFunction ω α) :
    Act.Tracks (executeWith p.recorded options patience (TransactionFunction.recorded work))
      (executeWith (p.reporting reports).recorded options patience
        (TransactionFunction.recorded work)) := by
  refine .bind prepareExecute_tracks fun outcome => ?_
  cases outcome with
  | error fault => exact .pure _
  | ok _ =>
    exact .bind (ask_tracks rfl) fun _ => .bind .theSession fun _ =>
      attemptFrom_tracks options work patience 0 _

/-! ## Operations -/

theorem concluded_tracks {x y : Op (Recorded ω) α} (h : x.Tracks y) :
    Act.Tracks (concluded x) (concluded y) :=
  .bind h fun _ => .pure _

/-- Unless a report was answered differently, an operation comes to the same. -/
theorem Operation.perform_tracks (op : Operation ω) :
    Act.Tracks (op.perform p) (op.perform (p.reporting reports)) := by
  cases op with
  | run source params => exact concluded_tracks (run_tracks source params)
  | beginTransaction config =>
    exact concluded_tracks (.of_within (beginTransaction_within trivial trivial trivial config) rfl)
  | execute mode config patience work => exact executeWith_tracks _ patience work
  | executeRenamed mode patience work =>
    exact .bind (note_tracks _) fun _ => executeWith_tracks _ patience work
  | executeQuery source params mode patience =>
    rw [perform, perform, executeQueryWith, executeQueryWith]
    cases Query.ofSource source with
    | error fault => exact .pure _
    | ok query => exact executeWith_tracks _ patience _
  | executeBlocking mode config patience work =>
    rw [perform, perform, Blocking.execute_eq, Blocking.execute_eq]
    exact executeWith_tracks _ patience work
  | lastBookmarks => exact concluded_tracks lastBookmarks_tracks
  | lastBookmark => exact concluded_tracks lastBookmark_tracks
  | serverInfo => exact concluded_tracks (.of_within (serverInfo_within trivial) rfl)
  | close => exact concluded_tracks (.lift close_tracks)
  | access a => exact .bind a.performTold_tracks fun _ => .pure _
  | elsewhere f => exact .still fun _ => rfl

/-- The same operations, one after the other, come to the same state unless two runs fork. -/
theorem play_tracks (config : SessionConfig) (w : ω) (ops : List (Operation ω)) :
    play p config w ops = play (p.reporting reports) config w ops ∨
      State.Forked (play p config w ops) (play (p.reporting reports) config w ops) := by
  have start (peer : Peer ω) : play peer config w [] = .initial config w := rfl
  induction ops using List.reverseRecOn with
  | nil => exact .inl ((start p).trans (start _).symm)
  | append_singleton ops op ih =>
    rw [play_concat, play_concat]
    rcases op.perform_tracks.onward ih with same | forked
    · exact .inl (congrArg Prod.snd same)
    · exact .inr forked

end GraphSession
