import GraphSession.Proofs.Denials

/-!
  What every action of a session accounts for.

  Reading a result, committing its transaction, running a query: each comes to the fault of a report
  that was denied, if one was.  An action that only waits for the end of its stream, or for the
  commit of its transaction, fails after it for no other reason.
-/

namespace GraphSession

variable {ω α β : Type} {peer : Peer ω} {ρ σ τ υ : State (Recorded ω)}

/-! ## Reading -/

section Reading

variable {kind : Sender → Prop} {id : ResultId}

theorem fetchWhile_accounts (h : ρ.Calm kind σ) (hungry : Result → Bool) :
    (fetchWhile peer.recorded id hungry).Accounts kind ρ σ := by
  refine fetchWhile_ends (ρ.Calm kind ·) h (fun τ calm _ => ?_) fun τ calm _ => calm.dealing
  exact fetch_accounts calm

theorem bufferAll_accounts (h : ρ.Calm kind σ) :
    (bufferAll peer.recorded id).Accounts kind ρ σ := fetchWhile_accounts h _

theorem peek_accounts (h : ρ.Calm kind σ) : (peek peer.recorded id).Accounts kind ρ σ := by
  rw [Op.Accounts, peek, Op.ends_bind, Op.ends_checkUsable]
  constructor
  · intro _
    exact (fetchWhile_accounts h _).andThen fun _ _ dealing => dealing
  · intro fault _
    exact h.fails

theorem next_accounts (h : ρ.Calm kind σ) : (next peer.recorded id).Accounts kind ρ σ :=
  (peek_accounts h).andThen fun _ _ dealing => dealing

/-- Reading to the end comes to a fault beside the records, or to none. -/
theorem drain_accounts (h : ρ.Calm kind σ) :
    (drain peer.recorded id).Ends σ fun r τ => ρ.Since (History.Accounts kind r.2) τ := by
  rw [drain, Act.ends_bind, Act.ends_theSession]
  split
  · exact h.fails
  · refine drainFrom_ends (fun _ τ => ρ.Calm kind τ)
      (fun r τ => ρ.Since (History.Accounts kind r.2) τ) h (fun read τ calm _ => ?_)
      fun read τ calm _ => ?_
    · have emptied : ρ.Calm kind (τ.emptied id) := calm
      refine (fetch_accounts emptied).imp (fun more υ fetched => ?_) fun _ _ failed => failed
      cases more with
      | true => exact fetched
      | false =>
        have dealing : ρ.Dealing υ := fetched
        exact dealing.imp fun _ dealing => .well dealing
    · exact calm.dealing.imp fun _ dealing => .well dealing

theorem collect_accounts (h : ρ.Calm kind σ) : (collect peer.recorded id).Accounts kind ρ σ := by
  rw [Op.Accounts, collect, Op.ends_bind, Op.ends_lift]
  refine (drain_accounts h).imp ?_
  rintro ⟨records, fault⟩ τ accounts
  cases fault with
  | some fault => exact accounts
  | none =>
    refine State.Since.imp accounts fun later accounts => ?_
    cases accounts with
    | well dealing => exact dealing

/-- Nobody is meant, because `single` may complain of the number of records. -/
theorem single_accounts (nobody : ∀ unit, ¬ kind unit) (h : ρ.Dealing σ) :
    (single peer.recorded id).Accounts kind ρ σ := by
  have calm {τ : State (Recorded ω)} (dealing : ρ.Dealing τ) : ρ.Calm kind τ := dealing.calm nobody
  have verdict (first second : Option Record) {τ : State (Recorded ω)} (dealing : ρ.Dealing τ) :
      Op.Accounts (do
        discardRest peer.recorded id
        settleOn (onlyRecord first second) : Op (Recorded ω) Record) kind ρ τ := by
    rw [Op.Accounts, Op.ends_bind]
    refine (discardRest_accounts (calm dealing)).imp (fun _ υ discarded => ?_)
      fun _ _ failed => failed
    rw [Op.ends_settleOn]
    exact ⟨fun _ _ => discarded.1, fun fault _ => (calm discarded.1).fails⟩
  rw [single_eq]
  refine (next_accounts (calm h)).andThen fun first τ dealing => ?_
  dsimp only
  split
  · exact (next_accounts (calm dealing)).andThen fun second _ dealing =>
      verdict first second dealing
  · exact verdict first none dealing

/-- A summary is told of a stream that has ended, without fail. -/
theorem summary_accounts (dealing : ρ.Dealing σ)
    (finished : ρ.Calm kind σ ∨ ∃ summary, (σ.session.result id).stream = .finished summary) :
    Op.Accounts (do
      changeResult id ({ · with buffer := [], consumed := true })
      match ((← theSession).result id).stream with
      | .finished summary => return summary
      | .failed reason => throw (.resultFailed reason)
      | _ => throw .noSummary : Op (Recorded ω) Summary) kind ρ σ := by
  rw [Op.Accounts, Op.ends_bind, Op.ends_changeResult, Op.ends_bind, Op.ends_theSession]
  have same : ((σ.session.setResult id
      { σ.session.result id with buffer := [], consumed := true }).result id).stream =
        (σ.session.result id).stream := by
    rw [Session.result_setResult_eq]
    split
    · rfl
    · rfl
  dsimp only
  rw [same]
  split
  · exact dealing
  · next reason failed =>
    rcases finished with calm | ⟨summary, finished⟩
    · exact State.Calm.fails calm
    · rw [finished] at failed
      cases failed
  · next unfinished _ =>
    rcases finished with calm | ⟨summary, finished⟩
    · exact State.Calm.fails calm
    · exact absurd finished (unfinished summary)

/-- After its stream has ended a result is consumed without fail. -/
theorem consume_accounts (h : ρ.Calm kind σ) : (consume peer.recorded id).Accounts kind ρ σ := by
  rw [Op.Accounts, consume, Op.ends_bind, Op.ends_theSession, Op.ends_bind, Op.ends_failIf]
  refine ⟨fun _ => ?_, fun fault _ => h.fails⟩
  split
  · exact h.dealing
  · rw [Op.ends_bind]
    cases streaming : (σ.session.result id).isStreaming with
    | true =>
      refine ((discardRest_accounts h).and (discardRest_finishes streaming)).imp ?_
        fun _ _ failed => failed.1
      rintro _ τ ⟨⟨dealing, -⟩, finished⟩
      exact summary_accounts dealing (.inr finished)
    | false =>
      have quiet : (discardRest peer.recorded id).Ends σ (fun _ τ => τ = σ) fun _ _ => False := by
        rw [Op.Ends, discardRest_quiet streaming]
      refine quiet.imp ?_ fun _ _ never => never.elim
      rintro _ τ rfl
      exact summary_accounts h.dealing (.inl h)

end Reading

/-! ## Transactions -/

section Transactions

variable {kind : Sender → Prop}

/-- Where no results are meant, nobody has finished when a transaction's results have ended. -/
theorem endResult_accounts (others : ∀ r, ¬ kind (.result r)) (h : ρ.Calm kind σ) (id : ResultId) :
    (endResult peer.recorded id).Ends σ (fun _ τ => ρ.Calm kind τ)
      fun fault τ => ρ.Fails kind fault τ := by
  rw [endResult, Op.ends_bind, Op.ends_attempt]
  refine (discardRest_accounts h).imp ?_ ?_
  · intro _ τ discarded
    rw [Op.ends_bind, Op.ends_changeResult, Op.ends_settleOn]
    exact ⟨fun _ _ => discarded.2 (others id), by simp⟩
  · intro fault τ failed
    rw [Op.ends_bind, Op.ends_changeResult, Op.ends_settleOn]
    refine ⟨by simp, fun f e => ?_⟩
    cases e
    exact failed

theorem endResults_accounts (others : ∀ r, ¬ kind (.result r)) (h : ρ.Calm kind σ)
    (ids : List ResultId) :
    (endResults peer.recorded ids).Ends σ (fun _ τ => ρ.Calm kind τ)
      fun fault τ => ρ.Fails kind fault τ := by
  induction ids generalizing σ with
  | nil => exact h
  | cons id rest ih =>
    rw [endResults, Op.ends_bind]
    refine (endResult_accounts others h id).imp ?_ fun _ _ failed => failed
    intro _ τ calm
    exact ih calm

/-- A commit that was acknowledged fails only because its report is denied. -/
theorem commit_accounts (others : ∀ r, ¬ kind (.result r)) (h : ρ.Calm kind σ) (t : TransactionId) :
    (commit peer.recorded t).Accounts kind ρ σ := by
  have aborted (fault : Fault) {τ : State (Recorded ω)} (failed : ρ.Fails kind fault τ) :
      Op.Accounts (do
        setState t .closed
        failAfter (abortUnit peer.recorded) fault : Op (Recorded ω) Unit) kind ρ τ := by
    rw [Op.Accounts, Op.ends_bind, setState, Op.ends_changeTransaction]
    exact State.Fails.failAfter failed clears_clearsUp.abortUnit
  rw [Op.Accounts, commit, Op.ends_bind, Op.ends_theSession, Op.ends_bind, Op.ends_failIf]
  refine ⟨fun _ => ?_, fun fault _ => h.fails⟩
  rw [Op.ends_bind, takeResults, Op.ends_bind, Op.ends_theSession, Op.ends_bind,
    Op.ends_changeTransaction, Op.ends_pure, Op.ends_bind, Op.ends_attempt, Op.ends_bind]
  refine Op.Ends.imp (endResults_accounts others ?_ _) ?_ fun fault _ failed => aborted fault failed
  · exact h
  intro _ τ calm
  refine sendHeld_ends (fun _ => aborted _ calm.fails) (fun c token w => ?_) fun c fault w =>
    aborted fault (calm.failedSend c (.transaction t) .commit fault w).fails
  dsimp only
  have acknowledged : (Happening.asked (.send c (.transaction t) .commit) (.ok token)).IsDealing :=
    rfl
  have dealing : ρ.Dealing (τ.heard (.send c (.transaction t) .commit) (.ok token) w) :=
    calm.dealing.all_andThen (.one acknowledged rfl)
  rw [Op.ends_bind, setState, Op.ends_changeTransaction]
  refine Op.Ends.imp (reportAndEnd_denies _ token) ?_ ?_
  · intro _ υ minor
    exact dealing.all_andThen minor.dealing
  · intro fault υ denied
    have after : ρ.Denies fault υ := State.Denies.after denied dealing
    exact after.fails

theorem settle_accounts (others : ∀ r, ¬ kind (.result r)) (h : ρ.Calm kind σ) (t : TransactionId)
    (outcome : Except Fault α) : (settle peer.recorded t outcome).Accounts kind ρ σ := by
  have tried : Op.Accounts (do
      let a ← settleOn outcome
      commit peer.recorded t
      return a : Op (Recorded ω) α) kind ρ σ := by
    rw [Op.Accounts, Op.ends_bind, Op.ends_settleOn]
    refine ⟨fun a _ => ?_, fun _ _ => h.fails⟩
    exact (commit_accounts others h t).andThen fun _ _ dealing => dealing
  rw [Op.Accounts, settle, Op.ends_bind, Op.ends_attempt]
  refine Op.Ends.imp tried ?_ ?_
  · intro a τ dealing
    exact dealing
  · intro fault τ failed
    exact State.Fails.failAfter failed (clears_clearsUp.closeQuietly t)

/-- Starting a result.  Unless nobody has just finished, a connection must be held, so that the
    query is sent. -/
theorem startResult_accounts
    (h : ρ.Calm kind σ ∨ ρ.Dealing σ ∧ ∃ c, σ.session.connection = some c) (request : RunRequest)
    (origin : Origin) : (startResult peer.recorded request origin).Accounts kind ρ σ := by
  have dealing : ρ.Dealing σ := h.elim State.Calm.dealing And.left
  have aborted (fault : Fault) {τ : State (Recorded ω)} (calm : ρ.Calm kind τ) : Op.Accounts
      (failAfter (abortOrigin peer.recorded origin) fault : Op (Recorded ω) ResultId) kind ρ τ :=
    State.Fails.failAfter calm.fails (clears_clearsUp.abortOrigin origin)
  have asked {c : Connection} {answer : Except Fault RunReply} (w : ω) : ρ.Calm kind
      (σ.heard (.send c (.result σ.session.nextResult) (.run request)) answer w) :=
    dealing.heard w rfl rfl fun unit finished => by cases answer <;> cases finished
  have added (r : Result) {τ : State (Recorded ω)} (calm : ρ.Calm kind τ) : Op.Accounts (do
      let id ← addResult r
      let _ ← fetch peer.recorded id
      return id : Op (Recorded ω) ResultId) kind ρ τ := by
    rw [Op.Accounts, Op.ends_bind, Op.ends_addResult, Op.ends_bind]
    refine Op.Ends.imp (fetch_accounts ?_) ?_ fun _ _ failed => failed
    · exact calm
    · intro more υ fetched
      cases more with
      | true => exact State.Calm.dealing fetched
      | false => exact fetched
  rw [Op.Accounts, startResult, Op.ends_bind, Op.ends_theSession, Op.ends_bind, Op.ends_attempt]
  refine sendHeld_ends (fun unheld => ?_) (fun c reply w => ?_) fun c fault w =>
    aborted fault (asked w)
  · rcases h with calm | ⟨-, c, held⟩
    · exact aborted _ calm
    · rw [held] at unheld
      cases unheld
  · dsimp only
    split
    · rw [Op.ends_bind, Op.ends_lift]
      refine ((clearsUp_minor.pinDatabase reply.database).ends _).imp ?_
      intro _ τ pinned
      exact added _ ((asked w).andThen pinned.calm)
    · exact added _ (asked w)

/-- A query in a transaction: nobody is meant, because the result before it is read first. -/
theorem runIn_accounts (nobody : ∀ unit, ¬ kind unit) (h : ρ.Dealing σ) (t : TransactionId)
    (source : QuerySource) (params : Option Params) :
    (runIn peer.recorded t source params).Accounts kind ρ σ := by
  have started (request : RunRequest) {τ : State (Recorded ω)} (dealing : ρ.Dealing τ) :
      Op.Accounts (do
        let result ← startResult peer.recorded request (.transaction t)
        changeTransaction t fun t => { t with results := t.results ++ [result] }
        return result : Op (Recorded ω) ResultId) kind ρ τ :=
    (startResult_accounts (.inl (dealing.calm nobody)) request _).andThen fun _ _ dealing => dealing
  rw [Op.Accounts, runIn, Op.ends_bind, Op.ends_settleOn]
  refine ⟨fun query _ => ?_, fun _ _ => (h.calm nobody).fails⟩
  rw [Op.ends_bind, Op.ends_theSession, Op.ends_bind, Op.ends_failIf]
  refine ⟨fun _ => ?_, fun _ _ => (h.calm nobody).fails⟩
  dsimp only
  split
  · exact (h.calm nobody).fails
  · split
    · exact (bufferAll_accounts (h.calm nobody)).andThen fun _ _ dealing => started _ dealing
    · exact started _ h

def Sender.IsResult : Sender → Prop
  | result _ => True
  | _ => False

def Sender.IsTransaction : Sender → Prop
  | transaction _ => True
  | _ => False

/-- Whose last answer decides of an access, which then fails only because of a report. -/
def Access.awaits : Access → Sender → Prop
  | .commit _ => Sender.IsTransaction
  | .next _ | .peek _ | .collect _ | .drain _ | .consume _ => Sender.IsResult
  | .run .. | .rollback _ | .close _ | .drop _ | .viewTransaction _ | .single _ | .viewResult _ =>
    fun _ => False

/-- Every use of a handle accounts for its outcome. -/
theorem Access.perform_accounts (a : Access) (h : ρ.Calm a.awaits σ) :
    (a.perform peer.recorded).Ends σ
      (fun r τ => ρ.Since (History.Accounts a.awaits (a.fault? (.ok r))) τ)
      fun fault τ => ρ.Fails a.awaits fault τ := by
  have well {kind : Sender → Prop} {τ : State (Recorded ω)} (dealing : ρ.Dealing τ) :
      ρ.Since (History.Accounts kind none) τ := dealing.imp fun _ dealing => .well dealing
  have plainly {α : Type} {kind : Sender → Prop} {x : Op (Recorded ω) α}
      (accounts : x.Accounts kind ρ σ) :
      x.Ends σ (fun _ τ => ρ.Since (History.Accounts kind none) τ)
        fun fault τ => ρ.Fails kind fault τ :=
    Op.Ends.imp accounts (fun _ _ dealing => well dealing) fun _ _ failed => failed
  have held {α : Type} {kind : Sender → Prop} {t : TransactionId} {allowed : Holder → Bool}
      {x : Op (Recorded ω) α} (calm : ρ.Calm kind σ) (accounts : x.Accounts kind ρ σ) :
      Op.Accounts (do
        checkHolder t allowed
        x : Op (Recorded ω) α) kind ρ σ := by
    rw [Op.Accounts, Op.ends_bind, checkHolder, Op.ends_bind, Op.ends_theSession]
    split
    · exact calm.fails
    · exact accounts
  cases a with
  | run t source params =>
    exact plainly (held h (runIn_accounts (fun _ never => never) h.dealing t source params))
  | commit t => exact plainly (held h (commit_accounts (fun _ never => never) h t))
  | rollback t => exact plainly (held h ((clearsUp_minor.rollback t).accounts h))
  | close t => exact plainly (held h ((clearsUp_minor.closeTransaction t).accounts h))
  | drop t => exact plainly (Op.Obeys.accounts (.lift (clearsUp_minor.dropHandle t)) h)
  | viewTransaction t => exact well h.dealing
  | next r => exact plainly (next_accounts h)
  | peek r => exact plainly (peek_accounts h)
  | single r => exact plainly (single_accounts (fun _ never => never) h.dealing)
  | collect r => exact plainly (collect_accounts h)
  | drain r => exact (drain_accounts h).imp fun r τ accounts => accounts
  | consume r => exact plainly (consume_accounts h)
  | viewResult r => exact well h.dealing

end Transactions

/-! ## Sessions -/

section Sessions

variable {kind : Sender → Prop}

theorem bufferAutoResult_accounts (h : ρ.Calm kind σ) :
    (bufferAutoResult peer.recorded).Accounts kind ρ σ := by
  rw [Op.Accounts, bufferAutoResult, Op.ends_bind, Op.ends_theSession]
  cases σ.session.autoResult with
  | none => exact h.dealing
  | some id =>
    dsimp only
    rw [Op.ends_bind, Op.ends_changeSession]
    exact bufferAll_accounts h

theorem lastBookmarks_accounts (h : ρ.Calm kind σ) :
    (lastBookmarks peer.recorded).Accounts kind ρ σ := by
  rw [Op.Accounts, lastBookmarks, Op.ends_bind, Op.ends_theSession]
  dsimp only
  cases σ.session.autoResult with
  | none => exact h.dealing
  | some id => exact (bufferAll_accounts h).andThen fun _ _ dealing => dealing

theorem lastBookmark_accounts (h : ρ.Calm kind σ) :
    (lastBookmark peer.recorded).Accounts kind ρ σ := by
  rw [Op.Accounts, lastBookmark, Op.ends_bind, Op.ends_lift]
  refine ((clearsUp_minor.note .lastBookmarkDeprecated).ends σ).imp ?_
  intro _ τ noted
  exact (lastBookmarks_accounts (h.andThen noted.calm)).andThen fun _ _ dealing => dealing

/-- A request for an opening does not trail behind anything. -/
theorem Happening.Fails.leads {e : Happening} {fault : Fault} (h : e.Fails Request.Opens fault) :
    e.isTrailing = false := by
  cases e with
  | asked request answer =>
    cases request with
    | getBookmarks | findHome | acquire => rfl
    | send c sender m => cases m <;> first | rfl | cases h.1
    | _ => cases h.1
  | used | returned => cases h

/-- A request for an opening has failed. -/
theorem State.Minor.leading_of_failedBy {fault : Fault} (minor : σ.Minor τ)
    (failed : σ.Since (History.FailedBy Request.Opens fault) τ) : σ.Leading τ := by
  refine (minor.and failed).imp fun later h => ⟨h.1, ?_⟩
  obtain ⟨-, cleanup, e, before, rfl, fails, -⟩ := h
  exact ⟨e, by simp, fails.leads⟩

/-- Bookmarks and a connection for new work: when they are not to be had, nobody has just
    finished. -/
theorem prepared_accounts (h : ρ.Dealing σ) (mode : AccessMode) (api : ApiKind) (o : Overrides) :
    Op.Ends (do
      let database ← connect peer.recorded mode api o
      let bookmarks ← bookmarksForWork peer.recorded
      return (database, bookmarks) : Op (Recorded ω) (Option String × Bookmarks)) σ
      (fun _ τ => ρ.Dealing τ ∧ ∃ c, τ.session.connection = some c)
      fun _ τ => ρ.Calm kind τ := by
  have fetches : Op.Obeys (State.Minor (ω := ω)) (do
      let database ← connect peer.recorded mode api o
      let bookmarks ← bookmarksForWork peer.recorded
      return (database, bookmarks) : Op (Recorded ω) (Option String × Bookmarks)) :=
    .bind (fetching_minor.connect mode api o) fun _ =>
      .bind fetching_minor.bookmarksForWork fun _ => .pure _
  refine ((fetches.ends σ).and (prepared_failsBy mode api o σ)).imp ?_ ?_
  · rintro _ τ ⟨minor, -, held⟩
    exact ⟨h.all_andThen minor.dealing, held⟩
  · rintro fault τ ⟨minor, failed⟩
    exact h.calm_of_leading (minor.leading_of_failedBy failed)

/-- A query by itself, whose result may be over with the first batch. -/
theorem run_accounts (h : ρ.Calm kind σ) (source : QuerySource) (params : Option Params) :
    (run peer.recorded source params).Accounts kind ρ σ := by
  have ended (fault : Fault) {τ : State (Recorded ω)} (failed : ρ.Fails kind fault τ) :
      Op.Accounts (failAfter (endUnit peer.recorded) fault : Op (Recorded ω) ResultId) kind ρ τ :=
    State.Fails.failAfter failed clears_clearsUp.endUnit
  rw [Op.Accounts, run, Op.ends_bind, Op.ends_settleOn]
  refine ⟨fun query _ => ?_, fun _ _ => h.fails⟩
  refine checkOpen_obeys.calmThen h fun _ τ calm =>
    clearsUp_minor.reapTransaction.calmThen calm fun _ υ calm => ?_
  dsimp only
  rw [Op.Accounts, Op.ends_bind, Op.ends_settleOn]
  refine ⟨fun o _ => ?_, fun _ _ => calm.fails⟩
  rw [Op.ends_bind, Op.ends_theSession, Op.ends_bind, beginUnit, Op.ends_changeSession,
    Op.ends_bind, Op.ends_attempt, Op.ends_bind]
  refine Op.Ends.imp (bufferAutoResult_accounts calm) (fun _ φ dealing => ?_) fun fault _ failed =>
    ended fault failed
  refine (prepared_accounts dealing _ _ o).imp ?_ fun fault _ calm => ended fault calm.fails
  rintro ⟨database, bookmarks⟩ χ ⟨dealing, held⟩
  exact (startResult_accounts (.inr ⟨dealing, held⟩) _ _).andThen fun _ _ dealing => dealing

/-- Opening a transaction finishes nobody. -/
theorem openTransaction_minor (mode : AccessMode) (api : ApiKind) (config : TransactionConfig)
    (holder : Holder) :
    (openTransaction peer.recorded mode api config holder).Obeys (State.Minor (ω := ω)) := by
  have begun (t : TransactionId) (request : WorkRequest) :
      (beginHeld peer.recorded t request).Obeys (State.Minor (ω := ω)) := by
    refine .bind .theSession fun s => ?_
    split
    · exact .throw _
    · exact ask_only fun answer => ⟨rfl, by cases answer <;> rfl⟩
  have clearsUp : ClearsUp peer.recorded (State.Minor (ω := ω)) := clearsUp_minor
  refine .bind clearsUp.beginUnit fun _ => .bind (.attempt ?_) fun prepared => ?_
  · exact .bind (fetching_minor.connect mode api {}) fun _ =>
      .bind fetching_minor.bookmarksForWork fun _ => .pure _
  · split
    · exact .failAfter clearsUp_minor.endUnit _
    · refine .bind .theSession fun s => .bind (.attempt (begun _ _)) fun begun => ?_
      split
      · exact .failAfter clearsUp_minor.abortUnit _
      · exact .bind (.lift (clearsUp_minor.pinDatabase _)) fun _ => .bind .theSession fun s =>
          .bind (fun _ => .nothing (by simp) rfl) fun _ => .pure _

theorem beginTransaction_minor (config : TransactionConfig) :
    (beginTransaction peer.recorded config).Obeys (State.Minor (ω := ω)) := by
  have clearsUp : ClearsUp peer.recorded (State.Minor (ω := ω)) := clearsUp_minor
  have begun (s : Session) : Op.Obeys (State.Minor (ω := ω)) (do
      let id ← openTransaction peer.recorded s.config.defaultMode .explicitTransaction config
        .caller
      changeSession ({ · with current := some id })
      return id : Op (Recorded ω) TransactionId) :=
    .bind (openTransaction_minor _ _ _ _) fun _ =>
      .bind (clearsUp.changeOp fun _ => .same rfl rfl rfl) fun _ => .pure _
  refine .bind checkOpen_obeys fun _ => .bind clearsUp_minor.reapTransaction fun _ =>
    .bind .theSession fun s => ?_
  dsimp only
  split
  · exact .bind (.throw _) fun _ => begun s
  · exact begun s

theorem prepareExecute_accounts (h : ρ.Calm kind σ) :
    (prepareExecute peer.recorded).Accounts kind ρ σ :=
  checkOpen_obeys.calmThen h fun _ _ calm => clearsUp_minor.reapTransaction.calmThen calm
    fun _ _ calm => bufferAutoResult_accounts calm

end Sessions

end GraphSession
