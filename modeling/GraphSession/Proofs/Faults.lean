import GraphSession.Proofs.ClearingUp
import GraphSession.Proofs.Lifecycle
import GraphSession.Proofs.Quiescence

/-!
  Where the fault of an attempt comes from.

  An attempt makes many requests, and after the first one that fails it clears up, which may fail
  again.  `History.FailedBy` tells the request whose fault counts: nothing had failed before it, and
  nothing but clearing up came after it.  An action that `FailsBy` requests of one kind fails only
  with such a fault, never with that of a rollback or a reset.  It is so for opening a transaction
  and for committing one; the code in between fails as it pleases.
-/

namespace GraphSession

variable {ω α β : Type} {peer : Peer ω} {σ τ υ : State (Recorded ω)}

/-! ## The request that failed -/

/-- A request of this kind failed with this fault. -/
def Happening.Fails (kind : Request → Prop) (fault : Fault) : Happening → Prop
  | asked request answer => kind request ∧ request.fault? answer = some fault
  | _ => False

/-- Something that is done to clear up. -/
def Happening.IsCleanup : Happening → Prop
  | asked request _ => request.ClearsUp
  | _ => False

/-- Nothing failed. -/
abbrev State.Smooth (σ τ : State (Recorded ω)) : Prop := σ.Only (·.fault? = none) τ

/-- Nothing was done but clearing up. -/
abbrev State.Clears (σ τ : State (Recorded ω)) : Prop := σ.Only Happening.IsCleanup τ

/-- The first request that failed is of this kind, and it failed with this fault; then there was
    nothing but clearing up. -/
def History.FailedBy (kind : Request → Prop) (fault : Fault) (h : History) : Prop :=
  ∃ (cleanup : History) (e : Happening) (before : History), h = cleanup ++ e :: before ∧
    e.Fails kind fault ∧ (∀ e ∈ before, e.fault? = none) ∧ ∀ e ∈ cleanup, e.IsCleanup

namespace State.Since

variable {kind : Request → Prop} {fault : Fault}

theorem failedBy {request : Request} {answer : request.Answer} (h : kind request)
    (failed : request.fault? answer = some fault)
    (history : τ.history = .asked request answer :: σ.history) :
    σ.Since (History.FailedBy kind fault) τ :=
  ⟨[.asked request answer], history, [], _, [], rfl, ⟨h, failed⟩, by simp, by simp⟩

/-- Something went well before. -/
theorem failedBy_after (smooth : σ.Smooth τ) (h : τ.Since (History.FailedBy kind fault) υ) :
    σ.Since (History.FailedBy kind fault) υ := by
  refine smooth.andThen h fun l l' smooth failed => ?_
  obtain ⟨cleanup, e, before, rfl, fails, well, cleared⟩ := failed
  refine ⟨cleanup, e, before ++ l, by simp, fails, fun e he => ?_, cleared⟩
  exact (List.mem_append.mp he).elim (well e) (smooth e)

/-- And then it was cleared up. -/
theorem failedBy_before (h : σ.Since (History.FailedBy kind fault) τ) (clears : τ.Clears υ) :
    σ.Since (History.FailedBy kind fault) υ := by
  refine h.andThen clears fun l l' failed clears => ?_
  obtain ⟨cleanup, e, before, rfl, fails, well, cleared⟩ := failed
  refine ⟨l' ++ cleanup, e, before, by simp, fails, well, fun e he => ?_⟩
  exact (List.mem_append.mp he).elim (clears e) (cleared e)

end State.Since

/-- The action fails only when a request of this kind does, and with the fault of that. -/
def Op.FailsBy (kind : Request → Prop) (op : Op (Recorded ω) α) (σ : State (Recorded ω)) : Prop :=
  op.Ends σ (fun _ τ => σ.Smooth τ) fun fault τ => σ.Since (History.FailedBy kind fault) τ

section Rules

variable {kind : Request → Prop}

theorem smooth_endsUnits : EndsUnits peer.recorded (State.Smooth (ω := ω)) :=
  endsUnits_only fun request _ endsUnits => by cases request <;> first | rfl | cases endsUnits

theorem clears_clearsUp : ClearsUp peer.recorded (State.Clears (ω := ω)) :=
  clearsUp_only fun _ _ clearing => clearing

namespace Op.FailsBy

theorem rest {op : Op (Recorded ω) α} {a : α} (e : op.exec σ = (.ok a, σ)) :
    op.FailsBy kind σ := by
  unfold FailsBy Op.Ends
  rw [e]
  exact .nothing (by simp) rfl

theorem pure (a : α) : Op.FailsBy kind (Pure.pure a) σ := rest rfl

theorem theSession : Op.FailsBy kind (GraphSession.theSession : Op (Recorded ω) Session) σ :=
  rest rfl

theorem changeSession (f : Session → Session) :
    Op.FailsBy kind (GraphSession.changeSession f : Op (Recorded ω) Unit) σ :=
  Op.ends_changeSession.mpr (.nothing (by simp) rfl)

/-- An action that cannot fail, and during which nothing does. -/
theorem lift {x : Act (Recorded ω) α} (h : x.Obeys (State.Smooth (ω := ω))) :
    Op.FailsBy kind (liftM x : Op (Recorded ω) α) σ := Op.ends_lift.mpr (h σ)

/-- What follows on a state that was reached without a failure. -/
theorem after {op : Op (Recorded ω) α} (h : op.FailsBy kind τ) (smooth : σ.Smooth τ) :
    op.Ends τ (fun _ υ => σ.Smooth υ) fun fault υ => σ.Since (History.FailedBy kind fault) υ := by
  refine Op.Ends.imp h ?_ ?_
  · intro _ υ here
    exact smooth.all_andThen here
  · intro fault υ here
    exact .failedBy_after smooth here

theorem bind {x : Op (Recorded ω) β} {f : β → Op (Recorded ω) α} (hx : x.FailsBy kind σ)
    (hf : ∀ b τ, x.exec σ = (.ok b, τ) → (f b).FailsBy kind τ) : (x >>= f).FailsBy kind σ := by
  have next : x.Ends σ (fun b τ => (f b).FailsBy kind τ) fun _ _ => True :=
    Op.ends_of_exec_eq hf fun _ _ _ => trivial
  rw [FailsBy, Op.ends_bind]
  refine (Op.Ends.and hx next).imp ?_ ?_
  · intro b τ h
    exact h.2.after h.1
  · intro fault τ h
    exact h.1

/-- A failure is cleared up. -/
theorem failAfter {act : Act (Recorded ω) Unit} {fault : Fault}
    (failed : σ.Since (History.FailedBy kind fault) τ)
    (clears : act.Obeys (State.Clears (ω := ω))) {good : α → State (Recorded ω) → Prop} :
    Op.Ends (GraphSession.failAfter act fault : Op (Recorded ω) α) τ good
      fun fault υ => σ.Since (History.FailedBy kind fault) υ := by
  rw [Op.ends_failAfter]
  refine (clears.ends τ).imp ?_
  intro _ υ h
  exact failed.failedBy_before h

/-! ### Requests -/

theorem askBookmarks (here : kind .getBookmarks) :
    (GraphSession.askBookmarks peer.recorded).FailsBy kind σ :=
  Op.ends_askBookmarks (fun _ _ => .one rfl rfl) fun _ _ => .failedBy here rfl rfl

theorem askHomes {request : RoutingRequest} (here : kind (.findHome request)) :
    (GraphSession.askHomes peer.recorded request).FailsBy kind σ :=
  Op.ends_askHomes (fun _ _ => .one rfl rfl) fun _ _ => .failedBy here rfl rfl

theorem borrow {request : AcquireRequest} (here : kind (.acquire request)) :
    (GraphSession.borrow peer.recorded request).FailsBy kind σ :=
  Op.ends_borrow (fun _ _ => .one rfl rfl) fun _ _ => .failedBy here rfl rfl

theorem reportBookmarks {previous new : Bookmarks} (here : kind (.updateBookmarks previous new)) :
    (GraphSession.reportBookmarks peer.recorded previous new).FailsBy kind σ :=
  Op.ends_reportBookmarks (fun _ => .one rfl rfl) fun _ _ => .failedBy here rfl rfl

theorem send {c : Connection} {sender : Sender} {m : Message} (here : kind (.send c sender m)) :
    (GraphSession.send peer.recorded c sender m).FailsBy kind σ :=
  Op.ends_send (fun _ _ => .one rfl rfl) fun _ _ => .failedBy here rfl rfl

/-- A message on the session's connection, when it holds one. -/
theorem sendHeld {c : Connection} {sender : Sender} {m : Message}
    (held : σ.session.connection = some c) (here : kind (.send c sender m)) :
    (GraphSession.sendHeld peer.recorded sender m).FailsBy kind σ :=
  Op.ends_sendHeld held (fun _ _ => .one rfl rfl) fun _ _ => .failedBy here rfl rfl

end Op.FailsBy

end Rules

/-! ## Opening a transaction -/

/-- What is asked for to open a transaction. -/
def Request.Opens : Request → Prop
  | getBookmarks | findHome _ | acquire _ | send _ _ (.telemetry _) | send _ _ (.begin _) => True
  | _ => False

theorem bookmarksForWork_failsBy (σ : State (Recorded ω)) :
    (bookmarksForWork peer.recorded).FailsBy Request.Opens σ := by
  refine .bind .theSession fun s τ _ => ?_
  split
  · exact .bind (.askBookmarks trivial) fun _ _ _ => .pure _
  · exact .pure _

theorem findHome_failsBy (o : Overrides) (σ : State (Recorded ω)) :
    (findHome peer.recorded o).FailsBy Request.Opens σ := by
  refine .bind .theSession fun s τ _ => .bind (bookmarksForWork_failsBy τ) fun b υ _ => ?_
  exact .bind (.askHomes trivial) fun _ _ _ => .pure _

theorem resolveDatabase_failsBy (o : Overrides) (σ : State (Recorded ω)) :
    (resolveDatabase peer.recorded o).FailsBy Request.Opens σ := by
  have noted (home : Option String) (σ : State (Recorded ω)) : Op.FailsBy Request.Opens (do
      note peer.recorded (.homeResolved home)
      return home : Op (Recorded ω) (Option String)) σ :=
    .bind (.lift (smooth_endsUnits.note _)) fun _ _ _ => .pure _
  refine .bind .theSession fun s τ _ => ?_
  split
  · exact .pure _
  · exact .pure _
  · dsimp only
    split
    · exact .pure _
    · refine .bind (findHome_failsBy o τ) fun home υ _ => .bind .theSession fun s φ _ => ?_
      split
      · exact .bind (.changeSession _) fun _ φ _ => noted home φ
      · exact noted home φ

theorem acquire_failsBy (mode : AccessMode) (database user : Option String)
    (api : Option ApiKind) (σ : State (Recorded ω)) :
    (acquire peer.recorded mode database user api).FailsBy Request.Opens σ := by
  have noted (c : Connection) (σ : State (Recorded ω)) : Op.FailsBy Request.Opens (do
      note peer.recorded (.connectionAcquired mode api)
      return c : Op (Recorded ω) Connection) σ :=
    .bind (.lift (smooth_endsUnits.note _)) fun _ _ _ => .pure _
  refine .bind .theSession fun s τ _ => .bind (bookmarksForWork_failsBy τ) fun b υ _ => ?_
  refine .bind (.borrow trivial) fun c φ _ => ?_
  split
  · next kind =>
    split
    · have told : (send peer.recorded c .session (.telemetry kind)).FailsBy Request.Opens φ :=
        .send trivial
      rw [Op.FailsBy, Op.ends_bind, Op.ends_attempt]
      refine Op.Ends.imp told ?_ ?_
      · intro _ χ smooth
        exact (noted c χ).after smooth
      · -- a connection on which telemetry failed goes back
        intro fault χ failed
        dsimp only
        rw [Op.ends_bind, Op.ends_lift]
        refine ((clears_clearsUp.giveBack c).ends χ).imp ?_
        intro _ υ cleared
        exact Op.ends_bind.mpr (Op.ends_throw.mpr (failed.failedBy_before cleared))
    · exact noted c φ
  · exact noted c φ

theorem connect_failsBy (mode : AccessMode) (api : ApiKind) (o : Overrides)
    (σ : State (Recorded ω)) :
    (connect peer.recorded mode api o).FailsBy Request.Opens σ := by
  refine .bind .theSession fun s τ _ => ?_
  split
  · exact .pure _
  · exact .bind (resolveDatabase_failsBy o _) fun _ _ _ =>
      .bind (acquire_failsBy _ _ _ _ _) fun _ _ _ =>
        .bind (.changeSession _) fun _ _ _ => .pure _

/-- Whoever has connected holds a connection. -/
theorem connect_holds (mode : AccessMode) (api : ApiKind) (o : Overrides) :
    (connect peer.recorded mode api o).Ends σ
      (fun _ τ => ∃ c, τ.session.connection = some c) fun _ _ => True := by
  rw [connect, Op.ends_bind, Op.ends_theSession]
  cases held : σ.session.connection with
  | some c =>
    rw [if_pos (by rw [Session.hasConnection, held]; rfl)]
    exact ⟨c, held⟩
  | none =>
    rw [if_neg (by rw [Session.hasConnection, held]; simp), Op.ends_bind]
    refine (Op.ends_trivial _ σ).imp (fun database τ _ => ?_) fun _ _ _ => trivial
    rw [Op.ends_bind]
    refine (Op.ends_trivial _ τ).imp (fun c υ _ => ?_) fun _ _ _ => trivial
    rw [Op.ends_bind, Op.ends_changeSession]
    exact ⟨c, rfl⟩

/-- All that precedes a begin: it fails as a request for an opening does, and then a connection is
    held. -/
theorem prepared_failsBy (mode : AccessMode) (api : ApiKind) (o : Overrides)
    (σ : State (Recorded ω)) :
    Op.Ends (do
      let database ← connect peer.recorded mode api o
      let bookmarks ← bookmarksForWork peer.recorded
      return (database, bookmarks) : Op (Recorded ω) (Option String × Bookmarks)) σ
      (fun _ τ => σ.Smooth τ ∧ ∃ c, τ.session.connection = some c)
      fun fault τ => σ.Since (History.FailedBy Request.Opens fault) τ := by
  rw [Op.ends_bind]
  have connects : (connect peer.recorded mode api o).FailsBy Request.Opens σ :=
    connect_failsBy mode api o σ
  refine (Op.Ends.and connects (connect_holds mode api o)).imp ?_ fun _ _ h => h.1
  intro database τ h
  obtain ⟨smooth, c, held⟩ := h
  rw [Op.ends_bind]
  have fetches : (bookmarksForWork peer.recorded).FailsBy Request.Opens τ :=
    bookmarksForWork_failsBy τ
  refine (Op.Ends.and fetches bookmarksForWork_fetch).imp ?_ fun _ _ h =>
    .failedBy_after smooth h.1
  intro bookmarks υ h
  obtain ⟨smooth', same, -⟩ := h
  exact ⟨smooth.all_andThen smooth', c, same ▸ held⟩

/-- The transaction was opened, and nothing failed. -/
def State.Opened (t : TransactionId) (σ τ : State (Recorded ω)) : Prop :=
  σ.Since (fun later => (∀ e ∈ later, e.fault? = none) ∧ ∃ e ∈ later, e.begun? = some t) τ

theorem State.Opened.after {t : TransactionId} (h : State.Opened t τ υ) (smooth : σ.Smooth τ) :
    State.Opened t σ υ := by
  refine State.Since.andThen smooth h fun l l' well opened => ?_
  obtain ⟨well', e, he, begun⟩ := opened
  refine ⟨fun e he => ?_, e, List.mem_append_left l he, begun⟩
  exact (List.mem_append.mp he).elim (well' e) (well e)

theorem State.Opened.before {t : TransactionId} (h : State.Opened t σ τ) (smooth : τ.Smooth υ) :
    State.Opened t σ υ := by
  refine State.Since.andThen h smooth fun l l' opened well => ?_
  obtain ⟨well', e, he, begun⟩ := opened
  refine ⟨fun e he => ?_, e, List.mem_append_right l' he, begun⟩
  exact (List.mem_append.mp he).elim (well e) (well' e)

theorem beginHeld_opens {c : Connection} (held : σ.session.connection = some c)
    (t : TransactionId) (request : WorkRequest) :
    (beginHeld peer.recorded t request).Ends σ
      (fun _ τ => State.Opened t σ τ ∧ τ.session = σ.session)
      fun fault τ => σ.Since (History.FailedBy Request.Opens fault) τ := by
  refine Op.ends_sendHeld held (fun named w => ⟨⟨[_], rfl, ?_, _, List.mem_cons_self, rfl⟩, rfl⟩)
    fun fault w => ?_
  · intro e he
    rw [List.mem_singleton.mp he]
    rfl
  · have opens : Request.Opens (.send c (.transaction t) (.begin request)) := trivial
    exact .failedBy opens rfl rfl

/-- A transaction that cannot be opened fails as one of the requests for its opening did. -/
theorem openTransaction_opens (mode : AccessMode) (api : ApiKind) (config : TransactionConfig)
    (holder : Holder) (σ : State (Recorded ω)) :
    (openTransaction peer.recorded mode api config holder).Ends σ
      (fun t τ => State.Opened t σ τ)
      fun fault τ => σ.Since (History.FailedBy Request.Opens fault) τ := by
  rw [openTransaction, Op.ends_bind, beginUnit, Op.ends_changeSession, Op.ends_bind,
    Op.ends_attempt]
  refine (prepared_failsBy mode api {} _).imp ?_ ?_
  · rintro ⟨database, bookmarks⟩ τ ⟨smooth, c, held⟩
    dsimp only
    rw [Op.ends_bind, Op.ends_theSession, Op.ends_bind, Op.ends_attempt]
    refine (beginHeld_opens held _ _).imp ?_ ?_
    · rintro named υ ⟨opened, same⟩
      have opened : State.Opened τ.session.nextTransaction σ υ := opened.after smooth
      rw [Op.ends_bind, Op.ends_lift]
      -- the number that the begin was sent for is still the next one
      have counted : (pinDatabase peer.recorded named).Ends υ
          fun _ φ => φ.session.nextTransaction = υ.session.nextTransaction :=
        pinDatabase_ends fun _ _ _ _ => rfl
      refine (((smooth_endsUnits.pinDatabase named).ends υ).and counted).imp ?_
      rintro _ φ ⟨noted, number⟩
      rw [Op.ends_addTransaction, number, same]
      exact opened.before noted
    · intro fault υ failed
      exact Op.FailsBy.failAfter (.failedBy_after smooth failed) clears_clearsUp.abortUnit
  · intro fault τ failed
    exact Op.FailsBy.failAfter failed clears_clearsUp.endUnit

/-! ## Committing a transaction -/

/-- What is asked for to commit a transaction: what is left of its results is dropped, and its
    bookmark is reported. -/
def Request.Commits : Request → Prop
  | send _ _ .discard | send _ _ .commit | updateBookmarks .. => True
  | _ => False

theorem takeBookmark?_failsBy (sent : Bookmarks) (token : Option String) (σ : State (Recorded ω)) :
    (takeBookmark? peer.recorded sent token).FailsBy Request.Commits σ := by
  cases token with
  | none => exact .pure ()
  | some token =>
    refine .bind (.changeSession _) fun _ τ _ => .bind .theSession fun s υ _ => ?_
    split
    · exact .reportBookmarks trivial
    · exact .pure ()

theorem reportAndEnd_failsBy (sent : Bookmarks) (token : Option String) (σ : State (Recorded ω)) :
    (reportAndEnd peer.recorded sent token).FailsBy Request.Commits σ := by
  refine Op.ends_attemptThen.mpr (Op.Ends.imp (takeBookmark?_failsBy sent token σ) ?_ ?_)
  · intro _ τ smooth
    refine (smooth_endsUnits.endUnit.ends τ).imp ?_
    intro _ υ smooth'
    exact smooth.all_andThen smooth'
  · intro fault τ failed
    refine (clears_clearsUp.endUnit.ends τ).imp ?_
    intro _ υ cleared
    exact failed.failedBy_before cleared

theorem completeOrigin_failsBy (summary : Summary) (origin : Origin) (σ : State (Recorded ω)) :
    (completeOrigin peer.recorded summary origin).FailsBy Request.Commits σ := by
  cases origin with
  | transaction id => exact .pure ()
  | autoCommit sent pins =>
    have reported (σ : State (Recorded ω)) :
        (reportAndEnd peer.recorded sent summary.bookmark).FailsBy Request.Commits σ :=
      reportAndEnd_failsBy sent summary.bookmark σ
    rw [completeOrigin]
    split
    · exact .bind (.lift (smooth_endsUnits.pinDatabase _)) fun _ τ _ => reported τ
    · exact reported σ

theorem finishStream_failsBy (id : ResultId) (metadata : Metadata) (σ : State (Recorded ω)) :
    (finishStream peer.recorded id metadata).FailsBy Request.Commits σ :=
  .bind .theSession fun _ _ _ => .bind (.changeSession _) fun _ τ _ =>
    completeOrigin_failsBy _ _ τ

/-- Dropping what is left of a result, on the connection that is held. -/
theorem discardRest_failsBy {c : Connection} (held : σ.session.connection = some c)
    (id : ResultId) : (discardRest peer.recorded id).FailsBy Request.Commits σ := by
  rw [discardRest, Op.FailsBy, Op.ends_bind, Op.ends_theSession]
  split
  · have discards : (discardHeld peer.recorded id).FailsBy Request.Commits σ :=
      .sendHeld held trivial
    rw [Op.ends_bind, Op.ends_attempt]
    refine Op.Ends.imp discards ?_ ?_
    · intro metadata τ smooth
      exact (finishStream_failsBy id metadata τ).after smooth
    · intro fault τ failed
      exact Op.FailsBy.failAfter failed (clears_clearsUp.failStream id fault)
  · exact Op.FailsBy.pure ()

theorem endResult_failsBy {c : Connection} (held : σ.session.connection = some c)
    (id : ResultId) : (endResult peer.recorded id).FailsBy Request.Commits σ := by
  rw [endResult, Op.FailsBy, Op.ends_bind, Op.ends_attempt]
  refine Op.Ends.imp (discardRest_failsBy held id) ?_ ?_
  · intro _ τ smooth
    rw [Op.ends_bind, Op.ends_changeResult, Op.ends_settleOn]
    exact ⟨fun _ _ => smooth, by simp⟩
  · intro fault τ failed
    rw [Op.ends_bind, Op.ends_changeResult, Op.ends_settleOn]
    refine ⟨by simp, fun f e => ?_⟩
    cases e
    exact failed

/-- The results of a transaction that is live end one after the other. -/
theorem endResults_failsBy {p : TransactionId × Transaction} {s : Option ResultId}
    (h : σ.Live 0 (some p) s) (ids : List ResultId) :
    (endResults peer.recorded ids).FailsBy Request.Commits σ := by
  induction ids generalizing σ s with
  | nil => exact .pure ()
  | cons id rest ih =>
    have live := h
    obtain ⟨-, c, d, -, line⟩ := h
    have ended : (endResult peer.recorded id).Ends σ (fun _ τ => ∃ s, τ.Live 0 (some p) s)
        fun _ _ => True :=
      (endResult_stands live).imp (fun _ _ h => ⟨_, h⟩) fun _ _ _ => trivial
    have fails : (endResult peer.recorded id).FailsBy Request.Commits σ :=
      endResult_failsBy line.slot id
    rw [endResults, Op.FailsBy, Op.ends_bind]
    refine (Op.Ends.and fails ended).imp ?_ fun _ _ h => h.1
    rintro _ τ ⟨smooth, s', live⟩
    exact (ih live).after smooth

/-- All that is sent for the commit of a transaction that is live. -/
theorem commitSent_failsBy {t : TransactionId} {v : Transaction} {s : Option ResultId}
    (h : σ.Live 0 (some (t, v)) s) {ids : List ResultId} (covered : ∀ r, s = some r → r ∈ ids) :
    Op.FailsBy Request.Commits (do
      endResults peer.recorded ids
      commitHeld peer.recorded t : Op (Recorded ω) (Option String)) σ := by
  rw [Op.FailsBy, Op.ends_bind]
  have fails : (endResults peer.recorded ids).FailsBy Request.Commits σ := endResults_failsBy h ids
  refine (Op.Ends.and fails (endResults_stands h covered)).imp ?_ fun _ _ h => h.1
  rintro _ τ ⟨smooth, -, c, d, -, line⟩
  have commits : (commitHeld peer.recorded t).FailsBy Request.Commits τ :=
    .sendHeld line.slot trivial
  exact commits.after smooth

/-- A commit by the session itself is refused because something had failed in the transaction, or
    fails as one of its requests did. -/
theorem commit_failsBy {t : TransactionId} (h : σ.Managed t) :
    (commit peer.recorded t).Ends σ (fun _ _ => True) fun fault τ =>
      ((σ.session.transaction t).state = .failed ∧ fault = .transactionFailed "commit" ∧ τ = σ) ∨
        σ.Since (History.FailedBy Request.Commits fault) τ := by
  obtain ⟨v, s, -, linked, steady⟩ := h
  have isOpen := steady.isOpen
  rw [commit, Op.ends_bind, Op.ends_theSession, Op.ends_bind, Op.ends_failIf]
  constructor
  · intro allowed
    have active := active_of_refusal? allowed
    obtain ⟨e, s', live, latest⟩ := steady.active linked active
    have covered (r : ResultId) (hr : s' = some r) : r ∈ (σ.session.transaction t).results :=
      List.mem_of_getLast? (latest hr)
    rw [e] at live
    have something : some (t, σ.session.transaction t) ≠ none ∨ s' ≠ none :=
      .inl (Option.some_ne_none _)
    have taken := (((live.busy something).setTransaction (fun v => { v with results := [] })
      rfl).live (.inl (Option.some_ne_none _)))
    rw [Op.ends_bind, takeResults, Op.ends_bind, Op.ends_theSession, Op.ends_bind,
      Op.ends_changeTransaction, Op.ends_pure, Op.ends_bind, Op.ends_attempt]
    refine Op.Ends.imp (commitSent_failsBy taken covered) ?_ ?_
    · intro token τ smooth
      have smooth : σ.Smooth τ := smooth
      dsimp only
      rw [Op.ends_bind, setState, Op.ends_changeTransaction]
      refine Op.Ends.imp (reportAndEnd_failsBy _ token _) (fun _ _ _ => trivial) ?_
      intro fault υ failed
      exact .inr (.failedBy_after smooth failed)
    · intro fault τ failed
      have failed : σ.Since (History.FailedBy Request.Commits fault) τ := failed
      dsimp only
      rw [Op.ends_bind, setState, Op.ends_changeTransaction]
      refine Op.ends_failAfter.mpr ((clears_clearsUp.abortUnit.ends _).imp ?_)
      intro _ υ cleared
      exact .inr (failed.failedBy_before cleared)
  · intro fault refused
    refine .inl ?_
    unfold Transaction.refusal? at refused
    cases state : (σ.session.transaction t).state with
    | active =>
      rw [state] at refused
      cases refused
    | failed =>
      rw [state] at refused
      exact ⟨rfl, (Option.some.inj refused).symm, rfl⟩
    | committed | rolledBack | closed =>
      rw [state] at isOpen
      cases isOpen

end GraphSession
