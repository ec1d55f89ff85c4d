import GraphSession.Proofs.Twins

/-!
  What a caller is answered does not depend on the bookmarks that the manager holds.

  Each action of a session is its own twin in other surroundings that are alike: the bookmarks that
  are fetched differ, are sent with new work and kept in results and transactions, and matter for
  nothing else.
-/

namespace GraphSession

variable {ω α : Type} {R : ω → ω → Prop} {p q : Peer ω} (alike : Peer.Alike R p q)

include alike

/-! ## Units of work -/

theorem releaseConnection_twins :
    Act.Twins R Eq (releaseConnection p.recorded) (releaseConnection q.recorded) := by
  refine .read (fun _ => rfl) (fun _ => rfl) fun s => ?_
  cases s.connection with
  | none => exact .pure rfl
  | some c =>
    exact .andThen (.changeSession fun _ => rfl) fun _ =>
      .andThen (giveBack_twins alike c) fun _ => note_twins alike _

theorem endUnit_twins : Act.Twins R Eq (endUnit p.recorded) (endUnit q.recorded) := by
  refine .andThen (.changeSession fun _ => rfl) fun _ => .read (fun _ => rfl) (fun _ => rfl)
    fun s => ?_
  split
  · exact releaseConnection_twins alike
  · exact .pure rfl

theorem abortUnit_twins : Act.Twins R Eq (abortUnit p.recorded) (abortUnit q.recorded) := by
  refine .read (fun _ => rfl) (fun _ => rfl) fun s => ?_
  cases s.connection with
  | none => exact endUnit_twins alike
  | some c =>
    refine .run_bind (send_twins alike c _ _) fun outcome => ?_
    cases outcome with
    | ok _ => exact endUnit_twins alike
    | error fault => exact .andThen (note_twins alike _) fun _ => endUnit_twins alike

theorem endAllUnits_twins : Act.Twins R Eq (endAllUnits p.recorded) (endAllUnits q.recorded) :=
  .andThen (.changeSession fun _ => rfl) fun _ => releaseConnection_twins alike

/-! ## Bookmarks -/

/-- The only place where twins part: what the manager holds. -/
theorem bookmarksForWork_twins :
    Op.Twins R (fun _ _ => True) (bookmarksForWork p.recorded) (bookmarksForWork q.recorded) := by
  refine .read (fun _ => rfl) (fun _ => rfl) fun s => ?_
  split
  · exact .bind (ask_twins alike .getBookmarks) fun _ _ _ => .pure trivial
  · exact .pure trivial

theorem takeBookmark?_twins (sent sent' : Bookmarks) (token : Option String) :
    Op.Twins R Eq (takeBookmark? p.recorded sent token) (takeBookmark? q.recorded sent' token) := by
  cases token with
  | none => exact .pure rfl
  | some token =>
    refine .andThen (.changeSession fun _ => rfl) fun _ => .read (fun _ => rfl) (fun _ => rfl)
      fun s => ?_
    split
    · exact reportBookmarks_twins alike sent sent' _
    · exact .pure rfl

/-! ## Where work goes -/

theorem pinDatabase_twins (named : Option String) :
    Act.Twins R Eq (pinDatabase p.recorded named) (pinDatabase q.recorded named) := by
  cases named with
  | none => exact .pure rfl
  | some database =>
    refine .read (fun _ => rfl) (fun _ => rfl) fun s => ?_
    split
    · exact .andThen (note_twins alike _) fun _ => .changeSession fun _ => rfl
    · exact .pure rfl

theorem findHome_twins (o : Overrides) :
    Op.Twins R Eq (findHome p.recorded o) (findHome q.recorded o) :=
  .read (fun _ => rfl) (fun _ => rfl) fun _ => .bind (bookmarksForWork_twins alike) fun _ _ _ =>
    .andThen (askHomes_twins alike rfl) fun _ => .pure rfl

theorem resolveDatabase_twins (o : Overrides) :
    Op.Twins R Eq (resolveDatabase p.recorded o) (resolveDatabase q.recorded o) := by
  refine .read (fun _ => rfl) (fun _ => rfl) fun s => ?_
  have routing : p.recorded.routing = q.recorded.routing := alike.routing
  split
  · exact .pure rfl
  · exact .pure rfl
  · rw [routing]
    split
    · exact .pure rfl
    · refine .andThen (findHome_twins alike o) fun home => .read (fun _ => rfl) (fun _ => rfl)
        fun s => ?_
      have noted : Op.Twins R Eq (do note p.recorded (.homeResolved home); return home)
          (do note q.recorded (.homeResolved home); return home) :=
        .liftThen (note_twins alike _) fun _ => .pure rfl
      split
      · exact .andThen (.changeSession fun _ => rfl) fun _ => noted
      · exact noted

theorem acquire_twins (mode : AccessMode) (database user : Option String) (api : Option ApiKind) :
    Op.Twins R Eq (acquire p.recorded mode database user api)
      (acquire q.recorded mode database user api) := by
  refine .read (fun _ => rfl) (fun _ => rfl) fun s => .bind (bookmarksForWork_twins alike)
    fun _ _ _ => .andThen (borrow_twins alike rfl) fun c => ?_
  have noted : Op.Twins R Eq (do note p.recorded (.connectionAcquired mode api); return c)
      (do note q.recorded (.connectionAcquired mode api); return c) :=
    .liftThen (note_twins alike _) fun _ => .pure rfl
  cases api with
  | none => exact noted
  | some kind =>
    dsimp only
    split
    · refine .attemptThen (send_twins alike c _ _) fun outcome => ?_
      cases outcome with
      | ok _ => exact noted
      | error fault => exact .liftThen (giveBack_twins alike c) fun _ => .throw fault
    · exact noted

theorem connect_twins (mode : AccessMode) (api : ApiKind) (o : Overrides) :
    Op.Twins R Eq (connect p.recorded mode api o) (connect q.recorded mode api o) := by
  refine .read (fun _ => rfl) (fun _ => rfl) fun s => ?_
  split
  · exact .pure rfl
  · exact .andThen (resolveDatabase_twins alike o) fun _ =>
      .andThen (acquire_twins alike _ _ _ _) fun _ => .andThen (.changeSession fun _ => rfl)
        fun _ => .pure rfl

/-! ## Streams -/

omit alike in
theorem markFailed_twins (id : TransactionId) :
    Act.Twins R Eq (markFailed id) (markFailed id) := by
  refine .changeTransaction fun v => ?_
  dsimp only [Transaction.blind]
  split <;> rfl

theorem abortOrigin_twins {origin origin' : Origin} (h : origin.blind = origin'.blind) :
    Act.Twins R Eq (abortOrigin p.recorded origin) (abortOrigin q.recorded origin') := by
  cases origin with
  | autoCommit sent pins =>
    cases origin' with
    | autoCommit sent' pins' => exact abortUnit_twins alike
    | transaction id => cases h
  | transaction id =>
    cases origin' with
    | autoCommit sent' pins' => cases h
    | transaction id' =>
      cases h
      exact markFailed_twins id

theorem completeOrigin_twins (summary : Summary) {origin origin' : Origin}
    (h : origin.blind = origin'.blind) :
    Op.Twins R Eq (completeOrigin p.recorded summary origin)
      (completeOrigin q.recorded summary origin') := by
  cases origin with
  | transaction id =>
    cases origin' with
    | autoCommit sent' pins' => cases h
    | transaction id' => exact .pure rfl
  | autoCommit sent pins =>
    cases origin' with
    | transaction id => cases h
    | autoCommit sent' pins' =>
      cases h
      have reported : Op.Twins R Eq (do
          let reported ← attempt (takeBookmark? p.recorded sent summary.bookmark)
          endUnit p.recorded
          settleOn reported) (do
          let reported ← attempt (takeBookmark? q.recorded sent' summary.bookmark)
          endUnit q.recorded
          settleOn reported) :=
        .attemptThen (takeBookmark?_twins alike sent sent' _) fun reported =>
          .liftThen (endUnit_twins alike) fun _ => .settleOn reported
      cases pins with
      | true => exact .liftThen (pinDatabase_twins alike _) fun _ => reported
      | false => exact reported

theorem finishStream_twins (id : ResultId) (metadata : Metadata) :
    Op.Twins R Eq (finishStream p.recorded id metadata) (finishStream q.recorded id metadata) := by
  refine .theSession fun s t same => ?_
  have summary := Session.twin_result same (f := fun r =>
    Summary.ofMetadata r.query r.server r.startMetadata metadata) (fun _ => rfl) id
  have origin : (s.result id).origin.blind = (t.result id).origin.blind :=
    Session.twin_result same (f := fun r => r.origin.blind) Result.origin_blind id
  dsimp only at summary ⊢
  rw [summary]
  exact .andThen (.changeResult fun _ => rfl) fun _ => completeOrigin_twins alike _ origin

theorem failStream_twins (id : ResultId) (fault : Fault) :
    Act.Twins R Eq (failStream p.recorded id fault) (failStream q.recorded id fault) := by
  refine .theSession fun s t same => ?_
  have origin : (s.result id).origin.blind = (t.result id).origin.blind :=
    Session.twin_result same (f := fun r => r.origin.blind) Result.origin_blind id
  exact .andThen (.changeResult fun _ => rfl) fun _ => abortOrigin_twins alike origin

theorem fetch_twins (id : ResultId) :
    Op.Twins R Eq (fetch p.recorded id) (fetch q.recorded id) := by
  refine .attemptThen (.read (fun _ => rfl) (fun _ => rfl) fun _ =>
    sendHeld_twins alike fun c => .send c _ (.pull _)) fun outcome => ?_
  cases outcome with
  | error fault => exact .liftThen (failStream_twins alike id fault) fun _ => .throw fault
  | ok batch =>
    refine .andThen (.changeResult fun _ => rfl) fun _ => ?_
    split
    · exact .pure rfl
    · exact .andThen (finishStream_twins alike id _) fun _ => .pure rfl

theorem discardRest_twins (id : ResultId) :
    Op.Twins R Eq (discardRest p.recorded id) (discardRest q.recorded id) := by
  have blind (s : Session) : (s.result id).isStreaming = (s.blind.result id).isStreaming :=
    s.sees_result (fun _ => rfl) id
  refine .read (fun s => by rw [blind s]) (fun s => by rw [blind s]) fun s => ?_
  split
  · refine .attemptThen (sendHeld_twins alike fun c => .send c _ .discard) fun outcome => ?_
    cases outcome with
    | error fault => exact .liftThen (failStream_twins alike id fault) fun _ => .throw fault
    | ok metadata => exact finishStream_twins alike id metadata
  · exact .pure rfl

/-- A request and its twin start a result and its twin. -/
theorem startResult_twins {request request' : RunRequest} (h : request.blind = request'.blind)
    {origin origin' : Origin} (ho : origin.blind = origin'.blind) :
    Op.Twins R Eq (startResult p.recorded request origin)
      (startResult q.recorded request' origin') := by
  have number (s : Session) : s.nextResult = s.blind.nextResult := s.nextResult_blind.symm
  have pins : origin.pins = origin'.pins := by
    cases origin <;> cases origin' <;> cases ho <;> rfl
  have started {r r' : Result} (same : r.blind = r'.blind) : Op.Twins R Eq (do
      let id ← addResult r
      let _ ← fetch p.recorded id
      return id) (do
      let id ← addResult r'
      let _ ← fetch q.recorded id
      return id) :=
    .andThen (.addResult same) fun id => .andThen (fetch_twins alike id) fun _ => .pure rfl
  refine .read (fun s => by rw [number s]; rfl) (fun s => by rw [number s]; rfl) fun s => ?_
  refine .attemptThen (runHeld_twins alike _ h) fun outcome => ?_
  cases outcome with
  | error fault => exact .liftThen (abortOrigin_twins alike ho) fun _ => .throw fault
  | ok reply =>
    dsimp only
    rw [pins, RunRequest.query_of_blind h]
    split
    · exact .liftThen (pinDatabase_twins alike _) fun _ =>
        started (by dsimp only [Result.blind]; rw [ho])
    · exact started (by dsimp only [Result.blind]; rw [ho])

/-! ## Reading -/

omit alike in
theorem State.Twin.emptied {σ τ : State (Recorded ω)} (twin : State.Twin R σ τ) (id : ResultId) :
    State.Twin R (σ.emptied id) (τ.emptied id) :=
  (Act.Twins.changeResult (f := ({ · with buffer := [] })) (fun _ => rfl) σ τ twin).2

theorem fetchWhile_twins (id : ResultId) {hungry : Result → Bool}
    (blind : ∀ r : Result, hungry r.blind = hungry r) :
    Op.Twins R Eq (fetchWhile p.recorded id hungry) (fetchWhile q.recorded id hungry) := by
  intro σ τ twin
  show Outcomes Eq (fetchFrom p.recorded id hungry σ).1 (fetchFrom q.recorded id hungry τ).1 ∧
    State.Twin R (fetchFrom p.recorded id hungry σ).2 (fetchFrom q.recorded id hungry τ).2
  have goesOn {σ τ : State (Recorded ω)} (twin : State.Twin R σ τ) :
      ((σ.session.result id).isStreaming && hungry (σ.session.result id)) =
        ((τ.session.result id).isStreaming && hungry (τ.session.result id)) := by
    refine Session.twin_result twin.session (f := fun r => r.isStreaming && hungry r) ?_ id
    intro r
    rw [blind r]
    rfl
  fun_induction fetchFrom p.recorded id hungry σ generalizing τ with
  | case1 σ r more σ' e ih =>
    obtain ⟨τ', e', next⟩ := (fetch_twins alike id).meet twin e
    rw [fetchFrom_turn ((goesOn twin).symm.trans more), e']
    exact ih τ' next
  | case2 σ r more σ' e =>
    obtain ⟨τ', e', next⟩ := (fetch_twins alike id).meet twin e
    rw [fetchFrom_turn ((goesOn twin).symm.trans more), e']
    exact ⟨.ok rfl, next⟩
  | case3 σ r more fault σ' e =>
    obtain ⟨τ', e', next⟩ := (fetch_twins alike id).meet twin e
    rw [fetchFrom_turn ((goesOn twin).symm.trans more), e']
    exact ⟨.error fault, next⟩
  | case4 σ r stopped =>
    rw [fetchFrom, if_neg fun more => stopped ((goesOn twin).trans more)]
    exact ⟨.ok rfl, twin⟩

theorem bufferAll_twins (id : ResultId) :
    Op.Twins R Eq (bufferAll p.recorded id) (bufferAll q.recorded id) :=
  fetchWhile_twins alike id fun _ => rfl

omit alike in
theorem checkUsable_twins (id : ResultId) :
    Op.Twins R Eq (checkUsable id) (checkUsable id) := by
  have blind (s : Session) : (s.result id).unusable? = (s.blind.result id).unusable? :=
    s.sees_result (fun _ => rfl) id
  refine .read (fun s => by rw [blind s]) (fun s => by rw [blind s]) fun s => ?_
  split
  · exact .throw _
  · exact .pure rfl

theorem peek_twins (id : ResultId) :
    Op.Twins R Eq (peek p.recorded id) (peek q.recorded id) := by
  have blind (s : Session) : (s.result id).buffer = (s.blind.result id).buffer :=
    s.sees_result (fun _ => rfl) id
  exact .andThen (checkUsable_twins id) fun _ =>
    .andThen (fetchWhile_twins alike id fun _ => rfl) fun _ =>
      .read (fun s => by rw [blind s]) (fun s => by rw [blind s]) fun _ => .pure rfl

theorem next_twins (id : ResultId) :
    Op.Twins R Eq (next p.recorded id) (next q.recorded id) :=
  .andThen (peek_twins alike id) fun _ => .andThen (.changeResult fun _ => rfl) fun _ => .pure rfl

theorem drainFrom_twins (id : ResultId) (read : List Record) :
    Act.Twins R Eq (drainFrom p.recorded id read) (drainFrom q.recorded id read) := by
  intro σ τ twin
  show (drainFrom p.recorded id read σ).1 = (drainFrom q.recorded id read τ).1 ∧
    State.Twin R (drainFrom p.recorded id read σ).2 (drainFrom q.recorded id read τ).2
  have streaming {σ τ : State (Recorded ω)} (twin : State.Twin R σ τ) :
      (σ.session.result id).isStreaming = (τ.session.result id).isStreaming :=
    Session.twin_result twin.session (fun _ => rfl) id
  have buffer {σ τ : State (Recorded ω)} (twin : State.Twin R σ τ) :
      (σ.session.result id).buffer = (τ.session.result id).buffer :=
    Session.twin_result twin.session (fun _ => rfl) id
  fun_induction drainFrom p.recorded id read σ generalizing τ with
  | case1 read σ r read' more σ' e ih =>
    obtain ⟨τ', e', next⟩ := (fetch_twins alike id).meet (twin.emptied id) e
    rw [drainFrom_turn ((streaming twin).symm.trans more), e', ← buffer twin]
    exact ih τ' next
  | case2 read σ r read' more σ' e =>
    obtain ⟨τ', e', next⟩ := (fetch_twins alike id).meet (twin.emptied id) e
    rw [drainFrom_turn ((streaming twin).symm.trans more), e', ← buffer twin]
    have handed := buffer next
    refine ⟨?_, next.emptied id⟩
    dsimp only
    rw [handed]
  | case3 read σ r read' more fault σ' e =>
    obtain ⟨τ', e', next⟩ := (fetch_twins alike id).meet (twin.emptied id) e
    rw [drainFrom_turn ((streaming twin).symm.trans more), e', ← buffer twin]
    exact ⟨rfl, next⟩
  | case4 read σ r read' stopped =>
    rw [drainFrom, if_neg fun more => stopped ((streaming twin).trans more), ← buffer twin]
    exact ⟨rfl, twin.emptied id⟩

theorem drain_twins (id : ResultId) :
    Act.Twins R Eq (drain p.recorded id) (drain q.recorded id) := by
  have fault (s : Session) : (s.result id).unusable? = (s.blind.result id).unusable? :=
    s.sees_result (fun _ => rfl) id
  refine .read (fun s => by rw [fault s]) (fun s => by rw [fault s]) fun s => ?_
  split
  · exact .pure rfl
  · exact drainFrom_twins alike id []

theorem collect_twins (id : ResultId) :
    Op.Twins R Eq (collect p.recorded id) (collect q.recorded id) := by
  refine .liftThen (drain_twins alike id) fun outcome => ?_
  split
  · exact .pure rfl
  · exact .throw _

theorem single_twins (id : ResultId) :
    Op.Twins R Eq (single p.recorded id) (single q.recorded id) := by
  rw [single_eq, single_eq]
  have verdict (first second : Option Record) : Op.Twins R Eq (do
      discardRest p.recorded id
      settleOn (onlyRecord first second)) (do
      discardRest q.recorded id
      settleOn (onlyRecord first second)) :=
    .andThen (discardRest_twins alike id) fun _ => .settleOn _
  refine .andThen (next_twins alike id) fun first => ?_
  dsimp only
  split
  · exact .andThen (next_twins alike id) fun second => verdict first second
  · exact .andThen (.pure rfl) fun second => verdict first second

theorem consume_twins (id : ResultId) :
    Op.Twins R Eq (consume p.recorded id) (consume q.recorded id) := by
  refine .theSession fun s t same => ?_
  have scope : (s.result id).scopeFault? = (t.result id).scopeFault? :=
    Session.twin_result same (fun _ => rfl) id
  have consumed : (s.result id).consumed = (t.result id).consumed :=
    Session.twin_result same (fun _ => rfl) id
  have stream : (s.result id).stream = (t.result id).stream :=
    Session.twin_result same (fun _ => rfl) id
  dsimp only
  rw [scope, consumed, stream]
  refine .andThen (.failIf _) fun _ => ?_
  split
  · exact .pure rfl
  · refine .andThen (discardRest_twins alike id) fun _ => .andThen (.changeResult fun _ => rfl)
      fun _ => ?_
    have stream (s : Session) : (s.result id).stream = (s.blind.result id).stream :=
    s.sees_result (fun _ => rfl) id
    refine .read (fun s => by rw [stream s]) (fun s => by rw [stream s]) fun s => ?_
    split
    · exact .pure rfl
    · exact .throw _
    · exact .throw _

theorem endResult_twins (id : ResultId) :
    Op.Twins R Eq (endResult p.recorded id) (endResult q.recorded id) :=
  .attemptThen (discardRest_twins alike id) fun discarded =>
    .andThen (.changeResult fun _ => rfl) fun _ => .settleOn discarded

omit alike in
theorem abandonResult_twins (id : ResultId) :
    Op.Twins R Eq (abandonResult id) (abandonResult id) :=
  .changeResult fun _ => rfl

/-! ## Transactions -/

omit alike in
theorem setState_twins (id : TransactionId) (state : TransactionState) :
    Op.Twins R Eq (setState id state) (setState id state) :=
  .changeTransaction fun _ => rfl

omit alike in
theorem takeResults_twins (id : TransactionId) :
    Op.Twins R Eq (takeResults id) (takeResults id) := by
  have results (s : Session) : (s.transaction id).results = (s.blind.transaction id).results :=
    s.sees_transaction (fun _ => rfl) id
  refine .read (fun s => by rw [results s]) (fun s => by rw [results s]) fun s => ?_
  exact .andThen (.changeTransaction fun _ => rfl) fun _ => .pure rfl

theorem runIn_twins (id : TransactionId) (source : QuerySource) (params : Option Params) :
    Op.Twins R Eq (runIn p.recorded id source params) (runIn q.recorded id source params) := by
  refine .andThen (.settleOn _) fun query => .theSession fun s t same => ?_
  have refusal : (s.transaction id).refusal? "run a query" =
      (t.transaction id).refusal? "run a query" :=
    Session.twin_transaction same (f := fun v => v.refusal? "run a query") (fun _ => rfl) id
  have latest : (s.transaction id).results.getLast? = (t.transaction id).results.getLast? :=
    Session.twin_transaction same (f := fun v => v.results.getLast?) (fun _ => rfl) id
  have started (parameters : Params) : Op.Twins R Eq (do
      let result ← startResult p.recorded { query := query.text, parameters } (.transaction id)
      changeTransaction id fun t => { t with results := t.results ++ [result] }
      return result) (do
      let result ← startResult q.recorded { query := query.text, parameters } (.transaction id)
      changeTransaction id fun t => { t with results := t.results ++ [result] }
      return result) :=
    .andThen (startResult_twins alike rfl rfl) fun _ =>
      .andThen (.changeTransaction fun _ => rfl) fun _ => .pure rfl
  dsimp only
  rw [refusal, latest]
  refine .andThen (.failIf _) fun _ => ?_
  split
  · exact .throw _
  · split
    · exact .andThen (bufferAll_twins alike _) fun _ => started _
    · exact started _

theorem endResults_twins (ids : List ResultId) :
    Op.Twins R Eq (endResults p.recorded ids) (endResults q.recorded ids) := by
  induction ids with
  | nil => exact .pure rfl
  | cons id rest ih => exact .andThen (endResult_twins alike id) fun _ => ih

theorem commit_twins (id : TransactionId) :
    Op.Twins R Eq (commit p.recorded id) (commit q.recorded id) := by
  refine .theSession fun s t same => ?_
  have refusal : (s.transaction id).refusal? "commit" = (t.transaction id).refusal? "commit" :=
    Session.twin_transaction same (f := fun v => v.refusal? "commit") (fun _ => rfl) id
  dsimp only
  rw [refusal]
  refine .andThen (.failIf _) fun _ => .andThen (takeResults_twins id) fun results => ?_
  have acknowledged : Op.Twins R Eq (do endResults p.recorded results; commitHeld p.recorded id)
      (do endResults q.recorded results; commitHeld q.recorded id) :=
    .andThen (endResults_twins alike results) fun _ =>
      sendHeld_twins alike fun c => .send c _ .commit
  refine .attemptThen acknowledged fun outcome => ?_
  cases outcome with
  | error fault =>
    exact .andThen (setState_twins id _) fun _ => .liftThen (abortUnit_twins alike) fun _ =>
      .throw fault
  | ok token =>
    exact .andThen (setState_twins id _) fun _ =>
      .attemptThen (takeBookmark?_twins alike _ _ token) fun reported =>
        .liftThen (endUnit_twins alike) fun _ => .settleOn reported

theorem rollback_twins (id : TransactionId) :
    Op.Twins R Eq (rollback p.recorded id) (rollback q.recorded id) := by
  refine .theSession fun s t same => ?_
  have state : (s.transaction id).state = (t.transaction id).state :=
    Session.twin_transaction same (fun _ => rfl) id
  dsimp only
  rw [state]
  split
  · exact .throw _
  · refine .andThen (takeResults_twins id) fun results =>
      .andThen (.forM abandonResult_twins results) fun _ => .andThen (setState_twins id _)
        fun _ => ?_
    split
    · exact .lift (abortUnit_twins alike)
    · refine .attemptThen (sendHeld_twins alike fun c => .send c _ .rollback) fun outcome => ?_
      cases outcome with
      | ok _ => exact .lift (endUnit_twins alike)
      | error fault => exact .liftThen (abortUnit_twins alike) fun _ => .throw fault

theorem closeTransaction_twins (id : TransactionId) :
    Op.Twins R Eq (closeTransaction p.recorded id) (closeTransaction q.recorded id) := by
  have state (s : Session) : (s.transaction id).state = (s.blind.transaction id).state :=
    s.sees_transaction (fun _ => rfl) id
  refine .read (fun s => by rw [state s]) (fun s => by rw [state s]) fun s => ?_
  split
  · exact rollback_twins alike id
  · exact .pure rfl

theorem closeQuietly_twins (id : TransactionId) :
    Act.Twins R Eq (closeQuietly p.recorded id) (closeQuietly q.recorded id) := by
  refine .run_bind (closeTransaction_twins alike id) fun outcome => ?_
  cases outcome with
  | ok _ => exact .pure rfl
  | error fault => exact note_twins alike _

theorem settle_twins (id : TransactionId) (outcome : Except Fault α) :
    Op.Twins R Eq (settle p.recorded id outcome) (settle q.recorded id outcome) := by
  have committed : Op.Twins R Eq (do
      let a ← settleOn outcome
      commit p.recorded id
      return a) (do
      let a ← settleOn outcome
      commit q.recorded id
      return a) :=
    .andThen (.settleOn outcome) fun _ => .andThen (commit_twins alike id) fun _ => .pure rfl
  refine .attemptThen committed fun outcome => ?_
  cases outcome with
  | ok a => exact .pure rfl
  | error fault => exact .liftThen (closeQuietly_twins alike id) fun _ => .throw fault

theorem dropHandle_twins (id : TransactionId) :
    Act.Twins R Eq (dropHandle p.recorded id) (dropHandle q.recorded id) := by
  refine .theSession fun s t same => ?_
  have holder : (s.transaction id).holder = (t.transaction id).holder :=
    Session.twin_transaction same (fun _ => rfl) id
  have state : (s.transaction id).state = (t.transaction id).state :=
    Session.twin_transaction same (fun _ => rfl) id
  have dropped : Act.Twins R Eq (changeTransaction id ({ · with holder := .nobody }))
      (changeTransaction id ({ · with holder := .nobody })) := .changeTransaction fun _ => rfl
  dsimp only
  rw [holder, state]
  split
  · split
    · exact .andThen (note_twins alike _) fun _ => dropped
    · exact dropped
  · exact .pure rfl

/-! ## Beginning work -/

omit alike in
theorem checkOpen_twins : Op.Twins R Eq checkOpen checkOpen := by
  refine .read (fun _ => rfl) (fun _ => rfl) fun s => ?_
  split
  · exact .throw _
  · exact .pure rfl

theorem reapTransaction_twins :
    Op.Twins R Eq (reapTransaction p.recorded) (reapTransaction q.recorded) := by
  refine .theSession fun s t same => ?_
  have current : s.current = t.current := Session.twin_sees same fun _ => rfl
  dsimp only
  rw [current]
  cases t.current with
  | none => exact .pure rfl
  | some id =>
    have state : (s.transaction id).state = (t.transaction id).state :=
      Session.twin_transaction same (fun _ => rfl) id
    have holder : (s.transaction id).holder = (t.transaction id).holder :=
      Session.twin_transaction same (fun _ => rfl) id
    dsimp only
    rw [state, holder]
    split
    · exact .throw _
    · refine .andThen (.changeSession fun _ => rfl) fun _ => ?_
      split
      · exact .liftThen (note_twins alike _) fun _ => .lift (closeQuietly_twins alike id)
      · exact .pure rfl

theorem bufferAutoResult_twins :
    Op.Twins R Eq (bufferAutoResult p.recorded) (bufferAutoResult q.recorded) := by
  refine .read (fun _ => rfl) (fun _ => rfl) fun s => ?_
  split
  · exact .pure rfl
  · exact .andThen (.changeSession fun _ => rfl) fun _ => bufferAll_twins alike _

/-- What new work needs: the same database, and bookmarks that need not be the same. -/
theorem prepared_twins (mode : AccessMode) (api : ApiKind) (o : Overrides) :
    Op.Twins R (fun a b : Option String × Bookmarks => a.1 = b.1)
      (do let database ← connect p.recorded mode api o
          let bookmarks ← bookmarksForWork p.recorded
          return (database, bookmarks))
      (do let database ← connect q.recorded mode api o
          let bookmarks ← bookmarksForWork q.recorded
          return (database, bookmarks)) :=
  .andThen (connect_twins alike mode api o) fun _ =>
    .bind (bookmarksForWork_twins alike) fun _ _ _ => .pure rfl

theorem run_twins (source : QuerySource) (params : Option Params) :
    Op.Twins R Eq (run p.recorded source params) (run q.recorded source params) := by
  refine .andThen (.settleOn _) fun query => .andThen checkOpen_twins fun _ =>
    .andThen (reapTransaction_twins alike) fun _ => .andThen (.settleOn _) fun o =>
    .read (fun _ => rfl) (fun _ => rfl) fun s => .andThen (.changeSession fun _ => rfl) fun _ =>
    .attempt_bind (.andThen (bufferAutoResult_twins alike) fun _ => prepared_twins alike _ _ o)
      ?_ ?_
  · rintro ⟨database, bookmarks⟩ ⟨_, bookmarks'⟩ rfl
    refine .andThen (startResult_twins alike ?_ ?_) fun _ =>
      .andThen (.changeSession fun _ => rfl) fun _ => .pure rfl
    · rfl
    · rfl
  · intro fault
    exact .liftThen (endUnit_twins alike) fun _ => .throw fault

theorem openTransaction_twins (mode : AccessMode) (api : ApiKind) (config : TransactionConfig)
    (holder : Holder) :
    Op.Twins R Eq (openTransaction p.recorded mode api config holder)
      (openTransaction q.recorded mode api config holder) := by
  have number (s : Session) : s.nextTransaction = s.blind.nextTransaction :=
    s.nextTransaction_blind.symm
  refine .andThen (.changeSession fun _ => rfl) fun _ =>
    .attempt_bind (prepared_twins alike mode api {}) ?_ ?_
  · rintro ⟨database, bookmarks⟩ ⟨_, bookmarks'⟩ rfl
    refine .read (fun s => by rw [number s]; rfl) (fun s => by rw [number s]; rfl) fun s => ?_
    refine .attemptThen (beginHeld_twins alike _ ?_) fun outcome => ?_
    · rfl
    · cases outcome with
      | error fault => exact .liftThen (abortUnit_twins alike) fun _ => .throw fault
      | ok named => exact .liftThen (pinDatabase_twins alike named) fun _ => .addTransaction rfl
  · intro fault
    exact .liftThen (endUnit_twins alike) fun _ => .throw fault

theorem beginTransaction_twins (config : TransactionConfig) :
    Op.Twins R Eq (beginTransaction p.recorded config) (beginTransaction q.recorded config) := by
  refine .andThen checkOpen_twins fun _ => .andThen (reapTransaction_twins alike) fun _ =>
    .read (fun _ => rfl) (fun _ => rfl) fun s => ?_
  split
  · exact .throw _
  · exact .andThen (openTransaction_twins alike _ _ _ _) fun _ =>
      .andThen (.changeSession fun _ => rfl) fun _ => .pure rfl

/-! ## Handles and the session itself -/

theorem Access.perform_twins (a : Access) :
    Op.Twins R Eq (a.perform p.recorded) (a.perform q.recorded) := by
  have held (id : TransactionId) (allowed : Holder → Bool) :
      Op.Twins R Eq (checkHolder id allowed) (checkHolder id allowed) := by
    have holder (s : Session) : (s.transaction id).holder = (s.blind.transaction id).holder :=
      s.sees_transaction (fun _ => rfl) id
    refine .read (fun s => by rw [holder s]) (fun s => by rw [holder s]) fun s => ?_
    split
    · exact .throw _
    · exact .pure rfl
  cases a with
  | run id source params =>
    exact .andThen (held id _) fun _ => runIn_twins alike id source params
  | commit id => exact .andThen (held id _) fun _ => commit_twins alike id
  | rollback id => exact .andThen (held id _) fun _ => rollback_twins alike id
  | close id => exact .andThen (held id _) fun _ => closeTransaction_twins alike id
  | drop id => exact .lift (dropHandle_twins alike id)
  | viewTransaction id =>
    have view (s : Session) : (s.transaction id).view = (s.blind.transaction id).view :=
      s.sees_transaction (fun _ => rfl) id
    exact .read (fun s => by rw [view s]) (fun s => by rw [view s]) fun _ => .pure rfl
  | next id => exact next_twins alike id
  | peek id => exact peek_twins alike id
  | single id => exact single_twins alike id
  | collect id => exact collect_twins alike id
  | drain id => exact .lift (drain_twins alike id)
  | consume id => exact consume_twins alike id
  | viewResult id =>
    have view (s : Session) : (s.result id).view = (s.blind.result id).view :=
      s.sees_result (fun _ => rfl) id
    exact .read (fun s => by rw [view s]) (fun s => by rw [view s]) fun _ => .pure rfl

theorem Access.performTold_twins (a : Access) :
    Act.Twins R Eq (a.performTold p) (a.performTold q) := by
  intro σ τ twin
  obtain ⟨same, next⟩ := a.perform_twins alike σ τ twin
  exact ⟨same.eq, next.session, next.world⟩

theorem lastBookmarks_twins :
    Op.Twins R Eq (lastBookmarks p.recorded) (lastBookmarks q.recorded) := by
  have own : Op.Twins R Eq (do return (← theSession).bookmarks)
      (do return (← theSession).bookmarks) :=
    .read (fun _ => rfl) (fun _ => rfl) fun _ => .pure rfl
  refine .read (fun _ => rfl) (fun _ => rfl) fun s => ?_
  dsimp only
  split
  · exact .andThen (bufferAll_twins alike _) fun _ => own
  · exact own

theorem lastBookmark_twins :
    Op.Twins R Eq (lastBookmark p.recorded) (lastBookmark q.recorded) :=
  .liftThen (note_twins alike _) fun _ => .andThen (lastBookmarks_twins alike) fun _ => .pure rfl

theorem serverInfo_twins :
    Op.Twins R Eq (serverInfo p.recorded) (serverInfo q.recorded) := by
  refine .andThen checkOpen_twins fun _ => .read (fun _ => rfl) (fun _ => rfl) fun s => ?_
  split
  · exact .pure rfl
  · exact .andThen (resolveDatabase_twins alike {}) fun database =>
      .andThen (acquire_twins alike _ _ _ _) fun c => .liftThen (giveBack_twins alike c)
        fun _ => .pure rfl

theorem endCurrent_twins : Act.Twins R Eq (endCurrent p.recorded) (endCurrent q.recorded) := by
  refine .read (fun _ => rfl) (fun _ => rfl) fun s => ?_
  split
  · exact .pure rfl
  · exact .andThen (.changeSession fun _ => rfl) fun _ => closeQuietly_twins alike _

theorem consumeAutoResult_twins :
    Act.Twins R Eq (consumeAutoResult p.recorded) (consumeAutoResult q.recorded) := by
  refine .read (fun _ => rfl) (fun _ => rfl) fun s => ?_
  split
  · exact .pure rfl
  · refine .andThen (.changeSession fun _ => rfl) fun _ => .run_bind (consume_twins alike _)
      fun outcome => ?_
    cases outcome with
    | ok _ => exact .pure rfl
    | error fault => exact note_twins alike _

theorem close_twins : Act.Twins R Eq (close p.recorded) (close q.recorded) := by
  refine .read (fun _ => rfl) (fun _ => rfl) fun s => ?_
  split
  · exact .andThen (endCurrent_twins alike) fun _ => .andThen (consumeAutoResult_twins alike)
      fun _ => .andThen (endAllUnits_twins alike) fun _ => .andThen (.changeSession fun _ => rfl)
        fun _ => note_twins alike _
  · exact .pure rfl

end GraphSession
