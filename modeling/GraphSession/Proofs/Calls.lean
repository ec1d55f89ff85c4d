import GraphSession.Proofs.Purposes

/-!
  What each call does to the target and to the handles: reading results, ending and beginning work,
  and transaction functions with whatever code.

  An action that touches no target of its own follows a `Path` for every purpose.  Only for a query
  that is a unit of its own and for the search for a connection does the purpose matter.
-/

namespace GraphSession

variable {ω α : Type} {peer : Peer ω} {e : Purpose} {σ τ : State (Recorded ω)}

/-! ## Reading -/

/-- Reading follows a path, whatever the purpose. -/
theorem reads_along : Reads peer.recorded (Path peer e) where
  fetch _ _ streaming := Op.Ends.state (fetch_along (Session.lt_of_isStreaming streaming))
  discardRest id := discardRest_along id
  tend _ _ _ origin start _ scope := .silent (.setResult origin start fun gone => scope ▸ gone) rfl

theorem endResult_along (id : ResultId) : (endResult peer.recorded id).Along peer e :=
  .bind (.attempt (discardRest_along id)) fun _ =>
    .bind (Op.along_changeSession fun _ => .setResult rfl rfl fun _ => Option.some_ne_none _)
      fun _ => .settleOn _

theorem endResults_along (ids : List ResultId) : (endResults peer.recorded ids).Along peer e := by
  induction ids with
  | nil => exact .pure _
  | cons id rest ih => exact .bind (endResult_along id) fun _ => ih

theorem abandonResult_along (id : ResultId) : Op.Along (ω := ω) peer e (abandonResult id) :=
  Op.along_changeSession fun _ => .setResult rfl rfl fun _ => Option.some_ne_none _

/-! ## Transactions -/

/-- Messages of a transaction on the connection that the session holds go anywhere. -/
theorem commitHeld_along (id : TransactionId) : (commitHeld peer.recorded id).Along peer e :=
  sendHeld_along fun _ _ => ⟨fun _ _ _ _ => trivial, fun _ _ => rfl⟩

theorem rollbackHeld_along (id : TransactionId) : (rollbackHeld peer.recorded id).Along peer e :=
  sendHeld_along fun _ _ => ⟨fun _ _ _ _ => trivial, fun _ _ => rfl⟩

/-- What follows the end of a transaction is no business of its results. -/
theorem setState_along (enlists : e.enlists) (commits : e.commits) (id : TransactionId)
    (state : TransactionState) : Op.Along (ω := ω) peer e (setState id state) :=
  Op.along_changeSession fun _ =>
    .setTransaction (fun n => absurd enlists n) fun n => absurd commits n

theorem takeResults_along (enlists : e.enlists) (commits : e.commits) (id : TransactionId) :
    Op.Along (ω := ω) peer e (takeResults id) :=
  .bind .theSession fun _ => .bind (Op.along_changeSession fun _ =>
    .setTransaction (fun n => absurd enlists n) fun n => absurd commits n) fun _ => .pure _

/-- A query in a transaction teaches nothing and may go anywhere. -/
theorem startIn_along (plain : e.alone = false) (request : RunRequest) (id : TransactionId)
    (σ : State (Recorded ω)) :
    (startResult peer.recorded request (.transaction id)).Ends σ
      (fun r τ => Path peer e σ τ ∧ r = σ.session.nextResult ∧ r < τ.session.results.length)
      fun _ τ => Path peer e σ τ := by
  refine startResult_along ?_ fun alone => ?_
  · rw [Purpose.pins, plain]
    rfl
  · rw [plain] at alone
    cases alone

/-- The new result of a transaction joins those that it has. -/
theorem joins_along (plain : e.alone = false) (enlists : e.enlists) (request : RunRequest)
    {id : TransactionId} (isOpen : (σ.session.transaction id).state.isTerminated = false)
    (path : Path peer e.apart σ τ) : Op.Ends (do
      let result ← startResult peer.recorded request (.transaction id)
      changeTransaction id fun t => { t with results := t.results ++ [result] }
      return result : Op (Recorded ω) ResultId) τ (fun _ υ => Path peer e σ υ)
      fun _ υ => Path peer e σ υ := by
  rw [Op.ends_bind]
  -- all but the last step leaves the transactions alone
  refine (startIn_along (e := e.apart) plain request id τ).imp (fun r υ h => ?_)
    fun _ _ more => (path.andThen more).relax
  obtain ⟨more, number, given⟩ := h
  have whole := path.andThen more
  rw [Op.ends_bind, Op.ends_changeTransaction]
  have relaxed : Path peer { e with commits := True } σ υ := Path.relax whole
  have joined (v : Transaction) : Path peer { e with commits := True } υ
      { υ with session := υ.session.setTransaction id v } :=
    .silent (.setTransaction (fun n => absurd enlists n) fun n => absurd trivial n) rfl
  refine (relaxed.andThen (joined _)).strict fun tidy => ?_
  have tidy' : τ.session.IsTidy := (path.retains.released (fun n => n) tidy).tidy
  have released := whole.retains.released (fun n => n) tidy
  obtain ⟨same, -⟩ := more.retains.enlisted (fun n => n) id
  have new : r ∉ (υ.session.transaction id).results := by
    intro there
    rw [same] at there
    have below := tidy'.given id r there
    rw [number] at below
    exact Nat.lt_irrefl _ below
  have still : (υ.session.transaction id).state.isTerminated = false := by
    refine Bool.eq_false_iff.mpr fun ended => ?_
    rw [(whole.retains.enlisted (fun n => n) id).2 ended] at isOpen
    cases isOpen
  exact released.andThen (released.tidy.enlist rfl given new still) fun _ h => h

/-- A query in a transaction reads the latest result to its end and adds another one. -/
theorem runIn_along (plain : e.alone = false) (enlists : e.enlists) (id : TransactionId)
    (source : QuerySource) (params : Option Params) :
    (runIn peer.recorded id source params).Along peer e := by
  intro σ
  refine Op.Ends.state ?_
  rw [runIn, Op.ends_bind, Op.ends_settleOn]
  refine ⟨fun query _ => ?_, fun _ _ => Path.rest σ⟩
  rw [Op.ends_bind, Op.ends_theSession, Op.ends_bind, Op.ends_failIf]
  refine ⟨fun allowed => ?_, fun _ _ => Path.rest σ⟩
  have isOpen : (σ.session.transaction id).state.isTerminated = false := by
    rw [active_of_refusal? allowed]
    rfl
  dsimp only
  split
  · exact Path.rest σ
  · cases (σ.session.transaction id).results.getLast? with
    | none => exact joins_along plain enlists _ isOpen (.rest σ)
    | some latest =>
      rw [Op.ends_bind]
      have buffered : (bufferAll peer.recorded latest).Along peer e.apart :=
        reads_along.bufferAll latest
      exact (buffered.ends σ).imp (fun _ τ path => joins_along plain enlists _ isOpen path)
        fun _ _ path => path.relax

theorem commit_along (enlists : e.enlists) (commits : e.commits) (id : TransactionId) :
    (commit peer.recorded id).Along peer e := by
  refine .bind .theSession fun s => .bind (.failIf _) fun _ =>
    .bind (takeResults_along enlists commits id) fun results =>
      .bind (.attempt (.bind (endResults_along results) fun _ => commitHeld_along id))
        fun outcome => ?_
  split
  · exact .bind (setState_along enlists commits id _) fun _ => .failAfter abortUnit_along _
  · exact .bind (setState_along enlists commits id _) fun _ => reportAndEnd_along _ _

/-- The results of a transaction that is rolled back are out of scope. -/
theorem abandonResults_ends {ids : List ResultId} {bad : Fault → State (Recorded ω) → Prop} :
    Op.Ends (ids.forM fun result => abandonResult result : Op (Recorded ω) Unit) σ
      (fun _ τ => τ.session.transactions = σ.session.transactions ∧
        τ.session.results.length = σ.session.results.length ∧
        ∀ r < σ.session.results.length, r ∈ ids ∨ (σ.session.result r).outOfScope ≠ none →
          (τ.session.result r).outOfScope ≠ none) bad := by
  induction ids generalizing σ with
  | nil => exact ⟨rfl, rfl, fun r _ h => h.resolve_left (List.not_mem_nil)⟩
  | cons id rest ih =>
    refine Op.ends_bind.mpr (Op.ends_changeResult.mpr (ih.imp (fun _ τ h => ?_) fun _ _ h => h))
    obtain ⟨transactions, length, scope⟩ := h
    have same (r : Result) : (σ.session.setResult id r).results.length =
        σ.session.results.length :=
      List.length_set
    refine ⟨transactions, length.trans (same _), fun r given here => ?_⟩
    refine scope r ((same _).symm ▸ given) ?_
    rw [Session.result_setResult_eq]
    by_cases own : id = r
    · rw [if_pos ⟨own, own ▸ given⟩]
      exact .inr (Option.some_ne_none _)
    · rw [if_neg fun e => own e.1]
      refine here.imp_left fun mem => ?_
      exact (List.mem_cons.mp mem).resolve_left fun e => own e.symm

/-- What is left to do for a rollback, in a transaction that has failed or not. -/
theorem rolledBack_along (id : TransactionId) (failed : Prop) [Decidable failed] :
    Op.Along peer e (
      if failed then liftM (abortUnit peer.recorded) else do
        match ← attempt (rollbackHeld peer.recorded id) with
        | .ok _ => liftM (endUnit peer.recorded)
        | .error fault =>
          liftM (abortUnit peer.recorded)
          throw fault : Op (Recorded ω) Unit) := by
  split
  · exact .lift abortUnit_along
  · refine .bind (.attempt (rollbackHeld_along id)) fun outcome => ?_
    split
    · exact .lift endUnit_along
    · exact .failAfter abortUnit_along _

/-- A transaction that is rolled back has released its results. -/
theorem rollback_releases (tidy : σ.session.IsTidy) (id : TransactionId) :
    σ.session.Releases ((rollback peer.recorded id).exec σ).2.session := by
  suffices ended : (rollback peer.recorded id).Ends σ (fun _ τ => σ.session.Releases τ.session)
      fun _ τ => σ.session.Releases τ.session from ended.state
  rw [rollback, Op.ends_bind, Op.ends_theSession]
  dsimp only
  split
  · exact tidy.releases rfl (Nat.le_refl _)
  · next isOpen =>
    have isOpen : (σ.session.transaction id).state.isTerminated = false := by simpa using isOpen
    have here : id < σ.session.transactions.length := Session.lt_of_not_isTerminated isOpen
    rw [Op.ends_bind, takeResults, Op.ends_bind, Op.ends_theSession, Op.ends_bind,
      Op.ends_changeTransaction, Op.ends_pure, Op.ends_bind]
    refine abandonResults_ends.imp (fun _ τ h => ?_) fun _ _ h => h
    obtain ⟨transactions, length, scope⟩ := h
    rw [Op.ends_bind, setState, Op.ends_changeTransaction]
    have old (other : TransactionId) : τ.session.transaction other = (σ.session.setTransaction id
        { σ.session.transaction id with results := [] }).transaction other := by
      simp only [Session.transaction, transactions]
    have released : σ.session.Releases (τ.session.setTransaction id
        { τ.session.transaction id with state := .rolledBack }) := by
      refine tidy.drop id ?_ (fun other apart => ?_) (Nat.le_of_eq length.symm) fun r hr => ?_
      · rw [Session.transaction_setTransaction_eq]
        split <;> rw [old, Session.transaction_setTransaction_eq, if_pos ⟨rfl, here⟩]
      · rw [Session.transaction_setTransaction_eq, if_neg fun e => apart e.1.symm, old,
          Session.transaction_setTransaction_eq, if_neg fun e => apart e.1.symm]
        exact ⟨rfl, fun ended => ended⟩
      · exact scope r (tidy.given id r hr) (.inl hr)
    exact Op.Ends.imp ((rolledBack_along (e := {}) id _).ends _)
      (fun _ υ path => path.releases (fun n => n) released)
      fun _ υ path => path.releases (fun n => n) released

theorem rollback_along (enlists : e.enlists) (id : TransactionId) :
    (rollback peer.recorded id).Along peer e := by
  have walked : (rollback peer.recorded id).Along peer { e with commits := True } := by
    refine .bind .theSession fun s => ?_
    dsimp only
    split
    · exact .throw _
    · have took : Op.Along (ω := ω) peer { e with commits := True } (takeResults id) :=
        takeResults_along (e := { e with commits := True }) enlists trivial id
      have ended : Op.Along (ω := ω) peer { e with commits := True } (setState id .rolledBack) :=
        setState_along (e := { e with commits := True }) enlists trivial id _
      exact took.bind fun results => .bind (.forM fun _ => abandonResult_along _) fun _ =>
        ended.bind fun _ => rolledBack_along id _
  exact fun σ => (walked σ).strict fun tidy => rollback_releases tidy id

theorem closeTransaction_along (enlists : e.enlists) (id : TransactionId) :
    (closeTransaction peer.recorded id).Along peer e := by
  refine .bind .theSession fun s => ?_
  split
  · exact rollback_along enlists id
  · exact .pure _

theorem closeQuietly_along (enlists : e.enlists) (id : TransactionId) :
    (closeQuietly peer.recorded id).Along peer e := by
  refine .bind (.run (closeTransaction_along enlists id)) fun outcome => ?_
  split
  · exact .pure _
  · exact Act.along_note _

theorem settle_along (enlists : e.enlists) (commits : e.commits) (id : TransactionId)
    (outcome : Except Fault α) : (settle peer.recorded id outcome).Along peer e := by
  refine .bind (.attempt (.bind (.settleOn _) fun _ =>
    .bind (commit_along enlists commits id) fun _ => .pure _)) fun committed => ?_
  split
  · exact .pure _
  · exact .failAfter (closeQuietly_along enlists id) _

theorem dropHandle_along (id : TransactionId) : (dropHandle peer.recorded id).Along peer e := by
  have dropped : Act.Along (ω := ω) peer e (changeTransaction id ({ · with holder := .nobody })) :=
    Act.along_changeSession fun _ => .keepTransaction rfl fun h => h
  refine .bind .theSession fun s => ?_
  dsimp only
  split
  · split
    · exact .bind (Act.along_note _) fun _ => dropped
    · exact dropped
  · exact .pure _

/-! ## Beginning work -/

theorem checkOpen_along : Op.Along (ω := ω) peer e checkOpen := by
  refine .bind .theSession fun s => ?_
  split
  · exact .throw _
  · exact .pure _

theorem reapTransaction_along (enlists : e.enlists) :
    (reapTransaction peer.recorded).Along peer e := by
  refine .bind .theSession fun s => ?_
  dsimp only
  split
  · exact .pure _
  · next id _ =>
    have closed (orphan : Bool) : Op.Along peer e (do
        changeSession ({ · with current := none })
        if orphan then
          note peer.recorded .orphanRolledBack
          closeQuietly peer.recorded id : Op (Recorded ω) Unit) := by
      refine .bind (Op.along_changeSession fun _ => .same rfl rfl rfl fun _ => rfl) fun _ => ?_
      split
      · exact .bind (.lift (Act.along_note _)) fun _ => .lift (closeQuietly_along enlists id)
      · exact .pure _
    split
    · exact .bind (.throw _) fun _ => closed _
    · exact closed _

theorem bufferAutoResult_along : (bufferAutoResult peer.recorded).Along peer e := by
  refine .bind .theSession fun s => ?_
  split
  · exact .pure _
  · exact .bind (Op.along_changeSession fun _ => .same rfl rfl rfl fun _ => rfl)
      fun _ => reads_along.bufferAll _

/-- Whoever has connected and fetched bookmarks knows where the work goes. -/
theorem connected_along (mode : AccessMode) (api : ApiKind) :
    Op.Ends (do
      let database ← connect peer.recorded mode api e.overrides
      let bookmarks ← bookmarksForWork peer.recorded
      return (database, bookmarks) : Op (Recorded ω) (Option String × Bookmarks)) σ
      (fun p τ => Path peer e σ τ ∧
        ∀ known, e.overrides.direction peer.routing τ.session.target = some known → p.1 = known)
      fun _ τ => Path peer e σ τ := by
  rw [Op.ends_bind]
  refine (connect_along mode api).imp (fun database τ h => ?_) fun _ _ path => path
  obtain ⟨path, goes⟩ := h
  rw [Op.ends_bind]
  have fetched : Path peer e τ ((bookmarksForWork peer.recorded).exec τ).2 :=
    bookmarksForWork_along τ
  refine ((Op.ends_after path fetched).and bookmarksForWork_fetch).imp (fun b υ h => ?_)
    fun _ _ h => h.1
  obtain ⟨path, session, -⟩ := h
  refine ⟨path, fun known direction => goes known ?_⟩
  rwa [session] at direction

/-- A unit begins: the target takes what the begin is answered, and the begin goes where the
    target says.  Nothing is overridden in a transaction. -/
theorem openTransaction_along (own : e.overrides = {}) (mode : AccessMode) (api : ApiKind)
    (config : TransactionConfig) (holder : Holder) :
    (openTransaction peer.recorded mode api config holder).Along peer e := by
  intro σ
  refine Op.Ends.state ?_
  rw [openTransaction, Op.ends_bind]
  refine (beginUnit_along.ends σ).imp (fun _ τ begun => ?_) fun _ _ path => path
  rw [Op.ends_bind, Op.ends_attempt, ← own]
  refine (connected_along mode api).imp (fun p υ h => ?_) fun fault υ path => ?_
  · obtain ⟨path, goes⟩ := h
    have path := begun.andThen path
    have failed (fault : Fault) : Op.Along peer e
        (failAfter (abortUnit peer.recorded) fault : Op (Recorded ω) TransactionId) :=
      .failAfter abortUnit_along _
    rw [Op.ends_bind, Op.ends_theSession, Op.ends_bind, Op.ends_attempt, beginHeld]
    cases held : υ.session.connection with
    | none =>
      rw [sendHeld, Op.ends_bind, Op.ends_theSession, held]
      exact Op.ends_after path (failed .noConnection υ)
    | some c =>
      refine Op.ends_sendHeld held (fun named w => ?_) fun fault w => ?_
      · rw [Op.ends_bind, Op.ends_lift]
        have keptHandles : υ.session.KeepsHandles e υ.session := .same rfl rfl rfl fun _ => rfl
        refine Act.Ends.imp (pinDatabase_along keptHandles rfl ?_ fun s hs => ?_) fun _ φ here => ?_
        · exact goes
        · rfl
        · exact (path.andThen here).andThen (.silent (.addTransaction rfl) rfl)
      · exact Op.ends_after (path.andThen (.heeds w goes fun _ => rfl)) (failed fault _)
  · have ended : Op.Along peer e
        (failAfter (endUnit peer.recorded) fault : Op (Recorded ω) TransactionId) :=
      .failAfter endUnit_along _
    exact Op.ends_after (begun.andThen path) (ended υ)

/-- A query that is a unit of its own goes where its settings or the target say. -/
theorem run_along (enlists : e.enlists) (alone : e.alone = true) {source : QuerySource}
    {params : Option Params}
    (own : ∀ query o, Query.ofSource source = .ok query →
      (Overrides.extract (mergeParameters params query.parameters)).1 = .ok o → e.overrides = o) :
    (run peer.recorded source params).Along peer e := by
  intro σ
  refine Op.Ends.state ?_
  rw [run, Op.ends_bind, Op.ends_settleOn]
  refine ⟨fun query source => ?_, fun _ _ => Path.rest σ⟩
  rw [Op.ends_bind]
  refine (checkOpen_along.ends σ).imp (fun _ τ checked => ?_) fun _ _ path => path
  rw [Op.ends_bind]
  refine (Op.ends_after checked (reapTransaction_along enlists τ)).imp (fun _ υ reaped => ?_)
    fun _ _ path => path
  dsimp only
  rw [Op.ends_bind, Op.ends_settleOn]
  refine ⟨fun o extracted => ?_, fun _ _ => reaped⟩
  obtain rfl := own query o source extracted
  rw [Op.ends_bind, Op.ends_theSession, Op.ends_bind]
  refine (Op.ends_after reaped (beginUnit_along υ)).imp (fun _ φ begun => ?_) fun _ _ path => path
  rw [Op.ends_bind, Op.ends_attempt, Op.ends_bind]
  have ended (fault : Fault) : Op.Along peer e
      (failAfter (endUnit peer.recorded) fault : Op (Recorded ω) ResultId) :=
    .failAfter endUnit_along _
  refine (Op.ends_after begun (bufferAutoResult_along φ)).imp (fun _ χ buffered => ?_)
    fun fault χ path => Op.ends_after path (ended fault χ)
  refine (connected_along υ.session.config.defaultMode .autoCommit).imp (fun p ψ h => ?_)
    fun fault ψ path => Op.ends_after (buffered.andThen path) (ended fault ψ)
  obtain ⟨path, goes⟩ := h
  have path := buffered.andThen path
  dsimp only
  rw [Op.ends_bind]
  have pins : (Origin.autoCommit p.2 e.overrides.database.isNone).pins = e.pins := by
    rw [Purpose.pins, alone]
    rfl
  refine (startResult_along pins fun _ => goes).imp (fun id χ started => ?_)
    fun _ _ started => path.andThen started
  exact (path.andThen started.1).andThen (.silent (.same rfl rfl rfl fun _ => rfl) rfl)

theorem beginTransaction_along (enlists : e.enlists) (own : e.overrides = {})
    (config : TransactionConfig) : (beginTransaction peer.recorded config).Along peer e := by
  have begun (s : Session) : Op.Along peer e (do
      let id ← openTransaction peer.recorded s.config.defaultMode .explicitTransaction config
        .caller
      changeSession ({ · with current := some id })
      return id : Op (Recorded ω) TransactionId) :=
    .bind (openTransaction_along own _ _ _ _) fun _ =>
      .bind (Op.along_changeSession fun _ => .same rfl rfl rfl fun _ => rfl) fun _ => .pure _
  refine .bind checkOpen_along fun _ => .bind (reapTransaction_along enlists) fun _ =>
    .bind .theSession fun s => ?_
  dsimp only
  split
  · exact .bind (.throw _) fun _ => begun s
  · exact begun s

theorem prepareExecute_along (enlists : e.enlists) :
    (prepareExecute peer.recorded).Along peer e :=
  .bind checkOpen_along fun _ => .bind (reapTransaction_along enlists) fun _ =>
    bufferAutoResult_along

/-! ## The session as such -/

theorem lastBookmarks_along : (lastBookmarks peer.recorded).Along peer e := by
  refine .bind .theSession fun s => ?_
  dsimp only
  split
  · exact .bind (reads_along.bufferAll _) fun _ => .bind .theSession fun _ => .pure _
  · exact .bind .theSession fun _ => .pure _

theorem lastBookmark_along : (lastBookmark peer.recorded).Along peer e :=
  .bind (.lift (Act.along_note _)) fun _ => .bind lastBookmarks_along fun _ => .pure _

theorem serverInfo_along (own : e.overrides = {}) : (serverInfo peer.recorded).Along peer e := by
  refine .bind checkOpen_along fun _ => .bind .theSession fun s => ?_
  split
  · exact .pure _
  · intro σ
    refine Op.Ends.state ?_
    rw [← own, Op.ends_bind]
    refine resolveDatabase_finds.imp (fun database τ finds => ?_) fun _ _ path => path
    rw [Op.ends_bind]
    refine (acquire_along finds _ _ _).imp (fun c υ h => ?_) fun _ _ path => path
    rw [Op.ends_bind, Op.ends_lift]
    exact Act.ends_giveBack fun w => h.1.andThen
      (.quiet w ⟨fun _ _ _ _ => trivial, fun _ _ => rfl⟩)

theorem endCurrent_along (enlists : e.enlists) : (endCurrent peer.recorded).Along peer e := by
  refine .bind .theSession fun s => ?_
  split
  · exact .pure _
  · exact .bind (Act.along_changeSession fun _ => .same rfl rfl rfl fun _ => rfl) fun _ =>
      closeQuietly_along enlists _

theorem consumeAutoResult_along : (consumeAutoResult peer.recorded).Along peer e := by
  refine .bind .theSession fun s => ?_
  split
  · exact .pure _
  · refine .bind (Act.along_changeSession fun _ => .same rfl rfl rfl fun _ => rfl) fun _ =>
      .bind (.run (reads_along.consume _)) fun outcome => ?_
    split
    · exact .pure _
    · exact Act.along_note _

theorem close_along (enlists : e.enlists) (closes : e.closes) :
    (close peer.recorded).Along peer e := by
  refine .bind .theSession fun s => ?_
  split
  · exact .bind (endCurrent_along enlists) fun _ => .bind consumeAutoResult_along fun _ =>
      .bind endAllUnits_along fun _ => .bind (Act.along_changeSession fun _ =>
        .same rfl rfl rfl fun n => absurd closes n) fun _ => Act.along_note _
  · exact .pure _

/-! ## Handles -/

theorem Access.perform_along (enlists : e.enlists) (plain : e.alone = false) (a : Access)
    (commits : ∀ id, a = .commit id → e.commits) : (a.perform peer.recorded).Along peer e := by
  have checked (id : TransactionId) (allowed : Holder → Bool) :
      Op.Along (ω := ω) peer e (checkHolder id allowed) := by
    refine .bind .theSession fun s => ?_
    split
    · exact .throw _
    · exact .pure _
  cases a with
  | run id source params =>
    exact .bind (checked _ _) fun _ => runIn_along plain enlists _ _ _
  | commit id => exact .bind (checked _ _) fun _ => commit_along enlists (commits id rfl) id
  | rollback id => exact .bind (checked _ _) fun _ => rollback_along enlists id
  | close id => exact .bind (checked _ _) fun _ => closeTransaction_along enlists id
  | drop id => exact .lift (dropHandle_along id)
  | viewTransaction id => exact .bind .theSession fun _ => .pure _
  | next id => exact reads_along.next id
  | peek id => exact reads_along.peek id
  | single id => exact reads_along.single id
  | collect id => exact reads_along.collect id
  | drain id => exact .lift (reads_along.drain id)
  | consume id => exact reads_along.consume id
  | viewResult id => exact .bind .theSession fun _ => .pure _

end GraphSession
