import GraphSession.Proofs.Course
import GraphSession.Session.Execute
import GraphSession.Session.Lifecycle

/-!
  What license each action of a session needs.
-/

namespace GraphSession

variable {ω α : Type} {peer : Peer ω} {may : License}

/-- A change of nothing that a license is about. -/
theorem Session.Tends.same {s t : Session} (config : t.config = s.config)
    (autoResult : t.autoResult = s.autoResult) (current : t.current = s.current)
    (closed : t.closed = s.closed) (connection : t.connection = s.connection)
    (transactions : t.transactions = s.transactions) : s.Tends may t :=
  ⟨⟨config, fun _ => ⟨autoResult, current, closed⟩, .same transactions⟩, fun _ => connection⟩

/-! ## Units and connection -/

theorem releaseConnection_within : (releaseConnection peer.recorded).Within may := by
  intro σ
  rw [releaseConnection, Act.exec_bind, Act.exec_theSession]
  cases held : σ.session.connection with
  | none => exact .rest _ _
  | some c => exact (Course.release _ held).andThen (.aside _ trivial)

theorem beginUnit_within : Op.Within (ω := ω) may beginUnit :=
  .changeSession (fun _ => rfl) fun _ => .same rfl rfl rfl rfl rfl rfl

theorem endUnit_within : (endUnit peer.recorded).Within may := by
  refine .bind (.changeSession (fun _ => rfl) fun _ => .same rfl rfl rfl rfl rfl rfl) fun _ =>
    .bind .theSession fun s => ?_
  split
  · exact releaseConnection_within
  · exact .pure ()

/-- A message on the connection that the session holds. -/
theorem send_course {c : Connection} {σ : State (Recorded ω)} {sender : Sender} {m : Message}
    (held : σ.session.connection = some c)
    (plain : ∀ answer, (Happening.asked (.send c sender m) answer).IsPlain)
    (unbegun : ∀ answer, (Happening.asked (.send c sender m) answer).begun? = none)
    (unfailed : ∀ answer, (Happening.asked (.send c sender m) answer).failsTelemetry = false)
    (commits : ∀ answer,
      (Happening.asked (.send c sender m) answer).isCommit = true → may.commits) :
    Course may σ ((send peer.recorded c sender m).exec σ).2 := by
  rw [Op.exec_send, heard_answer]
  exact .message _ held (plain _) (unbegun _) (unfailed _) (commits _)

theorem abortUnit_within : (abortUnit peer.recorded).Within may := by
  intro σ
  rw [abortUnit, Act.exec_bind, Act.exec_theSession]
  cases held : σ.session.connection with
  | none => exact endUnit_within σ
  | some c =>
    have reset : Course may σ (Act.exec (send peer.recorded c .session .reset).run σ).2 :=
      send_course held (fun _ => trivial) (fun _ => rfl) (fun _ => rfl) fun _ e => by cases e
    refine Act.course_bind reset fun outcome τ _ => ?_
    cases outcome with
    | ok _ => exact endUnit_within τ
    | error fault => exact Act.Within.bind (.note _) (fun _ => endUnit_within) τ

theorem endAllUnits_within : (endAllUnits peer.recorded).Within may :=
  .bind (.changeSession (fun _ => rfl) fun _ => .same rfl rfl rfl rfl rfl rfl) fun _ =>
    releaseConnection_within

/-! ## Bookmarks and target -/

theorem bookmarksForWork_within : (bookmarksForWork peer.recorded).Within may := by
  refine .bind .theSession fun s => ?_
  split
  · exact .bind (fun σ => .aside _ trivial) fun _ => .pure _
  · exact .pure _

theorem takeBookmark_within (sent : Bookmarks) (token : String) :
    (takeBookmark peer.recorded sent token).Within may := by
  refine .bind (.changeSession (fun _ => rfl) fun _ => .same rfl rfl rfl rfl rfl rfl) fun _ =>
    .bind .theSession fun s => ?_
  split
  · exact fun σ => .aside _ trivial
  · exact .pure _

theorem takeBookmark?_within (sent : Bookmarks) (token : Option String) :
    (takeBookmark? peer.recorded sent token).Within may := by
  cases token with
  | none => exact .pure _
  | some token => exact takeBookmark_within sent token

theorem pinDatabase_within (named : Option String) :
    (pinDatabase peer.recorded named).Within may := by
  cases named with
  | none => exact .pure _
  | some database =>
    refine .bind .theSession fun s => ?_
    split
    · exact .bind (.note _) fun _ =>
        .changeSession (fun _ => rfl) fun _ => .same rfl rfl rfl rfl rfl rfl
    · exact .pure _

theorem findHome_within (o : Overrides) : (findHome peer.recorded o).Within may :=
  .bind .theSession fun _ => .bind bookmarksForWork_within fun _ =>
    .bind (fun _ => .aside _ (by trivial)) fun _ => .pure _

theorem resolveDatabase_within (o : Overrides) :
    (resolveDatabase peer.recorded o).Within may := by
  refine .bind .theSession fun s => ?_
  split
  · exact .pure _
  · exact .pure _
  · split
    · exact .pure _
    · refine .bind (findHome_within o) fun home => .bind .theSession fun s => ?_
      split
      · exact .bind (.changeSession (fun _ => rfl) fun _ => .same rfl rfl rfl rfl rfl rfl) fun _ =>
          .bind (.lift (.note _)) fun _ => .pure _
      · exact .bind (.lift (.note _)) fun _ => .pure _

theorem acquire_within (h : may.borrows) (mode : AccessMode) (database user : Option String)
    (api : Option ApiKind) : (acquire peer.recorded mode database user api).Within may := by
  refine .bind .theSession fun s => .bind bookmarksForWork_within fun b σ => ?_
  refine Op.Ends.course (Op.ends_bind.mpr ?_)
  refine Op.ends_borrow (fun c w => ?_) fun fault w => .borrowing w h trivial
  have lent (request : AcquireRequest) : Course may σ (σ.heard (.acquire request) (.ok c) w) :=
    .borrowing w h trivial
  have noted {τ : State (Recorded ω)} (course : Course may σ τ) :
      Op.Ends (do
        liftM (note peer.recorded (.connectionAcquired mode api))
        return c : Op (Recorded ω) Connection) τ (fun _ => Course may σ) fun _ => Course may σ :=
    course.ends (Op.Within.bind (.lift (.note _)) (fun _ => .pure _) τ)
  dsimp only
  split
  · split
    · rw [Op.ends_bind, Op.ends_attempt]
      refine Op.ends_send (fun _ w' => noted ((lent _).andThen (.borrowing w' h trivial)))
        fun fault w' => ?_
      rw [Op.ends_bind, Op.ends_lift]
      exact Act.ends_giveBack fun w'' => .loanRefused w'' h _ c _ fault
    · exact noted (lent _)
  · exact noted (lent _)

theorem connect_within (h : may.borrows) (mode : AccessMode) (api : ApiKind) (o : Overrides) :
    (connect peer.recorded mode api o).Within may := by
  refine .bind .theSession fun s => ?_
  split
  · exact .pure _
  · exact .bind (resolveDatabase_within o) fun database =>
      .bind (acquire_within h _ _ _ _) fun c =>
        .bind (.changeSession (fun _ => rfl) fun _ =>
          ⟨⟨rfl, fun _ => ⟨rfl, rfl, rfl⟩, .same rfl⟩, fun n => absurd h n⟩) fun _ => .pure _

/-! ## Streams -/

/-- A change of a transaction, in its place. -/
theorem Session.Tends.setTransaction {s : Session} {id : TransactionId} {t : Transaction}
    (leads : (s.transaction id).state.LeadsTo t.state)
    (undecided : ¬ may.concludes →
      t.state.isTerminated = (s.transaction id).state.isTerminated) :
    s.Tends may (s.setTransaction id t) :=
  ⟨⟨rfl, fun _ => ⟨rfl, rfl, rfl⟩, .setTransaction leads undecided⟩, fun _ => rfl⟩

/-- A change of a transaction that leaves its state. -/
theorem changeTransaction_within (id : TransactionId) {f : Transaction → Transaction}
    (same : ∀ t, (f t).state = t.state) : Op.Within (ω := ω) may (changeTransaction id f) :=
  .changeSession (fun _ => rfl) fun _ =>
    .setTransaction (by rw [same]; exact .refl _) fun _ => by rw [same]

theorem abortOrigin_within (origin : Origin) : (abortOrigin peer.recorded origin).Within may := by
  cases origin with
  | autoCommit _ _ => exact abortUnit_within
  | transaction id =>
    -- only an active transaction fails
    refine .changeSession (fun _ => rfl) fun s => .setTransaction ?_ fun _ => ?_
    · dsimp only
      split
      · next active => rw [active]; trivial
      · exact .refl _
    · dsimp only
      split
      · next active => rw [active]; rfl
      · rfl

/-- The end of a unit of work that was done: its bookmark is reported, and the unit ends whatever
    the report comes to. -/
def reportAndEnd (peer : Peer ω) (sent : Bookmarks) (token : Option String) : Op ω Unit := do
  let reported ← attempt (takeBookmark? peer sent token)
  endUnit peer
  settleOn reported

theorem reportAndEnd_within (sent : Bookmarks) (token : Option String) :
    (reportAndEnd peer.recorded sent token).Within may :=
  .bind (.attempt (takeBookmark?_within _ _)) fun _ => .bind (.lift endUnit_within) fun _ =>
    .settleOn _

theorem completeOrigin_within (summary : Summary) (origin : Origin) :
    (completeOrigin peer.recorded summary origin).Within may := by
  cases origin with
  | transaction _ => exact .pure _
  | autoCommit sent pins =>
    cases pins with
    | true => exact .bind (.lift (pinDatabase_within _)) fun _ => reportAndEnd_within _ _
    | false => exact reportAndEnd_within _ _

/-- A stream ends well when all records have come, or when the rest may be dropped. -/
theorem finishStream_course {id : ResultId} {σ : State (Recorded ω)} (metadata : Metadata)
    (streaming : (σ.session.result id).isStreaming = true)
    (h : may.drops id ∨ History.Complete id σ.history) :
    Course may σ ((finishStream peer.recorded id metadata).exec σ).2 := by
  rw [finishStream, Op.exec_bind, Op.exec_theSession]
  exact Op.course_bind (.finish _ streaming h) fun _ τ _ => completeOrigin_within _ _ τ

theorem failStream_within (id : ResultId) (fault : Fault) :
    (failStream peer.recorded id fault).Within may := by
  refine .bind .theSession fun s => .bind (fun σ => ?_) fun _ => abortOrigin_within _
  exact .retire rfl (fun e => by cases e)
    (Result.unusable_iff.mpr (.inr (.inr (by simp [StreamState.failure?]))))

/-- A result that is streaming fetches. -/
theorem fetch_course {id : ResultId} {σ : State (Recorded ω)}
    (streaming : (σ.session.result id).isStreaming = true) :
    Course may σ ((fetch peer.recorded id).exec σ).2 := by
  have failed (fault : Fault) : Op.Within may
      (failAfter (failStream peer.recorded id fault) fault : Op (Recorded ω) Bool) :=
    .failAfter (failStream_within _ _) _
  rw [fetch, Op.exec_bind, Op.exec_attempt, Op.exec_pullHeld, Op.exec_sendHeld]
  cases held : σ.session.connection with
  | none => exact failed _ σ
  | some c =>
    simp only [heard_answer]
    generalize (peer.answer (.send c (.result id) (.pull σ.session.fetchSize)) σ.world.world).2 = w
    cases (peer.recorded.answer (.send c (.result id) (.pull σ.session.fetchSize)) σ.world).1 with
    | error fault =>
      exact (Course.message _ held (by trivial) rfl rfl fun e => by cases e).andThen (failed _ _)
    | ok batch =>
      refine (Course.absorb σ.session.fetchSize batch w held streaming).andThen ?_
      show Course may _ (Op.exec (if batch.more then Pure.pure true else do
        finishStream peer.recorded id batch.metadata; Pure.pure false) _).2
      split
      · exact .rest _ _
      · next last =>
        have still {r : Result} (same : r.isStreaming = (σ.session.result id).isStreaming) :
            ((σ.session.setResult id r).result id).isStreaming = true := by
          rw [Session.result_setResult _ _ _ (Session.lt_of_isStreaming streaming), if_pos rfl,
            same, streaming]
        exact Op.course_bind (finishStream_course _ (still rfl)
          (.inr ⟨_, List.mem_cons_self, rfl, by simpa using last⟩)) fun _ τ _ => .rest _ τ

/-- The rest is dropped of a result that is streaming. -/
theorem discardRest_within {id : ResultId} (h : may.drops id) :
    (discardRest peer.recorded id).Within may := by
  have failed (fault : Fault) : Op.Within may
      (failAfter (failStream peer.recorded id fault) fault : Op (Recorded ω) Unit) :=
    .failAfter (failStream_within _ _) _
  intro σ
  apply Op.Ends.course
  rw [discardRest, Op.ends_bind, Op.ends_theSession]
  split
  · next streaming =>
    rw [Op.ends_bind, Op.ends_attempt, discardHeld]
    cases held : σ.session.connection with
    | none =>
      rw [sendHeld, Op.ends_bind, Op.ends_theSession, held]
      exact (Course.rest may σ).ends (failed .noConnection σ)
    | some c =>
      refine Op.ends_sendHeld held (fun metadata w => ?_) fun fault w => ?_
      · exact (Course.message w held (by trivial) rfl rfl fun e => by cases e).ends
          (finishStream_course metadata streaming (.inl h))
      · exact (Course.message w held (by trivial) rfl rfl fun e => by cases e).ends (failed fault _)
  · exact .rest may σ

/-- All that pinning a database does: a note perhaps, and a target. -/
theorem pinDatabase_ends {named : Option String} {σ : State (Recorded ω)}
    {post : Unit → State (Recorded ω) → Prop}
    (h : ∀ later target w, (∀ e ∈ later, ∃ event, e = Happening.asked (.note event) ()) →
      post () { session := { σ.session with target }, world := ⟨w, later ++ σ.history⟩ }) :
    (pinDatabase peer.recorded named).Ends σ post := by
  cases named with
  | none => exact h [] σ.session.target σ.world.world (by simp)
  | some database =>
    rw [pinDatabase, Act.ends_bind, Act.ends_theSession]
    split
    · rw [Act.ends_bind]
      refine Act.ends_note fun w => ?_
      exact h [.asked (.note (.databasePinned database)) ()] (.resolved (some database)) w (by simp)
    · exact h [] σ.session.target σ.world.world (by simp)

theorem startResult_within (request : RunRequest) (origin : Origin) :
    (startResult peer.recorded request origin).Within may := by
  have failed (fault : Fault) : Op.Within may
      (failAfter (abortOrigin peer.recorded origin) fault : Op (Recorded ω) ResultId) :=
    .failAfter (abortOrigin_within _) _
  intro σ
  apply Op.Ends.course
  rw [startResult, Op.ends_bind, Op.ends_theSession]
  cases held : σ.session.connection with
  | none =>
    rw [Op.ends_bind, Op.ends_attempt, runHeld, sendHeld, Op.ends_bind, Op.ends_theSession, held]
    exact (Course.rest may σ).ends (failed .noConnection σ)
  | some c =>
    rw [Op.ends_bind, Op.ends_attempt]
    refine Op.ends_sendHeld held (fun reply w => ?_) fun fault w =>
      (Course.message w held (by trivial) rfl rfl fun e => by cases e).ends (failed _ _)
    -- a note about the database may come before the result is there
    have added (r : Result) (later : History) (target : Target) (w' : ω)
        (notes : ∀ e ∈ later, ∃ event, e = Happening.asked (.note event) ())
        (keys : r.keys = reply.keys) (buffer : r.buffer = []) (usable : r.unusable? = none)
        (streaming : r.isStreaming = true) :
        Op.Ends (do
          let id ← addResult r
          let _ ← fetch peer.recorded id
          return id : Op (Recorded ω) ResultId)
          { session := { σ.session with target }
            world := ⟨w', later ++ (σ.heard (.send c (.result σ.session.nextResult) (.run request))
              (.ok reply) w).history⟩ }
          (fun _ => Course may σ) (fun _ => Course may σ) := by
      have started : Course may σ
          { session := { σ.session with target, results := σ.session.results ++ [r] }
            world := ⟨w', later ++ (σ.heard (.send c (.result σ.session.nextResult) (.run request))
              (.ok reply) w).history⟩ } :=
        .start held rfl notes rfl keys buffer usable streaming (.same rfl rfl rfl rfl rfl rfl)
      rw [Op.ends_bind, Op.ends_addResult]
      refine started.ends (Op.course_bind (fetch_course ?_) fun _ τ _ => .rest _ τ)
      have new := (Session.result_add { σ.session with target } r σ.session.nextResult).trans
        (if_pos rfl)
      exact (congrArg Result.isStreaming new).trans streaming
    cases origin.pins with
    | true =>
      refine Op.ends_bind.mpr (Op.ends_lift.mpr (pinDatabase_ends fun later target w' notes => ?_))
      exact added _ later target w' notes rfl rfl rfl rfl
    | false => exact added _ [] σ.session.target w (by simp) rfl rfl rfl rfl

/-! ## Reading -/

theorem fetchWhile_within (id : ResultId) (hungry : Result → Bool) :
    (fetchWhile peer.recorded id hungry).Within may := by
  intro σ
  apply Op.Ends.course
  refine fetchWhile_ends (Course may σ) (.rest may σ) (fun τ h streaming => ?_) fun τ h _ => h
  refine (h.ends (fetch_course streaming)).imp (fun more υ h => ?_) fun _ _ h => h
  cases more <;> exact h

theorem bufferAll_within (id : ResultId) : (bufferAll peer.recorded id).Within may :=
  fetchWhile_within id _

theorem checkUsable_within (id : ResultId) : Op.Within (ω := ω) may (checkUsable id) := by
  refine .bind .theSession fun s => ?_
  split
  · exact .throw _
  · exact .pure _

theorem peek_within (id : ResultId) : (peek peer.recorded id).Within may :=
  .bind (checkUsable_within id) fun _ => .bind (fetchWhile_within id _) fun _ =>
    .bind .theSession fun _ => .pure _

theorem next_within {id : ResultId} (h : may.takes id) : (next peer.recorded id).Within may :=
  .bind (peek_within id) fun _ => .bind (fun _ => .take h _) fun _ => .pure _

theorem drainFrom_course {id : ResultId} (h : may.takes id) (read : List Record)
    (σ : State (Recorded ω)) : Course may σ (drainFrom peer.recorded id read σ).2 := by
  have emptied {τ : State (Recorded ω)} (hτ : Course may σ τ) : Course may σ (τ.emptied id) :=
    hτ.andThen (.take h _)
  refine drainFrom_ends (fun _ => Course may σ) (fun _ => Course may σ) (.rest may σ)
    (fun read τ hτ streaming => ?_) fun read τ hτ _ => emptied hτ
  have fetched : Course may (τ.emptied id) ((fetch peer.recorded id).exec (τ.emptied id)).2 :=
    fetch_course ((State.emptied_isStreaming τ id id).trans streaming)
  refine ((emptied hτ).ends fetched).imp (fun more υ h => ?_) fun _ _ h => h
  cases more with
  | true => exact h
  | false => exact emptied h

theorem drain_within {id : ResultId} (h : may.takes id) :
    (drain peer.recorded id).Within may := by
  refine .bind .theSession fun s => ?_
  split
  · exact .pure _
  · exact drainFrom_course h []

theorem collect_within {id : ResultId} (h : may.takes id) :
    (collect peer.recorded id).Within may := by
  refine .bind (.lift (drain_within h)) fun outcome => ?_
  split
  · exact .pure _
  · exact .throw _

theorem single_within {id : ResultId} (takes : may.takes id) (drops : may.drops id) :
    (single peer.recorded id).Within may := by
  rw [single_eq]
  have verdict (first second : Option Record) : Op.Within may (do
      discardRest peer.recorded id
      settleOn (onlyRecord first second) : Op (Recorded ω) Record) :=
    .bind (discardRest_within drops) fun _ => .settleOn _
  refine .bind (next_within takes) fun first => ?_
  split
  · exact .bind (next_within takes) fun second => verdict first second
  · exact .bind (.pure none) fun second => verdict first second

theorem consume_within {id : ResultId} (h : may.drops id) :
    (consume peer.recorded id).Within may := by
  refine .bind .theSession fun s => .bind (.failIf _) fun _ => ?_
  split
  · exact .pure _
  · refine .bind (discardRest_within h) fun _ => .bind (fun σ => ?_) fun _ =>
      .bind .theSession fun s => ?_
    · exact .retire rfl (fun h => h) (Result.unusable_iff.mpr (.inr (.inl rfl)))
    · split
      · exact .pure _
      · exact .throw _
      · exact .throw _

/-- A result is handled here only to be retired. -/
theorem endResult_within (id : ResultId) : (endResult peer.recorded id).Within may := by
  intro σ
  have drops : (may.handling id).drops id := .inl rfl
  let ended (r : Result) : Result := { r with buffer := [], outOfScope := some .committed }
  have spent (r : Result) : (ended r).unusable? ≠ none :=
    Result.unusable_iff.mpr (.inl (Option.some_ne_none _))
  have retired (τ : State (Recorded ω)) : Course (may.handling id) τ
      { τ with session := τ.session.setResult id (ended (τ.session.result id)) } :=
    .retire rfl (fun h => h) (spent _)
  exact .spend ((discardRest_within drops σ).andThen (retired _))
    (Session.unusable_setResult _ id (spent _))

/-! ## Transactions -/

/-- A transaction that is open ends. -/
theorem setState_course (h : may.concludes) {id : TransactionId} {state : TransactionState}
    (ended : state.isTerminated = true) {σ : State (Recorded ω)}
    (isOpen : (σ.session.transaction id).state.isTerminated = false) :
    Course may σ ((setState id state : Op (Recorded ω) Unit).exec σ).2 := by
  refine .tend rfl (.setTransaction (.of_open isOpen ?_) fun n => absurd h n) rfl
  rintro rfl
  cases ended

theorem takeResults_within (id : TransactionId) : Op.Within (ω := ω) may (takeResults id) :=
  .bind .theSession fun _ => .bind (changeTransaction_within id fun _ => rfl) fun _ => .pure _

theorem runIn_within (id : TransactionId) (source : QuerySource) (params : Option Params) :
    (runIn peer.recorded id source params).Within may := by
  have started (request : RunRequest) : Op.Within may (do
      let result ← startResult peer.recorded request (.transaction id)
      changeTransaction id fun t => { t with results := t.results ++ [result] }
      return result : Op (Recorded ω) ResultId) :=
    .bind (startResult_within _ _) fun _ =>
      .bind (changeTransaction_within id fun _ => rfl) fun _ => .pure _
  refine .bind (.settleOn _) fun query => .bind .theSession fun s => .bind (.failIf _) fun _ => ?_
  dsimp only
  cases (s.transaction id).results.getLast? with
  | none =>
    split
    · exact .bind (.throw _) fun _ => started _
    · exact started _
  | some latest =>
    split
    · exact .bind (.throw _) fun _ => .bind (bufferAll_within _) fun _ => started _
    · exact .bind (bufferAll_within _) fun _ => started _

theorem endResults_within (ids : List ResultId) : (endResults peer.recorded ids).Within may := by
  induction ids with
  | nil => exact .pure _
  | cons id rest ih => exact .bind (endResult_within id) fun _ => ih

/-- Only an active transaction is not refused. -/
theorem active_of_refusal? {t : Transaction} {action : String} (h : t.refusal? action = none) :
    t.state = .active := by
  unfold Transaction.refusal? at h
  split at h
  · assumption
  · cases h
  · cases h

/-- All that is sent for a commit; the transaction is still open then. -/
theorem commitSent_within (h : may.commits) (id : TransactionId) (results : List ResultId) :
    Op.Within may (do
      endResults peer.recorded results
      commitHeld peer.recorded id : Op (Recorded ω) (Option String)) := by
  refine .bind (endResults_within results) fun _ σ => ?_
  rw [commitHeld, Op.exec_sendHeld]
  cases held : σ.session.connection with
  | none => exact .rest _ _
  | some c => exact .message _ held (by trivial) rfl rfl fun _ => h

theorem commit_within (commits : may.commits) (concludes : may.concludes) (id : TransactionId) :
    (commit peer.recorded id).Within may := by
  intro σ
  apply Op.Ends.course
  rw [commit, Op.ends_bind, Op.ends_theSession, Op.ends_bind, Op.ends_failIf]
  refine ⟨fun allowed => ?_, fun _ _ => .rest may σ⟩
  have active := active_of_refusal? allowed
  have given : id < σ.session.transactions.length :=
    Session.lt_of_not_isTerminated (by rw [active]; rfl)
  have took (may : License) : Op.Within (ω := ω) may (takeResults id) := takeResults_within id
  rw [Op.ends_bind]
  refine (((took may).ends σ).and ((took {}).ends σ)).imp (fun results τ hτ => ?_) fun _ _ h => h.1
  obtain ⟨taken, unended⟩ := hτ
  have sent : Op.Within { commits := True } (do
      endResults peer.recorded results
      commitHeld peer.recorded id : Op (Recorded ω) (Option String)) :=
    commitSent_within trivial id results
  -- neither of the two ends the transaction, which is therefore open when its state is set
  have isOpen {υ : State (Recorded ω)} (h : Course { commits := True } τ υ) :
      (υ.session.transaction id).state.isTerminated = false := by
    rw [h.keeps.lasts.undecided (fun h => h) id
      (Nat.lt_of_lt_of_le given unended.keeps.lasts.given),
      unended.keeps.lasts.undecided (fun h => h) id given, active]
    rfl
  rw [Op.ends_bind, Op.ends_attempt]
  refine (((commitSent_within commits id results).ends τ).and (sent.ends τ)).imp ?_ ?_
  · intro token υ hυ
    exact (taken.andThen hυ.1).ends (Op.course_bind
      (setState_course concludes rfl (isOpen hυ.2)) fun _ φ _ => reportAndEnd_within _ _ φ)
  · intro fault υ hυ
    exact (taken.andThen hυ.1).ends (Op.course_bind
      (setState_course concludes rfl (isOpen hυ.2)) fun _ φ _ =>
        Op.Within.failAfter abortUnit_within _ φ)

theorem abandonResult_within (id : ResultId) : Op.Within (ω := ω) may (abandonResult id) := by
  refine fun σ => .retire rfl (fun h => ?_) (Result.unusable_iff.mpr (.inl (Option.some_ne_none _)))
  cases streaming : (σ.session.result id).isStreaming with
  | true => rfl
  | false =>
    simp only [streaming, Bool.false_eq_true, if_false] at h
    exact streaming.symm.trans h

/-- The same action for one result after the other. -/
theorem Op.Within.forM {ids : List ResultId} {f : ResultId → Op (Recorded ω) Unit}
    (h : ∀ id, (f id).Within may) : Op.Within may (ids.forM f) := by
  induction ids with
  | nil => exact .pure _
  | cons id rest ih => exact .bind (h id) fun _ => ih

theorem rollback_within (h : may.concludes) (id : TransactionId) :
    (rollback peer.recorded id).Within may := by
  have sent : (rollbackHeld peer.recorded id).Within may := by
    intro σ
    rw [rollbackHeld, Op.exec_sendHeld]
    cases held : σ.session.connection with
    | none => exact .rest _ _
    | some c => exact .message _ held (by trivial) rfl rfl fun e => by cases e
  intro σ
  apply Op.Ends.course
  rw [rollback, Op.ends_bind, Op.ends_theSession]
  dsimp only
  cases isOpen : (σ.session.transaction id).state.isTerminated with
  | true => exact .rest may σ
  | false =>
    have given : id < σ.session.transactions.length := Session.lt_of_not_isTerminated isOpen
    have took (may : License) : Op.Within (ω := ω) may (takeResults id) := takeResults_within id
    rw [if_neg Bool.false_ne_true, Op.ends_bind]
    refine (((took may).ends σ).and ((took {}).ends σ)).imp (fun results τ hτ => ?_)
      fun _ _ h => h.1
    obtain ⟨taken, unended⟩ := hτ
    have abandoned (may : License) : Op.Within (ω := ω) may
        (results.forM fun result => abandonResult result) := .forM fun _ => abandonResult_within _
    rw [Op.ends_bind]
    refine (((abandoned may).ends τ).and ((abandoned {}).ends τ)).imp (fun _ υ hυ => ?_)
      fun _ _ h => taken.andThen h.1
    have still : (υ.session.transaction id).state.isTerminated = false := by
      rw [hυ.2.keeps.lasts.undecided (fun h => h) id
        (Nat.lt_of_lt_of_le given unended.keeps.lasts.given),
        unended.keeps.lasts.undecided (fun h => h) id given, isOpen]
    refine (taken.andThen hυ.1).ends (Op.course_bind (setState_course h rfl still) fun _ φ _ => ?_)
    split
    · exact (Op.Within.lift abortUnit_within) φ
    · refine Op.Within.bind (.attempt sent) (fun outcome => ?_) φ
      split
      · exact .lift endUnit_within
      · exact .failAfter abortUnit_within _

theorem closeTransaction_within (h : may.concludes) (id : TransactionId) :
    (closeTransaction peer.recorded id).Within may := by
  refine .bind .theSession fun s => ?_
  split
  · exact rollback_within h id
  · exact .pure _

theorem closeQuietly_within (h : may.concludes) (id : TransactionId) :
    (closeQuietly peer.recorded id).Within may := by
  refine .bind (.run (closeTransaction_within h id)) fun outcome => ?_
  split
  · exact .pure _
  · exact .note _

theorem settle_within (commits : may.commits) (concludes : may.concludes) (id : TransactionId)
    (outcome : Except Fault α) : (settle peer.recorded id outcome).Within may := by
  refine .bind (.attempt (.bind (.settleOn _) fun _ =>
    .bind (commit_within commits concludes id) fun _ => .pure _)) fun committed => ?_
  split
  · exact .pure _
  · exact .failAfter (closeQuietly_within concludes id) _

theorem dropHandle_within (id : TransactionId) : (dropHandle peer.recorded id).Within may := by
  have changed : Act.Within (ω := ω) may (changeTransaction id ({ · with holder := .nobody })) :=
    .changeSession (fun _ => rfl) fun _ => .setTransaction (.refl _) fun _ => rfl
  refine .bind .theSession fun s => ?_
  dsimp only
  split
  · split
    · exact .bind (.note _) fun _ => changed
    · exact changed
  · exact .pure _

/-! ## Beginning work -/

theorem checkOpen_within : Op.Within (ω := ω) may checkOpen := by
  refine .bind .theSession fun s => ?_
  split
  · exact .throw _
  · exact .pure _

theorem reapTransaction_within (h : may.directs) (concludes : may.concludes) :
    (reapTransaction peer.recorded).Within may := by
  refine .bind .theSession fun s => ?_
  dsimp only
  split
  · exact .pure _
  · next id _ =>
    have forgotten : Op.Within (ω := ω) may (changeSession ({ · with current := none })) :=
      .changeSession (fun _ => rfl) fun _ => ⟨⟨rfl, fun n => absurd h n, .same rfl⟩, fun _ => rfl⟩
    have closed (orphan : Bool) : Op.Within may (do
        changeSession ({ · with current := none })
        if orphan then
          note peer.recorded .orphanRolledBack
          closeQuietly peer.recorded id : Op (Recorded ω) Unit) := by
      refine .bind forgotten fun _ => ?_
      split
      · exact .bind (.lift (.note _)) fun _ => .lift (closeQuietly_within concludes id)
      · exact .pure _
    split
    · exact .bind (.throw _) fun _ => closed _
    · exact closed _

theorem bufferAutoResult_within (h : may.directs) :
    (bufferAutoResult peer.recorded).Within may := by
  refine .bind .theSession fun s => ?_
  split
  · exact .pure _
  · exact .bind (.changeSession (fun _ => rfl) fun _ =>
      ⟨⟨rfl, fun n => absurd h n, .same rfl⟩, fun _ => rfl⟩) fun _ => bufferAll_within _

theorem openTransaction_within (h : may.borrows) (mode : AccessMode) (api : ApiKind)
    (config : TransactionConfig) (holder : Holder) :
    (openTransaction peer.recorded mode api config holder).Within may := by
  refine .bind beginUnit_within fun _ => .bind (.attempt (.bind (connect_within h mode api {})
    fun _ => .bind bookmarksForWork_within fun _ => .pure _)) fun prepared => ?_
  split
  · exact .failAfter endUnit_within _
  · intro σ
    apply Op.Ends.course
    rw [Op.ends_bind, Op.ends_theSession, Op.ends_bind, Op.ends_attempt, beginHeld]
    have failed (fault : Fault) : Op.Within may
        (failAfter (abortUnit peer.recorded) fault : Op (Recorded ω) TransactionId) :=
      .failAfter abortUnit_within _
    cases held : σ.session.connection with
    | none =>
      rw [sendHeld, Op.ends_bind, Op.ends_theSession, held]
      exact (Course.rest may σ).ends (failed .noConnection σ)
    | some c =>
      refine Op.ends_sendHeld held (fun named w => ?_) fun fault w =>
        (Course.message w held (by trivial) rfl rfl fun e => by cases e).ends (failed _ _)
      -- a note about the database may come before the transaction is there
      refine Op.ends_bind.mpr (Op.ends_lift.mpr (pinDatabase_ends fun later target w' notes => ?_))
      exact .begun held rfl notes rfl rfl ⟨⟨rfl, fun _ => ⟨rfl, rfl, rfl⟩, .add rfl⟩, fun _ => rfl⟩

theorem run_within (directs : may.directs) (borrows : may.borrows) (concludes : may.concludes)
    (source : QuerySource) (params : Option Params) :
    (run peer.recorded source params).Within may := by
  refine .bind (.settleOn _) fun query => .bind checkOpen_within fun _ =>
    .bind (reapTransaction_within directs concludes) fun _ => ?_
  dsimp only
  refine .bind (.settleOn _) fun o => .bind .theSession fun s => .bind beginUnit_within fun _ =>
    .bind (.attempt (.bind (bufferAutoResult_within directs) fun _ =>
      .bind (connect_within borrows _ _ _) fun _ => .bind bookmarksForWork_within fun _ =>
        .pure _)) fun prepared => ?_
  split
  · exact .failAfter endUnit_within _
  · exact .bind (startResult_within _ _) fun _ => .bind (.changeSession (fun _ => rfl) fun _ =>
      ⟨⟨rfl, fun n => absurd directs n, .same rfl⟩, fun _ => rfl⟩) fun _ => .pure _

theorem beginTransaction_within (directs : may.directs) (borrows : may.borrows)
    (concludes : may.concludes) (config : TransactionConfig) :
    (beginTransaction peer.recorded config).Within may := by
  have begun (s : Session) : Op.Within may (do
      let id ← openTransaction peer.recorded s.config.defaultMode .explicitTransaction config
        .caller
      changeSession ({ · with current := some id })
      return id : Op (Recorded ω) TransactionId) :=
    .bind (openTransaction_within borrows _ _ _ _) fun _ => .bind (.changeSession (fun _ => rfl)
      fun _ => ⟨⟨rfl, fun n => absurd directs n, .same rfl⟩, fun _ => rfl⟩) fun _ => .pure _
  refine .bind checkOpen_within fun _ => .bind (reapTransaction_within directs concludes) fun _ =>
    .bind .theSession fun s => ?_
  dsimp only
  split
  · exact .bind (.throw _) fun _ => begun s
  · exact begun s

theorem prepareExecute_within (h : may.directs) (concludes : may.concludes) :
    (prepareExecute peer.recorded).Within may :=
  .bind checkOpen_within fun _ => .bind (reapTransaction_within h concludes) fun _ =>
    bufferAutoResult_within h

/-! ## The session as such -/

theorem lastBookmarks_within : (lastBookmarks peer.recorded).Within may := by
  refine .bind .theSession fun s => ?_
  dsimp only
  split
  · exact .bind (bufferAll_within _) fun _ => .bind .theSession fun _ => .pure _
  · exact .bind .theSession fun _ => .pure _

theorem lastBookmark_within : (lastBookmark peer.recorded).Within may :=
  .bind (.lift (.note _)) fun _ => .bind lastBookmarks_within fun _ => .pure _

theorem serverInfo_within (h : may.borrows) : (serverInfo peer.recorded).Within may := by
  refine .bind checkOpen_within fun _ => .bind .theSession fun s => ?_
  split
  · exact .pure _
  · exact .bind (resolveDatabase_within {}) fun _ => .bind (acquire_within h _ _ _ _) fun _ =>
      .bind (.lift fun _ => .borrowing _ h trivial) fun _ => .pure _

theorem endCurrent_within (h : may.directs) (concludes : may.concludes) :
    (endCurrent peer.recorded).Within may := by
  refine .bind .theSession fun s => ?_
  split
  · exact .pure _
  · exact .bind (.changeSession (fun _ => rfl) fun _ =>
      ⟨⟨rfl, fun n => absurd h n, .same rfl⟩, fun _ => rfl⟩) fun _ =>
        closeQuietly_within concludes _

/-- Ending the explicit transaction does not touch the latest auto-commit result. -/
theorem endCurrent_autoResult (peer : Peer ω) (σ : State (Recorded ω)) :
    ((endCurrent peer.recorded).exec σ).2.session.autoResult = σ.session.autoResult := by
  rw [endCurrent, Act.exec_bind, Act.exec_theSession]
  cases σ.session.current with
  | none => rfl
  | some id =>
    have closed : (closeQuietly peer.recorded id).Within { concludes := True } :=
      closeQuietly_within trivial id
    exact (Course.own (closed { σ with session := { σ.session with current := none } })
      fun h => h).1

theorem consumeAutoResult_course (h : may.directs) {σ : State (Recorded ω)}
    (drops : ∀ id, σ.session.autoResult = some id → may.drops id) :
    Course may σ ((consumeAutoResult peer.recorded).exec σ).2 := by
  rw [consumeAutoResult, Act.exec_bind, Act.exec_theSession]
  cases auto : σ.session.autoResult with
  | none => exact .rest _ _
  | some id =>
    have forgotten : Act.Within (ω := ω) may (changeSession ({ · with autoResult := none })) :=
      .changeSession (fun _ => rfl) fun _ => ⟨⟨rfl, fun n => absurd h n, .same rfl⟩, fun _ => rfl⟩
    refine forgotten.bind (fun _ =>
      .bind (.run (consume_within (drops id auto))) fun outcome => ?_) σ
    split
    · exact .pure _
    · exact .note _

theorem close_course (h : may.directs) (concludes : may.concludes) {σ : State (Recorded ω)}
    (drops : ∀ id, σ.session.autoResult = some id → may.drops id) :
    Course may σ ((close peer.recorded).exec σ).2 := by
  rw [close, Act.exec_bind, Act.exec_theSession]
  cases σ.session.closed with
  | true => exact .rest _ _
  | false =>
    refine Act.course_bind (endCurrent_within h concludes σ) fun _ τ e => ?_
    have same : τ.session.autoResult = σ.session.autoResult := by
      have kept := endCurrent_autoResult peer σ
      rwa [e] at kept
    refine Act.course_bind (consumeAutoResult_course h (same ▸ drops)) fun _ υ _ => ?_
    have closed : Act.Within (ω := ω) may (changeSession ({ · with closed := true })) :=
      .changeSession (fun _ => rfl) fun _ => ⟨⟨rfl, fun n => absurd h n, .same rfl⟩, fun _ => rfl⟩
    exact endAllUnits_within.bind (fun _ => closed.bind fun _ => .note _) υ

/-- The license of closing: the rest of the latest auto-commit result is dropped. -/
def License.closing : License := { directs := True, concludes := True, drops := fun _ => True }

theorem close_ends (σ : State (Recorded ω)) :
    (close peer.recorded).Ends σ fun _ τ => Course .closing σ τ :=
  close_course trivial trivial fun _ _ => trivial

/-! ## Handles -/

/-- The license of an access: a result may be read through its own handle only. -/
def Access.license : Access → License
  | next id | collect id | drain id => { takes := (· = id) }
  | single id => { takes := (· = id), drops := (· = id) }
  | consume id => { drops := (· = id) }
  | commit _ => { commits := True, concludes := True }
  | rollback _ | close _ => { concludes := True }
  | run .. | drop _ | viewTransaction _ | peek _ | viewResult _ => {}

theorem Access.perform_within (a : Access) : (a.perform peer.recorded).Within a.license := by
  have checked {may : License} (id : TransactionId) (allowed : Holder → Bool) :
      Op.Within (ω := ω) may (checkHolder id allowed) := by
    refine .bind .theSession fun s => ?_
    split
    · exact .throw _
    · exact .pure _
  cases a with
  | run id source params => exact .bind (checked _ _) fun _ => runIn_within _ _ _
  | commit id => exact .bind (checked _ _) fun _ => commit_within (by trivial) (by trivial) id
  | rollback id => exact .bind (checked _ _) fun _ => rollback_within (by trivial) id
  | close id => exact .bind (checked _ _) fun _ => closeTransaction_within (by trivial) id
  | drop id => exact .lift (dropHandle_within id)
  | viewTransaction id => exact .bind .theSession fun _ => .pure _
  | next id => exact next_within (by rfl)
  | peek id => exact peek_within id
  | single id => exact single_within (by rfl) (by rfl)
  | collect id => exact collect_within (by rfl)
  | drain id => exact .lift (drain_within (by rfl))
  | consume id => exact consume_within (by rfl)
  | viewResult id => exact .bind .theSession fun _ => .pure _

end GraphSession
