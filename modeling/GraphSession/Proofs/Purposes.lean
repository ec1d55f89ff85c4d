import GraphSession.Proofs.Target

/-!
  What each action does for its purpose: how the target of the session is settled on the way, what
  it governs, and what becomes of the handles.
-/

namespace GraphSession

variable {ω α : Type} {peer : Peer ω} {e : Purpose} {σ τ : State (Recorded ω)}

/-! ## Units and connection -/

theorem send_along {c : Connection} {sender : Sender} {m : Message}
    (quiet : ∀ answer, (Happening.asked (.send c sender m) answer).IsQuiet) :
    (send peer.recorded c sender m).Along peer e := by
  intro σ
  rw [Op.exec_send, heard_answer]
  exact .quiet _ (quiet _)

theorem sendHeld_along {sender : Sender} {m : Message}
    (quiet : ∀ c answer, (Happening.asked (.send c sender m) answer).IsQuiet) :
    (sendHeld peer.recorded sender m).Along peer e := by
  refine .bind .theSession fun s => ?_
  split
  · exact .throw _
  · exact send_along (quiet _)

theorem releaseConnection_along : (releaseConnection peer.recorded).Along peer e := by
  refine .bind .theSession fun s => ?_
  split
  · exact .pure _
  · exact .bind (Act.along_changeSession fun _ => .same rfl rfl rfl fun _ => rfl) fun _ =>
      .bind (Act.along_ask fun _ => ⟨fun _ _ _ _ => trivial, fun _ _ => rfl⟩) fun _ =>
        Act.along_note _

theorem beginUnit_along : Op.Along (ω := ω) peer e beginUnit :=
  Op.along_changeSession fun _ => .same rfl rfl rfl fun _ => rfl

theorem endUnit_along : (endUnit peer.recorded).Along peer e := by
  refine .bind (Act.along_changeSession fun _ => .same rfl rfl rfl fun _ => rfl) fun _ =>
    .bind .theSession fun s => ?_
  split
  · exact releaseConnection_along
  · exact .pure ()

theorem abortUnit_along : (abortUnit peer.recorded).Along peer e := by
  refine .bind .theSession fun s => ?_
  split
  · exact endUnit_along
  · refine .bind (.run (send_along fun _ => ⟨fun _ _ _ _ => trivial, fun _ _ => rfl⟩))
      fun outcome => ?_
    split
    · exact endUnit_along
    · exact .bind (Act.along_note _) fun _ => endUnit_along

theorem endAllUnits_along : (endAllUnits peer.recorded).Along peer e :=
  .bind (Act.along_changeSession fun _ => .same rfl rfl rfl fun _ => rfl)
    fun _ => releaseConnection_along

/-! ## Bookmarks -/

theorem askBookmarks_along : (askBookmarks peer.recorded).Along peer e := by
  intro σ
  rw [Op.exec_askBookmarks, heard_answer]
  exact .quiet _ ⟨fun _ _ _ _ => trivial, fun _ _ => rfl⟩

theorem bookmarksForWork_along : (bookmarksForWork peer.recorded).Along peer e := by
  refine .bind .theSession fun s => ?_
  split
  · exact .bind askBookmarks_along fun _ => .pure _
  · exact .pure _

theorem takeBookmark?_along (sent : Bookmarks) (token : Option String) :
    (takeBookmark? peer.recorded sent token).Along peer e := by
  cases token with
  | none => exact .pure _
  | some token =>
    refine .bind (Op.along_changeSession fun _ => .same rfl rfl rfl fun _ => rfl) fun _ =>
      .bind .theSession fun s => ?_
    split
    · intro σ
      rw [Op.exec_reportBookmarks, heard_answer]
      exact .quiet _ ⟨fun _ _ _ _ => trivial, fun _ _ => rfl⟩
    · exact .pure _

theorem reportAndEnd_along (sent : Bookmarks) (token : Option String) :
    (reportAndEnd peer.recorded sent token).Along peer e :=
  .bind (.attempt (takeBookmark?_along _ _)) fun _ => .bind (.lift endUnit_along) fun _ =>
    .settleOn _

/-! ## The target -/

/-- Pinning a database is learning it; the journal may be told. -/
theorem pinDatabase_learns (named : Option String) :
    (pinDatabase peer.recorded named).Ends σ fun _ τ =>
      τ.session = { σ.session with target := σ.session.target.learn (named.map some) } ∧
        ∃ notes, τ.history = notes ++ σ.history ∧ ∀ e ∈ notes, e.IsQuiet := by
  cases named with
  | none =>
    refine ⟨?_, [], rfl, by simp⟩
    show σ.session = { σ.session with target := σ.session.target.learn none }
    rw [Target.learn_none]
  | some database =>
    rw [pinDatabase, Act.ends_bind, Act.ends_theSession]
    split
    · next unresolved =>
      rw [Act.ends_bind]
      refine Act.ends_note fun w => ⟨?_, [_], rfl, fun e he => ?_⟩
      · rw [unresolved]
        rfl
      · exact List.mem_singleton.mp he ▸ Happening.isQuiet_note _
    · next resolved =>
      refine ⟨?_, [], rfl, by simp⟩
      show σ.session = { σ.session with target := σ.session.target.learn (some (some database)) }
      cases known : σ.session.target with
      | unresolved => exact absurd known resolved
      | resolved d => rw [Target.learn_resolved, ← known]

/-- Bookmarks for one request are fetched, and nothing else happens. -/
theorem bookmarksForWork_fetch :
    (bookmarksForWork peer.recorded).Ends σ
      (fun _ τ => τ.session = σ.session ∧ ∃ fetch, History.IsFetch fetch ∧
        τ.history = fetch ++ σ.history)
      fun fault τ => τ.session = σ.session ∧
        τ.history = .asked .getBookmarks (.error fault) :: σ.history := by
  rw [bookmarksForWork, Op.ends_bind, Op.ends_theSession]
  split
  · rw [Op.ends_bind]
    exact Op.ends_askBookmarks (fun held w => ⟨rfl, [_], .inr ⟨held, rfl⟩, rfl⟩)
      fun _ _ => ⟨rfl, rfl⟩
  · exact ⟨rfl, [], .inl rfl, rfl⟩

theorem History.IsFetch.quiet {h : History} (fetch : h.IsFetch) : ∀ e ∈ h, e.IsQuiet := by
  rcases fetch with rfl | ⟨held, rfl⟩
  · simp
  · intro e he
    exact List.mem_singleton.mp he ▸ ⟨fun _ _ _ _ => trivial, fun _ _ => rfl⟩

/-- A home database must be asked for when no database is named, none is known and the pool knows
    several servers. -/
theorem Overrides.direction_eq_none {o : Overrides} {routing : Bool} {t : Target}
    (h : o.direction routing t = none) : o.database = none ∧ t = .unresolved ∧ routing = true := by
  unfold direction at h
  split at h
  · cases h
  · cases h
  · next unnamed unknown =>
    refine ⟨unnamed, ?_, ?_⟩
    · cases t with
      | unresolved => rfl
      | resolved d => cases unknown
    · cases routing with
      | true => rfl
      | false => cases h

/-- How it was found out where an acquisition goes: it was known, or the home database was asked
    for. -/
inductive Finds (peer : Peer ω) (o : Overrides) (database : Option String)
    (σ τ : State (Recorded ω)) : Prop
  | known (known : o.direction peer.routing σ.session.target = some database) (same : τ = σ)
  | found {search : RoutingRequest} {names : List String} {fetch : History}
    (unknown : o.direction peer.routing σ.session.target = none) (fetched : fetch.IsFetch)
    (home : database = names.getLast?)
    (session : τ.session = { σ.session with
      target := if o.impersonatedUser.isNone then .resolved names.getLast? else .unresolved })
    (history : τ.history = .asked (.note (.homeResolved names.getLast?)) () ::
      .asked (.findHome search) (.ok names) :: fetch ++ σ.history)

/-- Once it is known where an acquisition goes, it went there. -/
theorem Finds.direction {o : Overrides} {database : Option String}
    (h : Finds peer o database σ τ) {known : Option String}
    (e : o.direction peer.routing τ.session.target = some known) : database = known := by
  cases h with
  | known k same =>
    subst same
    exact Option.some.inj (k.symm.trans e)
  | found unknown _ home session _ =>
    obtain ⟨unnamed, -, routing⟩ := Overrides.direction_eq_none unknown
    rw [session] at e
    unfold Overrides.direction at e
    rw [unnamed, routing] at e
    subst home
    cases user : o.impersonatedUser.isNone with
    | true =>
      rw [user] at e
      exact Option.some.inj e
    | false =>
      rw [user] at e
      cases e

theorem findHome_finds (o : Overrides) :
    (findHome peer.recorded o).Ends σ
      (fun home τ => τ.session = σ.session ∧ ∃ search names fetch, History.IsFetch fetch ∧
        home = names.getLast? ∧
        τ.history = .asked (.findHome search) (.ok names) :: fetch ++ σ.history)
      fun _ τ => τ.session = σ.session ∧ ((∃ fault, τ.history =
        .asked .getBookmarks (.error fault) :: σ.history) ∨
          ∃ search fault fetch, History.IsFetch fetch ∧
            τ.history = .asked (.findHome search) (.error fault) :: fetch ++ σ.history) := by
  rw [findHome, Op.ends_bind, Op.ends_theSession, Op.ends_bind]
  refine bookmarksForWork_fetch.imp (fun b τ h => ?_) fun fault τ h => ⟨h.1, .inl ⟨fault, h.2⟩⟩
  obtain ⟨session, fetch, fetched, history⟩ := h
  rw [Op.ends_bind]
  refine Op.ends_askHomes (fun names w => ?_) fun fault w => ?_
  · exact ⟨session, _, names, fetch, fetched, rfl, by rw [State.heard_history, history]; rfl⟩
  · exact ⟨session, .inr ⟨_, fault, fetch, fetched, by rw [State.heard_history, history]; rfl⟩⟩

theorem unfetched_isQuiet (fault : Fault) :
    (Happening.asked .getBookmarks (.error fault)).IsQuiet :=
  ⟨fun _ _ _ _ => trivial, fun _ _ => rfl⟩

/-- Bookmarks could not be fetched, and nothing else happened. -/
theorem Path.unfetched {fault : Fault} (session : τ.session = σ.session)
    (history : τ.history = .asked .getBookmarks (.error fault) :: σ.history) : Path peer e σ τ :=
  .tend [_] (by rw [session]; exact .same rfl rfl rfl fun _ => rfl) history fun _ he =>
    List.mem_singleton.mp he ▸ unfetched_isQuiet fault

/-- The journal is told which home database was found. -/
theorem foundHome_finds {υ : State (Recorded ω)} {search : RoutingRequest} {names : List String}
    {fetch : History} (unknown : e.overrides.direction peer.routing σ.session.target = none)
    (fetched : fetch.IsFetch)
    (session : υ.session = { σ.session with
      target := if e.overrides.impersonatedUser.isNone then .resolved names.getLast?
        else .unresolved })
    (history : υ.history = .asked (.findHome search) (.ok names) :: fetch ++ σ.history) :
    Op.Ends (do
      liftM (note peer.recorded (.homeResolved names.getLast?))
      return names.getLast? : Op (Recorded ω) (Option String)) υ
      (fun database τ => Finds peer e.overrides database σ τ) fun _ τ => Path peer e σ τ := by
  rw [Op.ends_bind, Op.ends_lift]
  refine Act.ends_note fun w => ?_
  have said : (υ.heard (.note (.homeResolved names.getLast?)) () w).history =
      .asked (.note (.homeResolved names.getLast?)) () ::
        .asked (.findHome search) (.ok names) :: fetch ++ σ.history := by
    rw [State.heard_history, history]
    rfl
  exact .found unknown fetched rfl session said

theorem resolveDatabase_finds :
    (resolveDatabase peer.recorded e.overrides).Ends σ
      (fun database τ => Finds peer e.overrides database σ τ) fun _ τ => Path peer e σ τ := by
  rw [resolveDatabase, Op.ends_bind, Op.ends_theSession]
  split
  · next database named =>
    exact .known (by simp only [Overrides.direction, named]) rfl
  · next known unnamed resolved =>
    exact .known (by simp only [Overrides.direction, unnamed, resolved]) rfl
  · next unnamed unresolved =>
    split
    · next alone =>
      have alone : peer.routing = false := by simpa [Peer.recorded] using alone
      exact .known (by simp [Overrides.direction, unnamed, unresolved, alone]) rfl
    · next several =>
      have several : peer.routing = true := by simpa [Peer.recorded] using several
      have unknown : e.overrides.direction peer.routing σ.session.target = none := by
        simp [Overrides.direction, unnamed, unresolved, several]
      rw [Op.ends_bind]
      refine (findHome_finds e.overrides).imp (fun home τ h => ?_) fun _ τ h => ?_
      · obtain ⟨session, search, names, fetch, fetched, rfl, history⟩ := h
        have target : τ.session.target = .unresolved :=
          (congrArg Session.target session).trans (Overrides.direction_eq_none unknown).2.1
        rw [Op.ends_bind, Op.ends_theSession, target]
        split
        · next own =>
          -- the session's own user: the target is settled
          have own : e.overrides.impersonatedUser.isNone = true := by simpa using own
          rw [Op.ends_bind, Op.ends_changeSession]
          refine foundHome_finds unknown fetched ?_ history
          rw [if_pos own]
          exact congrArg (fun s : Session => { s with target := .resolved names.getLast? }) session
        · next other =>
          have other : ¬ e.overrides.impersonatedUser.isNone = true := by simpa using other
          refine foundHome_finds unknown fetched ?_ history
          rw [if_neg other, ← target]
          show τ.session = { σ.session with target := τ.session.target }
          rw [session]
      · obtain ⟨session, ⟨fault, history⟩ | ⟨search, fault, fetch, fetched, history⟩⟩ := h
        · exact .unfetched session history
        · refine .acquired σ.session.target session history (.lost unknown fetched)
            fun s => ?_
          show (History.target e.overrides s σ.session.target fetch).learn none = _
          rw [History.target_quiet fetched.quiet, Target.learn_none]

/-- What the search for a home database teaches. -/
theorem target_found {o : Overrides} {s : Session} {search : RoutingRequest} {names : List String}
    {fetch : History} (fetched : fetch.IsFetch) :
    History.target o s .unresolved (.asked (.note (.homeResolved names.getLast?)) () ::
      .asked (.findHome search) (.ok names) :: fetch) =
        if o.impersonatedUser.isNone then .resolved names.getLast? else .unresolved := by
  show ((History.target o s .unresolved fetch).learn
    (if o.impersonatedUser.isNone then some names.getLast? else none)).learn none = _
  rw [History.target_quiet fetched.quiet, Target.learn_none]
  split <;> rfl

/-- After the search a connection is acquired, or cannot be. -/
theorem Finds.acquired {database : Option String} {υ : State (Recorded ω)}
    (h : Finds peer e.overrides database σ τ) {request : AcquireRequest}
    {answer : Except Fault Connection} {fetch : History} (goes : request.database = database)
    (fetched : fetch.IsFetch) (session : υ.session = τ.session)
    (history : υ.history = .asked (.acquire request) answer :: fetch ++ τ.history) :
    Path peer e σ υ := by
  cases h with
  | known known same =>
    subst goes
    rw [same] at session history
    refine .acquired σ.session.target session history (.known known fetched) fun s => ?_
    show (History.target e.overrides s σ.session.target fetch).learn none = _
    rw [History.target_quiet fetched.quiet, Target.learn_none]
  | @found search names fetch₀ unknown fetched₀ home session₀ history₀ =>
    subst goes
    have said : υ.history = (.asked (.acquire request) answer :: (fetch ++
        .asked (.note (.homeResolved names.getLast?)) () ::
          .asked (.findHome search) (.ok names) :: fetch₀)) ++ σ.history := by
      rw [history, history₀]
      simp
    refine .acquired _ (session.trans session₀) said (.found unknown home fetched₀ fetched)
      fun s => ?_
    rw [(Overrides.direction_eq_none unknown).2.1]
    show (History.target e.overrides s .unresolved (fetch ++ _)).learn none = _
    rw [Target.learn_none, History.target_append, target_found fetched₀,
      History.target_quiet fetched.quiet]

/-- After the search no bookmarks could be fetched to acquire a connection with. -/
theorem Finds.unfetched {database : Option String} {υ : State (Recorded ω)} {fault : Fault}
    (h : Finds peer e.overrides database σ τ) (session : υ.session = τ.session)
    (history : υ.history = .asked .getBookmarks (.error fault) :: τ.history) :
    Path peer e σ υ := by
  cases h with
  | known known same =>
    subst same
    exact .unfetched session history
  | found unknown fetched home session₀ history₀ =>
    refine .acquired _ (session.trans session₀) (history.trans (congrArg _ history₀))
      (.unfetched unknown fetched) fun s => ?_
    rw [(Overrides.direction_eq_none unknown).2.1]
    show (History.target e.overrides s .unresolved (_ :: _ :: _)).learn none = _
    rw [Target.learn_none, target_found fetched]

theorem acquire_along {database : Option String} (h : Finds peer e.overrides database σ τ)
    (mode : AccessMode) (user : Option String) (api : Option ApiKind) :
    (acquire peer.recorded mode database user api).Ends τ
      (fun _ υ => Path peer e σ υ ∧ υ.session = τ.session) fun _ υ => Path peer e σ υ := by
  rw [acquire, Op.ends_bind, Op.ends_theSession, Op.ends_bind]
  refine bookmarksForWork_fetch.imp (fun b υ hυ => ?_) fun fault υ hυ => h.unfetched hυ.1 hυ.2
  obtain ⟨session, fetch, fetched, history⟩ := hυ
  have here (request : AcquireRequest) (goes : request.database = database)
      (answer : Except Fault Connection) (w : ω) :
      Path peer e σ (υ.heard (.acquire request) answer w) :=
    h.acquired goes fetched session (by rw [State.heard_history, history]; rfl)
  -- what follows concerns the connection alone
  have noted (c : Connection) {φ : State (Recorded ω)} (path : Path peer e σ φ)
      (session : φ.session = τ.session) : Op.Ends (do
        liftM (note peer.recorded (.connectionAcquired mode api))
        return c : Op (Recorded ω) Connection) φ
      (fun _ υ => Path peer e σ υ ∧ υ.session = τ.session) fun _ υ => Path peer e σ υ := by
    rw [Op.ends_bind, Op.ends_lift]
    exact Act.ends_note fun w => ⟨path.andThen (.quiet w (Happening.isQuiet_note _)), session⟩
  rw [Op.ends_bind]
  refine Op.ends_borrow (fun c w => ?_) fun fault w => here _ rfl _ w
  dsimp only
  split
  · split
    · rw [Op.ends_bind, Op.ends_attempt]
      have told (kind : ApiKind) (answer : Except Fault Unit) :
          (Happening.asked (.send c .session (.telemetry kind)) answer).IsQuiet :=
        ⟨fun _ _ _ _ => trivial, fun _ _ => rfl⟩
      refine Op.ends_send (fun _ w' => ?_) fun fault w' => ?_
      · exact noted c ((here _ rfl _ w).andThen (.quiet w' (told _ _))) session
      · rw [Op.ends_bind, Op.ends_lift]
        exact Act.ends_giveBack fun w'' => ((here _ rfl _ w).andThen (.quiet w' (told _ _))).andThen
          (.quiet w'' ⟨fun _ _ _ _ => trivial, fun _ _ => rfl⟩)
    · exact noted c (here _ rfl _ w) session
  · exact noted c (here _ rfl _ w) session

/-- A connection is held, and the work names the database that an acquisition would go to. -/
theorem connect_along (mode : AccessMode) (api : ApiKind) :
    (connect peer.recorded mode api e.overrides).Ends σ
      (fun database τ => Path peer e σ τ ∧
        ∀ known, e.overrides.direction peer.routing τ.session.target = some known →
          database = known)
      fun _ τ => Path peer e σ τ := by
  rw [connect, Op.ends_bind, Op.ends_theSession]
  split
  · -- the connection that is there is used again
    refine ⟨.rest σ, fun known direction => ?_⟩
    unfold Overrides.direction at direction
    revert direction
    cases e.overrides.database with
    | some database => exact fun direction => Option.some.inj direction
    | none =>
      cases σ.session.target with
      | resolved database => exact fun direction => Option.some.inj direction
      | unresolved =>
        cases peer.routing with
        | true =>
          intro direction
          cases direction
        | false => exact fun direction => Option.some.inj direction
  · rw [Op.ends_bind]
    refine resolveDatabase_finds.imp (fun database τ finds => ?_) fun _ _ path => path
    rw [Op.ends_bind]
    refine (acquire_along finds _ _ _).imp (fun c υ hυ => ?_) fun _ _ path => path
    obtain ⟨path, session⟩ := hυ
    rw [Op.ends_bind, Op.ends_changeSession]
    refine ⟨path.andThen (.silent (.same rfl rfl rfl fun _ => rfl) rfl), fun known direction => ?_⟩
    refine finds.direction ?_
    rw [← session]
    exact direction

/-! ## Streams -/

/-- A response came that names a database, if it names one; the session learns it. -/
theorem pinDatabase_along {event : Happening} {named : Option String}
    (keptHandles : σ.session.KeepsHandles e τ.session) (history : τ.history = event :: σ.history)
    (heeds : event.Heeds peer.routing e.alone e.overrides σ.session.target)
    (learned : ∀ s, σ.session.Extends s → event.learned? e.overrides s = named.map some) :
    (pinDatabase peer.recorded named).Ends τ fun _ υ => Path peer e σ υ := by
  refine (pinDatabase_learns named).imp fun _ υ h => ?_
  obtain ⟨session, notes, history', quiet⟩ := h
  have same : τ.session.Extends υ.session := by
    rw [session]
    exact ⟨Nat.le_refl _, fun _ _ => rfl, fun _ _ => rfl⟩
  have grown : σ.session.Extends υ.session := keptHandles.extension.trans same
  have retains : τ.session.Retains e υ.session := by
    rw [session]
    exact .same rfl rfl fun _ => rfl
  have given : υ.session.results.length = σ.session.results.length := by
    rw [session]
    exact keptHandles.given
  refine .response notes grown (fun r hr hr' => ?_) (keptHandles.retains.trans retains)
    (history'.trans (congrArg _ history)) quiet heeds fun s hs => ?_
  · exact absurd hr' (Nat.not_lt_of_le (given ▸ hr))
  · rw [learned s (grown.trans hs), session, keptHandles.target]

/-- A unit is complete, and its summary names a database, if it may teach one. -/
theorem completeOrigin_along {event : Happening} {summary : Summary} {origin : Origin}
    (keptHandles : σ.session.KeepsHandles e τ.session) (history : τ.history = event :: σ.history)
    (heeds : event.Heeds peer.routing e.alone e.overrides σ.session.target)
    (learned : ∀ s, σ.session.Extends s → event.learned? e.overrides s =
      (if origin.pins then summary.database else none).map some) :
    (completeOrigin peer.recorded summary origin).Ends τ (fun _ υ => Path peer e σ υ)
      fun _ υ => Path peer e σ υ := by
  have pinned : (pinDatabase peer.recorded (if origin.pins then summary.database else none)).Ends τ
      fun _ υ => Path peer e σ υ :=
    pinDatabase_along keptHandles history heeds learned
  cases origin with
  | transaction t => exact pinned
  | autoCommit sent pins =>
    rw [completeOrigin]
    cases pins with
    | true =>
      refine Op.ends_bind.mpr (Op.ends_lift.mpr (pinned.imp fun _ υ path => ?_))
      exact Op.ends_after path (reportAndEnd_along _ _ υ)
    | false =>
      have path : Path peer e σ τ := pinned
      exact Op.ends_after path (reportAndEnd_along _ _ τ)

/-- The stream of a result ended well, and since the response the session kept its handles. -/
theorem finishStream_along {id : ResultId} {event : Happening} {metadata : Metadata}
    (given : id < σ.session.results.length) (keptHandles : σ.session.KeepsHandles e τ.session)
    (history : τ.history = event :: σ.history)
    (heeds : event.Heeds peer.routing e.alone e.overrides σ.session.target)
    (learned : ∀ s, event.learned? e.overrides s = ((s.result id).names? metadata).map some) :
    (finishStream peer.recorded id metadata).Ends τ (fun _ υ => Path peer e σ υ)
      fun _ υ => Path peer e σ υ := by
  rw [finishStream, Op.ends_bind, Op.ends_theSession, Op.ends_bind, Op.ends_changeResult]
  refine completeOrigin_along (keptHandles.trans (.setResult rfl rfl fun h => h)) history heeds
    fun s hs => ?_
  rw [learned s, hs.names? given, Result.names?, database_ofMetadata, keptHandles.origin,
    keptHandles.start]

theorem abortOrigin_along (origin : Origin) : (abortOrigin peer.recorded origin).Along peer e := by
  cases origin with
  | autoCommit _ _ => exact abortUnit_along
  | transaction id =>
    -- only an active transaction fails
    refine Act.along_changeSession fun s => .keepTransaction ?_ fun ended => ?_
    · dsimp only
      split <;> rfl
    · dsimp only at ended
      split at ended
      · cases ended
      · exact ended

theorem failStream_along (id : ResultId) (fault : Fault) :
    (failStream peer.recorded id fault).Along peer e :=
  .bind .theSession fun _ => .bind (Act.along_changeSession fun _ => .setResult rfl rfl fun h => h)
    fun _ => abortOrigin_along _

/-- A result that was given out fetches. -/
theorem fetch_along {id : ResultId} (given : id < σ.session.results.length) :
    (fetch peer.recorded id).Ends σ (fun _ τ => Path peer e σ τ) fun _ τ => Path peer e σ τ := by
  have failed (fault : Fault) : Op.Along peer e
      (failAfter (failStream peer.recorded id fault) fault : Op (Recorded ω) Bool) :=
    .failAfter (failStream_along _ _) _
  have buffered (buffer : List Record) :
      σ.session.KeepsHandles e (σ.session.setResult id { σ.session.result id with buffer }) :=
    .setResult rfl rfl fun h => h
  rw [fetch, Op.ends_bind, Op.ends_attempt, pullHeld, Op.ends_bind, Op.ends_theSession]
  cases held : σ.session.connection with
  | none =>
    rw [sendHeld, Op.ends_bind, Op.ends_theSession, held]
    exact (failed _).ends σ
  | some c =>
    refine Op.ends_sendHeld held (fun batch w => ?_) fun fault w => ?_
    · rw [Op.ends_bind, Op.ends_changeResult]
      split
      · next more =>
        have more : batch.more = true := by simpa using more
        have pulled : Path peer e σ (σ.heard (.send c (.result id) (.pull σ.session.fetchSize))
            (.ok batch) w) := by
          refine .heeds w trivial fun s => ?_
          show (if batch.more then _ else _) = _
          rw [if_pos more]
        exact pulled.andThen (.silent (buffered _) rfl)
      · next last =>
        have last : ¬ batch.more = true := by simpa using last
        rw [Op.ends_bind]
        refine Op.Ends.imp (finishStream_along given (buffered _) rfl ?_ fun s => ?_)
          (fun _ _ path => path) fun _ _ path => path
        · trivial
        show (if batch.more then _ else _) = _
        rw [if_neg last]
    · exact Op.ends_after (.heeds w trivial fun _ => rfl) (failed fault _)

theorem discardRest_along (id : ResultId) : (discardRest peer.recorded id).Along peer e := by
  have failed (fault : Fault) : Op.Along peer e
      (failAfter (failStream peer.recorded id fault) fault : Op (Recorded ω) Unit) :=
    .failAfter (failStream_along _ _) _
  intro σ
  refine Op.Ends.state ?_
  rw [discardRest, Op.ends_bind, Op.ends_theSession]
  split
  · next streaming =>
    rw [Op.ends_bind, Op.ends_attempt, discardHeld]
    cases held : σ.session.connection with
    | none =>
      rw [sendHeld, Op.ends_bind, Op.ends_theSession, held]
      exact (failed _).ends σ
    | some c =>
      refine Op.ends_sendHeld held (fun metadata w => ?_) fun fault w => ?_
      · exact finishStream_along (Session.lt_of_isStreaming streaming)
          (.same rfl rfl rfl fun _ => rfl) rfl trivial fun _ => rfl
      · exact Op.ends_after (.heeds w trivial fun _ => rfl) (failed fault _)
  · exact Path.rest σ

/-- The query of a new result was answered, the database that the answer names is known if it should
    be, and the result was given out. -/
theorem Path.answered {c : Connection} {request : RunRequest} {reply : RunReply} (r : Result)
    {named : Option String} (notes : History)
    (heeds : e.alone = true → ∀ database,
      e.overrides.direction peer.routing σ.session.target = some database →
        request.work.database = database)
    (asks : r.origin.pins = e.pins) (names : named = if e.pins then reply.database else none)
    (session : τ.session = { σ.session with target := σ.session.target.learn (named.map some) })
    (history : τ.history = notes ++ .asked (.send c (.result σ.session.nextResult)
      (.run request)) (.ok reply) :: σ.history)
    (quiet : ∀ e ∈ notes, e.IsQuiet) :
    Path peer e σ { τ with session := { τ.session with results := τ.session.results ++ [r] } } := by
  have results : τ.session.results = σ.session.results := by rw [session]
  have added : τ.session.results ++ [r] = σ.session.results ++ [r] := congrArg (· ++ [r]) results
  have here : ({ τ.session with results := τ.session.results ++ [r] } : Session).result
      σ.session.nextResult = r := by
    rw [Session.result_added added, if_pos rfl]
  have length : (τ.session.results ++ [r]).length = σ.session.results.length + 1 := by
    rw [added, List.length_append]
    rfl
  refine .response notes (.addResult added) (fun other hr hr' => ?_) (.addResult added ?_ ?_)
    history quiet heeds fun s hs => ?_
  · have same : other = σ.session.nextResult := by
      have below : other < σ.session.results.length + 1 := length ▸ hr'
      exact Nat.le_antisymm (Nat.lt_succ_iff.mp below) hr
    rw [same, here, asks]
  · show τ.session.transactions = _
    rw [session]
  · show τ.session.closed = _
    rw [session]
  · have pins : (s.result σ.session.nextResult).origin.pins = e.pins := by
      rw [hs.origin _ (length ▸ Nat.lt_succ_self _), here, asks]
    show τ.session.target = σ.session.target.learn
      (if (s.result σ.session.nextResult).origin.pins then reply.database.map some else none)
    rw [pins, session, names]
    split <;> rfl

/-- The new result is given out, and its first records are fetched. -/
theorem givenOut_along {r : Result} (number : τ.session.nextResult = σ.session.nextResult)
    (path : Path peer e σ
      { τ with session := { τ.session with results := τ.session.results ++ [r] } }) :
    Op.Ends (do
      let id ← addResult r
      let _ ← fetch peer.recorded id
      return id : Op (Recorded ω) ResultId) τ
      (fun r υ => Path peer e σ υ ∧ r = σ.session.nextResult ∧ r < υ.session.results.length)
      fun _ υ => Path peer e σ υ := by
  rw [Op.ends_bind, Op.ends_addResult, Op.ends_bind]
  have given : τ.session.nextResult < (τ.session.results ++ [r]).length := by
    rw [List.length_append]
    exact Nat.lt_succ_self _
  exact (fetch_along given).imp
    (fun _ _ more => ⟨path.andThen more, number, Nat.lt_of_lt_of_le given more.grown.given⟩)
    fun _ _ more => path.andThen more

/-- A query starts a new result that teaches what the purpose says, and goes where it is known to
    go. -/
theorem startResult_along {request : RunRequest} {origin : Origin} (pins : origin.pins = e.pins)
    (heeds : e.alone = true → ∀ database,
      e.overrides.direction peer.routing σ.session.target = some database →
        request.work.database = database) :
    (startResult peer.recorded request origin).Ends σ
      (fun r τ => Path peer e σ τ ∧ r = σ.session.nextResult ∧ r < τ.session.results.length)
      fun _ τ => Path peer e σ τ := by
  have failed (fault : Fault) {τ : State (Recorded ω)} (path : Path peer e σ τ) :
      Op.Ends (failAfter (abortOrigin peer.recorded origin) fault : Op (Recorded ω) ResultId) τ
        (fun r τ => Path peer e σ τ ∧ r = σ.session.nextResult ∧ r < τ.session.results.length)
        fun _ τ => Path peer e σ τ :=
    Op.ends_failAfter.mpr (path.andThen (abortOrigin_along origin τ))
  rw [startResult, Op.ends_bind, Op.ends_theSession, Op.ends_bind, Op.ends_attempt, runHeld]
  cases held : σ.session.connection with
  | none =>
    rw [sendHeld, Op.ends_bind, Op.ends_theSession, held]
    exact failed .noConnection (.rest σ)
  | some c =>
    refine Op.ends_sendHeld held (fun reply w => ?_) fun fault w => ?_
    · cases asks : origin.pins with
      | true =>
        refine Op.ends_bind.mpr (Op.ends_lift.mpr ?_)
        refine (pinDatabase_learns reply.database).imp fun _ τ h => ?_
        obtain ⟨session, notes, history, quiet⟩ := h
        have names : reply.database = if e.pins then reply.database else none := by
          rw [← pins, asks]
          rfl
        have number : τ.session.nextResult = σ.session.nextResult := by
          unfold Session.nextResult
          rw [session]
          rfl
        exact givenOut_along number (.answered _ notes heeds pins names session history quiet)
      | false =>
        have names : none = if e.pins then reply.database else none := by
          rw [← pins, asks]
          rfl
        have still : σ.session = { σ.session with
            target := σ.session.target.learn ((none : Option String).map some) } := by
          show σ.session = { σ.session with target := σ.session.target.learn none }
          rw [Target.learn_none]
        exact givenOut_along rfl (.answered _ [] heeds pins names still rfl (by simp))
    · exact failed fault (.heeds w heeds fun _ => rfl)

end GraphSession
