import GraphSession.Proofs.Calls
import GraphSession.Proofs.Ownership

/-!
  A look at the server is no work.

  A session that holds a connection answers from it and asks nobody.  One that holds none borrows a
  connection, reads who is at its other end and gives it back: no unit of work begins, the
  connection never comes into the slot, and nothing is sent on it.  What may remain is the home
  database, which the session learns from the search as it would in any acquisition.

  `Probe` lists all that can happen then.  The connection is borrowed for reading whatever the
  session itself is for, so a session for writing looks at a server that it may never write to.
-/

namespace GraphSession

variable {ω : Type} {peer : Peer ω} {σ τ υ : State (Recorded ω)} {o : Overrides}

/-! ## What can happen -/

/-- Something that is asked or told while it is found out where to go. -/
def Happening.IsSearch : Happening → Prop
  | asked .getBookmarks _ | asked (.findHome _) _ | asked (.note (.homeResolved _)) _ => True
  | _ => False

/-- A search came to an end with a fault. -/
def History.Misses (fault : Fault) (later : History) : Prop :=
  (∀ e ∈ later, e.IsSearch) ∧ ∃ e earlier, later = e :: earlier ∧ e.fault? = some fault

/-- A connection for reading, for the user of the session and as the session is configured. -/
structure AcquireRequest.IsProbe (request : AcquireRequest) (c : SessionConfig) : Prop where
  mode : request.mode = .read
  user : request.impersonatedUser = c.impersonatedUser
  auth : request.auth = c.auth
  timeout : request.timeout = c.acquisitionTimeout

/-- All that happens when the session `s`, which holds no connection, looks at its server. -/
inductive Probe (routing : Bool) (s : Session) : Except Fault ServerInfo → History → Prop
  /-- A connection was lent, the journal was told, and the connection went back. -/
  | lent {request : AcquireRequest} {c : Connection} {search : History}
    (asks : request.IsProbe s.config) (searching : ∀ e ∈ search, e.IsSearch)
    (goes : Acquisition routing {} s.target (.asked (.acquire request) (.ok c) :: search)) :
    Probe routing s (.ok c.server) (.asked (.release c) () ::
      .asked (.note (.connectionAcquired .read none)) () ::
        .asked (.acquire request) (.ok c) :: search)
  /-- No connection was lent. -/
  | denied {request : AcquireRequest} {fault : Fault} {search : History}
    (asks : request.IsProbe s.config) (searching : ∀ e ∈ search, e.IsSearch)
    (goes : Acquisition routing {} s.target (.asked (.acquire request) (.error fault) :: search)) :
    Probe routing s (.error fault) (.asked (.acquire request) (.error fault) :: search)
  /-- It was not even found out where to ask for one. -/
  | missed {fault : Fault} {search : History} (misses : search.Misses fault) :
    Probe routing s (.error fault) search

/-- Nothing is sent on any connection, so no server is told of a call. -/
theorem Probe.unsent {routing : Bool} {s : Session} {outcome : Except Fault ServerInfo}
    {later : History} (h : Probe routing s outcome later) (c : Connection) (sender : Sender)
    (m : Message) (answer : Except Fault m.Reply) : .asked (.send c sender m) answer ∉ later := by
  have none_in {search : History} (searching : ∀ e ∈ search, e.IsSearch) :
      .asked (.send c sender m) answer ∉ search := fun mem => searching _ mem
  cases h with
  | lent _ searching _ => simpa using none_in searching
  | denied _ searching _ => simpa using none_in searching
  | missed misses => exact none_in misses.1

/-- A connection that is asked for is for reading, whatever the session is for. -/
theorem Probe.mode {routing : Bool} {s : Session} {outcome : Except Fault ServerInfo}
    {later : History} (h : Probe routing s outcome later) {request : AcquireRequest}
    {answer : Except Fault Connection} (mem : .asked (.acquire request) answer ∈ later) :
    request.mode = .read := by
  cases h with
  | lent asks searching _ =>
    rcases mem with _ | ⟨_, _ | ⟨_, _ | ⟨_, mem⟩⟩⟩
    · exact asks.mode
    · exact (searching _ mem).elim
  | denied asks searching _ =>
    rcases mem with _ | ⟨_, mem⟩
    · exact asks.mode
    · exact (searching _ mem).elim
  | missed misses => exact (misses.1 _ mem).elim

/-! ## The search -/

theorem History.IsFetch.searching {fetch : History} (fetched : fetch.IsFetch) :
    ∀ e ∈ fetch, e.IsSearch := by
  rcases fetched with rfl | ⟨held, rfl⟩
  · simp
  · exact fun e mem => List.mem_singleton.mp mem ▸ trivial

/-- A search that fails changes nothing, and fails with the fault of its last request. -/
def State.Misses (σ : State (Recorded ω)) (fault : Fault) (τ : State (Recorded ω)) : Prop :=
  τ.session = σ.session ∧ σ.Since (History.Misses fault) τ

theorem bookmarksForWork_misses :
    (bookmarksForWork peer.recorded).Ends σ (fun _ _ => True) fun fault τ => σ.Misses fault τ := by
  refine bookmarksForWork_fetch.imp (fun _ _ _ => trivial) fun fault τ h => ?_
  obtain ⟨session, history⟩ := h
  exact ⟨session, [_], history, fun e mem => List.mem_singleton.mp mem ▸ trivial, _, [], rfl, rfl⟩

theorem findHome_misses :
    (findHome peer.recorded o).Ends σ (fun _ _ => True) fun fault τ => σ.Misses fault τ := by
  rw [findHome, Op.ends_bind, Op.ends_theSession, Op.ends_bind]
  refine (bookmarksForWork_fetch.and bookmarksForWork_misses).imp (fun b τ h => ?_)
    fun _ _ h => h.2
  obtain ⟨⟨session, fetch, fetched, history⟩, -⟩ := h
  rw [Op.ends_bind]
  refine Op.ends_askHomes (fun _ _ => trivial) fun fault w => ?_
  have said (search : RoutingRequest) : (τ.heard (.findHome search) (.error fault) w).history =
      .asked (.findHome search) (.error fault) :: fetch ++ σ.history := by
    rw [State.heard_history, history]
    rfl
  exact ⟨session, _, said _, List.forall_mem_cons.mpr ⟨trivial, fetched.searching⟩, _, fetch, rfl,
    rfl⟩

theorem resolveDatabase_misses :
    (resolveDatabase peer.recorded o).Ends σ (fun _ _ => True) fun fault τ => σ.Misses fault τ := by
  have told (home : Option String) (τ : State (Recorded ω)) : Op.Ends (do
      liftM (note peer.recorded (.homeResolved home))
      return home : Op (Recorded ω) (Option String)) τ (fun _ _ => True)
      fun fault υ => σ.Misses fault υ := trivial
  rw [resolveDatabase, Op.ends_bind, Op.ends_theSession]
  split
  · trivial
  · trivial
  · split
    · trivial
    · rw [Op.ends_bind]
      refine findHome_misses.imp (fun home τ _ => ?_) fun _ _ h => h
      rw [Op.ends_bind, Op.ends_theSession]
      split
      · rw [Op.ends_bind, Op.ends_changeSession]
        exact told home _
      · exact told home τ

/-! ## The acquisition -/

/-- What a search found out is where the acquisition after it goes, with bookmarks fetched anew. -/
theorem Finds.acquisition {database : Option String} (h : Finds peer o database σ τ)
    {fetch : History} (fetched : fetch.IsFetch) :
    ∃ search, fetch ++ τ.history = search ++ σ.history ∧ (∀ e ∈ search, e.IsSearch) ∧
      ∀ (request : AcquireRequest) answer, request.database = database →
        Acquisition peer.routing o σ.session.target
          (.asked (.acquire request) answer :: search) := by
  cases h with
  | known known same =>
    refine ⟨fetch, by rw [same], fetched.searching, fun request answer goes => ?_⟩
    exact .known (known.trans (congrArg some goes.symm)) fetched
  | @found search names fetch₀ unknown fetched₀ home session history =>
    refine ⟨fetch ++ .asked (.note (.homeResolved names.getLast?)) () ::
      .asked (.findHome search) (.ok names) :: fetch₀, ?_, ?_, fun request answer goes => ?_⟩
    · rw [history]
      simp
    · intro e mem
      rcases List.mem_append.mp mem with mem | mem
      · exact fetched.searching e mem
      · exact List.forall_mem_cons.mpr
          ⟨trivial, List.forall_mem_cons.mpr ⟨trivial, fetched₀.searching⟩⟩ e mem
    · exact .found unknown (goes.trans home) fetched₀ fetched

/-- What a search finds out may settle the target, and changes nothing else. -/
theorem Finds.session {database : Option String} (h : Finds peer o database σ τ) :
    τ.session = { σ.session with target := τ.session.target } := by
  cases h with
  | known _ same => rw [same]
  | found _ _ _ session _ => rw [session]

theorem Finds.config {database : Option String} (h : Finds peer o database σ τ) :
    τ.session.config = σ.session.config := by
  rw [h.session]

/-- The search ended, and the one that was asked lent a connection that went back. -/
theorem Finds.lent {database : Option String} (h : Finds peer {} database σ τ)
    {request : AcquireRequest} {c : Connection} {fetch : History}
    (asks : request.IsProbe τ.session.config) (goes : request.database = database)
    (fetched : fetch.IsFetch)
    (history : υ.history = .asked (.release c) () ::
      .asked (.note (.connectionAcquired .read none)) () ::
        .asked (.acquire request) (.ok c) :: (fetch ++ τ.history)) :
    σ.Since (Probe peer.routing σ.session (.ok c.server)) υ := by
  obtain ⟨search, split, searching, acquisition⟩ := h.acquisition fetched
  refine ⟨_, ?_, .lent (h.config ▸ asks) searching (acquisition request (.ok c) goes)⟩
  rw [history, split]
  rfl

/-- The search ended, and the one that was asked lent nothing. -/
theorem Finds.denied {database : Option String} (h : Finds peer {} database σ τ)
    {request : AcquireRequest} {fault : Fault} {fetch : History}
    (asks : request.IsProbe τ.session.config) (goes : request.database = database)
    (fetched : fetch.IsFetch)
    (history : υ.history = .asked (.acquire request) (.error fault) :: (fetch ++ τ.history)) :
    σ.Since (Probe peer.routing σ.session (.error fault)) υ := by
  obtain ⟨search, split, searching, acquisition⟩ := h.acquisition fetched
  refine ⟨_, ?_, .denied (h.config ▸ asks) searching (acquisition request (.error fault) goes)⟩
  rw [history, split]
  rfl

/-- The search ended, but the bookmarks to ask with were missed. -/
theorem Finds.missed {database : Option String} (h : Finds peer {} database σ τ) {fault : Fault}
    (missed : τ.Misses fault υ) : σ.Since (Probe peer.routing σ.session (.error fault)) υ := by
  obtain ⟨-, last, history, searching', e, earlier, rfl, failed⟩ := missed
  obtain ⟨search, split, searching, -⟩ := h.acquisition (.inl rfl)
  refine ⟨e :: earlier ++ search, ?_, .missed ⟨fun e' mem => ?_, e, earlier ++ search, rfl,
    failed⟩⟩
  · rw [history, List.append_assoc, ← split]
    rfl
  · exact (List.mem_append.mp mem).elim (searching' e') (searching e')

/-- A connection is borrowed to be looked at, for a server that is told nothing. -/
theorem acquire_probes {database : Option String} :
    (acquire peer.recorded .read database (σ.session.actingUser none) none).Ends σ
      (fun c τ => τ.session = σ.session ∧ ∃ request fetch, History.IsFetch fetch ∧
        request.database = database ∧ request.IsProbe σ.session.config ∧
          τ.history = .asked (.note (.connectionAcquired .read none)) () ::
            .asked (.acquire request) (.ok c) :: (fetch ++ σ.history))
      fun fault τ => τ.session = σ.session ∧ (σ.Misses fault τ ∨
        ∃ request fetch, History.IsFetch fetch ∧ request.database = database ∧
          request.IsProbe σ.session.config ∧
            τ.history = .asked (.acquire request) (.error fault) :: (fetch ++ σ.history)) := by
  rw [acquire, Op.ends_bind, Op.ends_theSession, Op.ends_bind]
  refine (bookmarksForWork_fetch.and bookmarksForWork_misses).imp (fun b τ h => ?_)
    fun fault τ h => ⟨h.1.1, .inl h.2⟩
  obtain ⟨⟨session, fetch, fetched, history⟩, -⟩ := h
  rw [Op.ends_bind]
  have asks : AcquireRequest.IsProbe
      { mode := .read, database, bookmarks := b
        impersonatedUser := σ.session.actingUser none
        auth := σ.session.config.auth
        timeout := σ.session.config.acquisitionTimeout } σ.session.config :=
    ⟨rfl, rfl, rfl, rfl⟩
  refine Op.ends_borrow (fun c w => ?_) fun fault w =>
    ⟨session, .inr ⟨_, fetch, fetched, rfl, asks, ?_⟩⟩
  · dsimp only
    rw [Op.ends_bind, Op.ends_lift]
    refine Act.ends_note fun w' => ⟨session, _, fetch, fetched, rfl, asks, ?_⟩
    rw [State.heard_history, State.heard_history, history]
  · rw [State.heard_history, history]

/-- Without a connection of its own, an open session looks at its server so. -/
theorem serverInfo_borrows (isOpen : σ.session.closed = false)
    (free : σ.session.connection = none) :
    let after := (serverInfo peer.recorded).exec σ
    after.2.session = { σ.session with target := after.2.session.target } ∧
      ∃ later, after.2.history = later ++ σ.history ∧
        Probe peer.routing σ.session after.1 later := by
  suffices ended : (serverInfo peer.recorded).Ends σ
      (fun info τ => τ.session = { σ.session with target := τ.session.target } ∧
        σ.Since (Probe peer.routing σ.session (.ok info)) τ)
      fun fault τ => τ.session = { σ.session with target := τ.session.target } ∧
        σ.Since (Probe peer.routing σ.session (.error fault)) τ by
    unfold Op.Ends at ended
    rcases h : (serverInfo peer.recorded).exec σ with ⟨fault | info, τ⟩ <;> rw [h] at ended <;>
      exact ended
  rw [serverInfo, Op.ends_bind, checkOpen, Op.ends_bind, Op.ends_theSession,
    if_neg (by simp [isOpen]),
    Op.ends_pure, Op.ends_bind, Op.ends_theSession, free]
  dsimp only
  rw [Op.ends_bind]
  refine ((resolveDatabase_finds (e := {})).and resolveDatabase_misses).imp
    (fun database τ h => ?_) fun fault τ h => ?_
  · obtain ⟨finds, -⟩ := h
    have same : σ.session.actingUser none = τ.session.actingUser none := by
      rw [finds.session]
      rfl
    have settled {υ : State (Recorded ω)} (session : υ.session = τ.session) :
        υ.session = { σ.session with target := υ.session.target } := by
      rw [session]
      exact finds.session
    rw [Op.ends_bind, same]
    refine acquire_probes.imp (fun c υ h => ?_) fun fault υ h => ?_
    · obtain ⟨session, request, fetch, fetched, goes, asks, history⟩ := h
      rw [Op.ends_bind, Op.ends_lift]
      refine Act.ends_giveBack fun w => ⟨settled session, finds.lent asks goes fetched ?_⟩
      rw [State.heard_history, history]
    · obtain ⟨session, missed | ⟨request, fetch, fetched, goes, asks, history⟩⟩ := h
      · exact ⟨settled session, finds.missed missed⟩
      · exact ⟨settled session, finds.denied asks goes fetched history⟩
  · obtain ⟨-, session, later, history, misses⟩ := h
    exact ⟨by rw [session], later, history, .missed misses⟩

/-! ## What is left as it was -/

/-- Where nothing streams, the bookmarks are at hand. -/
theorem lastBookmarks_idle {world : Type} {peer : Peer world} {s : State world}
    (idle : ∀ r, (s.session.result r).isStreaming = false) :
    (lastBookmarks peer).exec s = (.ok s.session.bookmarks, s) := by
  rw [lastBookmarks, Op.exec_bind, Op.exec_theSession]
  dsimp only
  cases s.session.autoResult with
  | none => rfl
  | some r =>
    have fetched : Op.exec (bufferAll peer r) s = (.ok (), s) :=
      fetchFrom_enough (by rw [idle r]; rfl)
    dsimp only
    rw [Op.exec_bind, fetched]
    rfl

/-- Without a connection nothing streams. -/
theorem State.Rests.idle_of_free (h : σ.Rests) (free : σ.session.connection = none) (r : ResultId) :
    (σ.session.result r).isStreaming = false := by
  obtain ⟨u, s, settled⟩ := h
  have bare : σ.Stands {} := settled.steady.bare_of_unconnected free
  refine Bool.eq_false_iff.mpr fun streaming => ?_
  cases (bare.streaming r).mp streaming

/-- A look at the server leaves the session's bookmarks as they would be told without it. -/
theorem lastBookmarks_after_serverInfo (h : σ.Rests) (isOpen : σ.session.closed = false)
    (free : σ.session.connection = none) :
    ((lastBookmarks peer.recorded).exec ((serverInfo peer.recorded).exec σ).2).1 =
      ((lastBookmarks peer.recorded).exec σ).1 := by
  have session := (@serverInfo_borrows _ peer _ isOpen free).1
  have idle := h.idle_of_free free
  rw [lastBookmarks_idle idle, lastBookmarks_idle]
  · rw [session]
  · intro r
    rw [session]
    exact idle r

/-- A closed session has no server. -/
theorem serverInfo_closed (shut : σ.session.closed = true) :
    (serverInfo peer.recorded).exec σ = (.error .sessionClosed, σ) := by
  rw [serverInfo, Op.exec_bind, checkOpen, Op.exec_bind, Op.exec_theSession]
  dsimp only
  rw [if_pos shut]
  rfl

/-- An open session knows its server by the connection that it holds. -/
theorem serverInfo_held (isOpen : σ.session.closed = false) {c : Connection}
    (held : σ.session.connection = some c) :
    (serverInfo peer.recorded).exec σ = (.ok c.server, σ) := by
  rw [serverInfo, Op.exec_bind, checkOpen, Op.exec_bind, Op.exec_theSession]
  dsimp only
  rw [if_neg (by simp [isOpen]), Op.exec_pure]
  dsimp only
  rw [Op.exec_bind, Op.exec_theSession]
  dsimp only
  rw [held]
  rfl

/-- Only an open session without a connection does more than answer. -/
theorem serverInfo_cases (peer : Peer ω) (σ : State (Recorded ω)) :
    (∃ outcome, (serverInfo peer.recorded).exec σ = (outcome, σ)) ∨
      σ.session.closed = false ∧ σ.session.connection = none := by
  cases shut : σ.session.closed with
  | true => exact .inl ⟨_, serverInfo_closed shut⟩
  | false =>
    cases slot : σ.session.connection with
    | some c => exact .inl ⟨_, serverInfo_held shut slot⟩
    | none => exact .inr ⟨rfl, rfl⟩

/-- A look at the server is no work.  After every sequence of operations, a session that is closed
    refuses it, one that holds a connection answers from it, and neither asks anybody anything.  One
    that holds none does what `Probe` says: unless the search for where to go fails, it asks for one
    connection, in the database that the target or the search says and for reading, so as the
    session would ask exactly if the session is for reading; it sends nothing on it and gives it
    back.  However it goes, of the session only the target may have been settled, the bookmarks are
    told as they would have been, and the session owns what it owned. -/
theorem serverInfo_probes (peer : Peer ω) (config : SessionConfig) (w : ω)
    (ops : List (Operation ω)) :
    let σ := play peer config w ops
    let outcome := ((serverInfo peer.recorded).exec σ).1
    let τ := ((serverInfo peer.recorded).exec σ).2
    (σ.session.closed = true → outcome = .error .sessionClosed ∧ τ = σ) ∧
    (σ.session.closed = false →
      (∀ c, σ.session.connection = some c → outcome = .ok c.server ∧ τ = σ) ∧
      (σ.session.connection = none → ∃ later, τ.history = later ++ σ.history ∧
        Probe peer.routing σ.session outcome later ∧
        (∀ request answer, .asked (.acquire request) answer ∈ later →
          (request.mode = σ.session.config.defaultMode ↔ σ.session.config.defaultMode = .read)) ∧
        ∀ c sender m answer, .asked (.send c sender m) answer ∉ later)) ∧
    τ.session = { σ.session with target := τ.session.target } ∧
    ((lastBookmarks peer.recorded).exec τ).1 = ((lastBookmarks peer.recorded).exec σ).1 ∧
    τ.OwnsConnection peer := by
  intro σ
  have rests : σ.Rests := play_rests peer config w ops
  have after : ((serverInfo peer.recorded).exec σ).2.Rests :=
    Op.Ends.state ((serverInfo_rests rests).imp (fun _ _ h => h) fun _ _ h => h.1)
  refine ⟨fun shut => by rw [serverInfo_closed shut]; exact ⟨rfl, rfl⟩, fun isOpen =>
    ⟨fun c held => by rw [serverInfo_held isOpen held]; exact ⟨rfl, rfl⟩, fun free => ?_⟩,
    ?_, ?_, after.ownsConnection⟩
  · obtain ⟨later, history, probe⟩ := (serverInfo_borrows isOpen free).2
    refine ⟨later, history, probe, fun request answer mem => ?_, probe.unsent⟩
    rw [probe.mode mem]
    exact eq_comm
  · rcases serverInfo_cases peer σ with ⟨outcome, still⟩ | ⟨isOpen, free⟩
    · rw [still]
    · exact (serverInfo_borrows isOpen free).1
  · rcases serverInfo_cases peer σ with ⟨outcome, still⟩ | ⟨isOpen, free⟩
    · rw [still]
    · exact lastBookmarks_after_serverInfo rests isOpen free

end GraphSession
