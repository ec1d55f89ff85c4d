import GraphSession.Proofs.Ordinary
import GraphSession.Proofs.Ownership
import GraphSession.Proofs.Quiescence

/-!
  What the work of a session travels on.

  A connection is borrowed for a database and a user, and the work that is sent on it names a
  database and a user as well.  `Travels` says how the two fit in one operation: a transaction begins
  on a connection that the operation borrowed for that very database and user, and so does a query
  that is a unit of its own, unless it goes on a connection that was there before.

  Everything else that an operation does is idle (`routine_idles`), so what matters are the actions
  that borrow and send: `connect_lends`, `openTransaction_serves` and `run_queries`.  A transaction
  is opened from a session without a connection only; a query may find one, but then no transaction
  of before is in its way (`State.Frees`).
-/

namespace GraphSession

variable {ω α : Type} {peer : Peer ω} {user : Option String} {c : Connection}
  {earlier later past : History} {e : Happening} {σ τ : State (Recorded ω)}

/-! ## Loans and work in a history -/

namespace Happening

/-- The request with which this connection was lent. -/
def lends? (c : Connection) : Happening → Option AcquireRequest
  | asked (.acquire request) (.ok c') => if c' = c then some request else none
  | _ => none

theorem lends?_self (c : Connection) (request : AcquireRequest) :
    (asked (.acquire request) (.ok c)).lends? c = some request :=
  if_pos rfl

theorem of_lends? {loan : AcquireRequest} (lent : e.lends? c = some loan) :
    e = .asked (.acquire loan) (.ok c) := by
  unfold lends? at lent
  split at lent
  · split at lent
    · next same => rw [Option.some.inj lent, same]
    · cases lent
  · cases lent

/-- A query that was sent: the connection, and where and for whom it is to run. -/
def runs? : Happening → Option (Connection × WorkRequest)
  | asked (.send c _ (.run request)) _ => some (c, request.work)
  | _ => none

/-- A begin that was sent: the connection, and where and for whom it is. -/
def begins? : Happening → Option (Connection × WorkRequest)
  | asked (.send c _ (.begin request)) _ => some (c, request)
  | _ => none

/-- Something that neither lends a connection nor sends work on one. -/
structure IsIdle (e : Happening) : Prop where
  lends : ∀ c, e.lends? c = none
  runs : e.runs? = none
  begins : e.begins? = none

/-- Something before any work is sent: a connection that is lent is for this user. -/
structure Fetches (user : Option String) (e : Happening) : Prop where
  lends : ∀ c loan, e.lends? c = some loan → loan.impersonatedUser = user
  runs : e.runs? = none
  begins : e.begins? = none

theorem IsIdle.fetches {e : Happening} (idle : e.IsIdle) (user : Option String) :
    e.Fetches user where
  lends c loan lent := by
    rw [idle.lends c] at lent
    cases lent
  runs := idle.runs
  begins := idle.begins

end Happening

/-- The request with which a connection was lent last. -/
def History.lentFor (c : Connection) (h : History) : Option AcquireRequest :=
  h.findSome? (·.lends? c)

theorem History.lentFor_append (c : Connection) (later earlier : History) :
    History.lentFor c (later ++ earlier) = (later.lentFor c).or (earlier.lentFor c) :=
  List.findSome?_append

theorem History.lentFor_idle (idle : ∀ e ∈ later, e.IsIdle) (c : Connection) :
    later.lentFor c = none :=
  List.findSome?_eq_none_iff.mpr fun e here => (idle e here).lends c

/-- Work goes where, and is for whom, its connection was lent. -/
structure WorkRequest.Suits (work : WorkRequest) (loan : AcquireRequest) : Prop where
  database : work.database = loan.database
  user : work.impersonatedUser = loan.impersonatedUser

/-- In an operation that acts for this user, with `past` as what happened in it so far: connections
    are borrowed for the user; a transaction begins on a connection that was borrowed for it; and a
    query that is a unit of its own suits its connection, if that was borrowed for it. -/
structure Travels (alone : Bool) (user : Option String) (past : History) (e : Happening) : Prop where
  lends : ∀ c loan, e.lends? c = some loan → loan.impersonatedUser = user
  begins : ∀ c work, e.begins? = some (c, work) →
    ∃ loan, past.lentFor c = some loan ∧ work.Suits loan
  runs : alone = true → ∀ c work, e.runs? = some (c, work) →
    work.impersonatedUser = user ∧ ∀ loan, past.lentFor c = some loan → work.Suits loan

theorem Happening.Fetches.travels (h : e.Fetches user) (alone : Bool) (past : History) :
    Travels alone user past e where
  lends := h.lends
  begins c work sent := by
    rw [h.begins] at sent
    cases sent
  runs _ c work sent := by
    rw [h.runs] at sent
    cases sent

/-- What is true of begins stays true after an earlier past. -/
theorem always_travels_append (before : Always (Travels false user) earlier)
    (after : Always (Travels false user) later) : Always (Travels false user) (later ++ earlier) := by
  induction later with
  | nil => exact before
  | cons e later ih =>
    refine ⟨⟨after.1.lends, fun c work sent => ?_, fun alone => by cases alone⟩, ih after.2⟩
    obtain ⟨loan, lent, suits⟩ := after.1.begins c work sent
    exact ⟨loan, (History.lentFor_append c later earlier).trans (by rw [lent]; rfl), suits⟩

/-! ## Frames -/

/-- The session keeps its settings, and nothing is lent or sent. -/
def State.Idles (σ τ : State (Recorded ω)) : Prop :=
  τ.session.config = σ.session.config ∧ σ.Since (∀ e ∈ ·, e.IsIdle) τ

/-- The session keeps its settings, and in what an operation for this user does no query is a unit of
    its own. -/
def State.Serves (user : Option String) (σ τ : State (Recorded ω)) : Prop :=
  τ.session.config = σ.session.config ∧
    σ.Since (Always (Travels false (σ.session.actingUser user))) τ

instance : IsFrame (State.Idles (ω := ω)) where
  rest _ := ⟨rfl, .nothing (by simp) rfl⟩
  andThen h h' := ⟨h'.1.trans h.1, h.2.all_andThen h'.2⟩

theorem Session.actingUser_config {s t : Session} (config : t.config = s.config)
    (user : Option String) : t.actingUser user = s.actingUser user := by
  rw [actingUser, actingUser, config]

instance : IsFrame (State.Serves (ω := ω) user) where
  rest _ := ⟨rfl, .nothing trivial rfl⟩
  andThen := by
    intro σ τ υ h h'
    have later := h'.2
    rw [Session.actingUser_config h.1] at later
    exact ⟨h'.1.trans h.1, h.2.andThen later fun _ _ => always_travels_append⟩

theorem State.Idles.serves (h : σ.Idles τ) (user : Option String) : σ.Serves user τ := by
  obtain ⟨config, later, history, idle⟩ := h
  refine ⟨config, later, history, .of_forall fun e here past => ?_⟩
  exact ((idle e here).fetches _).travels false past

theorem Request.IsRoutine.isIdle {request : Request} (routine : request.IsRoutine)
    (answer : request.Answer) : (Happening.asked request answer).IsIdle := by
  cases request with
  | acquire request => exact routine.elim
  | send c sender m => cases m <;> first | exact routine.elim | exact ⟨fun _ => rfl, rfl, rfl⟩
  | _ => exact ⟨fun _ => rfl, rfl, rfl⟩

theorem heard_idle (request : Request) (routine : request.IsRoutine) (answer : request.Answer)
    (w : ω) : σ.Only Happening.IsIdle (σ.heard request answer w) :=
  .one (routine.isIdle answer) rfl

/-- The bookmarks could not be fetched. -/
theorem unfetched_idle {fault : Fault}
    (history : τ.history = .asked .getBookmarks (.error fault) :: σ.history) :
    σ.Only Happening.IsIdle τ :=
  .one ⟨fun _ => rfl, rfl, rfl⟩ history

theorem routine_idles : Routine peer.recorded (State.Idles (ω := ω)) where
  ask request routine σ := ⟨rfl, .one (routine.isIdle _) rfl⟩
  pull := pullHeld_obeys fun _ _ _ _ => ⟨rfl, .one ⟨fun _ => rfl, rfl, rfl⟩ rfl⟩
  change _ _ config := ⟨config, .nothing (by simp) rfl⟩

/-! ## Connections -/

/-- From `σ` to `τ` this connection was lent for this database and user, and nothing was sent on
    any. -/
def State.Lends (database user : Option String) (c : Connection) (σ τ : State (Recorded ω)) : Prop :=
  ∃ later loan, τ.history = later ++ σ.history ∧ later.lentFor c = some loan ∧
    loan.database = database ∧ loan.impersonatedUser = user ∧ ∀ e ∈ later, e.Fetches user

/-- From `σ` to `τ` connections were lent for this user at most, and nothing was sent. -/
abbrev State.Fetches (user : Option String) (σ τ : State (Recorded ω)) : Prop :=
  σ.Only (Happening.Fetches user) τ

theorem State.Fetches.of_idle (h : σ.Only Happening.IsIdle τ) : σ.Fetches user τ :=
  h.imp fun _ idle e here => (idle e here).fetches user

theorem State.Lends.fetches {database : Option String} (h : σ.Lends database user c τ) :
    σ.Fetches user τ := by
  obtain ⟨later, -, history, -, -, -, fetches⟩ := h
  exact ⟨later, history, fetches⟩

/-- A connection is lent, and nothing but idle things happened before. -/
theorem State.Lends.borrowed {request : AcquireRequest} (history : τ.history = later ++ σ.history)
    (idle : ∀ e ∈ later, e.IsIdle) (w : ω) :
    σ.Lends request.database request.impersonatedUser c (τ.heard (.acquire request) (.ok c) w) := by
  have here := Happening.lends?_self c request
  refine ⟨_ :: later, request, congrArg (List.cons _) history,
    List.findSome?_cons_of_isSome (by rw [here]; rfl) |>.trans here, rfl, rfl, fun e mem => ?_⟩
  rcases List.mem_cons.mp mem with rfl | before
  · refine ⟨fun c' loan lent => ?_, rfl, rfl⟩
    cases Happening.of_lends? lent
    rfl
  · exact (idle e before).fetches _

/-- Idle things happen after a connection was lent. -/
theorem State.Lends.idle {database : Option String} {υ : State (Recorded ω)}
    (h : σ.Lends database user c τ) (after : τ.Only Happening.IsIdle υ) :
    σ.Lends database user c υ := by
  obtain ⟨earlier, loan, history, lent, where', who, fetches⟩ := h
  obtain ⟨later, history', idle⟩ := after
  refine ⟨later ++ earlier, loan, ?_, ?_, where', who, fun e here => ?_⟩
  · rw [history', history, List.append_assoc]
  · rw [History.lentFor_append, History.lentFor_idle idle, lent]
    rfl
  · rcases List.mem_append.mp here with here | here
    · exact (idle e here).fetches user
    · exact fetches e here

/-- Idle things happen after connections were lent. -/
theorem State.Fetches.idle {υ : State (Recorded ω)} (h : σ.Fetches user τ)
    (after : τ.Only Happening.IsIdle υ) : σ.Fetches user υ :=
  IsFrame.andThen h (.of_idle after)

theorem History.IsFetch.idle {fetch : History} (fetched : fetch.IsFetch) : ∀ e ∈ fetch, e.IsIdle := by
  rcases fetched with rfl | ⟨held, rfl⟩
  · simp
  · exact fun e here => List.mem_singleton.mp here ▸ ⟨fun _ => rfl, rfl, rfl⟩

theorem acquire_lends (mode : AccessMode) (database user : Option String) (api : Option ApiKind) :
    (acquire peer.recorded mode database user api).Ends σ
      (fun c τ => τ.session = σ.session ∧ σ.Lends database user c τ)
      fun _ τ => τ.session = σ.session ∧ σ.Fetches user τ := by
  have told {ρ : State (Recorded ω)} (c : Connection) (api : ApiKind)
      (answer : Except Fault Unit) (w : ω) :
      ρ.Only Happening.IsIdle (ρ.heard (.send c .session (.telemetry api)) answer w) :=
    .one ⟨fun _ => rfl, rfl, rfl⟩ rfl
  rw [acquire, Op.ends_bind, Op.ends_theSession, Op.ends_bind]
  refine bookmarksForWork_fetch.imp (fun b τ h => ?_) fun fault τ h =>
    ⟨h.1, .of_idle (unfetched_idle h.2)⟩
  obtain ⟨session, fetch, fetched, history⟩ := h
  rw [Op.ends_bind]
  refine Op.ends_borrow (fun c w => ?_) fun fault w =>
    ⟨session, State.Fetches.of_idle (IsFrame.andThen (t := τ) ⟨fetch, history, fetched.idle⟩
      (.one ⟨fun _ => rfl, rfl, rfl⟩ rfl))⟩
  have lent {request : AcquireRequest} (where' : request.database = database)
      (who : request.impersonatedUser = user) :
      σ.Lends database user c (τ.heard (.acquire request) (.ok c) w) :=
    where' ▸ who ▸ .borrowed history fetched.idle w
  have noted {υ : State (Recorded ω)} (session : υ.session = σ.session)
      (lent : σ.Lends database user c υ) :
      Op.Ends (do
        liftM (note peer.recorded (.connectionAcquired mode api))
        return c : Op (Recorded ω) Connection) υ
        (fun c τ => τ.session = σ.session ∧ σ.Lends database user c τ)
        fun _ τ => τ.session = σ.session ∧ σ.Fetches user τ := by
    rw [Op.ends_bind, Op.ends_lift]
    exact Act.ends_note fun w => ⟨session, lent.idle (heard_idle (.note _) trivial () w)⟩
  cases api with
  | none => exact noted session (lent rfl rfl)
  | some kind =>
    dsimp only
    split
    · rw [Op.ends_bind, Op.ends_attempt]
      refine Op.ends_send (fun _ w' => ?_) fun fault w' => ?_
      · exact noted session ((lent rfl rfl).idle (told c kind (.ok ()) w'))
      · -- a connection that fails at this goes back
        rw [Op.ends_bind, Op.ends_lift]
        exact Act.ends_giveBack fun w'' => ⟨session,
          (((lent rfl rfl).idle (told c kind (.error fault) w')).idle
            (heard_idle (.release c) trivial () w'')).fetches⟩
    · exact noted session (lent rfl rfl)

/-- A connection is lent after idle things. -/
theorem State.Lends.after {database : Option String} {υ : State (Recorded ω)}
    (before : σ.Only Happening.IsIdle τ) (h : τ.Lends database user c υ) :
    σ.Lends database user c υ := by
  obtain ⟨earlier, history, idle⟩ := before
  obtain ⟨later, loan, history', lent, where', who, fetches⟩ := h
  refine ⟨later ++ earlier, loan, ?_, ?_, where', who, fun e here => ?_⟩
  · rw [history', history, List.append_assoc]
  · rw [History.lentFor_append, lent]
    rfl
  · rcases List.mem_append.mp here with here | here
    · exact fetches e here
    · exact (idle e here).fetches user

/-- A session without a connection gets one for the database that its work will name, and for the
    user that the work is for. -/
theorem connect_lends (unheld : σ.session.connection = none) (mode : AccessMode) (api : ApiKind)
    (o : Overrides) :
    (connect peer.recorded mode api o).Ends σ
      (fun database τ => τ.session.config = σ.session.config ∧ ∃ c,
        τ.session.connection = some c ∧
          σ.Lends database (σ.session.actingUser o.impersonatedUser) c τ)
      fun _ τ => τ.session.config = σ.session.config ∧
        σ.Fetches (σ.session.actingUser o.impersonatedUser) τ := by
  have without : σ.session.hasConnection = false := by
    rw [Session.hasConnection, unheld]
    rfl
  rw [connect, Op.ends_bind, Op.ends_theSession, if_neg (by simp [without]), Op.ends_bind]
  refine (routine_idles.searching.resolveDatabase o).ends σ |>.imp (fun database τ h => ?_)
    fun fault τ h => ⟨h.1, .of_idle h.2⟩
  rw [Op.ends_bind]
  refine (acquire_lends mode database _ (some api)).imp (fun c υ h' => ?_) fun fault υ h' => ?_
  · exact ⟨(congrArg _ h'.1).trans h.1, c, rfl, .after h.2 h'.2⟩
  · exact ⟨(congrArg _ h'.1).trans h.1, IsFrame.andThen (.of_idle h.2) h'.2⟩

/-- What a session does before it sends work of its own. -/
def prepareWork (peer : Peer ω) (mode : AccessMode) (api : ApiKind) (o : Overrides) :
    Op ω (Option String × Bookmarks) := do
  let database ← connect peer mode api o
  let bookmarks ← bookmarksForWork peer
  return (database, bookmarks)

theorem prepareWork_lends (unheld : σ.session.connection = none) (mode : AccessMode) (api : ApiKind)
    (o : Overrides) :
    (prepareWork peer.recorded mode api o).Ends σ
      (fun p τ => τ.session.config = σ.session.config ∧ ∃ c,
        τ.session.connection = some c ∧ σ.Lends p.1 (σ.session.actingUser o.impersonatedUser) c τ)
      fun _ τ => τ.session.config = σ.session.config ∧
        σ.Fetches (σ.session.actingUser o.impersonatedUser) τ := by
  rw [prepareWork, Op.ends_bind]
  refine (connect_lends unheld mode api o).imp (fun database τ h => ?_) fun _ _ h => h
  obtain ⟨config, c, held, lends⟩ := h
  rw [Op.ends_bind]
  refine bookmarksForWork_fetch.imp (fun b υ h => ?_) fun fault υ h => ?_
  · obtain ⟨session, fetch, fetched, history⟩ := h
    exact ⟨(congrArg _ session).trans config, c, (congrArg _ session).trans held,
      lends.idle ⟨fetch, history, fetched.idle⟩⟩
  · exact ⟨(congrArg _ h.1).trans config, lends.fetches.idle (unfetched_idle h.2)⟩

/-- A session with a connection goes on with it. -/
theorem prepareWork_held (held : σ.session.connection = some c) (mode : AccessMode) (api : ApiKind)
    (o : Overrides) :
    (prepareWork peer.recorded mode api o).Ends σ
      (fun _ τ => τ.session = σ.session ∧ σ.Only Happening.IsIdle τ)
      fun _ τ => τ.session = σ.session ∧ σ.Only Happening.IsIdle τ := by
  have connected : σ.session.hasConnection = true := by
    rw [Session.hasConnection, held]
    rfl
  rw [prepareWork, Op.ends_bind, connect, Op.ends_bind, Op.ends_theSession, if_pos connected]
  refine Op.ends_bind.mpr (bookmarksForWork_fetch.imp (fun b υ h => ?_) fun fault υ h => ?_)
  · obtain ⟨session, fetch, fetched, history⟩ := h
    exact ⟨session, fetch, history, fetched.idle⟩
  · exact ⟨h.1, unfetched_idle h.2⟩

/-! ## Transactions -/

theorem State.Fetches.serves (config : τ.session.config = σ.session.config)
    (h : σ.Fetches (σ.session.actingUser user) τ) : σ.Serves user τ :=
  ⟨config, h.imp fun _ fetches => .of_forall fun e here past =>
    (fetches e here).travels false past⟩

/-- A transaction begins on the connection that was lent for it. -/
theorem State.Lends.begun {database : Option String} {work : WorkRequest}
    (h : σ.Lends database (σ.session.actingUser user) c τ)
    (config : τ.session.config = σ.session.config) (goes : work.database = database)
    (acts : work.impersonatedUser = σ.session.actingUser user) (t : TransactionId)
    (answer : Except Fault (Option String)) (w : ω) :
    σ.Serves user (τ.heard (.send c (.transaction t) (.begin work)) answer w) := by
  obtain ⟨later, loan, history, lent, where', who, fetches⟩ := h
  refine ⟨config, _ :: later, congrArg (List.cons _) history, ⟨?_, ?_, fun alone => by cases alone⟩,
    .of_forall fun e here past => (fetches e here).travels false past⟩
  · intro c' loan' lent'
    cases lent'
  · intro c' work' sent
    cases sent
    exact ⟨loan, lent, goes.trans where'.symm, acts.trans who.symm⟩

/-- A session without a connection opens a transaction on one that it borrows for it. -/
theorem openTransaction_serves (unheld : σ.session.connection = none) (mode : AccessMode)
    (api : ApiKind) (settings : TransactionConfig) (holder : Holder) :
    σ.Serves none ((openTransaction peer.recorded mode api settings holder).exec σ).2 := by
  have idle {ρ : State (Recorded ω)} (h : σ.Serves none ρ) {x : Act (Recorded ω) Unit}
      (hx : x.Obeys State.Idles) : x.Ends ρ fun _ τ => σ.Serves none τ :=
    IsFrame.andThen h ((hx ρ).serves none)
  have k : Routine peer.recorded (State.Idles (ω := ω)) := routine_idles
  refine Op.Ends.state ?_
  rw [openTransaction, Op.ends_bind, beginUnit, Op.ends_changeSession, Op.ends_bind,
    Op.ends_attempt]
  let reserved : State (Recorded ω) :=
    { σ with session := { σ.session with units := σ.session.units + 1 } }
  have free : reserved.session.connection = none := unheld
  refine (prepareWork_lends free mode api {}).imp (fun p τ h => ?_) fun fault τ h => ?_
  · obtain ⟨config, c, held, lends⟩ := h
    have begun (answer : Except Fault (Option String)) (w : ω) : σ.Serves none
        (τ.heard (.send c (.transaction τ.session.nextTransaction) (.begin
          { τ.session.workRequest mode none settings.metadataForRequest settings.timeout with
            database := p.1, bookmarks := p.2 })) answer w) :=
      State.Lends.begun lends config rfl (Session.actingUser_config config none) _
        answer w
    dsimp only
    rw [Op.ends_bind, Op.ends_theSession, Op.ends_bind, Op.ends_attempt]
    refine Op.ends_sendHeld held (fun named w => ?_) fun fault w => ?_
    · rw [Op.ends_bind, Op.ends_lift]
      exact (idle (begun _ w) (k.endsUnits.pinDatabase named)).imp fun _ υ h => h
    · rw [Op.ends_bind, Op.ends_lift]
      exact (idle (begun _ w) k.clearsUp.abortUnit).imp fun _ υ h => h
  · rw [Op.ends_bind, Op.ends_lift]
    exact (idle (h.2.serves h.1) k.endsUnits.endUnit).imp fun _ υ h => h

/-- A transaction is begun on a connection that is borrowed for it. -/
theorem beginTransaction_serves (h : σ.Rests) (settings : TransactionConfig) :
    σ.Serves none ((beginTransaction peer.recorded settings).exec σ).2 := by
  have rest : σ.Serves none σ := IsFrame.rest σ
  obtain ⟨u, s, settled⟩ := h
  refine Op.Ends.state ?_
  rw [beginTransaction, Op.ends_bind]
  refine checkOpen_settled ?_ rest
  rw [Op.ends_bind]
  refine ((reapTransaction_settled settled).and (routine_idles.clearsUp.reapTransaction.ends σ)).imp
    (fun _ τ h => ?_) fun _ _ h => h.2.serves none
  obtain ⟨⟨s', settled⟩, idles⟩ := h
  have rests : τ.Rests := ⟨none, s', settled⟩
  rw [Op.ends_bind, Op.ends_theSession]
  split
  · exact idles.serves none
  · next free =>
    have unheld : τ.session.connection = none := by
      have owns : τ.OwnsConnection peer := State.Rests.ownsConnection rests
      simpa [Nat.pos_iff_ne_zero] using mt owns.slot.mp free
    rw [Op.ends_bind]
    exact (Op.ends_after (idles.serves none) (openTransaction_serves unheld _ _ _ _)).imp
      (fun _ _ h => h) fun _ _ h => h

/-- To look at the server a connection is borrowed for the user of the session. -/
theorem serverInfo_serves : σ.Serves none ((serverInfo peer.recorded).exec σ).2 := by
  have rest : σ.Serves none σ := IsFrame.rest σ
  refine Op.Ends.state ?_
  rw [serverInfo, Op.ends_bind]
  refine checkOpen_settled ?_ rest
  rw [Op.ends_bind, Op.ends_theSession]
  split
  · exact rest
  · rw [Op.ends_bind]
    refine (routine_idles.searching.resolveDatabase {}).ends σ |>.imp (fun database τ h => ?_)
      fun _ _ h => h.serves none
    have lent : σ.Fetches (σ.session.actingUser none) τ := .of_idle h.2
    rw [Op.ends_bind]
    refine (acquire_lends .read database _ none).imp (fun c υ h' => ?_) fun _ υ h' =>
      State.Fetches.serves ((congrArg _ h'.1).trans h.1) (IsFrame.andThen lent h'.2)
    have config : υ.session.config = σ.session.config := (congrArg _ h'.1).trans h.1
    have borrowed : σ.Serves none υ :=
      State.Fetches.serves config (IsFrame.andThen lent h'.2.fetches)
    rw [Op.ends_bind, Op.ends_lift]
    exact IsFrame.andThen borrowed ((routine_idles.endsUnits.giveBack c υ).serves none)

theorem routine_serves : Routine peer.recorded (State.Serves (ω := ω) none) where
  ask request routine σ := (routine_idles.ask request routine σ).serves none
  pull id σ := (routine_idles.pull id σ).serves none
  change σ s config := by
    have changed : σ.Idles { σ with session := s } := ⟨config, .nothing (by simp) rfl⟩
    exact changed.serves none

/-- Transactions run any queries: they are no units of their own. -/
theorem routineWork_serves : RoutineWork peer (State.Serves (ω := ω) none) where
  toRoutine := routine_serves
  started request := routine_serves.startResult fun c id σ => by
    refine ⟨rfl, [_], rfl, ⟨?_, ?_, fun alone => by cases alone⟩, trivial⟩
    · intro c' loan lent
      cases lent
    · intro c' work sent
      cases sent
  used σ a outcome := by
    have told : σ.Idles { σ with world := σ.world.add (.used a outcome) } :=
      ⟨rfl, .one ⟨fun _ => rfl, rfl, rfl⟩ rfl⟩
    exact told.serves none
  returned σ fault := by
    have told : σ.Idles { σ with world := σ.world.add (.returned fault) } :=
      ⟨rfl, .one ⟨fun _ => rfl, rfl, rfl⟩ rfl⟩
    exact told.serves none
  drift σ w := by
    have drifted : σ.Idles { σ with world := { σ.world with world := w } } :=
      ⟨rfl, .nothing (by simp) rfl⟩
    exact drifted.serves none

/-- Whatever an operation sends that is no query of its own, a transaction begins on a connection
    that was borrowed for it. -/
theorem Operation.after_serves (h : σ.Between) (op : Operation ω) (plain : op.alone = false) :
    σ.Serves none (op.after peer σ) := by
  have k : RoutineWork peer (State.Serves (ω := ω) none) := routineWork_serves
  have told {β : Type} {x : Op (Recorded ω) β} (hx : σ.Serves none (x.exec σ).2) :
      σ.Serves none ((concluded x).exec σ).2 := hx
  have tried (op : Operation ω) (runs : op.IsFunction) : σ.Serves none (op.after peer σ) := by
    have up := k.upheld upheld_moments (fun τ mode api settings trying =>
      openTransaction_serves trying.bare.slot mode api settings .session) σ
    exact (up.function ⟨h, IsFrame.rest σ⟩ op runs).2
  cases op with
  | run source params => cases plain
  | beginTransaction settings => exact told (beginTransaction_serves h.rests settings)
  | execute | executeRenamed | executeQuery | executeBlocking => exact tried _ trivial
  | lastBookmarks => exact told (k.reads.lastBookmarks σ)
  | lastBookmark =>
    have asked : Op.Obeys (State.Serves (ω := ω) none) (GraphSession.lastBookmark peer.recorded) :=
      .bind (.lift (k.endsUnits.note _)) fun _ => .bind k.reads.lastBookmarks fun _ => .pure _
    exact told (asked σ)
  | serverInfo => exact told serverInfo_serves
  | close =>
    have closed : Act.Obeys (State.Serves (ω := ω) none) (GraphSession.close peer.recorded) :=
      k.clearsUp.close k.reads
    exact told (x := liftM (GraphSession.close peer.recorded)) (closed σ)
  | access a => exact k.performTold a σ
  | elsewhere f => exact k.drift σ _

/-! ## A result that is streaming -/

/-- An auto-commit result of the session is streaming. -/
def Session.AutoStreams (s : Session) : Prop :=
  ∃ r, (s.result r).isStreaming = true ∧ (s.result r).origin.transaction? = none

section Streaming

variable {u : Option (TransactionId × Transaction)} {s : Option ResultId}

/-- No transaction is open while an auto-commit result is streaming. -/
theorem State.Settled.eq_none (h : σ.Settled u s) (streams : σ.session.AutoStreams) : u = none := by
  obtain ⟨r, streaming, own⟩ := streams
  obtain ⟨rfl, -, c, d, -, line⟩ := h.steady.live streaming
  have same : (σ.session.result r).origin.transaction? = u.map Prod.fst := line.origin r rfl
  exact Option.map_eq_none_iff.mp (same.symm.trans own)

/-- The session after one more unit of work was begun. -/
def State.reserved (σ : State ω) : State ω :=
  { σ with session := { σ.session with units := σ.session.units + 1 } }

/-- With one unit more, the session still has its connection when the auto-commit result that is
    streaming has been fetched to its end. -/
theorem bufferAutoResult_keeps {r : ResultId} (h : σ.Settled none s)
    (streaming : (σ.session.result r).isStreaming = true) :
    (bufferAutoResult peer.recorded).Ends σ.reserved
      (fun _ τ => τ.session.connection ≠ none) fun _ _ => True := by
  obtain ⟨rfl, active, c, d, hd, line⟩ := h.steady.live streaming
  have auto : σ.reserved.session.autoResult = some r := h.auto r rfl rfl
  rw [bufferAutoResult, Op.ends_bind, Op.ends_theSession, auto]
  dsimp only
  rw [Op.ends_bind, Op.ends_changeSession]
  have reserved : State.Line 1 none (some r) c d σ.reserved :=
    line.setUnits (by rw [line.units])
  exact bufferAll_keeps ⟨active, c, d, hd, reserved.tend rfl rfl rfl rfl rfl rfl⟩ Nat.one_pos

/-- After the explicit transaction is out of the way, the session keeps its connection while the
    result that was streaming is fetched to its end. -/
theorem bufferAutoResult_held {ρ : State (Recorded ω)} (settled : σ.Settled u s)
    (frees : u ≠ none ∧ ρ.Stands {} ∨
      σ.Settled none s ∧ ρ.Settled none s ∧ ρ.session.results = σ.session.results) :
    (bufferAutoResult peer.recorded).Ends ρ.reserved
      (fun _ υ => σ.session.AutoStreams → υ.session.connection ≠ none) fun _ _ => True := by
  by_cases streams : σ.session.AutoStreams
  · rcases frees with ⟨something, -⟩ | ⟨-, settled', same⟩
    · exact absurd (settled.eq_none streams) something
    · obtain ⟨r, streaming, -⟩ := streams
      have still : (ρ.session.result r).isStreaming = true := by
        rw [Session.result, same]
        exact streaming
      exact (bufferAutoResult_keeps settled' still).imp (fun _ _ held _ => held) fun _ _ h => h
  · exact (Op.ends_trivial _ _).imp (fun _ _ _ h => absurd h streams) fun _ _ h => h

end Streaming

/-! ## Queries that are units of their own -/

/-- Nothing is lent and nothing begins, and a query that is sent is sent on `c` for this work. -/
structure Happening.Sends (c : Connection) (work : WorkRequest) (e : Happening) : Prop where
  lends : ∀ c', e.lends? c' = none
  begins : e.begins? = none
  runs : ∀ c' work', e.runs? = some (c', work') → c' = c ∧ work' = work

theorem Happening.IsIdle.sends (idle : e.IsIdle) (c : Connection) (work : WorkRequest) :
    e.Sends c work where
  lends := idle.lends
  begins := idle.begins
  runs c' work' sent := by
    rw [idle.runs] at sent
    cases sent

theorem Happening.Sends.travels {work : WorkRequest} (sends : e.Sends c work)
    (acts : work.impersonatedUser = user)
    (suits : ∀ loan, past.lentFor c = some loan → work.Suits loan) : Travels true user past e where
  lends c' loan lent := by
    rw [sends.lends c'] at lent
    cases lent
  begins c' work' begun := by
    rw [sends.begins] at begun
    cases begun
  runs _ c' work' sent := by
    obtain ⟨rfl, rfl⟩ := sends.runs c' work' sent
    exact ⟨acts, suits⟩

theorem routine_sends (c : Connection) (work : WorkRequest) :
    Routine peer.recorded (State.Only (ω := ω) (Happening.Sends c work)) where
  ask request routine σ := (routine_idles.ask request routine σ).2.imp fun _ idle e here =>
    (idle e here).sends c work
  pull id σ := (routine_idles.pull id σ).2.imp fun _ idle e here => (idle e here).sends c work
  change _ _ _ := .nothing (by simp) rfl

/-- A query is sent on the connection that the session holds. -/
theorem startResult_sends (held : σ.session.connection = some c) (request : RunRequest)
    (origin : Origin) :
    (startResult peer.recorded request origin).Ends σ
      (fun _ => σ.Only (Happening.Sends c request.work))
      fun _ => σ.Only (Happening.Sends c request.work) := by
  refine Op.ends_of_exec ((routine_sends c request.work).startResult_from origin (Op.Ends.state ?_))
  have sends (id : ResultId) (answer : Except Fault RunReply) :
      (Happening.asked (.send c (.result id) (.run request)) answer).Sends c request.work := by
    refine ⟨fun _ => rfl, rfl, fun c' work' sent => ?_⟩
    cases sent
    exact ⟨rfl, rfl⟩
  exact Op.ends_sendHeld held (fun _ _ => .one (sends _ _) rfl) fun _ _ => .one (sends _ _) rfl

/-- From `σ` to `τ` a query was sent for `user`, as a unit of its own: on a connection that was
    there and is used again, or, where no auto-commit result was streaming, on one that was lent for
    its database and the user. -/
structure State.Sent (user : Option String) (σ τ : State (Recorded ω)) (c : Connection)
    (work : WorkRequest) (reaped ready : State (Recorded ω)) : Prop where
  frees : reaped.Stands {} ∨ ∃ s, σ.Settled none s
  reaping : σ.Only Happening.IsIdle reaped
  readied : reaped.Only Happening.IsIdle ready ∨
    ¬ σ.session.AutoStreams ∧ reaped.Lends work.database user c ready
  acts : work.impersonatedUser = user
  sent : ready.Only (Happening.Sends c work) τ

/-- From `σ` to `τ` a query was sent like that, or none was. -/
def State.Queries (user : Option String) (σ τ : State (Recorded ω)) : Prop :=
  σ.Fetches user τ ∨ ∃ c work reaped ready, σ.Sent user τ c work reaped ready

/-- What a run does once its settings are known. -/
def runWith (peer : Peer ω) (query : Query) (parameters : Params) (o : Overrides) :
    Op ω ResultId := do
  let s ← theSession
  let mode := s.config.defaultMode
  beginUnit
  let prepared ← attempt do
    bufferAutoResult peer
    prepareWork peer mode .autoCommit o
  match prepared with
  | .error fault =>
    endUnit peer
    throw fault
  | .ok (database, bookmarks) =>
    let work :=
      s.workRequest mode o.impersonatedUser query.metadata (o.timeout.or query.timeout)
    let request : RunRequest :=
      { query := query.text, parameters, work := { work with database, bookmarks } }
    let id ← startResult peer request (.autoCommit bookmarks o.database.isNone)
    changeSession ({ · with autoResult := some id })
    return id

theorem run_eq (peer : Peer ω) (source : QuerySource) (params : Option Params) :
    run peer source params = (do
      let query ← settleOn (Query.ofSource source)
      checkOpen
      reapTransaction peer
      let extraction := Overrides.extract (mergeParameters params query.parameters)
      let o ← settleOn extraction.1
      runWith peer query extraction.2 o) :=
  rfl

/-- A query is sent as a unit of its own on the connection that the session holds, and its result
    becomes the latest. -/
theorem startAutoCommit_queries {ρ φ : State (Recorded ω)}
    (frees : ρ.Stands {} ∨ ∃ s, σ.Settled none s) (reaping : σ.Only Happening.IsIdle ρ)
    (held : φ.session.connection = some c) {request : RunRequest}
    (readied : ρ.Only Happening.IsIdle φ ∨
      ¬ σ.session.AutoStreams ∧ ρ.Lends request.work.database user c φ)
    (acts : request.work.impersonatedUser = user) (origin : Origin) :
    Op.Ends (do
      let id ← startResult peer.recorded request origin
      changeSession ({ · with autoResult := some id })
      return id : Op (Recorded ω) ResultId) φ
      (fun _ => σ.Queries user) fun _ => σ.Queries user := by
  have sends {τ : State (Recorded ω)} (sent : φ.Only (Happening.Sends c request.work) τ) :
      σ.Queries user τ :=
    .inr ⟨c, request.work, ρ, φ, frees, reaping, readied, acts, sent⟩
  rw [Op.ends_bind]
  refine (startResult_sends held request origin).imp (fun id τ sent => ?_) fun _ _ => sends
  rw [Op.ends_bind, Op.ends_changeSession]
  exact sends sent

/-- Once the explicit transaction is out of the way and the settings are known, a query is sent as a
    unit of its own, or none is. -/
theorem runWith_queries {ρ : State (Recorded ω)} {u : Option (TransactionId × Transaction)}
    {s : Option ResultId} (settled : σ.Settled u s)
    (frees : u ≠ none ∧ ρ.Stands {} ∨
      σ.Settled none s ∧ ρ.Settled none s ∧ ρ.session.results = σ.session.results)
    (reaping : σ.Idles ρ) (query : Query) (parameters : Params) (o : Overrides) :
    (runWith peer.recorded query parameters o).Ends ρ
      (fun _ => σ.Queries (σ.session.actingUser o.impersonatedUser))
      fun _ => σ.Queries (σ.session.actingUser o.impersonatedUser) := by
  have acting {t : Session} (same : t.config = σ.session.config) :
      t.actingUser o.impersonatedUser = σ.session.actingUser o.impersonatedUser :=
    Session.actingUser_config same _
  generalize σ.session.actingUser o.impersonatedUser = user at acting
  obtain ⟨config, reaping⟩ := reaping
  have k : Routine peer.recorded (State.Idles (ω := ω)) := routine_idles
  have failed {υ : State (Recorded ω)} (before : σ.Fetches user υ) (fault : Fault) :
      Op.Ends (do endUnit peer.recorded; throw fault : Op (Recorded ω) ResultId) υ
        (fun _ => σ.Queries user) fun _ => σ.Queries user := by
    rw [Op.ends_bind, Op.ends_lift]
    exact .inl (before.idle (k.endsUnits.endUnit υ).2)
  rw [runWith, Op.ends_bind, Op.ends_theSession, Op.ends_bind, beginUnit, Op.ends_changeSession,
    Op.ends_bind, Op.ends_attempt, Op.ends_bind]
  refine (((k.clearsUp.bufferAutoResult k.reads).ends ρ.reserved).and
    (bufferAutoResult_held settled frees)).imp (fun _ υ h => ?_)
    fun fault υ h => failed (.of_idle (reaping.all_andThen h.1.2)) _
  obtain ⟨⟨config', buffering⟩, keeps⟩ := h
  replace buffering : ρ.Only Happening.IsIdle υ := buffering
  replace config' : υ.session.config = σ.session.config := config'.trans config
  have freed : ρ.Stands {} ∨ ∃ s, σ.Settled none s := frees.imp And.right fun h => ⟨s, h.1⟩
  -- the query goes on the connection that the session holds then
  cases there : υ.session.connection with
  | none =>
    refine (prepareWork_lends there _ .autoCommit o).imp (fun p φ h => ?_) fun fault φ h => ?_
    · obtain ⟨-, c, held, lends⟩ := h
      rw [acting config'] at lends
      exact startAutoCommit_queries freed reaping held
        (.inr ⟨fun streams => keeps streams there, .after buffering lends⟩) (acting config) _
    · rw [acting config'] at h
      exact failed (IsFrame.andThen (.of_idle (reaping.all_andThen buffering)) h.2) _
  | some c =>
    refine (prepareWork_held there _ .autoCommit o).imp (fun p φ h => ?_) fun fault φ h => ?_
    · exact startAutoCommit_queries freed reaping ((congrArg _ h.1).trans there)
        (.inl (buffering.all_andThen h.2)) (acting config) _
    · exact failed (.of_idle ((reaping.all_andThen buffering).all_andThen h.2)) _

/-- A query that is to run by itself is sent as a unit of its own, or none is. -/
theorem run_queries (h : σ.Rests) (source : QuerySource) (params : Option Params) :
    σ.Queries (σ.session.actingUser
        (Operation.run source params : Operation ω).overrides.impersonatedUser)
      ((run peer.recorded source params).exec σ).2 := by
  have nothing {user : Option String} {τ : State (Recorded ω)} (idles : σ.Idles τ) :
      σ.Queries user τ := .inl (.of_idle idles.2)
  obtain ⟨u, s, settled⟩ := h
  refine Op.Ends.state ?_
  rw [run_eq, Op.ends_bind, Op.ends_settleOn]
  refine ⟨fun query asked => ?_, fun _ _ => nothing (IsFrame.rest σ)⟩
  rw [Op.ends_bind]
  refine checkOpen_settled ?_ (nothing (IsFrame.rest σ))
  rw [Op.ends_bind]
  refine ((reapTransaction_frees settled).and (routine_idles.clearsUp.reapTransaction.ends σ)).imp
    (fun _ ρ h => ?_) fun _ _ h => nothing h.2
  obtain ⟨frees, reaping⟩ := h
  dsimp only
  rw [Op.ends_bind, Op.ends_settleOn]
  refine ⟨fun o extracted => ?_, fun _ _ => nothing reaping⟩
  rw [Operation.overrides_run asked extracted]
  exact runWith_queries settled frees reaping query _ o

/-! ## What an operation sends -/

/-- When this has happened since `σ`, no transaction of `σ` is in the way of other work: none was
    open, or nothing has been on loan at some time since. -/
def State.Frees (σ : State (Recorded ω)) (past : History) : Prop :=
  (∃ s, σ.Settled none s) ∨
    ∃ later earlier, past = later ++ earlier ∧ ∀ c, History.dialogue c (earlier ++ σ.history) = none

/-- What an operation sends travels as it should, and a query that is a unit of its own comes when
    nothing is in its way; while an auto-commit result was streaming, nothing was lent for it. -/
structure Dispatch (alone : Bool) (user : Option String) (σ : State (Recorded ω)) (past : History)
    (e : Happening) : Prop where
  travels : Travels alone user past e
  frees : alone = true → e.runs? ≠ none → σ.Frees past
  unlent : alone = true → e.runs? ≠ none → σ.session.AutoStreams → ∀ c, past.lentFor c = none

/-- Whatever an operation sends is sent like that. -/
def State.Dispatches (alone : Bool) (user : Option String) (σ τ : State (Recorded ω)) : Prop :=
  σ.Since (Always (Dispatch alone user σ)) τ

theorem State.Fetches.dispatches (h : σ.Fetches user τ) (alone : Bool) :
    σ.Dispatches alone user τ :=
  h.imp fun _ fetches => .of_forall fun e here past =>
    ⟨(fetches e here).travels alone past, fun _ sent => absurd (fetches e here).runs sent,
      fun _ sent => absurd (fetches e here).runs sent⟩

theorem State.Sent.dispatches {work : WorkRequest} {reaped ready : State (Recorded ω)}
    (h : σ.Sent user τ c work reaped ready) : σ.Dispatches true user τ := by
  obtain ⟨l, history, idle⟩ := h.reaping
  obtain ⟨l', history', suits, fetches, unlent⟩ : ∃ l', ready.history = l' ++ reaped.history ∧
      (∀ loan, l'.lentFor c = some loan → work.Suits loan) ∧ (∀ e ∈ l', e.Fetches user) ∧
      (σ.session.AutoStreams → ∀ c, l'.lentFor c = none) := by
    rcases h.readied with ⟨l', history', idle'⟩ |
      ⟨streamless, l', loan, history', lent, goes, acts, fetches⟩
    · refine ⟨l', history', fun loan lent => ?_, fun e here => (idle' e here).fetches user,
        fun _ => History.lentFor_idle idle'⟩
      rw [History.lentFor_idle idle'] at lent
      cases lent
    · refine ⟨l', history', fun loan' lent' => ?_, fetches,
        fun streams => absurd streams streamless⟩
      obtain rfl : loan = loan' := Option.some.inj (lent.symm.trans lent')
      exact ⟨goes.symm, h.acts.trans acts.symm⟩
  obtain ⟨l'', history'', sends⟩ := h.sent
  -- the check has come before anything that is sent
  have frees (past : History) : σ.Frees (past ++ (l' ++ l)) := by
    rcases h.frees with bare | free
    · refine .inr ⟨past ++ l', l, by rw [List.append_assoc], fun c => ?_⟩
      rw [← history, bare.loan]
      rfl
    · exact .inl free
  have since {between : History} (sends : ∀ e ∈ between, e.Sends c work) (c' : Connection) :
      History.lentFor c' (between ++ (l' ++ l)) = l'.lentFor c' := by
    have none_lent : between.lentFor c' = none :=
      List.findSome?_eq_none_iff.mpr fun e here => (sends e here).lends c'
    rw [History.lentFor_append, History.lentFor_append, none_lent, History.lentFor_idle idle,
      Option.none_or, Option.or_none]
  refine ⟨l'' ++ (l' ++ l), by simp only [history'', history', history, List.append_assoc], ?_⟩
  clear history''
  induction l'' with
  | nil =>
    have fetched (e : Happening) (here : e ∈ l' ++ l) : e.Fetches user :=
      (List.mem_append.mp here).elim (fetches e) fun here => (idle e here).fetches user
    exact .of_forall fun e here past => ⟨(fetched e here).travels true past,
      fun _ sent => absurd (fetched e here).runs sent,
      fun _ sent => absurd (fetched e here).runs sent⟩
  | cons e l'' ih =>
    have before (e' : Happening) (here : e' ∈ l'') : e'.Sends c work :=
      sends e' (List.mem_cons_of_mem e here)
    have suited (loan : AcquireRequest)
        (lent : History.lentFor c (l'' ++ (l' ++ l)) = some loan) : work.Suits loan :=
      suits loan ((since before c).symm.trans lent)
    exact ⟨⟨(sends e List.mem_cons_self).travels h.acts suited, fun _ _ => frees l'',
      fun _ _ streams c' => (since before c').trans (unlent streams c')⟩, ih before⟩

theorem Operation.overrides_of_plain {op : Operation ω} (plain : op.alone = false) :
    op.overrides = {} := by
  cases op with
  | run => cases plain
  | _ => rfl

/-- Every operation, between two moments. -/
theorem Operation.after_dispatches (h : σ.Between) (op : Operation ω) :
    σ.Dispatches op.alone (σ.session.actingUser op.overrides.impersonatedUser)
      (op.after peer σ) := by
  cases plain : op.alone with
  | false =>
    rw [Operation.overrides_of_plain plain]
    exact (op.after_serves h plain).2.imp fun _ travels => travels.imp fun _ _ travels =>
      ⟨travels, fun alone => absurd alone Bool.false_ne_true,
        fun alone => absurd alone Bool.false_ne_true⟩
  | true =>
    cases op with
    | run source params =>
      rcases run_queries h.rests source params with fetches | ⟨c, work, reaped, ready, sent⟩
      · exact fetches.dispatches true
      · exact sent.dispatches
    | _ => cases plain

end GraphSession
