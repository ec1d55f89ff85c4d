import GraphSession.Proofs.Carriage
import GraphSession.Proofs.Delivery
import GraphSession.Proofs.Forgetting
import GraphSession.Proofs.Independence
import GraphSession.Proofs.Steering

/-!
  Connections that are used again.

  A query that is run while an auto-commit result is streaming goes on the connection of that
  result, whatever database and user it names; any other gets a connection of its own.  The
  connection of the result was acquired in an earlier operation, the last one that acquired it, with
  the settings of that operation.  So whether the query goes where its connection was lent is a
  matter of two operations, and of what the session learned in between (`work_travels`).
-/

namespace GraphSession

variable {ω α : Type} {peer : Peer ω} {config : SessionConfig} {w : ω} {c : Connection}
  {loan : AcquireRequest} {work : WorkRequest} {earlier later past : History} {e : Happening}
  {σ : State (Recorded ω)} {ops : List (Operation ω)} {op : Operation ω}

/-! ## Loans -/

theorem Happening.of_runs? (sent : e.runs? = some (c, work)) :
    ∃ sender request answer, e = .asked (.send c sender (.run request)) answer ∧
      request.work = work := by
  unfold runs? at sent
  split at sent
  · cases sent
    exact ⟨_, _, _, rfl, rfl⟩
  · cases sent

theorem History.mem_of_lentFor {h : History} (lent : h.lentFor c = some loan) :
    .asked (.acquire loan) (.ok c) ∈ h := by
  obtain ⟨e, here, lends⟩ := List.exists_of_findSome?_eq_some lent
  rwa [Happening.of_lends? lends] at here

/-- Without an open transaction, what is on loan serves the auto-commit result that is streaming. -/
theorem State.Settled.streams {s : Option ResultId} (h : σ.Settled none s)
    (onLoan : (σ.history.dialogue c).isSome = true) :
    σ.session.AutoStreams ∧ σ.session.connection = some c := by
  have idle (bare : σ.Stands {}) : False := by
    rw [bare.loan] at onLoan
    cases onLoan
  rcases h.steady with busy | busy | down
  · cases s with
    | none => exact (idle (Idle.bare busy)).elim
    | some r =>
      obtain ⟨-, c', d, -, stands⟩ := busy.live_some
      refine ⟨⟨r, (stands.streaming r).mpr rfl, stands.origin r rfl⟩, stands.slot.trans ?_⟩
      rw [stands.loan, Standing.dialogue] at onLoan
      dsimp only at onLoan
      split at onLoan
      · next same => rw [same]
      · cases onLoan
  · exact (idle (Idle.bare busy)).elim
  · exact (idle (Idle.bare down)).elim

/-! ## What a loan is for -/

/-- The loan is for the database that the operation names.  If it names none, the loan is for the
    `target` that the session has then, unless that was not known before (`t`) and the operation
    names a user, to whose home it goes. -/
structure AcquireRequest.Follows (loan : AcquireRequest) (o : Overrides) (routing : Bool)
    (t target : Target) : Prop where
  named : ∀ database, o.database = some database → loan.database = some database
  settles : routing = true → o.database = none →
    o.impersonatedUser = none ∨ t ≠ .unresolved → target = .resolved loan.database

section Conducted

variable {routing alone : Bool} {o : Overrides} {s : Session} {t : Target}

/-- A home database is searched for. -/
theorem History.IsFetch.searched {fetch : History} {search : RoutingRequest} {names : List String}
    (fetched : fetch.IsFetch) : ∀ e ∈ .asked (.note (.homeResolved names.getLast?)) () ::
      .asked (.findHome search) (.ok names) :: fetch, e.IsIdle := by
  refine List.forall_mem_cons.mpr ⟨?_, List.forall_mem_cons.mpr ⟨?_, fetched.idle⟩⟩
  · exact ⟨fun _ => rfl, rfl, rfl⟩
  · exact ⟨fun _ => rfl, rfl, rfl⟩

/-- An acquisition sends no query. -/
theorem Acquisition.runs (h : Acquisition routing o t later) : ∀ e ∈ later, e.runs? = none := by
  have silent {past : History} (idle : ∀ e ∈ past, e.IsIdle) : ∀ e ∈ past, e.runs? = none :=
    fun e here => (idle e here).runs
  cases h with
  | known _ fetched => exact List.forall_mem_cons.mpr ⟨rfl, silent fetched.idle⟩
  | found _ _ fetched fetched' =>
    exact List.forall_mem_cons.mpr
      ⟨rfl, List.forall_mem_append.mpr ⟨silent fetched'.idle, silent fetched.searched⟩⟩
  | unfetched _ fetched => exact List.forall_mem_cons.mpr ⟨rfl, silent fetched.searched⟩
  | lost _ fetched => exact List.forall_mem_cons.mpr ⟨rfl, silent fetched.idle⟩

theorem Acquisition.follows (h : Acquisition routing o t later)
    (lent : .asked (.acquire loan) (.ok c) ∈ later) (s : Session) :
    loan.Follows o routing t (History.target o s t later) := by
  -- nothing is lent but at the end
  have last {e : Happening} {past : History} (idle : ∀ e ∈ past, e.IsIdle)
      (here : .asked (.acquire loan) (.ok c) ∈ e :: past) :
      .asked (.acquire loan) (.ok c) = e := by
    rcases List.mem_cons.mp here with here | here
    · exact here
    · have unlent := (idle _ here).lends c
      rw [Happening.lends?_self] at unlent
      cases unlent
  cases h with
  | known known fetched =>
    cases last fetched.idle lent
    refine ⟨fun database named => ?_, fun routed unnamed _ => ?_⟩
    · simp only [Overrides.direction, named, Option.some.injEq] at known
      exact known.symm
    · cases t with
      | unresolved =>
        simp [Overrides.direction, unnamed, routed, Target.database?] at known
      | resolved database =>
        rw [Overrides.direction_resolved unnamed] at known
        rw [History.target_resolved, Option.some.inj known]
  | @found request answer search names fetch fetch' unknown home fetched fetched' =>
    cases last (List.forall_mem_append.mpr ⟨fetched'.idle, fetched.searched⟩) lent
    obtain ⟨unnamed, rfl, -⟩ := Overrides.direction_eq_none unknown
    refine ⟨fun database named => ?_, fun _ _ own => ?_⟩
    · rw [unnamed] at named
      cases named
    · have plain : o.impersonatedUser = none := own.resolve_right fun known => known rfl
      have found : History.target o s .unresolved (fetch' ++
          .asked (.note (.homeResolved names.getLast?)) () ::
            .asked (.findHome search) (.ok names) :: fetch) = .resolved names.getLast? := by
        rw [History.target_append, target_found fetched, plain, History.target_quiet fetched'.quiet]
        rfl
      rw [home]
      exact (congrArg (Target.learn · none) found).trans (Target.learn_none _)
  | unfetched unknown fetched => cases last fetched.searched lent
  | lost unknown fetched => cases last fetched.idle lent

/-- Nothing that is not part of an acquisition is a loan, and the target stays once it is settled. -/
theorem Conducted.follows (h : Conducted routing alone o s t later)
    (lent : .asked (.acquire loan) (.ok c) ∈ later) :
    loan.Follows o routing t (History.target o s t later) := by
  have still {target : Target} {between : History} (follows : loan.Follows o routing t target) :
      loan.Follows o routing t (History.target o s target between) :=
    ⟨follows.named, fun routed unnamed own => by
      rw [follows.settles routed unnamed own, History.target_resolved]⟩
  induction h with
  | nothing => cases lent
  | @other e before _ heeds ih =>
    rcases List.mem_cons.mp lent with rfl | lent
    · exact heeds.elim
    · have after : loan.Follows o routing t
          (History.target o s (History.target o s t before) [e]) := still (ih lent)
      rwa [← History.target_append] at after
  | acquisition _ here ih =>
    rw [History.target_append]
    rcases List.mem_append.mp lent with lent | lent
    · have follows := here.follows lent s
      refine ⟨follows.named, fun routed unnamed own => follows.settles routed unnamed ?_⟩
      -- what was known before the operation still is
      refine own.imp id fun known => ?_
      cases t with
      | unresolved => exact absurd rfl known
      | resolved database => simp [History.target_resolved]
    · exact still (ih lent)

/-- A query that is a unit of its own names the database that its operation names. -/
theorem Conducted.names (h : Conducted routing true o s t later) (here : e ∈ later)
    (sent : e.runs? = some (c, work)) {database : String} (named : o.database = some database) :
    work.database = some database := by
  induction h with
  | nothing => cases here
  | other _ heeds ih =>
    rcases List.mem_cons.mp here with rfl | here
    · obtain ⟨sender, request, answer, rfl, rfl⟩ := Happening.of_runs? sent
      exact heeds rfl _ (by rw [Overrides.direction, named])
    · exact ih here
  | acquisition _ acquired ih =>
    rcases List.mem_append.mp here with here | here
    · rw [acquired.runs e here] at sent
      cases sent
    · exact ih here

end Conducted

/-! ## Who acquired a connection -/

/-- The operation `op` of the list `ops`, made after those `before` it, acquired the connection with
    this request. -/
def LentBy (peer : Peer ω) (config : SessionConfig) (w : ω) (ops : List (Operation ω))
    (c : Connection) (before : List (Operation ω)) (op : Operation ω) (loan : AcquireRequest) :
    Prop :=
  ∃ after, ops = before ++ op :: after ∧ ∃ later,
    (op.after peer (play peer config w before)).history =
      later ++ (play peer config w before).history ∧ later.lentFor c = some loan

theorem play_config : (play peer config w ops).session.config = config :=
  (configured_kept config).play (fun _ => rfl) w ops

/-- What one operation lends and sends, as the session stands when it begins. -/
theorem play_dispatches (peer : Peer ω) (config : SessionConfig) (w : ω) (ops : List (Operation ω))
    (op : Operation ω) :
    (play peer config w ops).Dispatches op.alone
      (op.overrides.impersonatedUser.or config.impersonatedUser)
      (op.after peer (play peer config w ops)) := by
  have moment : (play peer config w ops).Between := (reached_play peer config w ops).moments
  have dispatches : (play peer config w ops).Dispatches op.alone _
      (op.after peer (play peer config w ops)) := op.after_dispatches moment
  rwa [Session.actingUser, play_config] at dispatches

/-- A loan is for the user that its operation acts for and goes where the operation says.  If it
    goes to the target of the session, that stays the target. -/
theorem LentBy.follows {before : List (Operation ω)}
    (h : LentBy peer config w ops c before op loan) :
    loan.impersonatedUser = op.overrides.impersonatedUser.or config.impersonatedUser ∧
      loan.Follows op.overrides peer.routing (play peer config w before).session.target
        (play peer config w ops).session.target := by
  obtain ⟨after, split, later, history, lent⟩ := h
  have here := History.mem_of_lentFor lent
  constructor
  · obtain ⟨later', history', dispatches⟩ := play_dispatches peer config w before op
    obtain rfl : later' = later := List.append_cancel_right (history'.symm.trans history)
    obtain ⟨past, travels, -⟩ := dispatches.mem here
    exact travels.lends c loan (Happening.lends?_self c loan)
  · obtain ⟨later', history', all⟩ := (op.after_path peer (play peer config w before)).conducted
    obtain rfl : later' = later := List.append_cancel_right (history'.symm.trans history)
    obtain ⟨target, conducted⟩ := all _ (.refl _)
    have follows := conducted.follows here
    rw [← target] at follows
    refine ⟨follows.named, fun routed unnamed own => ?_⟩
    have settled : (play peer config w (before ++ [op])).session.target = .resolved loan.database :=
      (congrArg (·.session.target) (play_concat peer config w before [op])).trans
        (follows.settles routed unnamed own)
    have stays := (play_steers peer config w (before ++ [op])).1 _ settled after
    rwa [List.append_assoc, List.singleton_append, ← split] at stays

/-! ## Where work goes -/

/-- The work shows the settings of its run: the database that they name, and the user that they or
    the session name. -/
structure Overrides.Shows (o : Overrides) (config : SessionConfig) (work : WorkRequest) :
    Prop where
  database : ∀ database, o.database = some database → work.database = some database
  user : work.impersonatedUser = o.impersonatedUser.or config.impersonatedUser

/-- A query whose result is streaming. -/
def queried : List (Operation (List (List Value))) := [.run (.query { text := "RETURN n" }) none]

/-- A session of "a" whose result was fetched to the end, while it still has the connection. -/
def drained (first : Result) (past : History) : State (Recorded (List (List Value))) where
  session :=
    { config := { database := some "a", fetchSize := 1 }
      bookmarks := .empty
      target := .resolved (some "a")
      connection := some default
      results := [first] }
  world := { world := [], history := past }

end GraphSession
