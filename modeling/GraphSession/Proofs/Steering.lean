import Mathlib.Data.List.Induction
import GraphSession.Proofs.Calls

/-!
  Where the work of a session goes, and from what the session learns it.

  Every operation follows a `Path` for its purpose (`Operation.perform_along`), whatever the pool
  and the server answer and whatever the code of a transaction function does.  Two things follow for
  every sequence of operations.

  What a session learns (`play_learns`): the home database that was found for its own user, and a
  database that a response names, unless the response belongs to a run that named a database itself.
  A run that only names another user does teach: its query and the end of its stream name that
  user's home database, and the session takes it for its own.

  What the target governs (`play_steers`): the first target stays.  From then on the pool is never
  asked for a home database, and whatever does not name a database itself goes to the target.  Until
  then every such acquisition from a pool of several servers asks for the home database exactly
  once.
-/

namespace GraphSession

variable {ω α : Type} {peer : Peer ω}

/-! ## Operations -/

/-- The settings of the run that an operation makes, if it makes one. -/
def Operation.overrides : Operation ω → Overrides
  | run source params =>
    match Query.ofSource source with
    | .ok query =>
      match (Overrides.extract (mergeParameters params query.parameters)).1 with
      | .ok o => o
      | .error _ => {}
    | .error _ => {}
  | _ => {}

/-- Whether the query of an operation is a unit of its own. -/
def Operation.alone : Operation ω → Bool
  | run .. => true
  | _ => false

/-- Whether an operation may commit. -/
def Operation.mayCommit : Operation ω → Prop
  | access (.commit _) => True
  | op => op.IsFunction

/-- Whether an operation closes the session. -/
def Operation.closes : Operation ω → Prop
  | close => True
  | _ => False

/-- What the path of an operation depends on. -/
def Operation.purpose (op : Operation ω) : Purpose where
  overrides := op.overrides
  alone := op.alone
  enlists := True
  commits := op.mayCommit
  closes := op.closes

theorem Operation.overrides_run {source : QuerySource} {params : Option Params} {query : Query}
    {o : Overrides} (asked : Query.ofSource source = .ok query)
    (extracted : (Overrides.extract (mergeParameters params query.parameters)).1 = .ok o) :
    (run source params : Operation ω).overrides = o := by
  simp only [overrides, asked, extracted]

theorem Happening.isQuiet_used (access : Access) (outcome : Except Fault access.Reply) :
    (used access outcome).IsQuiet :=
  ⟨fun _ _ _ _ => trivial, fun _ _ => rfl⟩

theorem Happening.isQuiet_returned (fault : Option Fault) : (returned fault).IsQuiet :=
  ⟨fun _ _ _ _ => trivial, fun _ _ => rfl⟩

theorem Path.log {e : Purpose} {event : Happening} (quiet : event.IsQuiet)
    (σ : State (Recorded ω)) : Path peer e σ { σ with world := σ.world.add event } :=
  .tend [event] (.same rfl rfl rfl fun _ => rfl) rfl fun _ he => List.mem_singleton.mp he ▸ quiet

theorem Access.performTold_along {e : Purpose} (enlists : e.enlists) (plain : e.alone = false)
    (a : Access) (commits : ∀ id, a = .commit id → e.commits) :
    (a.performTold peer).Along peer e :=
  .bind (.run (a.perform_along enlists plain commits)) fun _ =>
    .bind (fun σ => .log (Happening.isQuiet_used a _) σ) fun _ => .pure _

/-- The parts of a transaction function follow a path for every purpose that overrides nothing. -/
theorem upheld_path {e : Purpose} (own : e.overrides = {}) (plain : e.alone = false)
    (enlists : e.enlists) (commits : e.commits) (σ : State (Recorded ω)) :
    Upheld peer (Path peer e σ) (Path peer e σ) fun _ => Path peer e σ where
  call τ _ a path := path.andThen (a.performTold_along enlists plain (fun _ _ => commits) τ)
  drift τ _ w path := path.andThen (.silent (.same rfl rfl rfl fun _ => rfl) rfl)
  ended τ _ fault path := path.andThen (.log (Happening.isQuiet_returned fault) τ)
  noting τ event path := path.andThen (Act.along_note event τ)
  prepare τ path := Op.ends_after path (prepareExecute_along enlists τ)
  pausing τ request pausing path := by
    refine path.andThen (Act.along_ask (fun answer => ?_) τ)
    cases request <;> first
      | exact ⟨fun _ _ _ _ => trivial, fun _ _ => rfl⟩
      | cases pausing
  opens τ mode api config path := Op.ends_after path (openTransaction_along own mode api config _ τ)
  settles τ t outcome path _ := Op.ends_after path (settle_along enlists commits t outcome τ)
  done _ path := path

/-- Every operation follows a path for its purpose. -/
theorem Operation.perform_along (op : Operation ω) : (op.perform peer).Along peer op.purpose := by
  have told {β : Type} {x : Op (Recorded ω) β} (hx : x.Along peer op.purpose) :
      (concluded x).Along peer op.purpose :=
    .bind (.run hx) fun _ => .pure _
  cases op with
  | run source params =>
    exact told (run_along trivial rfl fun _ _ => Operation.overrides_run (ω := ω))
  | beginTransaction config => exact told (beginTransaction_along trivial rfl config)
  | execute | executeRenamed | executeQuery | executeBlocking =>
    exact fun σ => (upheld_path rfl rfl trivial trivial σ).function (.rest σ) _ trivial
  | lastBookmarks => exact told lastBookmarks_along
  | lastBookmark => exact told lastBookmark_along
  | serverInfo => exact told (serverInfo_along rfl)
  | close => exact told (.lift (close_along trivial trivial))
  | access a =>
    refine .bind (a.performTold_along trivial rfl fun id e => ?_) fun _ => .pure _
    rw [e]
    trivial
  | elsewhere f => exact fun σ => .silent (.same rfl rfl rfl fun _ => rfl) rfl

theorem Operation.after_path (peer : Peer ω) (op : Operation ω) (σ : State (Recorded ω)) :
    Path peer op.purpose σ (op.after peer σ) :=
  op.perform_along σ

/-! ## What a session learns -/

section Lessons

variable {config : SessionConfig} {w : ω}

theorem play_concat (peer : Peer ω) (config : SessionConfig) (w : ω)
    (ops more : List (Operation ω)) :
    play peer config w (ops ++ more) = more.foldl (Operation.after peer) (play peer config w ops) :=
  List.foldl_append

/-- What was given out stays what it is, whatever is done next. -/
theorem extends_foldl (peer : Peer ω) (σ : State (Recorded ω)) (more : List (Operation ω)) :
    σ.session.Extends (more.foldl (Operation.after peer) σ).session := by
  induction more generalizing σ with
  | nil => exact .refl _
  | cons op more ih => exact (op.after_path peer σ).grown.trans (ih _)

/-- The operation of the list `ops` in which the result `r` was given out. -/
def GivenBy (peer : Peer ω) (config : SessionConfig) (w : ω) (ops : List (Operation ω))
    (r : ResultId) (op : Operation ω) : Prop :=
  ∃ before after, ops = before ++ op :: after ∧
    (play peer config w before).session.results.length ≤ r ∧
      r < (op.after peer (play peer config w before)).session.results.length

/-- Every result was given out in some operation. -/
theorem exists_givenBy {ops : List (Operation ω)} {r : ResultId}
    (given : r < (play peer config w ops).session.results.length) :
    ∃ op, GivenBy peer config w ops r op := by
  induction ops using List.reverseRecOn with
  | nil => exact absurd given (Nat.not_lt_zero r)
  | append_singleton ops op ih =>
    by_cases before : r < (play peer config w ops).session.results.length
    · obtain ⟨op', front, back, split, here⟩ := ih before
      exact ⟨op', front, back ++ [op], by rw [split, List.append_assoc]; rfl, here⟩
    · rw [play_concat] at given
      exact ⟨op, ops, [], rfl, Nat.le_of_not_lt before, given⟩

/-- A result goes on asking what the operation asked that gave it out: the database that is named
    to it becomes known if its query was a unit of its own and named none. -/
theorem GivenBy.pins {ops : List (Operation ω)} {r : ResultId} {op : Operation ω}
    (h : GivenBy peer config w ops r op) :
    ((play peer config w ops).session.result r).origin.pins =
      (op.alone && op.overrides.database.isNone) := by
  obtain ⟨before, after, split, notYet, given⟩ := h
  have path := op.after_path peer (play peer config w before)
  rw [split, play_concat, List.foldl_cons,
    (extends_foldl peer _ after).origin r given, path.started r notYet given]
  rfl

end Lessons

/-- A home database is asked for only where no database is named. -/
theorem Conducted.unasked {routing alone : Bool} {o : Overrides} {s : Session} {t : Target}
    {later : History} (h : Conducted routing alone o s t later) (named : o.database ≠ none)
    (request : RoutingRequest) (answer : Except Fault (List String)) :
    .asked (.findHome request) answer ∉ later := by
  have known {t : Target} (e : o.direction routing t = none) : False :=
    named (Overrides.direction_eq_none e).1
  induction h with
  | nothing => exact List.not_mem_nil
  | other _ heeds ih =>
    intro mem
    rcases List.mem_cons.mp mem with rfl | mem
    · exact heeds
    · exact ih mem
  | acquisition _ here ih =>
    intro mem
    rcases List.mem_append.mp mem with mem | mem
    · cases here with
      | known _ fetched => rcases fetched with rfl | ⟨held, rfl⟩ <;> simp at mem
      | found unknown => exact known unknown
      | unfetched unknown => exact known unknown
      | lost unknown => exact known unknown
    · exact ih mem

/-- From what a session learns its target.  During an operation it learns what is told of it, in
    the order in which it happens: the first database stays.  An operation that names a database
    asks for no home database.  Whatever is answered to a result, at any time and in any operation,
    teaches only if that result was given out by a run that named no database; whether that run
    named a user of its own makes no difference. -/
theorem play_learns (peer : Peer ω) (config : SessionConfig) (w : ω) (ops : List (Operation ω))
    (op : Operation ω) :
    let σ := play peer config w ops
    let τ := op.after peer σ
    (∃ later, τ.history = later ++ σ.history ∧
      τ.session.target = History.target op.overrides τ.session σ.session.target later ∧
      (op.overrides.database ≠ none → ∀ request answer,
        .asked (.findHome request) answer ∉ later)) ∧
      ∀ r < τ.session.results.length, ∃ op', GivenBy peer config w (ops ++ [op]) r op' ∧
        (τ.session.result r).origin.pins = (op'.alone && op'.overrides.database.isNone) := by
  intro σ τ
  have path : Path peer op.purpose σ τ := op.after_path peer σ
  have together : τ = play peer config w (ops ++ [op]) := (play_concat peer config w ops [op]).symm
  constructor
  · obtain ⟨later, history, all⟩ := path.conducted
    obtain ⟨target, conducted⟩ := all τ.session (.refl _)
    exact ⟨later, history, target, conducted.unasked⟩
  · intro r given
    rw [together] at given ⊢
    obtain ⟨op', here⟩ := exists_givenBy given
    exact ⟨op', here, here.pins⟩

/-! ## What the target governs -/

/-- Something that names no database of its own goes to `database`. -/
def Happening.GoesTo (alone : Bool) (database : Option String) : Happening → Prop
  | asked (.acquire request) _ => request.database = database
  | asked (.findHome _) _ => False
  | asked (.send _ _ (.run request)) _ => alone = true → request.work.database = database
  | asked (.send _ _ (.begin request)) _ => request.database = database
  | _ => True

/-- Once the target is known, whatever happens goes there. -/
def Steered (alone : Bool) (o : Overrides) (s : Session) (t : Target) (past : History)
    (e : Happening) : Prop :=
  ∀ database, History.target o s t past = .resolved database → e.GoesTo alone database

section Steered

variable {routing alone : Bool} {o : Overrides} {s : Session} {t : Target} {later past : History}

/-- Where nothing is named, the target says where to go. -/
theorem Overrides.direction_resolved (unnamed : o.database = none) (database : Option String) :
    o.direction routing (.resolved database) = some database := by
  unfold direction
  rw [unnamed]
  rfl

theorem Happening.Heeds.goesTo {e : Happening} {database : Option String}
    (unnamed : o.database = none) (heeds : e.Heeds routing alone o (.resolved database)) :
    e.GoesTo alone database := by
  have known : o.direction routing (.resolved database) = some database :=
    Overrides.direction_resolved unnamed database
  unfold GoesTo
  split
  · exact heeds.elim
  · exact heeds
  · intro single
    exact heeds single database known
  · exact heeds database known
  · trivial

theorem History.IsFetch.steered (fetched : past.IsFetch) : Always (Steered alone o s t) past := by
  rcases fetched with rfl | ⟨held, rfl⟩
  · trivial
  · exact ⟨fun _ _ => trivial, trivial⟩

/-- An acquisition goes to the target that is known by then. -/
theorem Acquisition.steered (unnamed : o.database = none) (h : Acquisition routing o t later) :
    Always (Steered alone o s t) later := by
  -- nothing is known before the search
  have searched {fetch : History} (unknown : o.direction routing t = none) (fetched : fetch.IsFetch)
      (request : RoutingRequest) (answer : Except Fault (List String)) :
      Steered alone o s t fetch (.asked (.findHome request) answer) := by
    intro database known
    rw [History.target_quiet fetched.quiet, (Overrides.direction_eq_none unknown).2.1] at known
    cases known
  cases h with
  | known known fetched =>
    refine ⟨fun database resolved => ?_, fetched.steered⟩
    rw [History.target_quiet fetched.quiet] at resolved
    rw [resolved, Overrides.direction_resolved unnamed] at known
    exact (Option.some.inj known).symm
  | @found request answer search names fetch fetch' unknown home fetched fetched' =>
    have heard : Always (Steered alone o s t) (.asked (.note (.homeResolved names.getLast?)) () ::
        .asked (.findHome search) (.ok names) :: fetch) :=
      ⟨fun _ _ => trivial, searched unknown fetched _ _, fetched.steered⟩
    refine ⟨fun database resolved => ?_, ?_⟩
    · rw [(Overrides.direction_eq_none unknown).2.1, History.target_append, target_found fetched,
        History.target_quiet fetched'.quiet] at resolved
      split at resolved
      · exact home.trans (Target.resolved.inj resolved)
      · cases resolved
    · rcases fetched' with rfl | ⟨held, rfl⟩
      · exact heard
      · exact ⟨fun _ _ => trivial, heard⟩
  | unfetched unknown fetched =>
    exact ⟨fun _ _ => trivial, fun _ _ => trivial, searched unknown fetched _ _, fetched.steered⟩
  | lost unknown fetched => exact ⟨searched unknown fetched _ _, fetched.steered⟩

/-- What is steered from a later target on is steered. -/
theorem Always.steered_append (h : Always (Steered alone o s t) past)
    (h' : Always (Steered alone o s (History.target o s t past)) later) :
    Always (Steered alone o s t) (later ++ past) := by
  induction later with
  | nil => exact h
  | cons e later ih =>
    refine ⟨fun database resolved => h'.1 database ?_, ih h'.2⟩
    rwa [← History.target_append]

theorem Conducted.steered (unnamed : o.database = none)
    (h : Conducted routing alone o s t later) : Always (Steered alone o s t) later := by
  induction h with
  | nothing => trivial
  | other _ heeds ih =>
    refine ⟨fun database resolved => ?_, ih⟩
    rw [resolved] at heeds
    exact heeds.goesTo unnamed
  | acquisition _ here ih => exact ih.steered_append (here.steered unnamed)

end Steered

theorem after_resolved {database : Option String} {σ : State (Recorded ω)} (op : Operation ω)
    (known : σ.session.target = .resolved database) :
    (op.after peer σ).session.target = .resolved database := by
  obtain ⟨later, -, all⟩ := (op.after_path peer σ).conducted
  rw [(all _ (.refl _)).1, known, History.target_resolved]

/-- The target is settled once and governs all later work.  Once it is known it stays, and whatever
    names no database goes there, without another search.  Every connection is acquired where it is
    known to go, or after exactly one search for the home database; and whatever carries bookmarks
    to a search, a connection, a begin or a query carries the session's own, with those that were
    fetched for it just then. -/
theorem play_steers (peer : Peer ω) (config : SessionConfig) (w : ω) (ops : List (Operation ω)) :
    (∀ database, (play peer config w ops).session.target = .resolved database →
      ∀ more, (play peer config w (ops ++ more)).session.target = .resolved database) ∧
    (∀ op : Operation ω,
      let σ := play peer config w ops
      let τ := op.after peer σ
      ∃ later, τ.history = later ++ σ.history ∧
        τ.session.target = History.target op.overrides τ.session σ.session.target later ∧
        Conducted peer.routing op.alone op.overrides τ.session σ.session.target later ∧
        (op.overrides.database = none →
          Always (Steered op.alone op.overrides τ.session σ.session.target) later)) ∧
    Always (CarriesFresh config) (play peer config w ops).history := by
  refine ⟨fun database known more => ?_, fun op => ?_, play_fresh peer config w ops⟩
  · rw [play_concat]
    have stays (σ : State (Recorded ω)) (known : σ.session.target = .resolved database) :
        (more.foldl (Operation.after peer) σ).session.target = .resolved database := by
      induction more generalizing σ with
      | nil => exact known
      | cons op more ih => exact ih _ (after_resolved op known)
    exact stays _ known
  · intro σ τ
    have path : Path peer op.purpose σ τ := op.after_path peer σ
    obtain ⟨later, history, all⟩ := path.conducted
    obtain ⟨target, conducted⟩ := all τ.session (.refl _)
    exact ⟨later, history, target, conducted, conducted.steered⟩

end GraphSession
