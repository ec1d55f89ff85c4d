import GraphSession.Proofs.Carriage
import GraphSession.Proofs.Probe
import GraphSession.Proofs.Quiescence
import GraphSession.Proofs.Refusals
import GraphSession.Proofs.Series
import GraphSession.Proofs.Settings
import GraphSession.Proofs.Steering

/-!
  What is sent for a query.

  A query that runs by itself is sent once, with the parameters that were given but for the settings
  among them, and the settings go where they belong: each is what was given for it, or else the
  session's own.  Of the session's database that is its target as it stands when the query is sent,
  or the home database that was found for it.  A transaction that accepts a query (`State.Accepts`)
  sends it once as well, with all its parameters and nothing else.

  Two frames carry this through a run.  `State.Unqueried` says that no query was sent, and holds of
  everything but the one message; `State.Calls` says that somebody was asked something, and holds of
  every way in which a run fails once its settings fit.  In a transaction only a pull can fail
  before the query is sent (`fetch_failsByPull`), because the end of a result is reported to nobody.
-/

namespace GraphSession

variable {ω α : Type} {peer : Peer ω} {o : Overrides} {σ τ υ : State (Recorded ω)}

/-! ## What happened -/

/-- The query that was sent. -/
def Happening.query? : Happening → Option RunRequest
  | asked (.send _ _ (.run request)) _ => some request
  | _ => none

/-- The home database that was found; `none` inside if there is none. -/
def Happening.home? : Happening → Option (Option String)
  | asked (.findHome _) (.ok names) => some names.getLast?
  | _ => none

namespace History

/-- The queries that were sent. -/
def queries (h : History) : List RunRequest := h.filterMap Happening.query?

/-- Where a session works by itself, if its target was `t` before and `past` has happened in the
    operation: at its target, as it stands by then, or else in the home database that was found. -/
def workplace (o : Overrides) (s : Session) (t : Target) (past : History) : Option String :=
  ((History.target o s t past).database?.or (past.findSome? Happening.home?)).join

/-- One query was sent, and it is `P` after what had happened before it. -/
def RunsOnce (P : RunRequest → History → Prop) (h : History) : Prop :=
  ∃ (newer older : History) (c : Connection) (sender : Sender) (request : RunRequest)
    (answer : Except Fault RunReply),
    h = newer ++ .asked (.send c sender (.run request)) answer :: older ∧
      newer.queries = [] ∧ older.queries = [] ∧ P request older

theorem RunsOnce.imp {P Q : RunRequest → History → Prop} {h : History} (once : h.RunsOnce P)
    (himp : ∀ request older, P request older → Q request older) : h.RunsOnce Q := by
  obtain ⟨newer, older, c, sender, request, answer, split, none, none', here⟩ := once
  exact ⟨newer, older, c, sender, request, answer, split, none, none', himp _ _ here⟩

end History

/-- The request for a query that runs by itself: its text and the parameters that are given for it
    but for the settings, and the settings that are given, or else those of the query, of the
    session, or of the place where the session works by itself. -/
structure RunRequest.IsOwn (request : RunRequest) (q : Query) (params : Option Params)
    (c : SessionConfig) (workplace : Option String) : Prop where
  text : request.query = q.text
  parameters : ∀ name, request.parameters.get? name =
    if name ∈ Overrides.reservedNames then none else q.given params name
  database : request.work.database = (Overrides.of (q.given params)).database.or workplace
  user : request.work.impersonatedUser =
    (Overrides.of (q.given params)).impersonatedUser.or c.impersonatedUser
  timeout : request.work.timeout = (Overrides.of (q.given params)).timeout.or q.timeout

/-! ## Frames -/

/-- No query was sent. -/
abbrev State.Unqueried (σ τ : State (Recorded ω)) : Prop := σ.Only (·.query? = none) τ

/-- No home database was found. -/
abbrev State.Homeless (σ τ : State (Recorded ω)) : Prop := σ.Only (·.home? = none) τ

/-- Somebody was asked something. -/
abbrev State.Calls (σ τ : State (Recorded ω)) : Prop := σ.Since (∃ e ∈ ·, e.IsCall) τ

/-- To prepare for work is to find no home database. -/
theorem State.PreparesTo.homeless (h : σ.PreparesTo τ) : σ.Homeless τ := by
  refine h.imp fun later prepares e mem => ?_
  have prepared : e.Prepares := prepares e mem
  show e.home? = none
  unfold Happening.home?
  split
  · cases prepared
  · rfl

theorem State.Calls.andThen {P : Happening → Prop} (h : σ.Calls τ) (more : τ.Only P υ) :
    σ.Calls υ :=
  State.Since.andThen h more fun _ later calls _ => calls.imp fun _ call =>
    ⟨List.mem_append_right later call.1, call.2⟩

theorem State.Calls.after {P : Happening → Prop} (before : σ.Only P τ) (h : τ.Calls υ) :
    σ.Calls υ :=
  State.Since.andThen before h fun earlier _ _ calls => calls.imp fun _ call =>
    ⟨List.mem_append_left earlier call.1, call.2⟩

theorem State.Calls.heard {request : Request} {answer : request.Answer} (w : ω)
    (call : ¬ request.IsPausing) : σ.Calls (σ.heard request answer w) :=
  ⟨[_], rfl, _, List.mem_singleton_self _, call⟩

/-- The work of a session goes to the database that it names, or else where the session works by
    itself: the target, or the home database that was found. -/
def State.Places (o : Overrides) (database : Option String) (σ τ : State (Recorded ω)) : Prop :=
  σ.Since (fun later => database =
    o.database.or (τ.session.target.database?.or (later.findSome? Happening.home?)).join) τ

/-- What a search finds is where the work goes. -/
theorem Finds.places {database : Option String} (h : Finds peer o database σ τ) :
    σ.Places o database τ := by
  cases h with
  | known known same =>
    subst same
    refine ⟨[], rfl, ?_⟩
    unfold Overrides.direction at known
    revert known
    cases o.database with
    | some name => exact fun known => (Option.some.inj known).symm
    | none =>
      cases τ.session.target with
      | resolved database' => exact fun known => (Option.some.inj known).symm
      | unresolved =>
        cases peer.routing with
        | true =>
          intro known
          cases known
        | false => exact fun known => (Option.some.inj known).symm
  | @found search names fetch unknown fetched home session history =>
    refine ⟨_, history, ?_⟩
    obtain ⟨unnamed, -, -⟩ := Overrides.direction_eq_none unknown
    rw [session, unnamed, home]
    dsimp only
    split <;> rfl

/-- Where work goes is not changed by what finds no home database and settles no target. -/
theorem State.Places.andThen {database : Option String} (h : σ.Places o database τ)
    (more : τ.Homeless υ) (target : υ.session.target = τ.session.target) :
    σ.Places o database υ := by
  obtain ⟨later, history, goes⟩ := h
  obtain ⟨later', history', homeless⟩ := more
  have none_found : later'.findSome? Happening.home? = none :=
    List.findSome?_eq_none_iff.mpr homeless
  refine ⟨later' ++ later, by rw [history', history, List.append_assoc], ?_⟩
  dsimp only
  rw [List.findSome?_append, none_found, Option.none_or, target]
  exact goes

theorem State.Places.after {database : Option String} (before : σ.Homeless τ)
    (h : τ.Places o database υ) : σ.Places o database υ := by
  obtain ⟨earlier, history, homeless⟩ := before
  obtain ⟨later, history', goes⟩ := h
  have none_found : earlier.findSome? Happening.home? = none :=
    List.findSome?_eq_none_iff.mpr homeless
  refine ⟨later ++ earlier, by rw [history', history, List.append_assoc], ?_⟩
  dsimp only
  rw [List.findSome?_append, none_found, Option.or_none]
  exact goes

/-- From `σ` to `τ` this query was sent, and no other. -/
def State.Runs (request : RunRequest) (σ τ : State (Recorded ω)) : Prop :=
  ∃ (newer : History) (c : Connection) (sender : Sender) (answer : Except Fault RunReply),
    τ.history = newer ++ .asked (.send c sender (.run request)) answer :: σ.history ∧
      newer.queries = []

theorem State.Runs.calls {request : RunRequest} (h : σ.Runs request τ) : σ.Calls τ := by
  obtain ⟨newer, c, sender, answer, history, -⟩ := h
  have call : (Happening.asked (.send c sender (.run request)) answer).IsCall :=
    fun pauses => pauses
  refine ⟨newer ++ [.asked (.send c sender (.run request)) answer], ?_, _,
    List.mem_append_right newer (List.mem_singleton_self _), call⟩
  rw [history, List.append_assoc]
  rfl

/-- The purpose of a query that runs by itself. -/
def Purpose.ofRun (o : Overrides) : Purpose := { overrides := o, alone := true, enlists := True }

/-- From `σ` to `τ` this query was sent, with these settings, from a session that was `ready`. -/
structure State.Sends (peer : Peer ω) (query : Query) (parameters : Params) (o : Overrides)
    (σ τ ready : State (Recorded ω)) (request : RunRequest) : Prop where
  before : σ.Unqueried ready
  path : Path peer (.ofRun o) σ ready
  runs : ready.Runs request τ
  grown : ready.session.Extends τ.session
  text : request.query = query.text
  parameters : request.parameters = parameters
  database : σ.Places o request.work.database ready
  user : request.work.impersonatedUser = o.impersonatedUser.or σ.session.config.impersonatedUser
  timeout : request.work.timeout = o.timeout.or query.timeout

/-- A query that is sent after other things have happened, of which none is a query or tells of a
    home database. -/
theorem State.Sends.after {query : Query} {parameters : Params} {ready : State (Recorded ω)}
    {request : RunRequest} (unqueried : σ.Unqueried τ) (homeless : σ.Homeless τ)
    (path : Path peer (.ofRun o) σ τ) (config : τ.session.config = σ.session.config)
    (h : τ.Sends peer query parameters o υ ready request) :
    σ.Sends peer query parameters o υ ready request where
  before := unqueried.all_andThen h.before
  path := path.andThen h.path
  runs := h.runs
  grown := h.grown
  text := h.text
  parameters := h.parameters
  database := .after homeless h.database
  user := config ▸ h.user
  timeout := h.timeout

/-- From `σ` to `τ` the query `q` was sent, and no other, with what is given for it. -/
def State.RunsOwn (q : Query) (params : Option Params) (σ τ : State (Recorded ω)) : Prop :=
  σ.Since (History.RunsOnce fun request older => request.IsOwn q params σ.session.config
    (older.workplace (.of (q.given params)) τ.session σ.session.target)) τ

/-- What is given for a query fits: it is one, and so do its settings. -/
def QuerySource.Fits (source : QuerySource) (params : Option Params) : Prop :=
  ∃ q, Query.ofSource source = .ok q ∧ Overrides.Fit (q.given params)

theorem State.RunsOwn.calls {q : Query} {params : Option Params} (h : σ.RunsOwn q params τ) :
    σ.Calls τ := by
  refine h.imp fun later once => ?_
  obtain ⟨newer, older, c, sender, request, answer, rfl, -⟩ := once
  have call : (Happening.asked (.send c sender (.run request)) answer).IsCall :=
    fun pauses => pauses
  exact ⟨_, List.mem_append_right newer List.mem_cons_self, call⟩

end GraphSession
