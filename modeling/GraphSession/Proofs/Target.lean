import GraphSession.Proofs.Frame
import GraphSession.Proofs.Operation

/-!
  What settles the target of a session, and what the target governs.

  A session learns its target once: from the home database that a pool finds, or from a response of
  the server that names a database.  `Happening.learned?` says from which happenings it learns, for
  an operation with given overrides, and `History.target` is the target after what happened.

  `Conducted` says how an operation may go on as that target stands.  All its requests for
  connections and home databases belong to acquisitions: where an acquisition goes is known, or it
  asks the pool for the home database exactly once.  Queries and begins name the target.

  `Path` relates two states of a session between which this is all that happened to its target, and
  says what became of the results and transactions that were given out.  The rules of this module
  follow the text of an action.
-/

namespace GraphSession

variable {ω α β : Type}

/-! ## What settles the target -/

/-- The target after a database became known.  The first one stays. -/
def Target.learn : Target → Option (Option String) → Target
  | unresolved, some database => resolved database
  | t, _ => t

theorem Target.learn_none (t : Target) : t.learn none = t := by cases t <;> rfl

theorem Target.learn_resolved (database : Option String) (named : Option (Option String)) :
    (resolved database).learn named = resolved database := rfl

/-- The database that the metadata of a result name, those of its end before those of its start. -/
def databaseOf (start finish : Metadata) : Option String :=
  ((finish.get? "db").or (start.get? "db")).bind Value.asString?

theorem database_ofMetadata (query : Query) (server : Option ServerInfo)
    (start finish : Metadata) :
    (Summary.ofMetadata query server start finish).database = databaseOf start finish := rfl

/-- The database that becomes known to a session when the stream of one of its results ends with
    these metadata. -/
def Result.names? (r : Result) (finish : Metadata) : Option String :=
  if r.origin.pins then databaseOf r.startMetadata finish else none

/-- The database from which the session `s` learns its target, in an operation with the overrides
    `o`: the home database that was found, unless it is that of a user named for one run, or the one
    that a response names, unless that belongs to a run which named a database itself. -/
def Happening.learned? (o : Overrides) (s : Session) : Happening → Option (Option String)
  | asked (.findHome _) (.ok names) =>
    if o.impersonatedUser.isNone then some names.getLast? else none
  | asked (.send _ _ (.begin _)) (.ok named) => named.map some
  | asked (.send _ (.result r) (.run _)) (.ok reply) =>
    if (s.result r).origin.pins then reply.database.map some else none
  | asked (.send _ (.result r) (.pull _)) (.ok batch) =>
    if batch.more then none else ((s.result r).names? batch.metadata).map some
  | asked (.send _ (.result r) .discard) (.ok metadata) =>
    ((s.result r).names? metadata).map some
  | _ => none

/-- The target after what happened, if it was `t` before. -/
def History.target (o : Overrides) (s : Session) (t : Target) (later : History) : Target :=
  later.foldr (fun e t => t.learn (e.learned? o s)) t

theorem History.target_append (o : Overrides) (s : Session) (t : Target) (later earlier : History) :
    History.target o s t (later ++ earlier) =
      History.target o s (History.target o s t earlier) later :=
  List.foldr_append

/-- The target is settled once. -/
theorem History.target_resolved (o : Overrides) (s : Session) (database : Option String)
    (later : History) : History.target o s (.resolved database) later = .resolved database := by
  induction later with
  | nil => rfl
  | cons e later ih =>
    show (History.target o s (.resolved database) later).learn _ = _
    rw [ih, Target.learn_resolved]

/-! ## What the target governs -/

/-- Where an acquisition goes if no home database is asked for; `none` if one must be. -/
def Overrides.direction (o : Overrides) (routing : Bool) (t : Target) : Option (Option String) :=
  match o.database, t.database? with
  | some database, _ => some (some database)
  | none, some known => some known
  | none, none => if routing then none else some none

/-- The bookmarks for one request were fetched, if there is a manager to ask. -/
def History.IsFetch (h : History) : Prop :=
  h = [] ∨ ∃ held, h = [.asked .getBookmarks (.ok held)]

/-- All that one acquisition of a connection does, if the target is `t` when it begins.  It goes
    where it is known to go; otherwise it asks for the home database once, and goes there.  It may
    fail at each of its requests. -/
inductive Acquisition (routing : Bool) (o : Overrides) (t : Target) : History → Prop
  | known {request : AcquireRequest} {answer : Except Fault Connection} {fetch : History}
    (known : o.direction routing t = some request.database) (fetched : fetch.IsFetch) :
    Acquisition routing o t (.asked (.acquire request) answer :: fetch)
  | found {request : AcquireRequest} {answer : Except Fault Connection} {search : RoutingRequest}
    {names : List String} {fetch fetch' : History}
    (unknown : o.direction routing t = none) (home : request.database = names.getLast?)
    (fetched : fetch.IsFetch) (fetched' : fetch'.IsFetch) :
    Acquisition routing o t (.asked (.acquire request) answer :: (fetch' ++
      .asked (.note (.homeResolved names.getLast?)) () ::
        .asked (.findHome search) (.ok names) :: fetch))
  /-- The home database was found, but no bookmarks to acquire a connection with. -/
  | unfetched {search : RoutingRequest} {names : List String} {fault : Fault} {fetch : History}
    (unknown : o.direction routing t = none) (fetched : fetch.IsFetch) :
    Acquisition routing o t (.asked .getBookmarks (.error fault) ::
      .asked (.note (.homeResolved names.getLast?)) () ::
        .asked (.findHome search) (.ok names) :: fetch)
  | lost {search : RoutingRequest} {fault : Fault} {fetch : History}
    (unknown : o.direction routing t = none) (fetched : fetch.IsFetch) :
    Acquisition routing o t (.asked (.findHome search) (.error fault) :: fetch)

/-- What happens outside acquisitions goes where it is known to go: a query that is a unit of its
    own and a begin name the database that an acquisition would go to, if that is known. -/
def Happening.Heeds (routing alone : Bool) (o : Overrides) (t : Target) : Happening → Prop
  | asked (.acquire _) _ | asked (.findHome _) _ => False
  | asked (.send _ _ (.run request)) _ => alone = true →
    ∀ database, o.direction routing t = some database → request.work.database = database
  | asked (.send _ _ (.begin request)) _ =>
    ∀ database, o.direction routing t = some database → request.database = database
  | _ => True

/-- Whatever happens in an operation is part of an acquisition or goes where the target says, as it
    is by then. -/
inductive Conducted (routing alone : Bool) (o : Overrides) (s : Session) (t : Target) :
    History → Prop
  | nothing : Conducted routing alone o s t []
  | other {e : Happening} {earlier : History} (before : Conducted routing alone o s t earlier)
    (heeds : e.Heeds routing alone o (History.target o s t earlier)) :
    Conducted routing alone o s t (e :: earlier)
  | acquisition {block earlier : History} (before : Conducted routing alone o s t earlier)
    (here : Acquisition routing o (History.target o s t earlier) block) :
    Conducted routing alone o s t (block ++ earlier)

namespace Conducted

variable {routing alone : Bool} {o : Overrides} {s : Session} {t : Target}
  {earlier later : History}

theorem append (h : Conducted routing alone o s t earlier)
    (h' : Conducted routing alone o s (History.target o s t earlier) later) :
    Conducted routing alone o s t (later ++ earlier) := by
  induction h' with
  | nothing => exact h
  | other _ heeds ih =>
    rw [← History.target_append] at heeds
    exact ih.other heeds
  | acquisition _ here ih =>
    rw [← History.target_append] at here
    rw [List.append_assoc]
    exact ih.acquisition here

/-- Things that go anywhere, the target being whatever it is. -/
theorem others (h : ∀ e ∈ later, ∀ t, e.Heeds routing alone o t) :
    Conducted routing alone o s t later := by
  induction later with
  | nil => exact .nothing
  | cons e later ih =>
    exact (ih fun e' he => h e' (List.mem_cons_of_mem e he)).other (h e List.mem_cons_self _)

end Conducted

/-- Something that goes anywhere and from which nothing is learned. -/
def Happening.IsQuiet (e : Happening) : Prop :=
  (∀ routing alone o t, e.Heeds routing alone o t) ∧ ∀ o s, e.learned? o s = none

theorem History.target_quiet {o : Overrides} {s : Session} {t : Target} {later : History}
    (quiet : ∀ e ∈ later, e.IsQuiet) : History.target o s t later = t := by
  induction later with
  | nil => rfl
  | cons e later ih =>
    show (History.target o s t later).learn (e.learned? o s) = t
    rw [ih fun e' he => quiet e' (List.mem_cons_of_mem e he), (quiet e List.mem_cons_self).2,
      Target.learn_none]

/-! ## From state to state -/

/-- Every result that was given out is still the answer to the same query. -/
structure Session.Extends (s t : Session) : Prop where
  given : s.results.length ≤ t.results.length
  origin : ∀ r < s.results.length, (t.result r).origin = (s.result r).origin
  start : ∀ r < s.results.length, (t.result r).startMetadata = (s.result r).startMetadata

namespace Session.Extends

variable {s t u : Session}

theorem refl (s : Session) : s.Extends s := ⟨Nat.le_refl _, fun _ _ => rfl, fun _ _ => rfl⟩

theorem trans (h : s.Extends t) (h' : t.Extends u) : s.Extends u where
  given := Nat.le_trans h.given h'.given
  origin r hr := (h'.origin r (Nat.lt_of_lt_of_le hr h.given)).trans (h.origin r hr)
  start r hr := (h'.start r (Nat.lt_of_lt_of_le hr h.given)).trans (h.start r hr)

/-- What the end of the stream of a result tells stays the same. -/
theorem names? (h : s.Extends t) {r : ResultId} (hr : r < s.results.length) (finish : Metadata) :
    (t.result r).names? finish = (s.result r).names? finish := by
  unfold Result.names?
  rw [h.origin r hr, h.start r hr]

/-- A result more is given out. -/
theorem addResult {r : Result} (added : t.results = s.results ++ [r]) : s.Extends t := by
  have old (other : ResultId) (given : other < s.results.length) :
      t.result other = s.result other := by
    have differ : other ≠ s.nextResult := Nat.ne_of_lt given
    rw [Session.result_added added, if_neg differ]
  refine ⟨?_, fun other given => ?_, fun other given => ?_⟩
  · rw [added, List.length_append]
    exact Nat.le_add_right _ _
  · rw [old other given]
  · rw [old other given]

end Session.Extends

/-- What an action may do to the target and to the handles. -/
structure Purpose where
  /-- The settings of the run that it makes, if it makes one. -/
  overrides : Overrides := {}
  /-- Whether its query is a unit of its own. -/
  alone : Bool := false
  /-- Whether it may end a transaction, or change which results it has. -/
  enlists : Prop := False
  /-- Whether it may commit, which gives up on the results after one that cannot be dropped. -/
  commits : Prop := False
  /-- Whether it may close the session. -/
  closes : Prop := False

/-- Whether the databases that responses to the queries of an action name become known. -/
def Purpose.pins (e : Purpose) : Bool := e.alone && e.overrides.database.isNone

/-- The same purpose, if the action leaves the transactions alone. -/
def Purpose.apart (e : Purpose) : Purpose := { e with enlists := False, commits := False }

/-- The results that the transactions of a session have were given out, none is there twice, and a
    transaction that is over has none. -/
structure Session.IsTidy (s : Session) : Prop where
  given : ∀ id, ∀ r ∈ (s.transaction id).results, r < s.results.length
  once : ∀ id, (s.transaction id).results.Nodup
  ended : ∀ id, (s.transaction id).state.isTerminated = true → (s.transaction id).results = []

/-- The session is tidy, and a result that a transaction does not have any more is out of scope. -/
structure Session.Releases (s t : Session) : Prop where
  tidy : t.IsTidy
  released : ∀ id, ∀ r ∈ (s.transaction id).results,
    r ∈ (t.transaction id).results ∨ (t.result r).outOfScope ≠ none

/-- What follows leaves the results out of scope that are. -/
theorem Session.Releases.andThen {s t u : Session} (h : s.Releases t) (h' : t.Releases u)
    (scope : ∀ r, (t.result r).outOfScope ≠ none → (u.result r).outOfScope ≠ none) :
    s.Releases u := by
  refine ⟨h'.tidy, fun id r hr => ?_⟩
  rcases h.released id r hr with there | gone
  · exact h'.released id r there
  · exact .inr (scope r gone)

namespace Session.IsTidy

variable {s t : Session}

/-- The same transactions, and no fewer results. -/
theorem releases (h : s.IsTidy) (transactions : t.transactions = s.transactions)
    (given : s.results.length ≤ t.results.length) : s.Releases t := by
  have same (id : TransactionId) : t.transaction id = s.transaction id := by
    simp only [Session.transaction, transactions]
  refine ⟨⟨fun id r hr => ?_, fun id => ?_, fun id => ?_⟩, fun id r hr => .inl ?_⟩
  · rw [same] at hr
    exact Nat.lt_of_lt_of_le (h.given id r hr) given
  · rw [same]
    exact h.once id
  · rw [same]
    exact h.ended id
  · rwa [same]

/-- A transaction changes: it keeps the results it had, and may get others. -/
theorem setTransaction (h : s.IsTidy) {id : TransactionId} {v : Transaction}
    (kept : ∀ r ∈ (s.transaction id).results, r ∈ v.results)
    (given : ∀ r ∈ v.results, r < s.results.length) (once : v.results.Nodup)
    (ended : v.state.isTerminated = true → v.results = []) :
    s.Releases (s.setTransaction id v) := by
  have each {P : Transaction → Prop} (old : ∀ other, P (s.transaction other)) (new : P v)
      (other : TransactionId) : P ((s.setTransaction id v).transaction other) := by
    rw [Session.transaction_setTransaction_eq]
    split
    · exact new
    · exact old other
  refine ⟨⟨?_, ?_, ?_⟩, fun other r hr => .inl ?_⟩
  · exact each (P := fun v => ∀ r ∈ v.results, r < s.results.length) h.given given
  · exact each (P := fun v => v.results.Nodup) h.once once
  · exact each (P := fun v => v.state.isTerminated = true → v.results = []) h.ended ended
  · rw [Session.transaction_setTransaction_eq]
    split
    · next same => exact kept r (same.1 ▸ hr)
    · exact hr

/-- A transaction changes that has the results it had, and does not end by that. -/
theorem keepTransaction (h : s.IsTidy) {id : TransactionId} {v : Transaction}
    (results : v.results = (s.transaction id).results)
    (state : v.state.isTerminated = true → (s.transaction id).state.isTerminated = true) :
    s.Releases (s.setTransaction id v) := by
  refine h.setTransaction (fun r hr => results ▸ hr) ?_ ?_ fun ended => ?_
  · rw [results]
    exact h.given id
  · rw [results]
    exact h.once id
  · rw [results]
    exact h.ended id (state ended)

/-- A transaction that is not over gets one result more. -/
theorem enlist (h : s.IsTidy) {id : TransactionId} {v : Transaction} {r : ResultId}
    (results : v.results = (s.transaction id).results ++ [r]) (given : r < s.results.length)
    (new : r ∉ (s.transaction id).results) (isOpen : v.state.isTerminated = false) :
    s.Releases (s.setTransaction id v) := by
  refine h.setTransaction (fun r' hr => ?_) (fun r' hr => ?_) ?_ fun ended => ?_
  · rw [results]
    exact List.mem_append_left _ hr
  · rw [results] at hr
    rcases List.mem_append.mp hr with hr | hr
    · exact h.given id r' hr
    · exact List.mem_singleton.mp hr ▸ given
  · rw [results]
    refine List.nodup_append.mpr ⟨h.once id, by simp, ?_⟩
    intro a ha b hb
    rw [List.mem_singleton.mp hb]
    rintro rfl
    exact new ha
  · rw [isOpen] at ended
    cases ended

/-- A transaction more, which has no results yet. -/
theorem addTransaction (h : s.IsTidy) {v : Transaction} (none : v.results = []) :
    s.Releases { s with transactions := s.transactions ++ [v] } := by
  have each {P : Transaction → Prop} (old : ∀ other, P (s.transaction other)) (new : P v)
      (other : TransactionId) :
      P (({ s with transactions := s.transactions ++ [v] } : Session).transaction other) := by
    rw [Session.transaction_add]
    split
    · exact new
    · exact old other
  refine ⟨⟨?_, ?_, ?_⟩, fun id r hr => .inl ?_⟩
  · exact each (P := fun v => ∀ r ∈ v.results, r < s.results.length) h.given (by simp [none])
  · exact each (P := fun v => v.results.Nodup) h.once (by simp [none])
  · exact each (P := fun v => v.state.isTerminated = true → v.results = []) h.ended fun _ => none
  · rw [Session.transaction_add]
    split
    · next new =>
      rw [Session.transaction_of_le (Nat.le_of_eq new.symm)] at hr
      cases hr
    · exact hr

/-- A transaction gives up its results, which are out of scope; the others stay as they are. -/
theorem drop (h : s.IsTidy) (id : TransactionId) (none : (t.transaction id).results = [])
    (others : ∀ other, other ≠ id →
      (t.transaction other).results = (s.transaction other).results ∧
        ((t.transaction other).state.isTerminated = true →
          (s.transaction other).state.isTerminated = true))
    (given : s.results.length ≤ t.results.length)
    (gone : ∀ r ∈ (s.transaction id).results, (t.result r).outOfScope ≠ Option.none) :
    s.Releases t := by
  refine ⟨⟨fun other r hr => ?_, fun other => ?_, fun other ended => ?_⟩, fun other r hr => ?_⟩
  · by_cases same : other = id
    · rw [same, none] at hr
      cases hr
    · rw [(others other same).1] at hr
      exact Nat.lt_of_lt_of_le (h.given other r hr) given
  · by_cases same : other = id
    · rw [same, none]
      exact List.nodup_nil
    · rw [(others other same).1]
      exact h.once other
  · by_cases same : other = id
    · rw [same, none]
    · rw [(others other same).1]
      exact h.ended other ((others other same).2 ended)
  · by_cases same : other = id
    · exact .inr (gone r (same ▸ hr))
    · exact .inl ((others other same).1.symm ▸ hr)

end Session.IsTidy

/-- What an action does to the handles that were given out: no result comes back into scope, the
    transactions have the results they had, or have released them, and the session stays open or
    closed. -/
structure Session.Retains (e : Purpose) (s t : Session) : Prop where
  scope : ∀ r, (s.result r).outOfScope ≠ none → (t.result r).outOfScope ≠ none
  enlisted : ¬ e.enlists → ∀ id, (t.transaction id).results = (s.transaction id).results ∧
    ((t.transaction id).state.isTerminated = true → (s.transaction id).state.isTerminated = true)
  released : ¬ e.commits → s.IsTidy → s.Releases t
  closed : ¬ e.closes → t.closed = s.closed

namespace Session.Retains

variable {e : Purpose} {s t u : Session}

theorem same (results : t.results = s.results) (transactions : t.transactions = s.transactions)
    (closed : ¬ e.closes → t.closed = s.closed) : s.Retains e t where
  scope r h := by
    unfold Session.result at *
    rwa [results]
  enlisted _ id := by
    have same : t.transaction id = s.transaction id := by
      simp only [Session.transaction, transactions]
    rw [same]
    exact ⟨rfl, fun h => h⟩
  released _ tidy := tidy.releases transactions (Nat.le_of_eq (congrArg _ results.symm))
  closed := closed

theorem trans (h : s.Retains e t) (h' : t.Retains e u) : s.Retains e u where
  scope r hr := h'.scope r (h.scope r hr)
  enlisted n id := by
    obtain ⟨results, state⟩ := h.enlisted n id
    obtain ⟨results', state'⟩ := h'.enlisted n id
    exact ⟨results'.trans results, fun ended => state (state' ended)⟩
  released n tidy := (h.released n tidy).andThen (h'.released n (h.released n tidy).tidy) h'.scope
  closed n := (h'.closed n).trans (h.closed n)

/-- A result changes and does not come back into scope. -/
theorem setResult {id : ResultId} {r : Result}
    (scope : (s.result id).outOfScope ≠ none → r.outOfScope ≠ none) :
    s.Retains e (s.setResult id r) where
  scope other h := by
    rw [Session.result_setResult_eq]
    split
    · next same => exact scope (same.1 ▸ h)
    · exact h
  enlisted _ _ := ⟨rfl, fun h => h⟩
  released _ tidy := tidy.releases rfl (by simp [Session.setResult])
  closed _ := rfl

/-- A transaction changes. -/
theorem setTransaction {id : TransactionId} {v : Transaction}
    (enlisted : ¬ e.enlists → v.results = (s.transaction id).results ∧
      (v.state.isTerminated = true → (s.transaction id).state.isTerminated = true))
    (released : ¬ e.commits → s.IsTidy → s.Releases (s.setTransaction id v)) :
    s.Retains e (s.setTransaction id v) where
  scope _ h := h
  enlisted n other := by
    rw [Session.transaction_setTransaction_eq]
    split
    · next same => exact same.1 ▸ enlisted n
    · exact ⟨rfl, fun h => h⟩
  released := released
  closed _ := rfl

/-- A result more. -/
theorem addResult {r : Result} (results : t.results = s.results ++ [r])
    (transactions : t.transactions = s.transactions) (closed : t.closed = s.closed) :
    s.Retains e t where
  scope other h := by
    have given : other < s.results.length := by
      apply Nat.lt_of_not_le
      intro beyond
      rw [Session.result_of_le beyond] at h
      exact h rfl
    have differ : other ≠ s.nextResult := Nat.ne_of_lt given
    rwa [Session.result_added results, if_neg differ]
  enlisted _ id := by
    have same : t.transaction id = s.transaction id := by
      simp only [Session.transaction, transactions]
    rw [same]
    exact ⟨rfl, fun h => h⟩
  released _ tidy := tidy.releases transactions (by simp [results])
  closed _ := closed

/-- A transaction more, which has no results yet. -/
theorem addTransaction {v : Transaction} (none : v.results = []) :
    s.Retains e { s with transactions := s.transactions ++ [v] } where
  scope _ h := h
  enlisted _ id := by
    rw [Session.transaction_add]
    split
    · next here =>
      rw [none, Session.transaction_of_le (Nat.le_of_eq here.symm)]
      exact ⟨rfl, fun _ => rfl⟩
    · exact ⟨rfl, fun h => h⟩
  released _ tidy := tidy.addTransaction none
  closed _ := rfl

end Session.Retains

/-- An action leads from `σ` to `τ`: all that happened to the target is what is told of it, and the
    handles are as they were, but for what the purpose allows. -/
structure Path (peer : Peer ω) (e : Purpose) (σ τ : State (Recorded ω)) : Prop where
  grown : σ.session.Extends τ.session
  started : ∀ r, σ.session.results.length ≤ r → r < τ.session.results.length →
    (τ.session.result r).origin.pins = e.pins
  retains : σ.session.Retains e τ.session
  conducted : ∃ later, τ.history = later ++ σ.history ∧ ∀ s, τ.session.Extends s →
    τ.session.target = History.target e.overrides s σ.session.target later ∧
      Conducted peer.routing e.alone e.overrides s σ.session.target later

namespace Path

variable {peer : Peer ω} {e : Purpose} {σ τ υ : State (Recorded ω)}

theorem rest (σ : State (Recorded ω)) : Path peer e σ σ where
  grown := .refl _
  started r hr hr' := by omega
  retains := .same rfl rfl fun _ => rfl
  conducted := ⟨[], rfl, fun _ _ => ⟨rfl, .nothing⟩⟩

theorem andThen (h : Path peer e σ τ) (h' : Path peer e τ υ) : Path peer e σ υ where
  grown := h.grown.trans h'.grown
  started r hr hr' := by
    by_cases given : r < τ.session.results.length
    · rw [h'.grown.origin r given]
      exact h.started r hr given
    · exact h'.started r (Nat.le_of_not_lt given) hr'
  retains := h.retains.trans h'.retains
  conducted := by
    obtain ⟨l, hl, all⟩ := h.conducted
    obtain ⟨l', hl', all'⟩ := h'.conducted
    refine ⟨l' ++ l, by rw [hl', hl, List.append_assoc], fun s hs => ?_⟩
    obtain ⟨target, conducted⟩ := all s (h'.grown.trans hs)
    obtain ⟨target', conducted'⟩ := all' s hs
    rw [target] at target' conducted'
    exact ⟨by rw [target', History.target_append], conducted.append conducted'⟩

end Path

/-- The target stays, no result is new, every result keeps its origin and its first metadata, and
    the handles are retained. -/
structure Session.KeepsHandles (e : Purpose) (s t : Session) : Prop where
  target : t.target = s.target
  given : t.results.length = s.results.length
  origin : ∀ r, (t.result r).origin = (s.result r).origin
  start : ∀ r, (t.result r).startMetadata = (s.result r).startMetadata
  retains : s.Retains e t

namespace Session.KeepsHandles

variable {e : Purpose} {s : Session}

theorem same {t : Session} (target : t.target = s.target) (results : t.results = s.results)
    (transactions : t.transactions = s.transactions)
    (closed : ¬ e.closes → t.closed = s.closed) : s.KeepsHandles e t where
  target := target
  given := by rw [results]
  origin r := by simp only [Session.result, results]
  start r := by simp only [Session.result, results]
  retains := .same results transactions closed

/-- A result changes, and is still the answer to the same query. -/
theorem setResult {id : ResultId} {r : Result} (origin : r.origin = (s.result id).origin)
    (start : r.startMetadata = (s.result id).startMetadata)
    (scope : (s.result id).outOfScope ≠ none → r.outOfScope ≠ none) :
    s.KeepsHandles e (s.setResult id r) where
  target := rfl
  given := by simp [Session.setResult]
  origin other := by
    rw [Session.result_setResult_eq]
    split
    · next same => rw [origin, same.1]
    · rfl
  start other := by
    rw [Session.result_setResult_eq]
    split
    · next same => rw [start, same.1]
    · rfl
  retains := .setResult scope

/-- A transaction changes. -/
theorem setTransaction {id : TransactionId} {v : Transaction}
    (enlisted : ¬ e.enlists → v.results = (s.transaction id).results ∧
      (v.state.isTerminated = true → (s.transaction id).state.isTerminated = true))
    (released : ¬ e.commits → s.IsTidy → s.Releases (s.setTransaction id v)) :
    s.KeepsHandles e (s.setTransaction id v) where
  target := rfl
  given := rfl
  origin _ := rfl
  start _ := rfl
  retains := .setTransaction enlisted released

/-- A transaction changes that has the results it had, and does not end by that. -/
theorem keepTransaction {id : TransactionId} {v : Transaction}
    (results : v.results = (s.transaction id).results)
    (state : v.state.isTerminated = true → (s.transaction id).state.isTerminated = true) :
    s.KeepsHandles e (s.setTransaction id v) :=
  .setTransaction (fun _ => ⟨results, state⟩) fun _ tidy => tidy.keepTransaction results state

/-- A transaction more, which has no results yet. -/
theorem addTransaction {v : Transaction} (none : v.results = []) :
    s.KeepsHandles e { s with transactions := s.transactions ++ [v] } where
  target := rfl
  given := rfl
  origin _ := rfl
  start _ := rfl
  retains := .addTransaction none

theorem trans {t u : Session} (h : s.KeepsHandles e t) (h' : t.KeepsHandles e u) :
    s.KeepsHandles e u where
  target := h'.target.trans h.target
  given := h'.given.trans h.given
  origin r := (h'.origin r).trans (h.origin r)
  start r := (h'.start r).trans (h.start r)
  retains := h.retains.trans h'.retains

theorem extension {t : Session} (h : s.KeepsHandles e t) : s.Extends t :=
  ⟨Nat.le_of_eq h.given.symm, fun r _ => h.origin r, fun r _ => h.start r⟩

end Session.KeepsHandles

namespace Path

variable {peer : Peer ω} {e : Purpose} {σ τ υ : State (Recorded ω)}

/-- Something happened from which nothing is learned, and the session keeps its handles. -/
theorem tend (later : History) (kept : σ.session.KeepsHandles e τ.session)
    (history : τ.history = later ++ σ.history) (quiet : ∀ e ∈ later, e.IsQuiet) :
    Path peer e σ τ where
  grown := kept.extension
  started r hr hr' := by rw [kept.given] at hr'; omega
  retains := kept.retains
  conducted := by
    refine ⟨later, history, fun s _ => ⟨?_, .others fun e' he => (quiet e' he).1 _ _ _⟩⟩
    rw [History.target_quiet quiet, kept.target]

/-- Nothing happened, and the session keeps its handles. -/
theorem silent (kept : σ.session.KeepsHandles e τ.session) (history : τ.history = σ.history) :
    Path peer e σ τ :=
  .tend [] kept history (by simp)

/-- One thing happened, from which nothing is learned. -/
theorem quiet {request : Request} {answer : request.Answer} (w : ω)
    (h : (Happening.asked request answer).IsQuiet) : Path peer e σ (σ.heard request answer w) :=
  .tend [_] (.same rfl rfl rfl fun _ => rfl) rfl fun _ he => List.mem_singleton.mp he ▸ h

/-- A response came, of which perhaps the journal was told. -/
theorem response (notes : History) {event : Happening}
    (grown : σ.session.Extends τ.session)
    (started : ∀ r, σ.session.results.length ≤ r → r < τ.session.results.length →
      (τ.session.result r).origin.pins = e.pins)
    (retains : σ.session.Retains e τ.session)
    (history : τ.history = notes ++ event :: σ.history) (quiet : ∀ e ∈ notes, e.IsQuiet)
    (heeds : event.Heeds peer.routing e.alone e.overrides σ.session.target)
    (target : ∀ s, τ.session.Extends s →
      τ.session.target = σ.session.target.learn (event.learned? e.overrides s)) :
    Path peer e σ τ where
  grown := grown
  started := started
  retains := retains
  conducted := by
    refine ⟨notes ++ [event], by rw [history, List.append_assoc]; rfl, fun s hs => ⟨?_, ?_⟩⟩
    · rw [History.target_append, History.target_quiet quiet, target s hs]
      rfl
    · exact .append (.other .nothing heeds) (.others fun e' he => (quiet e' he).1 _ _ _)

/-- One thing happened as it should, and nothing is learned from it. -/
theorem heeds {request : Request} {answer : request.Answer} (w : ω)
    (heeds : (Happening.asked request answer).Heeds peer.routing e.alone e.overrides
      σ.session.target)
    (nothing : ∀ s, (Happening.asked request answer).learned? e.overrides s = none) :
    Path peer e σ (σ.heard request answer w) := by
  refine .response [] (.refl _) (fun r hr hr' => ?_) (.same rfl rfl fun _ => rfl) rfl (by simp)
    heeds fun s _ => ?_
  · exact absurd hr' (Nat.not_lt_of_le hr)
  · rw [nothing s, Target.learn_none]
    rfl

/-- A connection was acquired, or could not be. -/
theorem acquired {block : History} (target : Target)
    (session : τ.session = { σ.session with target })
    (history : τ.history = block ++ σ.history)
    (here : Acquisition peer.routing e.overrides σ.session.target block)
    (learned : ∀ s, History.target e.overrides s σ.session.target block = target) :
    Path peer e σ τ where
  grown := by rw [session]; exact ⟨Nat.le_refl _, fun _ _ => rfl, fun _ _ => rfl⟩
  started r hr hr' := by rw [session] at hr'; exact absurd hr' (Nat.not_lt_of_le hr)
  retains := by rw [session]; exact .same rfl rfl fun _ => rfl
  conducted := by
    refine ⟨block, history, fun s _ => ⟨by rw [session, learned s], ?_⟩⟩
    have conducted : Conducted peer.routing e.alone e.overrides s σ.session.target (block ++ []) :=
      .acquisition .nothing here
    rwa [List.append_nil] at conducted

/-- A path that leaves the transactions alone is one for a purpose that need not. -/
theorem relax (h : Path peer e.apart σ τ) : Path peer e σ τ where
  grown := h.grown
  started := h.started
  retains := ⟨h.retains.scope, fun _ => h.retains.enlisted fun n => n,
    fun _ => h.retains.released fun n => n, h.retains.closed⟩
  conducted := h.conducted

/-- What was released stays released on a path on which nothing is committed. -/
theorem releases (h : Path peer e σ τ) (uncommitted : ¬ e.commits) {s : Session}
    (released : s.Releases σ.session) : s.Releases τ.session :=
  released.andThen (h.retains.released uncommitted released.tidy) h.retains.scope

/-- A path on which there may be a commit is one on which there may be none if no result is left
    behind. -/
theorem strict (h : Path peer { e with commits := True } σ τ)
    (released : σ.session.IsTidy → σ.session.Releases τ.session) : Path peer e σ τ where
  grown := h.grown
  started := h.started
  retains := ⟨h.retains.scope, h.retains.enlisted, fun _ => released, h.retains.closed⟩
  conducted := h.conducted

end Path

instance (peer : Peer ω) (e : Purpose) : IsFrame (Path peer e) := ⟨Path.rest, Path.andThen⟩

/-! ## Actions -/

/-- The action follows a path for the purpose, from every state. -/
abbrev Act.Along (peer : Peer ω) (e : Purpose) (act : Act (Recorded ω) α) : Prop :=
  act.Obeys (Path peer e)

/-- The action follows a path for the purpose, also when it fails. -/
abbrev Op.Along (peer : Peer ω) (e : Purpose) (op : Op (Recorded ω) α) : Prop :=
  op.Obeys (Path peer e)

section Rules

variable {peer : Peer ω} {e : Purpose}

theorem Act.along_changeSession {f : Session → Session}
    (kept : ∀ s : Session, s.KeepsHandles e (f s)) : Act.Along peer e (changeSession f) :=
  fun σ => .silent (kept σ.session) rfl

theorem Op.along_changeSession {f : Session → Session}
    (kept : ∀ s : Session, s.KeepsHandles e (f s)) : Op.Along peer e (changeSession f) :=
  fun σ => .silent (kept σ.session) rfl

theorem Act.along_ask {request : Request}
    (h : ∀ answer, (Happening.asked request answer).IsQuiet) :
    Act.Along peer e (ask peer.recorded request) :=
  fun _ => .quiet _ (h _)

theorem Happening.isQuiet_note (event : Event) : (asked (.note event) ()).IsQuiet :=
  ⟨fun _ _ _ _ => trivial, fun _ _ => rfl⟩

theorem Act.along_note (event : Event) : Act.Along peer e (note peer.recorded event) :=
  along_ask fun _ => Happening.isQuiet_note event

end Rules

end GraphSession
