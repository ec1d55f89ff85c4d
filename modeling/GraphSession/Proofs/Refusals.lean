import GraphSession.Proofs.Delivery
import GraphSession.Proofs.Forgetting
import GraphSession.Session.Description

/-!
  Calls that a session refuses.

  Before a call asks anything of the pool, the server or the bookmark manager it is checked: its
  query and its reserved parameters, whether the session is open, whether its explicit transaction
  is out of the way, whether results are pending, and for a call on a transaction the state that the
  transaction is in.  `Operation.refusal?` and `Access.refusal?` list the checks in their order; the
  first that fails gives the fault.

  A call on a transaction that is refused changes nothing at all (`Access.exec_refused`).  A call
  that begins work looks at the explicit transaction on the way: one that was dropped while it was
  open is rolled back even if the call is refused after that, and one that is over is forgotten.
  Where there is none to roll back, the session that refused a call agrees with what it was
  (`State.AgreesAfter`), so that whatever it does later it does as if the call had not been made.
  Only its description shows that it has forgotten a transaction that is over.
-/

namespace GraphSession

variable {ω α β : Type} {peer : Peer ω} {fault : Fault}

/-! ## Grounds for refusal -/

/-- What is wrong with a query itself. -/
def QuerySource.fault? (source : QuerySource) : Option Fault := faultOf? (Query.ofSource source)

/-- What is wrong with the reserved parameters of a query that runs by itself. -/
def QuerySource.reserved? (source : QuerySource) (params : Option Params) : Option Fault :=
  match Query.ofSource source with
  | .error _ => none
  | .ok q => faultOf? (Overrides.extract (mergeParameters params q.parameters)).1

/-- Metadata or a timeout of a query are of no use in a transaction. -/
def QuerySource.options? (source : QuerySource) : Option Fault :=
  match Query.ofSource source with
  | .error _ => none
  | .ok q => if q.metadata.isSome || q.timeout.isSome then some .queryOptionsInTransaction else none

namespace Session

/-- The session is closed. -/
def closure? (s : Session) : Option Fault := if s.closed then some .sessionClosed else none

/-- The explicit transaction is open, and its caller still holds it. -/
def held? (s : Session) : Option Fault :=
  s.current.bind fun t =>
    if !(s.transaction t).state.isTerminated && (s.transaction t).holder = .caller then
      some .transactionStillOpen
    else none

/-- A result is pending. -/
def pending? (s : Session) : Option Fault := if 0 < s.units then some .resultsPending else none

/-- The explicit transaction was orphaned: it is open, and no caller holds it. -/
def HasOrphan (s : Session) : Prop :=
  ∃ t, s.current = some t ∧ (s.transaction t).state.isTerminated = false ∧
    (s.transaction t).holder ≠ .caller

end Session

/-- Why a call on a transaction is refused, if it is. -/
def Access.refusal? (s : Session) : Access → Option Fault
  | run t source _ =>
    if (s.transaction t).holder = .nobody then some .transactionClosed
    else source.fault?.or <| ((s.transaction t).refusal? "run a query").or source.options?
  | commit t =>
    if (s.transaction t).holder = .caller then (s.transaction t).refusal? "commit"
    else some .transactionClosed
  | rollback t =>
    if (s.transaction t).holder = .caller && !(s.transaction t).state.isTerminated then none
    else some .transactionClosed
  | close _ | drop _ | viewTransaction _ | next _ | peek _ | single _ | collect _ | drain _
  | consume _ | viewResult _ => none

/-- Why a call that begins work or a call on a transaction is refused, if it is.  Under its former
    name a transaction function is not refused without a trace: a note is written first. -/
def Operation.refusal? (s : Session) : Operation ω → Option Fault
  | run source params =>
    source.fault?.or <| s.closure?.or <| s.held?.or <| source.reserved? params
  | beginTransaction _ => s.closure?.or <| s.held?.or s.pending?
  | execute .. | executeBlocking .. => s.closure?.or s.held?
  | executeQuery source .. => source.fault?.or <| s.closure?.or s.held?
  | access a => a.refusal? s
  | executeRenamed .. | lastBookmarks | lastBookmark | serverInfo | close | elsewhere _ => none

/-! ## Calls on a transaction -/

theorem Op.exec_checkHolder (t : TransactionId) (allowed : Holder → Bool) (σ : State ω) :
    Op.exec (checkHolder t allowed : Op ω Unit) σ =
      if allowed (σ.session.transaction t).holder then (.ok (), σ)
      else (.error .transactionClosed, σ) := by
  rw [checkHolder, Op.exec_bind, Op.exec_theSession]
  dsimp only
  cases allowed (σ.session.transaction t).holder <;> rfl

theorem Op.exec_failIf (fault : Option Fault) (σ : State ω) :
    Op.exec (failIf fault : Op ω Unit) σ = match fault with
      | some fault => (.error fault, σ)
      | none => (.ok (), σ) := by
  cases fault <;> rfl

theorem exec_runIn_refused {t : TransactionId} {source : QuerySource} {σ : State ω}
    (params : Option Params)
    (h : (source.fault?.or <|
      ((σ.session.transaction t).refusal? "run a query").or source.options?) = some fault) :
    (runIn peer t source params).exec σ = (.error fault, σ) := by
  rw [runIn, Op.exec_bind, Op.exec_settleOn]
  unfold QuerySource.fault? QuerySource.options? at h
  cases asked : Query.ofSource source with
  | error wrong =>
    rw [asked] at h
    cases h
    rfl
  | ok query =>
    rw [asked] at h
    dsimp only
    rw [Op.exec_bind, Op.exec_theSession]
    dsimp only
    rw [Op.exec_bind, Op.exec_failIf]
    cases refused : (σ.session.transaction t).refusal? "run a query" with
    | some wrong =>
      rw [refused] at h
      cases h
      rfl
    | none =>
      rw [refused] at h
      dsimp only [faultOf?, Option.or] at h ⊢
      split at h
      · next options =>
        cases h
        rw [if_pos options, Op.exec_bind, Op.exec_throw]
      · cases h

/-- A call on a transaction that is refused changes nothing at all. -/
theorem Access.exec_refused {a : Access} {σ : State ω} (h : a.refusal? σ.session = some fault) :
    (a.perform peer).exec σ = (.error fault, σ) := by
  cases a with
  | run t source params =>
    rw [perform, Op.exec_bind, Op.exec_checkHolder]
    rw [refusal?] at h
    split at h
    · next dropped =>
      cases h
      simp [dropped]
    · next held =>
      simp only [ne_eq, held, not_false_eq_true, decide_true, if_true]
      exact exec_runIn_refused params h
  | commit t =>
    rw [perform, Op.exec_bind, Op.exec_checkHolder]
    rw [refusal?] at h
    split at h
    · next held =>
      simp only [held, decide_true, if_true]
      rw [GraphSession.commit, Op.exec_bind, Op.exec_theSession]
      dsimp only
      rw [Op.exec_bind, Op.exec_failIf, h]
    · next dropped =>
      cases h
      simp [dropped]
  | rollback t =>
    rw [perform, Op.exec_bind, Op.exec_checkHolder]
    rw [refusal?] at h
    split at h
    · cases h
    · next shut =>
      cases h
      by_cases held : (σ.session.transaction t).holder = .caller
      · have ended : (σ.session.transaction t).state.isTerminated = true := by
          simpa [held] using shut
        simp only [held, decide_true, if_true]
        rw [GraphSession.rollback, Op.exec_bind, Op.exec_theSession]
        dsimp only
        rw [if_pos ended]
        rfl
      · simp [held]
  | _ => cases h

/-! ## Calls that begin work -/

/-- The session is as it was, or it has forgotten an explicit transaction that is over. -/
def State.ForgetsAtMost (σ τ : State ω) : Prop := τ = σ ∨ σ.session.IsStale ∧ τ = σ.forgetful

/-- From this state the action fails so at once. -/
def Op.Refuses (x : Op ω α) (fault : Fault) (σ : State ω) : Prop :=
  ∃ τ, x.exec σ = (.error fault, τ) ∧ σ.ForgetsAtMost τ

theorem exec_reapTransaction_held {σ : State ω} (h : σ.session.held? = some fault) :
    (reapTransaction peer).exec σ = (.error fault, σ) := by
  obtain ⟨t, current, held⟩ := Option.bind_eq_some_iff.mp h
  rw [reapTransaction, Op.exec_bind, Op.exec_theSession]
  dsimp only
  rw [current]
  dsimp only
  split at held
  · next stands =>
    cases held
    rw [if_pos stands]
    rfl
  · cases held

/-- A transaction that does not stand in the way, and was not orphaned, is over. -/
theorem exec_reapTransaction_free (peer : Peer ω) {σ : State ω}
    (owned : ¬ σ.session.HasOrphan) (knows : σ.Knows) (free : σ.session.held? = none) :
    ∃ τ, (reapTransaction peer).exec σ = (.ok (), τ) ∧ σ.ForgetsAtMost τ := by
  cases current : σ.session.current with
  | none => exact ⟨σ, exec_reapTransaction_none current, .inl rfl⟩
  | some t =>
    have ended : (σ.session.transaction t).state.isTerminated = true := by
      rw [Session.held?, current, Option.bind_some] at free
      split at free
      · cases free
      · next stands =>
        cases ended : (σ.session.transaction t).state.isTerminated with
        | true => rfl
        | false =>
          refine absurd ⟨t, current, ended, fun held => stands ?_⟩ owned
          simp [ended, held]
    exact ⟨σ.forgetful, exec_reapTransaction_over current ended,
      .inr ⟨⟨t, knows t current, current, ended⟩, rfl⟩⟩

theorem Op.exec_settleOn_fault {outcome : Except Fault β} {f : β → Op ω α}
    (h : faultOf? outcome = some fault) (σ : State ω) :
    (settleOn outcome >>= f).exec σ = (.error fault, σ) := by
  cases outcome with
  | error wrong =>
    cases h
    rfl
  | ok b => cases h

namespace Op.Refuses

variable {σ : State ω} {rest : Option Fault}

theorem settleThen {outcome : Except Fault β} {f : β → Op ω α}
    (h : (faultOf? outcome).or rest = some fault)
    (hf : ∀ b, outcome = .ok b → rest = some fault → (f b).Refuses fault σ) :
    (settleOn outcome >>= f).Refuses fault σ := by
  cases outcome with
  | error wrong =>
    cases h
    exact ⟨σ, rfl, .inl rfl⟩
  | ok b => exact hf b rfl h

theorem checkThen {f : Unit → Op ω α} (h : σ.session.closure?.or rest = some fault)
    (hf : rest = some fault → (f ()).Refuses fault σ) : (checkOpen >>= f).Refuses fault σ := by
  unfold Refuses
  rw [Op.exec_bind, Op.exec_checkOpen]
  unfold Session.closure? at h
  cases closed : σ.session.closed with
  | true =>
    rw [closed] at h
    cases h
    exact ⟨σ, rfl, .inl rfl⟩
  | false =>
    rw [closed] at h
    exact hf h

theorem reapThen {f : Unit → Op ω α} (owned : ¬ σ.session.HasOrphan) (knows : σ.Knows)
    (h : σ.session.held?.or rest = some fault)
    (hf : ∀ τ, σ.ForgetsAtMost τ → rest = some fault → (f ()).exec τ = (.error fault, τ)) :
    (reapTransaction peer >>= f).Refuses fault σ := by
  unfold Refuses
  rw [Op.exec_bind]
  cases held : σ.session.held? with
  | some wrong =>
    rw [held] at h
    cases h
    exact ⟨σ, by rw [exec_reapTransaction_held held], .inl rfl⟩
  | none =>
    rw [held] at h
    obtain ⟨τ, reaped, forgetsAtMost⟩ := exec_reapTransaction_free peer owned knows held
    rw [reaped]
    exact ⟨τ, hf τ forgetsAtMost h, forgetsAtMost⟩

end Op.Refuses

section Refuses

variable {σ : State ω} (owned : ¬ σ.session.HasOrphan) (knows : σ.Knows)

include owned knows

theorem run_refuses {source : QuerySource} {params : Option Params}
    (h : (source.fault?.or <| σ.session.closure?.or <| σ.session.held?.or <|
      source.reserved? params) = some fault) : (run peer source params).Refuses fault σ := by
  refine .settleThen h fun query asked h => .checkThen h fun h =>
    .reapThen owned knows h fun τ _ h => ?_
  rw [QuerySource.reserved?, asked] at h
  exact Op.exec_settleOn_fault h τ

theorem beginTransaction_refuses {config : TransactionConfig}
    (h : (σ.session.closure?.or <| σ.session.held?.or σ.session.pending?) = some fault) :
    (beginTransaction peer config).Refuses fault σ := by
  refine .checkThen h fun h => .reapThen owned knows h fun τ forgetsAtMost h => ?_
  have units : τ.session.units = σ.session.units := by
    rcases forgetsAtMost with rfl | ⟨-, rfl⟩ <;> rfl
  rw [Session.pending?, ← units] at h
  rw [Op.exec_bind, Op.exec_theSession]
  dsimp only
  split at h
  · next pending =>
    cases h
    rw [if_pos pending]
    rfl
  · cases h

theorem prepareExecute_refuses (peer : Peer ω)
    (h : σ.session.closure?.or σ.session.held? = some fault) :
    (prepareExecute peer).Refuses fault σ := by
  refine .checkThen h fun held => ?_
  have last : σ.session.held?.or none = some fault := by rwa [Option.or_none]
  exact .reapThen owned knows last fun _ _ none => by cases none

theorem executeWith_refuses (options : ExecuteOptions) (patience : Nat)
    (work : TransactionFunction ω α) (h : σ.session.closure?.or σ.session.held? = some fault) :
    ∃ τ, (executeWith peer options patience work).exec σ = (some (.error fault), τ) ∧
      σ.ForgetsAtMost τ := by
  obtain ⟨τ, refused, forgetsAtMost⟩ := prepareExecute_refuses owned knows peer h
  refine ⟨τ, ?_, forgetsAtMost⟩
  rw [executeWith, Act.exec_bind, Act.exec_run, refused]
  rfl

theorem Blocking.execute_refuses (mode : AccessMode) (config : TransactionConfig)
    (patience : Nat) (work : TransactionFunction ω α)
    (h : σ.session.closure?.or σ.session.held? = some fault) :
    ∃ τ, (Blocking.execute peer mode config patience work).exec σ = (some (.error fault), τ) ∧
      σ.ForgetsAtMost τ := by
  obtain ⟨τ, refused, forgetsAtMost⟩ := prepareExecute_refuses owned knows peer h
  exact ⟨τ, Blocking.exec_execute_refused refused, forgetsAtMost⟩

end Refuses

/-! ## No trace -/

/-- What the history tells of a call that was refused: the use of a handle, and nothing else. -/
def Operation.told (fault : Fault) : Operation ω → History
  | access a => [.used a (.error fault)]
  | run .. | beginTransaction _ | execute .. | executeRenamed .. | executeQuery ..
  | executeBlocking .. | lastBookmarks | lastBookmark | serverInfo | close | elsewhere _ => []

/-- The session, but for an explicit transaction that is over. -/
def Session.tidied (s : Session) : Session :=
  { s with current := s.current.filter fun t => !(s.transaction t).state.isTerminated }

/-- The same has happened after `past` and after `past'`, and has led to the same, but for an
    explicit transaction that is over. -/
structure State.Parallel (past past' : History) (σ τ : State (Recorded ω)) : Prop where
  history : ∃ later, σ.history = later ++ past ∧ τ.history = later ++ past'
  world : τ.world.world = σ.world.world
  session : τ.session.tidied = σ.session.tidied

/-- After `ops` the call fails so and asks nothing, and whatever is done then comes to the same as
    if it had not been made. -/
structure Operation.Traceless (peer : Peer ω) (config : SessionConfig) (w : ω)
    (ops : List (Operation ω)) (op : Operation ω) (fault : Fault) : Prop where
  outcome : ((op.perform peer).exec (play peer config w ops)).1 = some (.error fault)
  unasked : (play peer config w (ops ++ [op])).history =
    op.told fault ++ (play peer config w ops).history
  onward : ∀ more : List (Operation ω),
    State.Parallel (play peer config w ops).history
      (op.told fault ++ (play peer config w ops).history) (play peer config w (ops ++ more))
      (play peer config w (ops ++ op :: more))
  answers : ∀ (more : List (Operation ω)) (next : Operation ω),
    ((next.perform peer).exec (play peer config w (ops ++ op :: more))).1 =
      ((next.perform peer).exec (play peer config w (ops ++ more))).1

theorem Session.IsStale.tidied {s : Session} (h : s.IsStale) :
    ({ s with current := none } : Session).tidied = s.tidied := by
  obtain ⟨t, -, current, ended⟩ := h
  simp [Session.tidied, Option.filter, current, ended]

theorem State.AgreesAfter.parallel {past past' : History} {σ τ : State (Recorded ω)}
    (h : State.AgreesAfter past past' σ τ) : State.Parallel past past' σ τ := by
  obtain ⟨ρ, rfl, rfl | ⟨stale, rfl⟩⟩ := h
  · exact ⟨⟨ρ.history, rfl, rfl⟩, rfl, rfl⟩
  · exact ⟨⟨ρ.history, rfl, rfl⟩, rfl, stale.tidied⟩

/-- A session that forgot at most a transaction that is over agrees with what it was. -/
theorem State.ForgetsAtMost.agrees {σ τ : State (Recorded ω)} (h : σ.ForgetsAtMost τ) :
    τ.history = σ.history ∧ State.AgreesAfter σ.history σ.history σ τ := by
  rcases h with rfl | ⟨stale, rfl⟩
  · exact ⟨rfl, { τ with world := ⟨τ.world.world, []⟩ }, rfl, .inl rfl⟩
  · exact ⟨rfl, { σ with world := ⟨σ.world.world, []⟩ }, rfl, .inr ⟨stale, rfl⟩⟩

theorem Operation.perform_refused (op : Operation ω) (peer : Peer ω) {σ : State (Recorded ω)}
    (owned : ¬ σ.session.HasOrphan) (knows : σ.Knows) (h : op.refusal? σ.session = some fault) :
    ∃ τ, (op.perform peer).exec σ = (some (.error fault), τ) ∧
      τ.history = op.told fault ++ σ.history ∧
        State.AgreesAfter σ.history (op.told fault ++ σ.history) σ τ := by
  have spared {β : Type} {x : Op (Recorded ω) β} (refuses : x.Refuses fault σ) :
      ∃ τ, (concluded x).exec σ = (some (.error fault), τ) ∧ τ.history = [] ++ σ.history ∧
        State.AgreesAfter σ.history ([] ++ σ.history) σ τ := by
    obtain ⟨τ, failed, forgetsAtMost⟩ := refuses
    refine ⟨τ, ?_, forgetsAtMost.agrees⟩
    rw [concluded, Act.exec_bind, Act.exec_run, failed]
    rfl
  cases op with
  | run source params => exact spared (run_refuses owned knows h)
  | beginTransaction config => exact spared (beginTransaction_refuses owned knows h)
  | execute mode config patience work =>
    obtain ⟨τ, failed, forgetsAtMost⟩ := executeWith_refuses owned knows _ patience _ h
    exact ⟨τ, failed, forgetsAtMost.agrees⟩
  | executeQuery source params mode patience =>
    rw [perform, executeQueryWith]
    rw [refusal?, QuerySource.fault?] at h
    cases asked : Query.ofSource source with
    | error wrong =>
      rw [asked] at h
      cases h
      exact ⟨σ, rfl, (State.ForgetsAtMost.agrees (.inl rfl))⟩
    | ok query =>
      rw [asked] at h
      obtain ⟨τ, failed, forgetsAtMost⟩ := executeWith_refuses owned knows _ patience _ h
      exact ⟨τ, failed, forgetsAtMost.agrees⟩
  | executeBlocking mode config patience work =>
    obtain ⟨τ, failed, forgetsAtMost⟩ :=
      Blocking.execute_refuses owned knows mode config patience _ h
    exact ⟨τ, failed, forgetsAtMost.agrees⟩
  | access a =>
    -- the use of a handle is told, also when it is refused
    have told : (a.performTold peer).exec σ =
        (.error fault, { σ with world := σ.world.add (.used a (.error fault)) }) := by
      rw [Access.performTold, Act.exec_bind, Act.exec_run, Access.exec_refused h]
      rfl
    refine ⟨_, ?_, rfl, { σ with world := ⟨σ.world.world, []⟩ }, rfl, .inl rfl⟩
    rw [perform, Act.exec_bind, told]
    rfl
  | executeRenamed | lastBookmarks | lastBookmark | serverInfo | close | elsewhere => cases h

/-- **A refused call leaves no trace.**  A call on a transaction that is refused changes nothing,
    also within a transaction function and whatever the state.  And whatever a session has been
    through, if no explicit transaction was dropped while it was open, a call that is refused asks
    nothing of the pool, the server or the bookmark manager; and every later sequence of calls is
    answered, asks and changes the session as if the call had not been made, except that the session
    may have forgotten an explicit transaction that is over. -/
theorem refusals_leave_no_trace (peer : Peer ω) :
    (∀ (σ : State ω) (a : Access) (fault : Fault), a.refusal? σ.session = some fault →
      (a.perform peer).exec σ = (.error fault, σ)) ∧
    ∀ (config : SessionConfig) (w : ω) (ops : List (Operation ω)) (op : Operation ω)
      (fault : Fault), ¬ (play peer config w ops).session.HasOrphan →
        op.refusal? (play peer config w ops).session = some fault →
          op.Traceless peer config w ops fault := by
  refine ⟨fun σ a fault h => Access.exec_refused h, fun config w ops op fault owned h => ?_⟩
  obtain ⟨τ, failed, history, agrees⟩ :=
    op.perform_refused peer owned (play_knows peer config w ops) h
  have after : Operation.after peer (play peer config w ops) op = τ := by
    rw [Operation.after, failed]
  have unmade (more : List (Operation ω)) : play peer config w (ops ++ more) =
      more.foldl (Operation.after peer) (play peer config w ops) := by
    rw [play, List.foldl_append, play]
  have made (more : List (Operation ω)) : play peer config w (ops ++ op :: more) =
      more.foldl (Operation.after peer) τ := by
    rw [unmade, List.foldl_cons, after]
  refine ⟨by rw [failed], by rw [made, ← history]; rfl, fun more => ?_, fun more next => ?_⟩
  · rw [unmade, made]
    exact (agrees.play more).parallel
  · rw [made, unmade]
    exact (next.perform_agree (agrees.play more)).1

/-- A query whose result has a record left on the server. -/
def pendingQuery : List (Operation (List (List Value))) :=
  [.run (.query { text := "RETURN n" }) none]

/-- A transaction that is begun and committed. -/
def commitment : List (Operation (List (List Value))) :=
  [.beginTransaction {}, .access (.commit 0)]

/-- A transaction is committed once.  While a result is pending no transaction begins, and the
    result loses nothing. -/
theorem pending_leaves_no_trace :
    (Access.perform twoRecords.recorded (.commit 0)).exec (play twoRecords {} [] commitment) =
        (.error .transactionClosed, play twoRecords {} [] commitment) ∧
      ((play twoRecords { fetchSize := 1 } [] pendingQuery).session.result 0).isStreaming = true ∧
        Operation.Traceless twoRecords { fetchSize := 1 } [] pendingQuery (.beginTransaction {})
          .resultsPending := by
  refine ⟨(refusals_leave_no_trace twoRecords.recorded).1 _ (.commit 0) .transactionClosed rfl, rfl,
    (refusals_leave_no_trace twoRecords).2 { fetchSize := 1 } [] pendingQuery
      (.beginTransaction {}) .resultsPending ?_ rfl⟩
  rintro ⟨t, current, -⟩
  cases current

/-! ## The description -/

/-- A query with a reserved parameter of the wrong type. -/
def misdirected : Operation (List (List Value)) :=
  .run (.query { text := "RETURN n" }) (some (.ofList [("db", .integer 1)]))

/-- A call that is refused changes how the session describes itself: it counted the transaction as
    open that was committed, and does no longer. -/
theorem refusal_shows_in_description :
    ¬ (play twoRecords {} [] commitment).session.HasOrphan ∧
      misdirected.refusal? (play twoRecords {} [] commitment).session =
        some (.reservedNotText "db" "Integer") ∧
      (play twoRecords {} [] (commitment ++ [misdirected])).session.debug ≠
        (play twoRecords {} [] commitment).session.debug := by
  refine ⟨?_, rfl, by decide +kernel⟩
  rintro ⟨t, current, isOpen, -⟩
  cases current
  cases isOpen

end GraphSession
