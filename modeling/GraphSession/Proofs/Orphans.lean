import GraphSession.Proofs.Ownership
import GraphSession.Proofs.Quiescence
import GraphSession.Proofs.Refusals

/-!
  Explicit transactions whose caller dropped them while they were open.

  Nobody can end such an orphan any more but the session, which finds it the next time it begins
  other work or is closed.  Before anything else it then rolls the transaction back, or resets the
  connection if the server has ended the transaction already, and gives the connection back.
  `Cleanup` lists everything that can happen on the way, and `Session.withoutOrphan` is what the
  session is then; whether the cleanup failed makes no difference to it.

  **The crux (`Operation.perform_without`)**: the operation that finds an orphan comes to the very
  state and outcome that it comes to from the session without the orphan, after the cleanup.  So
  nothing of the cleanup shows in its outcome, and nothing of it is mistaken for a failure of the
  operation itself.
-/

namespace GraphSession

variable {ω α β : Type} {peer : Peer ω} {t : TransactionId} {c : Connection}
  {σ τ : State (Recorded ω)}

/-! ## What is left of an orphan -/

/-- What a rollback leaves of a result. -/
def Result.abandoned (r : Result) : Result :=
  { r with
    stream := if r.isStreaming then .abandoned else r.stream
    buffer := []
    outOfScope := some .closed }

/-- The results after these of them were abandoned. -/
def abandonAll (ids : List ResultId) (results : List Result) : List Result :=
  ids.foldl (fun results id => results.set id (results.getD id .absent).abandoned) results

/-- The session once a transaction has given up its results and is rolled back. -/
def Session.rolledBack (s : Session) (t : TransactionId) : Session :=
  { s with
    results := abandonAll (s.transaction t).results s.results
    transactions :=
      s.transactions.set t { s.transaction t with state := .rolledBack, results := [] } }

/-- The session after its orphan was rolled back and forgotten. -/
def Session.withoutOrphan (s : Session) (t : TransactionId) : Session :=
  { s.rolledBack t with current := none, units := 0, connection := none }

/-- A connection goes back. -/
def returning (c : Connection) : History :=
  [.asked (.note .connectionReleased) (), .asked (.release c) ()]

/-- A connection is reset; a failure is noted. -/
inductive ResetAttempt (c : Connection) : History → Prop
  | reset : ResetAttempt c [.asked (.send c .session .reset) (.ok ())]
  | broken (fault : Fault) :
    ResetAttempt c
      [.asked (.note (.resetFailed fault)) (), .asked (.send c .session .reset) (.error fault)]

/-- How an orphan in this state is cleaned up, latest first. -/
inductive Cleanup (c : Connection) (t : TransactionId) : TransactionState → History → Prop
  /-- The server rolled it back. -/
  | rolledBack : Cleanup c t .active
      (returning c ++ [.asked (.send c (.transaction t) .rollback) (.ok ())])
  /-- The server did not, so the connection is reset; the failure is noted. -/
  | rollbackFailed (fault : Fault) {resetting : History} (attempt : ResetAttempt c resetting) :
    Cleanup c t .active (.asked (.note (.rollbackFailed fault)) () :: returning c ++ resetting ++
      [.asked (.send c (.transaction t) .rollback) (.error fault)])
  /-- The server had ended it already. -/
  | reset {resetting : History} (attempt : ResetAttempt c resetting) :
    Cleanup c t .failed (returning c ++ resetting)

/-! ## The end of its unit of work -/

theorem releaseConnection_held (held : σ.session.connection = some c) :
    (releaseConnection peer.recorded).Ends σ fun _ τ =>
      τ.session = { σ.session with connection := none } ∧
        τ.history = returning c ++ σ.history := by
  rw [releaseConnection, Act.ends_bind, Act.ends_theSession, held]
  exact ⟨rfl, rfl⟩

/-- The last unit ends, and the connection goes back. -/
theorem endUnit_last (held : σ.session.connection = some c) (last : σ.session.units = 1) :
    (endUnit peer.recorded).Ends σ fun _ τ =>
      τ.session = { σ.session with units := 0, connection := none } ∧
        τ.history = returning c ++ σ.history := by
  rw [endUnit, Act.ends_bind, Act.ends_changeSession, Act.ends_bind, Act.ends_theSession,
    if_pos (by simp [last]), last]
  exact releaseConnection_held held

/-- The last unit fails, and the connection goes back after a reset. -/
theorem abortUnit_last (held : σ.session.connection = some c) (last : σ.session.units = 1) :
    (abortUnit peer.recorded).Ends σ fun _ τ =>
      τ.session = { σ.session with units := 0, connection := none } ∧
        ∃ resetting, ResetAttempt c resetting ∧
          τ.history = returning c ++ resetting ++ σ.history := by
  rw [abortUnit, Act.ends_bind, Act.ends_theSession, held, Act.ends_bind, Act.ends_run]
  refine Op.ends_send (fun _ w => ?_) fun fault w => ?_
  · have ended : (endUnit peer.recorded).Ends (σ.heard (.send c .session .reset) (.ok ()) w) _ :=
      endUnit_last held last
    exact ended.imp fun _ τ h => ⟨h.1, _, .reset, h.2⟩
  · rw [Act.ends_bind]
    refine Act.ends_note fun w' => ?_
    have ended : (endUnit peer.recorded).Ends ((σ.heard (.send c .session .reset)
        (.error fault) w).heard (.note (.resetFailed fault)) () w') _ := endUnit_last held last
    exact ended.imp fun _ τ h => ⟨h.1, _, .broken fault, h.2⟩

/-- Results are abandoned one after the other. -/
theorem abandonResults_exec (ids : List ResultId) (σ : State ω) :
    Op.exec (ids.forM fun result => abandonResult result : Op ω Unit) σ =
      (.ok (), { σ with session :=
        { σ.session with results := abandonAll ids σ.session.results } }) := by
  induction ids generalizing σ with
  | nil => rfl
  | cons id rest ih =>
    rw [List.forM_eq_forM, List.forM_cons, Op.exec_bind]
    exact ih _

theorem Session.rolledBack_ended {s : Session} (forgotten : s.current = none) (t : TransactionId) :
    { s.rolledBack t with units := 0, connection := none } = s.withoutOrphan t := by
  have same : (s.rolledBack t).current = none := forgotten
  rw [withoutOrphan, ← same]

/-- A transaction is marked as rolled back after it gave up its results. -/
theorem Session.setState_taken {s : Session} (here : t < s.transactions.length) :
    let taken : Session :=
      { s.setTransaction t { s.transaction t with results := [] } with
        results := abandonAll (s.transaction t).results s.results }
    taken.setTransaction t { taken.transaction t with state := .rolledBack } = s.rolledBack t := by
  intro taken
  have own : taken.transaction t = { s.transaction t with results := [] } :=
    (Session.transaction_setTransaction s t _ here).trans (if_pos rfl)
  rw [own]
  simp only [taken, Session.setTransaction, List.set_set, rolledBack]

/-- How a rollback ends the unit of a transaction in this state. -/
def endRolledBack (peer : Peer ω) (t : TransactionId) (state : TransactionState) : Op ω Unit :=
  if state = .failed then liftM (abortUnit peer)
  else do
    match ← attempt (rollbackHeld peer t) with
    | .ok _ => endUnit peer
    | .error fault =>
      abortUnit peer
      throw fault

/-- A rollback changes the session before it asks anything of the server. -/
theorem exec_rollback {peer : Peer ω} {σ : State ω}
    (isOpen : (σ.session.transaction t).state.isTerminated = false) :
    (rollback peer t).exec σ =
      (endRolledBack peer t (σ.session.transaction t).state).exec
        { σ with session := σ.session.rolledBack t } := by
  have marked := Session.setState_taken (Session.lt_of_not_isTerminated isOpen)
  rw [rollback, Op.exec_bind, Op.exec_theSession]
  dsimp only
  rw [if_neg (by simp [isOpen]), Op.exec_bind, takeResults, Op.exec_bind, Op.exec_theSession]
  dsimp only
  rw [Op.exec_bind, changeTransaction, Op.exec_changeSession]
  dsimp only
  rw [Op.exec_pure]
  dsimp only
  rw [Op.exec_bind, abandonResults_exec]
  dsimp only
  rw [Op.exec_bind, setState, changeTransaction, Op.exec_changeSession, ← marked]
  rfl

/-- A rollback of the transaction that has the session's only unit, whatever it comes to. -/
theorem rollback_last (held : σ.session.connection = some c) (last : σ.session.units = 1)
    (forgotten : σ.session.current = none)
    (isOpen : (σ.session.transaction t).state.isTerminated = false) :
    (rollback peer.recorded t).Ends σ
      (fun _ τ => τ.session = σ.session.withoutOrphan t ∧ ∃ events,
        Cleanup c t (σ.session.transaction t).state events ∧ τ.history = events ++ σ.history)
      fun fault τ => τ.session = σ.session.withoutOrphan t ∧ ∃ events,
        Cleanup c t (σ.session.transaction t).state
            (.asked (.note (.rollbackFailed fault)) () :: events) ∧
          τ.history = events ++ σ.history := by
  have ended := Session.rolledBack_ended forgotten t
  unfold Op.Ends
  rw [exec_rollback isOpen]
  change Op.Ends _ _ _ _
  let ρ : State (Recorded ω) := { σ with session := σ.session.rolledBack t }
  have held' : ρ.session.connection = some c := held
  have last' : ρ.session.units = 1 := last
  cases state : (σ.session.transaction t).state with
  | active =>
    rw [endRolledBack, if_neg (by simp), Op.ends_bind, Op.ends_attempt]
    refine Op.ends_sendHeld held' (fun _ w => ?_) fun fault w => ?_
    · have closing : (endUnit peer.recorded).Ends
          (ρ.heard (.send c (.transaction t) .rollback) (.ok ()) w) _ := endUnit_last held' last'
      exact Op.ends_lift.mpr (closing.imp fun _ τ h => ⟨h.1.trans ended, _, .rolledBack,
        h.2.trans (List.append_assoc _ [_] _).symm⟩)
    · have closing : (abortUnit peer.recorded).Ends
          (ρ.heard (.send c (.transaction t) .rollback) (.error fault) w) _ :=
        abortUnit_last held' last'
      rw [Op.ends_bind, Op.ends_lift]
      refine closing.imp fun _ τ h => ?_
      obtain ⟨resetting, attempt, history⟩ := h.2
      exact ⟨h.1.trans ended, _, .rollbackFailed fault attempt,
        history.trans (List.append_assoc _ [_] _).symm⟩
  | failed =>
    rw [endRolledBack, if_pos rfl, Op.ends_lift]
    have closing : (abortUnit peer.recorded).Ends ρ _ := abortUnit_last held' last'
    refine closing.imp fun _ τ h => ?_
    obtain ⟨resetting, attempt, history⟩ := h.2
    exact ⟨h.1.trans ended, _, .reset attempt, history⟩
  | committed | rolledBack | closed =>
    rw [state] at isOpen
    cases isOpen

/-- Nothing comes of a failure when nobody waits for the rollback. -/
theorem closeQuietly_last (held : σ.session.connection = some c) (last : σ.session.units = 1)
    (forgotten : σ.session.current = none)
    (isOpen : (σ.session.transaction t).state.isTerminated = false) :
    (closeQuietly peer.recorded t).Ends σ fun _ τ =>
      τ.session = σ.session.withoutOrphan t ∧ ∃ events,
        Cleanup c t (σ.session.transaction t).state events ∧ τ.history = events ++ σ.history := by
  rw [closeQuietly, Act.ends_bind, Act.ends_run, closeTransaction, Op.ends_bind,
    Op.ends_theSession, isOpen]
  refine (rollback_last held last forgotten isOpen).imp (fun _ _ h => h) fun fault τ h => ?_
  obtain ⟨session, events, cleanup, history⟩ := h
  exact Act.ends_note fun w => ⟨session, _, cleanup, congrArg (List.cons _) history⟩

/-! ## Sessions with an orphan -/

/-- The explicit transaction of a session is open; nothing else is. -/
structure State.Engaged (t : TransactionId) (σ : State (Recorded ω)) : Prop where
  ledger : σ.Ledger
  current : σ.session.current = some t
  closed : σ.session.closed = false
  units : σ.session.units = 1
  held : ∃ c, σ.session.connection = some c
  isOpen : (σ.session.transaction t).state.isTerminated = false

/-- Between operations only the explicit transaction can be open, and then nothing else is. -/
theorem play_engaged (peer : Peer ω) (config : SessionConfig) (w : ω) (ops : List (Operation ω))
    (isOpen : ((play peer config w ops).session.transaction t).state.isTerminated = false) :
    (play peer config w ops).Engaged t := by
  obtain ⟨ledger, -, -, -, -, held⟩ := (reached_play peer config w ops).steady
  obtain ⟨x, stands, balanced⟩ := (play_rests peer config w ops).balanced
  have own : x.transaction = some (t, _) := (stands.opened t _).mp ⟨rfl, isOpen⟩
  have units : x.units = 1 := by
    rw [balanced.units, own]
    rfl
  refine ⟨ledger, (held t isOpen).1, (held t isOpen).2, stands.units.trans units, ?_, isOpen⟩
  rw [stands.slot]
  exact Option.isSome_iff_exists.mp (balanced.slot.mpr (units ▸ Nat.one_pos))

/-- The journal is told of an event. -/
def Event.told (event : Event) : Happening := .asked (.note event) ()

/-- From `σ` the orphan `t` was cleaned up on its connection, with nothing before that but `notes` in
    the journal, the latest first; then nothing is left of it. -/
structure EndsOrphan (peer : Peer ω) (t : TransactionId) (notes : List Event)
    (σ τ : State (Recorded ω)) : Prop where
  cleanup : ∃ c events, σ.session.connection = some c ∧
    Cleanup c t (σ.session.transaction t).state events ∧
    τ.history = events ++ notes.map Event.told ++ σ.history
  session : τ.session = σ.session.withoutOrphan t
  silenced : τ.Silenced peer t

/-- Notes and a transaction that is forgotten are nothing to the ledger. -/
theorem State.Ledger.forgetful {notes : List Event} {ρ : State (Recorded ω)} (h : σ.Ledger)
    (forgot : ρ.session = σ.forgetful.session)
    (noted : ρ.history = notes.map Event.told ++ σ.history) : ρ.Ledger where
  tidy := by
    rw [forgot]
    exact ⟨h.tidy.given, h.tidy.once, h.tidy.ended⟩
  owned t r obtained := by
    obtain ⟨source, params, mem⟩ := obtained
    rw [noted] at mem
    rw [forgot]
    rcases List.mem_append.mp mem with told | before
    · obtain ⟨event, -, same⟩ := List.mem_map.mp told
      cases same
    · exact h.owned t r ⟨source, params, before⟩

theorem Session.transaction_withoutOrphan {s : Session} (here : t < s.transactions.length) :
    (s.withoutOrphan t).transaction t =
      { s.transaction t with state := .rolledBack, results := [] } :=
  (Session.transaction_setTransaction s t _ here).trans (if_pos rfl)

/-- An orphan is ended from a session that has forgotten it. -/
theorem State.Engaged.ends {notes : List Event} {ρ : State (Recorded ω)} (h : σ.Engaged t)
    (forgot : ρ.session = σ.forgetful.session)
    (noted : ρ.history = notes.map Event.told ++ σ.history) :
    EndsOrphan peer t notes σ ((closeQuietly peer.recorded t).exec ρ).2 := by
  obtain ⟨c, held⟩ := h.held
  have closing : (closeQuietly peer.recorded t).Ends ρ fun _ τ =>
      τ.session = ρ.session.withoutOrphan t ∧ ∃ events,
        Cleanup c t (ρ.session.transaction t).state events ∧ τ.history = events ++ ρ.history :=
    closeQuietly_last (by rw [forgot]; exact held) (by rw [forgot]; exact h.units)
      (by rw [forgot]; rfl) (by rw [forgot]; exact h.isOpen)
  rw [forgot] at closing
  obtain ⟨session, events, cleanup, history⟩ := closing
  replace session : _ = σ.session.withoutOrphan t := session
  have along : (closeQuietly peer.recorded t).Along peer { enlists := True } :=
    closeQuietly_along trivial t
  have within : (closeQuietly peer.recorded t).Within { concludes := True } :=
    closeQuietly_within trivial t
  have ledger : ρ.Ledger := h.ledger.forgetful forgot noted
  refine ⟨⟨c, events, held, cleanup, ?_⟩, session, ?_⟩
  · rw [history, noted, List.append_assoc]
  · refine (ledger.along (along ρ) (fun n => n) (within ρ)).silenced ?_
    rw [session, Session.transaction_withoutOrphan (Session.lt_of_not_isTerminated h.isOpen)]
    rfl

/-! ## The operations that find it -/

/-- The query that an operation is given, if it is given one, can be run. -/
def Operation.HasValidQuery : Operation ω → Prop
  | run source _ | executeQuery source .. => source.fault? = none
  | beginTransaction _ | execute .. | executeRenamed .. | executeBlocking .. | lastBookmarks
  | lastBookmark | serverInfo | close | access _ | elsewhere _ => True

/-- What the journal is told before an operation ends an orphan, the latest first.  A session that
    is closed says nothing of it. -/
def Operation.foreword : Operation ω → List Event
  | close => []
  | executeRenamed mode .. => [.orphanRolledBack, .executeRenamed mode]
  | run .. | beginTransaction _ | execute .. | executeQuery .. | executeBlocking ..
  | lastBookmarks | lastBookmark | serverInfo | access _ | elsewhere _ => [.orphanRolledBack]

/-- An operation without the note that a transaction function is run under its former name. -/
def Operation.performUnannounced (peer : Peer ω) :
    (op : Operation ω) → Act (Recorded ω) (Option (Except Fault op.Reply))
  | executeRenamed mode patience work =>
    GraphSession.execute peer.recorded mode {} patience (TransactionFunction.recorded work)
  | op => op.perform peer

theorem exec_reapTransaction_orphan {peer : Peer ω} {σ : State ω}
    (current : σ.session.current = some t)
    (isOpen : (σ.session.transaction t).state.isTerminated = false)
    (dropped : (σ.session.transaction t).holder = .nobody) :
    (reapTransaction peer).exec σ =
      (.ok (), ((closeQuietly peer t).exec ((note peer .orphanRolledBack).exec σ.forgetful).2).2) := by
  rw [reapTransaction, Op.exec_bind, Op.exec_theSession]
  dsimp only
  rw [current]
  dsimp only
  rw [isOpen, dropped]
  rfl

theorem exec_endCurrent {peer : Peer ω} {σ : State ω} (current : σ.session.current = some t) :
    (endCurrent peer).exec σ = (closeQuietly peer t).exec σ.forgetful := by
  rw [endCurrent, Act.exec_bind, Act.exec_theSession]
  dsimp only
  rw [current]
  rfl

/-- What follows the check for an orphan comes to the same after the orphan was ended. -/
theorem exec_clearing {peer : Peer ω} {σ τ : State ω} {f : Unit → Op ω α}
    (closed : σ.session.closed = false) (reaped : (reapTransaction peer).exec σ = (.ok (), τ))
    (closed' : τ.session.closed = false) (none : τ.session.current = none) :
    (checkOpen >>= fun _ => reapTransaction peer >>= f : Op ω α).exec σ =
      (checkOpen >>= fun _ => reapTransaction peer >>= f : Op ω α).exec τ := by
  have reapedThen : (reapTransaction peer >>= f).exec σ = (reapTransaction peer >>= f).exec τ := by
    rw [Op.exec_bind, Op.exec_bind, reaped, exec_reapTransaction_none none]
  rw [Op.exec_bind, Op.exec_bind _ checkOpen, Op.exec_checkOpen, Op.exec_checkOpen, closed, closed']
  exact reapedThen

theorem exec_endCurrent_none {peer : Peer ω} {σ : State ω} (h : σ.session.current = none) :
    (endCurrent peer).exec σ = ((), σ) := by
  rw [endCurrent, Act.exec_bind, Act.exec_theSession]
  dsimp only
  rw [h]
  rfl

/-- A session that is closed ends its explicit transaction before anything else. -/
theorem exec_close_orphan {peer : Peer ω} {σ τ : State ω} (current : σ.session.current = some t)
    (closed : σ.session.closed = false)
    (ended : (closeQuietly peer t).exec σ.forgetful = ((), τ)) (closed' : τ.session.closed = false)
    (none : τ.session.current = none) : (close peer).exec σ = (close peer).exec τ := by
  have forgotten : (endCurrent peer).exec σ = (endCurrent peer).exec τ := by
    rw [exec_endCurrent current, exec_endCurrent_none none, ended]
  rw [close, Act.exec_bind, Act.exec_bind, Act.exec_theSession, Act.exec_theSession]
  dsimp only
  rw [closed, closed']
  exact Act.exec_bind_congr forgotten

/-- The operation that finds an orphan first ends it.  Then it comes to the very outcome and state
    that it comes to from the session without the orphan. -/
theorem Operation.perform_without (op : Operation ω) (heeds : ¬ op.IgnoresCurrent)
    (valid : op.HasValidQuery) (h : σ.Engaged t)
    (dropped : (σ.session.transaction t).holder = .nobody) :
    ∃ τ, EndsOrphan peer t op.foreword σ τ ∧
      (op.perform peer).exec σ = (op.performUnannounced peer).exec τ := by
  -- the orphan is ended after a note, in a session that may have told the journal something before
  have reaping (before : List Event) {ρ : State (Recorded ω)} (same : ρ.session = σ.session)
      (noted : ρ.history = before.map Event.told ++ σ.history) :
      ∃ τ, EndsOrphan peer t (.orphanRolledBack :: before) σ τ ∧
        ∀ {α : Type} (f : Unit → Op (Recorded ω) α),
          (checkOpen >>= fun _ => reapTransaction peer.recorded >>= f : Op (Recorded ω) α).exec ρ =
            (checkOpen >>= fun _ => reapTransaction peer.recorded >>= f :
              Op (Recorded ω) α).exec τ := by
    have forgot : ρ.forgetful.session = σ.forgetful.session := by
      unfold State.forgetful
      rw [same]
    have ended : EndsOrphan peer t (.orphanRolledBack :: before) σ
        ((closeQuietly peer.recorded t).exec
          ((note peer.recorded .orphanRolledBack).exec ρ.forgetful).2).2 :=
      h.ends forgot (congrArg (List.cons _) noted)
    refine ⟨_, ended, fun f => exec_clearing (by rw [same]; exact h.closed)
      (exec_reapTransaction_orphan (by rw [same]; exact h.current) (by rw [same]; exact h.isOpen)
        (by rw [same]; exact dropped)) ?_ ?_⟩
    · exact (congrArg Session.closed ended.session).trans h.closed
    · exact congrArg Session.current ended.session
  obtain ⟨τ, ended, same⟩ := reaping [] rfl rfl
  -- a transaction function goes on after its preparation
  have prepared : (prepareExecute peer.recorded).exec σ = (prepareExecute peer.recorded).exec τ :=
    same _
  cases op with
  | run source params =>
    refine ⟨τ, ended, Act.exec_bind_congr ?_⟩
    rw [HasValidQuery, QuerySource.fault?] at valid
    rw [Act.exec_run, Act.exec_run, GraphSession.run]
    cases asked : Query.ofSource source with
    | error fault =>
      rw [asked] at valid
      cases valid
    | ok query => exact same _
  | beginTransaction config => exact ⟨τ, ended, Act.exec_bind_congr (same _)⟩
  | execute mode config patience work => exact ⟨τ, ended, Act.exec_bind_congr prepared⟩
  | executeRenamed mode patience work =>
    let ρ := ((note peer.recorded (.executeRenamed mode)).exec σ).2
    obtain ⟨τ, ended, same⟩ := reaping [.executeRenamed mode] (ρ := ρ) rfl rfl
    have prepared : (prepareExecute peer.recorded).exec ρ = (prepareExecute peer.recorded).exec τ :=
      same _
    have executed : (GraphSession.execute peer.recorded mode {} patience
          (TransactionFunction.recorded work)).exec ρ =
        (GraphSession.execute peer.recorded mode {} patience
          (TransactionFunction.recorded work)).exec τ := Act.exec_bind_congr prepared
    exact ⟨τ, ended, executed⟩
  | executeQuery source params mode patience =>
    rw [HasValidQuery, QuerySource.fault?] at valid
    have executed : (perform peer (executeQuery source params mode patience)).exec σ =
        (perform peer (executeQuery source params mode patience)).exec τ := by
      rw [perform, executeQueryWith]
      cases asked : Query.ofSource source with
      | error fault =>
        rw [asked] at valid
        cases valid
      | ok query => exact Act.exec_bind_congr prepared
    exact ⟨τ, ended, executed⟩
  | @executeBlocking β mode config patience work =>
    have begun : (Blocking.begin (α := β) peer.recorded).exec σ =
        (Blocking.begin peer.recorded).exec τ := Act.exec_bind_congr prepared
    exact ⟨τ, ended, Act.exec_bind_congr begun⟩
  | close =>
    let ρ := ((closeQuietly peer.recorded t).exec σ.forgetful).2
    have ended : EndsOrphan peer t [] σ ρ := h.ends rfl rfl
    have isOpen : ρ.session.closed = false := (congrArg Session.closed ended.session).trans h.closed
    have forgotten : ρ.session.current = none := congrArg Session.current ended.session
    have closed : (GraphSession.close peer.recorded).exec σ =
        (GraphSession.close peer.recorded).exec ρ :=
      exec_close_orphan h.current h.closed rfl isOpen forgotten
    refine ⟨ρ, ended, Act.exec_bind_congr ?_⟩
    rw [Act.exec_run, Act.exec_run, Op.exec_lift, Op.exec_lift, closed]
  | lastBookmarks | lastBookmark | serverInfo | access | elsewhere => exact absurd trivial heeds

/-- What an operation keeps, it keeps also without the note. -/
theorem Kept.unannounced {inv : State (Recorded ω) → Prop} (k : Kept peer inv) (op : Operation ω)
    (h : inv σ) : inv ((op.performUnannounced peer).exec σ).2 := by
  cases op with
  | executeRenamed mode patience work => exact k.operation h (.execute mode {} patience work)
  | _ => exact k.operation h _

/-- What has happened stays. -/
theorem past_kept (peer : Peer ω) (past : History) :
    Kept peer fun σ : State (Recorded ω) => past <:+ σ.history :=
  .of_courses (fun h course => h.trans course.grows)
    (fun _ _ _ h => h.trans (List.suffix_cons _ _)) fun _ _ h => h

/-- **Orphans are ended first.**  Whatever a session has been through: when an explicit transaction
    is open and its caller dropped the handle, the next operation that begins work or closes the
    session, given a query that can be run if it takes one, ends it before anything else.  A
    transaction that is active is rolled back, once, and if that fails the connection is reset; for
    one that has failed the connection is only reset; then the connection goes back.  Nothing can be
    read from its results any more.  And the operation comes to the outcome and the state that it
    comes to from the session without the orphan, whatever failed on the way. -/
theorem orphan_ends_first (peer : Peer ω) (config : SessionConfig) (w : ω)
    (ops : List (Operation ω)) (op : Operation ω) (t : TransactionId)
    (isOpen : ((play peer config w ops).session.transaction t).state.isTerminated = false)
    (dropped : ((play peer config w ops).session.transaction t).holder = .nobody)
    (heeds : ¬ op.IgnoresCurrent) (valid : op.HasValidQuery) :
    ∃ τ, EndsOrphan peer t op.foreword (play peer config w ops) τ ∧
      (op.perform peer).exec (play peer config w ops) = (op.performUnannounced peer).exec τ ∧
      τ.history <:+ (play peer config w (ops ++ [op])).history ∧
      (play peer config w (ops ++ [op])).Silenced peer t := by
  obtain ⟨τ, ended, same⟩ :=
    op.perform_without heeds valid (play_engaged peer config w ops isOpen) dropped
  have after : play peer config w (ops ++ [op]) = ((op.performUnannounced peer).exec τ).2 := by
    rw [play_concat, ← same]
    rfl
  have ended' : t < τ.session.transactions.length ∧
      (τ.session.transaction t).state.isTerminated = true := by
    have here := Session.lt_of_not_isTerminated isOpen
    rw [ended.session, Session.transaction_withoutOrphan here]
    exact ⟨by rwa [Session.withoutOrphan, Session.rolledBack, List.length_set], rfl⟩
  refine ⟨τ, ended, same, ?_, ?_⟩
  · rw [after]
    exact (past_kept peer τ.history).unannounced op (List.suffix_refl _)
  · obtain ⟨ledger, -⟩ := (reached_play peer config w (ops ++ [op])).steady
    refine ledger.silenced ?_
    rw [after]
    exact ((over_kept peer t).unannounced op ended').2

/-- A transaction that was dropped while a result of it was streaming. -/
def orphaned : List (Operation (List (List Value))) :=
  [.beginTransaction {}, .access (.run 0 (.query { text := "RETURN n" }) none), .access (.drop 0)]

/-- The next query ends it. -/
theorem query_ends_orphan_first :
    ∃ τ, EndsOrphan twoRecords 0 [.orphanRolledBack]
        (play twoRecords { fetchSize := 1 } [] orphaned) τ ∧
      ((Operation.run (.query { text := "RETURN n" }) none).perform twoRecords).exec
          (play twoRecords { fetchSize := 1 } [] orphaned) =
        ((Operation.run (.query { text := "RETURN n" }) none).performUnannounced twoRecords).exec τ ∧
      τ.history <:+ (play twoRecords { fetchSize := 1 } []
        (orphaned ++ [.run (.query { text := "RETURN n" }) none])).history ∧
      (play twoRecords { fetchSize := 1 } []
        (orphaned ++ [.run (.query { text := "RETURN n" }) none])).Silenced twoRecords 0 :=
  orphan_ends_first twoRecords { fetchSize := 1 } [] orphaned
    (.run (.query { text := "RETURN n" }) none) 0 rfl rfl (fun h => h) rfl

/-- A query that cannot be run is refused before anything else, also one that is to have a
    transaction of its own: the orphan stays. -/
theorem misquery_leaves_orphan :
    ((play twoRecords { fetchSize := 1 } [] orphaned).session.transaction 0).state = .active ∧
      ((play twoRecords { fetchSize := 1 } [] orphaned).session.transaction 0).holder = .nobody ∧
      play twoRecords { fetchSize := 1 } [] (orphaned ++ [.executeQuery (.text "") none .read 1]) =
        play twoRecords { fetchSize := 1 } [] orphaned :=
  ⟨rfl, rfl, rfl⟩

end GraphSession
