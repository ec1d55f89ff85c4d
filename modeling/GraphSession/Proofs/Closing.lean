import GraphSession.Proofs.Ledger

/-!
  A closed session is dormant.

  Closing a session ends its transaction, drops what is left of its latest result and returns the
  connection; it then remembers neither.  What is left is dormant: nothing streams, every
  transaction is over, nothing will be fetched.  `KeepsDormant` is the frame of all that can still
  be done: from a dormant session it leads to a dormant session, and on the way neither the pool nor
  a connection nor the bookmark manager is called.

  The handles are not refused as such.  A result that was read to its end can still be read, and
  lines still go to the journal; there is just nothing left that a call could be made for.
-/

namespace GraphSession

variable {ω α : Type} {peer : Peer ω} {id : ResultId} {σ τ : State (Recorded ω)}

/-- A call to the pool, to a connection or to the bookmark manager. -/
def Happening.IsCall : Happening → Prop
  | asked request _ => ¬ request.IsPausing
  | used .. | returned _ => False

/-- The session is closed, and nothing is open. -/
structure State.Dormant (σ : State (Recorded ω)) : Prop where
  closed : σ.session.closed = true
  /-- No result is left to be fetched to the end. -/
  forgotten : σ.session.autoResult = none
  streaming : ∀ r, (σ.session.result r).isStreaming = false
  terminated : ∀ t, (σ.session.transaction t).state.isTerminated = true

/-- From a dormant session it leads to a dormant session, without a call. -/
def KeepsDormant (σ τ : State (Recorded ω)) : Prop :=
  σ.Dormant → τ.Dormant ∧ σ.Since (∀ e ∈ ·, ¬ e.IsCall) τ

namespace KeepsDormant

theorem rest (σ : State (Recorded ω)) : KeepsDormant σ σ :=
  fun dormant => ⟨dormant, .nothing (by simp) rfl⟩

theorem andThen {υ : State (Recorded ω)} (h : KeepsDormant σ τ) (h' : KeepsDormant τ υ) :
    KeepsDormant σ υ := by
  intro dormant
  obtain ⟨dormant, since⟩ := h dormant
  obtain ⟨dormant', since'⟩ := h' dormant
  exact ⟨dormant', since.all_andThen since'⟩

/-- The session stays as it is. -/
theorem same (session : τ.session = σ.session) (history : τ.history = σ.history) :
    KeepsDormant σ τ := by
  rintro ⟨closed, forgotten, streaming, terminated⟩
  rw [← session] at closed forgotten streaming terminated
  exact ⟨⟨closed, forgotten, streaming, terminated⟩, .nothing (by simp) history⟩

/-- Something happened that is no call. -/
theorem one {e : Happening} (h : ¬ e.IsCall) (session : τ.session = σ.session)
    (history : τ.history = e :: σ.history) : KeepsDormant σ τ := by
  rintro ⟨closed, forgotten, streaming, terminated⟩
  rw [← session] at closed forgotten streaming terminated
  exact ⟨⟨closed, forgotten, streaming, terminated⟩, .one h history⟩

/-- A result changes that does not stream afterwards either. -/
theorem setResult (r : Result)
    (ended : (σ.session.result id).isStreaming = false → r.isStreaming = false) :
    KeepsDormant σ { σ with session := σ.session.setResult id r } := by
  intro dormant
  refine ⟨⟨dormant.closed, dormant.forgotten, fun other => ?_, dormant.terminated⟩,
    .nothing (by simp) rfl⟩
  rw [Session.result_setResult_eq]
  split
  · exact ended (dormant.streaming id)
  · exact dormant.streaming other

/-- A transaction changes that is over afterwards as well. -/
theorem setTransaction {t : TransactionId} (v : Transaction)
    (state : v.state = (σ.session.transaction t).state) :
    KeepsDormant σ { σ with session := σ.session.setTransaction t v } := by
  intro dormant
  refine ⟨⟨dormant.closed, dormant.forgotten, dormant.streaming, fun other => ?_⟩,
    .nothing (by simp) rfl⟩
  rw [Session.transaction_setTransaction_eq]
  split
  · rw [state]
    exact dormant.terminated t
  · exact dormant.terminated other

end KeepsDormant

instance : IsFrame (KeepsDormant (ω := ω)) := ⟨KeepsDormant.rest, KeepsDormant.andThen⟩

theorem note_keepsDormant (event : Event) : Act.Obeys KeepsDormant (note peer.recorded event) :=
  fun _ => .one (e := .asked (.note event) ()) (fun call => call trivial) rfl rfl

/-- Nothing is fetched, and what was fetched before can still be handed out. -/
theorem reads_keepsDormant : Reads peer.recorded KeepsDormant where
  fetch r σ streaming dormant := by
    rw [dormant.streaming r] at streaming
    cases streaming
  discardRest r σ dormant := by
    rw [discardRest_quiet (dormant.streaming r)]
    exact KeepsDormant.rest σ dormant
  tend σ r v _ _ stream _ := by
    refine .setResult v fun ended => ?_
    rw [Result.isStreaming, stream]
    exact ended

/-! ## Transactions that are over -/

theorem Transaction.refusal?_of_isTerminated {v : Transaction}
    (terminated : v.state.isTerminated = true) (action : String) :
    v.refusal? action = some .transactionClosed := by
  rw [refusal?]
  cases state : v.state with
  | active | failed =>
    rw [state] at terminated
    cases terminated
  | committed | rolledBack | closed => rfl

/-- An action that fails as `why` says, and changes nothing. -/
theorem Op.exec_of_refused {op : Op (Recorded ω) α} {why : Fault → Prop}
    (h : op.Ends σ (fun _ _ => False) fun fault τ => why fault ∧ τ = σ) :
    ∃ fault, why fault ∧ op.exec σ = (.error fault, σ) := by
  unfold Op.Ends at h
  split at h
  · exact h.elim
  · next fault τ e =>
    obtain ⟨here, same⟩ := h
    subst same
    exact ⟨fault, here, e⟩

/-- The transaction in which an access runs a query, or which it commits or rolls back. -/
def Access.worksIn? : Access → Option TransactionId
  | run t _ _ | commit t | rollback t => some t
  | _ => none

/-- Nothing can be done with a transaction that is over. -/
theorem Access.refused {t : TransactionId}
    (terminated : (σ.session.transaction t).state.isTerminated = true) {a : Access}
    (works : a.worksIn? = some t) :
    ∃ fault, (a.perform peer.recorded).exec σ = (.error fault, σ) := by
  suffices h : (a.perform peer.recorded).Ends σ (fun _ _ => False) fun _ τ => True ∧ τ = σ by
    obtain ⟨fault, -, e⟩ := Op.exec_of_refused h
    exact ⟨fault, e⟩
  have checked {β : Type} {allowed : Holder → Bool} {op : Op (Recorded ω) β}
      (hop : op.Ends σ (fun _ _ => False) fun _ τ => True ∧ τ = σ) :
      Op.Ends (do checkHolder t allowed; op) σ (fun _ _ => False) fun _ τ => True ∧ τ = σ := by
    rw [Op.ends_bind, checkHolder, Op.ends_bind, Op.ends_theSession]
    split
    · exact ⟨trivial, rfl⟩
    · exact hop
  cases a with
  | run t' source params =>
    obtain rfl : t' = t := Option.some.inj works
    refine checked ?_
    rw [runIn, Op.ends_bind, Op.ends_settleOn]
    refine ⟨fun query _ => ?_, fun _ _ => ⟨trivial, rfl⟩⟩
    rw [Op.ends_bind, Op.ends_theSession, Op.ends_bind, Op.ends_failIf,
      Transaction.refusal?_of_isTerminated terminated]
    exact ⟨fun e => (by cases e), fun _ _ => ⟨trivial, rfl⟩⟩
  | commit t' =>
    obtain rfl : t' = t := Option.some.inj works
    refine checked (commit_refused (fun active => ?_) fun _ _ => ⟨trivial, rfl⟩)
    rw [active] at terminated
    cases terminated
  | rollback t' =>
    obtain rfl : t' = t := Option.some.inj works
    refine checked ?_
    rw [GraphSession.rollback, Op.ends_bind, Op.ends_theSession]
    dsimp only
    rw [terminated, if_pos rfl]
    exact ⟨trivial, rfl⟩
  | _ => cases works

/-- No access to a dormant session is a call. -/
theorem Access.perform_keepsDormant (a : Access) :
    (a.perform peer.recorded).Obeys KeepsDormant := by
  have refused (a : Access) {t : TransactionId} (works : a.worksIn? = some t) :
      (a.perform peer.recorded).Obeys KeepsDormant := by
    intro σ dormant
    obtain ⟨fault, e⟩ : ∃ fault, (a.perform peer.recorded).exec σ = (.error fault, σ) :=
      Access.refused (dormant.terminated t) works
    rw [e]
    exact KeepsDormant.rest σ dormant
  have dropped (t : TransactionId) : Act.Obeys (ω := Recorded ω) KeepsDormant
      (changeTransaction t ({ · with holder := .nobody })) :=
    fun _ => .setTransaction _ rfl
  cases a with
  | run t source params => exact refused _ rfl
  | commit t => exact refused _ rfl
  | rollback t => exact refused _ rfl
  | close t =>
    refine .bind (.bind .theSession fun s => ?_) fun _ σ dormant => ?_
    · split
      · exact .throw _
      · exact .pure _
    · rw [closeTransaction, Op.exec_bind, Op.exec_theSession]
      simp only [dormant.terminated t]
      exact KeepsDormant.rest σ dormant
  | drop t =>
    refine .lift (.bind .theSession fun s => ?_)
    dsimp only
    split
    · split
      · exact .bind (note_keepsDormant _) fun _ => dropped t
      · exact dropped t
    · exact .pure _
  | viewTransaction t => exact .bind .theSession fun _ => .pure _
  | next r => exact reads_keepsDormant.next r
  | peek r => exact reads_keepsDormant.peek r
  | single r => exact reads_keepsDormant.single r
  | collect r => exact reads_keepsDormant.collect r
  | drain r => exact .lift (reads_keepsDormant.drain r)
  | consume r => exact reads_keepsDormant.consume r
  | viewResult r => exact .bind .theSession fun _ => .pure _

theorem Access.performTold_keepsDormant (a : Access) : (a.performTold peer).Obeys KeepsDormant :=
  .bind (.run a.perform_keepsDormant) fun outcome =>
    .bind (fun _ => .one (e := .used a outcome) (fun call => call) rfl rfl) fun _ => .pure _

/-! ## Operations -/

/-- Work does not begin in a closed session. -/
theorem checkOpen_closed (closed : σ.session.closed = true)
    {good : Unit → State (Recorded ω) → Prop} {bad : Fault → State (Recorded ω) → Prop}
    (refused : bad .sessionClosed σ) :
    Op.Ends (checkOpen : Op (Recorded ω) Unit) σ good bad := by
  rw [checkOpen, Op.ends_bind, Op.ends_theSession, if_pos closed]
  exact refused

theorem prepareExecute_closed (closed : σ.session.closed = true)
    {good : Unit → State (Recorded ω) → Prop} {bad : Fault → State (Recorded ω) → Prop}
    (refused : bad .sessionClosed σ) : (prepareExecute peer.recorded).Ends σ good bad := by
  rw [prepareExecute, Op.ends_bind]
  exact checkOpen_closed closed refused

/-- A closed session calls no transaction function. -/
theorem upheld_hushed (σ : State (Recorded ω)) :
    Upheld peer (fun τ => τ.Dormant ∧ σ.Since (∀ e ∈ ·, ¬ e.IsCall) τ) (fun _ => False)
      fun _ _ => False where
  call _ _ _ none := none.elim
  drift _ _ _ none := none.elim
  ended _ _ _ none := none.elim
  noting τ event h := by
    obtain ⟨dormant, since⟩ := h
    obtain ⟨dormant', since'⟩ := note_keepsDormant event τ dormant
    exact ⟨dormant', since.all_andThen since'⟩
  prepare τ h := prepareExecute_closed h.1.closed h
  pausing _ _ _ none := none.elim
  opens _ _ _ _ none := none.elim
  settles _ _ _ none _ := none.elim
  done _ none := none.elim

/-- No operation on a dormant session makes a call. -/
theorem Operation.perform_keepsDormant (op : Operation ω) :
    (op.perform peer).Obeys KeepsDormant := by
  have told {β : Type} {x : Op (Recorded ω) β} (hx : x.Obeys KeepsDormant) :
      (concluded x).Obeys KeepsDormant :=
    .bind (.run hx) fun _ => .pure _
  have refused {β : Type} (x : Op (Recorded ω) β) :
      Op.Obeys KeepsDormant (do checkOpen; x : Op (Recorded ω) β) := by
    intro σ dormant
    have ended : Op.Ends (do checkOpen; x : Op (Recorded ω) β) σ
        (fun _ τ => τ.Dormant ∧ σ.Since (∀ e ∈ ·, ¬ e.IsCall) τ)
        fun _ τ => τ.Dormant ∧ σ.Since (∀ e ∈ ·, ¬ e.IsCall) τ := by
      rw [Op.ends_bind]
      exact checkOpen_closed dormant.closed (KeepsDormant.rest σ dormant)
    exact ended.state
  have asked : (GraphSession.lastBookmarks peer.recorded).Obeys KeepsDormant := by
    intro σ dormant
    rw [GraphSession.lastBookmarks, Op.exec_bind, Op.exec_theSession]
    simp only [dormant.forgotten]
    exact KeepsDormant.rest σ dormant
  cases op with
  | run source params => exact told (.bind (.settleOn _) fun query => refused _)
  | beginTransaction config => exact told (refused _)
  | execute | executeRenamed | executeQuery | executeBlocking =>
    exact fun σ dormant => (upheld_hushed σ).function (KeepsDormant.rest σ dormant) _ trivial
  | lastBookmarks => exact told asked
  | lastBookmark =>
    exact told (.bind (.lift (note_keepsDormant _)) fun _ => .bind asked fun _ => .pure _)
  | serverInfo => exact told (refused _)
  | close =>
    refine told (.lift fun σ dormant => ?_)
    rw [GraphSession.close, Act.exec_bind, Act.exec_theSession, if_neg (by simp [dormant.closed])]
    exact KeepsDormant.rest σ dormant
  | access a => exact .bind a.performTold_keepsDormant fun _ => .pure _
  | elsewhere f => exact fun σ => .same rfl rfl

/-! ## Closing -/

/-- A session that is closed remembers neither a result nor a transaction. -/
theorem close_forgets (isOpen : σ.session.closed = false) :
    (close peer.recorded).Ends σ fun _ τ =>
      τ.session.closed = true ∧ τ.session.autoResult = none ∧ τ.session.current = none := by
  have ended : (endCurrent peer.recorded).Ends σ fun _ τ => τ.session.current = none := by
    rw [endCurrent, Act.ends_bind, Act.ends_theSession]
    cases current : σ.session.current with
    | none => exact current
    | some t =>
      have rolledBack : (closeQuietly peer.recorded t).Within { concludes := True } :=
        closeQuietly_within trivial t
      rw [Act.ends_bind, Act.ends_changeSession]
      exact (rolledBack.ends _).imp fun _ _ course => (course.own fun n => n).2.1
  have consumed (τ : State (Recorded ω)) (current : τ.session.current = none) :
      (consumeAutoResult peer.recorded).Ends τ fun _ υ =>
        υ.session.autoResult = none ∧ υ.session.current = none := by
    rw [consumeAutoResult, Act.ends_bind, Act.ends_theSession]
    cases auto : τ.session.autoResult with
    | none => exact ⟨auto, current⟩
    | some r =>
      have dropped : (consume peer.recorded r).Within { drops := (· = r) } := consume_within rfl
      have own {υ : State (Recorded ω)} (course : Course { drops := (· = r) }
          { τ with session := { τ.session with autoResult := none } } υ) :
          υ.session.autoResult = none ∧ υ.session.current = none := by
        obtain ⟨auto', current', -⟩ := course.own fun n => n
        exact ⟨auto', current'.trans current⟩
      rw [Act.ends_bind, Act.ends_changeSession, Act.ends_bind, Act.ends_run]
      refine (dropped.ends _).imp (fun _ _ course => own course) fun fault υ course => ?_
      have forgotten := own course
      exact Act.ends_note fun _ => forgotten
  rw [close, Act.ends_bind, Act.ends_theSession, if_pos (by simp [isOpen]), Act.ends_bind]
  refine ended.imp fun _ τ current => ?_
  rw [Act.ends_bind]
  refine (consumed τ current).imp fun _ υ hυ => ?_
  have released : (endAllUnits peer.recorded).Within {} := endAllUnits_within
  rw [Act.ends_bind]
  refine (released.ends υ).imp fun _ φ course => ?_
  obtain ⟨auto, current, -⟩ := course.own fun n => n
  exact ⟨rfl, auto.trans hυ.1, current.trans hυ.2⟩

/-- A session that is closed between two operations is dormant. -/
theorem close_dormant (h : σ.Rests) (isOpen : σ.session.closed = false) :
    (close peer.recorded).Ends σ fun _ τ => τ.Dormant := by
  refine ((close_rests h).and (close_forgets isOpen)).imp fun _ τ hτ => ?_
  obtain ⟨⟨u, s, settled⟩, closed, forgotten, current⟩ := hτ
  have settled := settled.none_open current
  have bare : τ.Stands {} := by
    cases s with
    | none => exact settled.steady.bare
    | some r =>
      have auto := settled.auto r rfl rfl
      rw [forgotten] at auto
      cases auto
  refine ⟨closed, forgotten, fun r => ?_, fun t => bare.isTerminated (by simp)⟩
  cases streaming : (τ.session.result r).isStreaming with
  | false => rfl
  | true => cases (bare.streaming r).mp streaming

/-- Every operation leaves a session dormant if it is closed. -/
theorem Operation.after_dormant (h : σ.Rests) (dormant : σ.session.closed = true → σ.Dormant)
    (op : Operation ω) (closed : (op.after peer σ).session.closed = true) :
    (op.after peer σ).Dormant := by
  cases was : σ.session.closed with
  | true => exact (op.perform_keepsDormant σ (dormant was)).1
  | false =>
    have closes : op.closes := by
      by_contra closes
      rw [(op.after_path peer σ).retains.closed closes, was] at closed
      cases closed
    cases op with
    | close => exact close_dormant h was
    | _ => cases closes

/-- A session is closed after it was closed. -/
theorem close_closes (σ : State (Recorded ω)) :
    (close peer.recorded).Ends σ fun _ τ => τ.session.closed = true := by
  cases closed : σ.session.closed with
  | true =>
    rw [close, Act.ends_bind, Act.ends_theSession, if_neg (by simp [closed])]
    exact closed
  | false => exact (close_forgets closed).imp fun _ _ h => h.1

/-- Whatever is done next, a dormant session makes no call. -/
theorem keepsDormant_foldl (peer : Peer ω) (σ : State (Recorded ω)) (more : List (Operation ω)) :
    KeepsDormant σ (more.foldl (Operation.after peer) σ) := by
  induction more generalizing σ with
  | nil => exact .rest σ
  | cons op more ih => exact .andThen (op.perform_keepsDormant σ) (ih _)

theorem play_dormant (peer : Peer ω) (config : SessionConfig) (w : ω) (ops : List (Operation ω))
    (closed : (play peer config w ops).session.closed = true) :
    (play peer config w ops).Dormant := by
  let inv (σ : State (Recorded ω)) : Prop := σ.Rests ∧ (σ.session.closed = true → σ.Dormant)
  have kept : inv (play peer config w ops) :=
    play_keeps (fun w => ⟨(State.initial_stands config w).rests, fun e => by cases e⟩)
      (fun σ op h => ⟨(op.perform_rests h.1).1, op.after_dormant h.1 h.2⟩) w ops
  exact kept.2 closed

end GraphSession
