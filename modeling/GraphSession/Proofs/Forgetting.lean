import GraphSession.Proofs.Frame
import GraphSession.Proofs.CurrentTransaction

/-!
  Explicit transactions that are over and not yet forgotten.

  A session looks at its explicit transaction before it begins other work and when it is closed, and
  forgets it then if it is over.  Until then nothing that it does depends on whether it has done so
  already.  So a session that remembers such a transaction and one that does not agree ever after
  (`State.AgreesAfter`): whatever is done with both, they are answered the same, ask the same and
  change alike (`Operation.perform_agree`), and what is left between them at any time is that
  transaction.

  Actions that do not look at the explicit transaction commute with a change of it.  For those that
  do the crux is `Act.SkipsEnded`: from a session that remembers a transaction that is over they
  come to the very state that they reach from the session that has forgotten it, or they leave both
  as they are.
-/

namespace GraphSession

variable {ω α β : Type} {peer : Peer ω} {past past' : History}

/-! ## Actions that look at the explicit transaction -/

/-- The session remembers the explicit transaction that it did, or none. -/
def State.Forgets (σ τ : State (Recorded ω)) : Prop :=
  τ.session.current = σ.session.current ∨ τ.session.current = none

instance : IsFrame (State.Forgets (ω := ω)) where
  rest _ := .inl rfl
  andThen h h' := h'.elim (fun same => h.imp same.trans same.trans) .inr

/-- The action may look at the explicit transaction and forget it, but remembers no other and does
    not look at the past. -/
structure Act.Reaps (x : Act (Recorded ω) α) : Prop where
  commutes : ∀ past, x.CommutesWith id past
  forgets : x.Obeys State.Forgets

/-- As `Act.Reaps`, for an action that may fail. -/
def Op.Reaps (x : Op (Recorded ω) α) : Prop := Act.Reaps x.run

/-- What does not depend on the explicit transaction does not change it. -/
theorem Act.CommutesWith.current {x : Act (Recorded ω) α}
    (h : ∀ mask past, x.CommutesWith mask past) (σ : State (Recorded ω)) :
    (x.exec σ).2.session.current = σ.session.current := by
  -- the change to what is there anyway
  have same : σ.mapCurrent (fun _ => σ.session.current) [] = σ := by
    simp [State.mapCurrent, Session.mapCurrent, State.history]
  have here := h (fun _ => σ.session.current) [] σ
  rw [same] at here
  exact congrArg (fun ended => ended.2.session.current) here

namespace Act.Reaps

theorem of_commutes {x : Act (Recorded ω) α} (h : ∀ mask past, x.CommutesWith mask past) :
    x.Reaps :=
  ⟨h id, fun σ => .inl (Act.CommutesWith.current h σ)⟩

theorem bind {x : Act (Recorded ω) β} {f : β → Act (Recorded ω) α} (hx : x.Reaps)
    (hf : ∀ b, (f b).Reaps) : (x >>= f).Reaps where
  commutes past := .bind (hx.commutes past) fun b => (hf b).commutes past
  forgets := .bind hx.forgets fun b => (hf b).forgets

/-- The session is looked at. -/
theorem read {f : Session → Act (Recorded ω) α} (hf : ∀ s, (f s).Reaps) :
    (theSession >>= f).Reaps where
  commutes past := .read (fun _ => rfl) fun s => (hf s).commutes past
  forgets := .bind .theSession fun s => (hf s).forgets

/-- The explicit transaction is forgotten. -/
theorem forget : Act.Reaps (ω := ω) (changeSession ({ · with current := none })) where
  commutes _ := .changeSession fun _ => rfl
  forgets _ := .inr rfl

end Act.Reaps

namespace Op.Reaps

theorem of_commutes {x : Op (Recorded ω) α} (h : ∀ mask past, x.CommutesWith mask past) :
    x.Reaps :=
  Act.Reaps.of_commutes h

theorem bind {x : Op (Recorded ω) β} {f : β → Op (Recorded ω) α} (hx : x.Reaps)
    (hf : ∀ b, (f b).Reaps) : (x >>= f).Reaps where
  commutes past := Op.CommutesWith.bind (hx.commutes past) fun b => (hf b).commutes past
  forgets := Op.Obeys.bind hx.forgets fun b => (hf b).forgets

theorem lift {x : Act (Recorded ω) α} (hx : x.Reaps) :
    Op.Reaps (liftM x : Op (Recorded ω) α) where
  commutes past := Op.CommutesWith.lift (hx.commutes past)
  forgets := hx.forgets

/-- The session is looked at. -/
theorem read {f : Session → Op (Recorded ω) α} (hf : ∀ s, (f s).Reaps) :
    (theSession >>= f).Reaps :=
  Act.Reaps.read hf

end Op.Reaps

theorem reapTransaction_reaps : (reapTransaction peer.recorded).Reaps := by
  refine .read fun s => ?_
  dsimp only
  split
  · exact .of_commutes fun _ _ => .pure ()
  · next id _ =>
    split
    · exact .of_commutes fun _ _ => .throw _
    · have forgotten : Op.Reaps (ω := ω) (changeSession ({ · with current := none })) :=
        .lift .forget
      refine .bind forgotten fun _ => .of_commutes fun _ _ => ?_
      split
      · exact .bind (.lift (.note _)) fun _ => .lift (closeQuietly_commutes id)
      · exact .pure ()

theorem endCurrent_reaps : (endCurrent peer.recorded).Reaps := by
  refine .read fun s => ?_
  split
  · exact .of_commutes fun _ _ => .pure ()
  · exact .bind .forget fun _ => .of_commutes fun _ _ => closeQuietly_commutes _

theorem prepareExecute_reaps : (prepareExecute peer.recorded).Reaps :=
  .bind (.of_commutes fun _ _ => checkOpen_commutes) fun _ =>
    .bind reapTransaction_reaps fun _ => .of_commutes fun _ _ => bufferAutoResult_commutes

theorem run_reaps (source : QuerySource) (params : Option Params) :
    (run peer.recorded source params).Reaps := by
  refine .bind (.of_commutes fun _ _ => .settleOn _) fun query =>
    .bind (.of_commutes fun _ _ => checkOpen_commutes) fun _ =>
      .bind reapTransaction_reaps fun _ => .of_commutes fun mask past => ?_
  have prepared (mode : AccessMode) (o : Overrides) : Op.CommutesWith mask past (do
      bufferAutoResult peer.recorded
      let database ← connect peer.recorded mode .autoCommit o
      let bookmarks ← bookmarksForWork peer.recorded
      return (database, bookmarks)) :=
    .bind bufferAutoResult_commutes fun _ => .bind (connect_commutes mode .autoCommit o) fun _ =>
      .bind bookmarksForWork_commutes fun _ => .pure _
  refine .bind (.settleOn _) fun o => .read (fun _ => rfl) fun s =>
    .bind (.changeSession fun _ => rfl) fun _ => .bind (.attempt (prepared _ o)) fun outcome => ?_
  cases outcome with
  | error fault => exact .bind (.lift endUnit_commutes) fun _ => .throw fault
  | ok prepared =>
    exact .bind (startResult_commutes _ _) fun _ => .bind (.changeSession fun _ => rfl) fun _ =>
      .pure _

theorem executeWith_reaps (options : ExecuteOptions) (patience : Nat)
    (work : TransactionFunction ω α) :
    (executeWith peer.recorded options patience (TransactionFunction.recorded work)).Reaps := by
  refine .bind prepareExecute_reaps fun prepared => .of_commutes fun mask past => ?_
  cases prepared with
  | error fault => exact .pure _
  | ok _ =>
    exact .bind (.ask .readClock) fun now => .read (fun _ => rfl) fun _ =>
      attemptFrom_commutes options work patience 0 _

theorem Blocking.execute_reaps (mode : AccessMode) (config : TransactionConfig) (patience : Nat)
    (work : TransactionFunction ω α) :
    (Blocking.execute peer.recorded mode config patience
      (TransactionFunction.recorded work)).Reaps := by
  have begun : (Blocking.begin (α := α) peer.recorded).Reaps := by
    refine .bind prepareExecute_reaps fun prepared => .of_commutes fun mask past => ?_
    cases prepared with
    | error fault => exact .pure _
    | ok _ => exact .bind (.ask .readClock) fun now => .read (fun _ => rfl) fun _ => .pure _
  exact .bind begun fun start => .of_commutes fun _ _ =>
    .bind (Blocking.drive_commutes _ work patience start) fun _ => .pure _

theorem close_reaps : (close peer.recorded).Reaps := by
  refine .read fun s => ?_
  split
  · exact .bind endCurrent_reaps fun _ => .of_commutes fun _ _ =>
      .bind consumeAutoResult_commutes fun _ => .bind endAllUnits_commutes fun _ =>
        .bind (.changeSession fun _ => rfl) fun _ => .note _
  · exact .of_commutes fun _ _ => .pure ()

/-! ## Operations -/

/-- An operation that does not look at the explicit transaction. -/
def Operation.IgnoresCurrent : Operation ω → Prop
  | lastBookmarks | lastBookmark | serverInfo | access _ | elsewhere _ => True
  | run .. | beginTransaction _ | execute .. | executeRenamed .. | executeQuery ..
  | executeBlocking .. | close => False

theorem concluded_commutes {mask : Option TransactionId → Option TransactionId}
    {op : Op (Recorded ω) α} (h : op.CommutesWith mask past) :
    (concluded op).CommutesWith mask past :=
  .bind h fun _ => .pure _

theorem Operation.IgnoresCurrent.commutes {op : Operation ω} (h : op.IgnoresCurrent)
    (mask : Option TransactionId → Option TransactionId) (past : History) :
    (op.perform peer).CommutesWith mask past := by
  cases op with
  | lastBookmarks => exact concluded_commutes lastBookmarks_commutes
  | lastBookmark => exact concluded_commutes lastBookmark_commutes
  | serverInfo => exact concluded_commutes serverInfo_commutes
  | access a => exact .bind a.performTold_commutes fun _ => .pure _
  | elsewhere f => exact fun _ => rfl
  | _ => exact h.elim

theorem concluded_reaps {op : Op (Recorded ω) α} (h : op.Reaps) : (concluded op).Reaps :=
  Act.Reaps.bind h fun _ => .of_commutes fun _ _ => .pure _

/-- Only a call that begins a transaction gives the session another one to remember. -/
theorem Operation.reaps (op : Operation ω) (h : ∀ config, op ≠ .beginTransaction config) :
    (op.perform peer).Reaps := by
  cases op with
  | run source params => exact concluded_reaps (run_reaps source params)
  | beginTransaction config => exact absurd rfl (h config)
  | execute mode config patience work => exact executeWith_reaps _ patience work
  | executeRenamed mode patience work =>
    exact .bind (.of_commutes fun _ _ => .note _) fun _ => executeWith_reaps _ patience work
  | executeQuery source params mode patience =>
    rw [perform, executeQueryWith]
    cases Query.ofSource source with
    | error fault => exact .of_commutes fun _ _ => .pure _
    | ok query => exact executeWith_reaps _ patience _
  | executeBlocking mode config patience work =>
    exact Blocking.execute_reaps mode config patience work
  | close => exact concluded_reaps (.lift close_reaps)
  | lastBookmarks | lastBookmark | serverInfo | access | elsewhere =>
    exact .of_commutes (Operation.IgnoresCurrent.commutes trivial)

theorem beginTransaction_commutes (config : TransactionConfig) :
    (beginTransaction peer.recorded config).CommutesWith id past := by
  refine .bind checkOpen_commutes fun _ => .bind (reapTransaction_reaps.commutes past) fun _ =>
    .read (fun _ => rfl) fun s => ?_
  dsimp only
  split
  · exact .throw _
  · exact .bind (openTransaction_commutes _ _ _ _) fun _ =>
      .bind (.changeSession fun _ => rfl) fun _ => .pure _

/-- No operation looks at the past. -/
theorem Operation.commutes (op : Operation ω) (past : History) :
    (op.perform peer).CommutesWith id past := by
  cases op with
  | beginTransaction config => exact concluded_commutes (beginTransaction_commutes config)
  | _ => exact (Operation.reaps _ fun _ e => by cases e).commutes past

/-! ## What the session remembers was given out -/

/-- An action that can only end well in one way, whatever came before it. -/
theorem Op.ends_lastly {x : Op ω β} {f : β → Op ω α} {σ : State ω} {good : α → State ω → Prop}
    (hf : ∀ b τ, (f b).Ends τ good fun _ _ => True) : (x >>= f).Ends σ good fun _ _ => True :=
  Op.ends_bind.mpr ((Op.ends_trivial x σ).imp (fun b τ _ => hf b τ) fun _ _ _ => trivial)

theorem openTransaction_given (peer : Peer ω) (mode : AccessMode) (api : ApiKind)
    (config : TransactionConfig) (holder : Holder) (σ : State ω) :
    (openTransaction peer mode api config holder).Ends σ
      (fun t τ => t < τ.session.transactions.length) fun _ _ => True := by
  refine Op.ends_lastly fun _ _ => Op.ends_lastly fun prepared _ => ?_
  cases prepared with
  | error fault => exact Op.ends_failAfter.mpr trivial
  | ok prepared =>
    refine Op.ends_lastly fun s _ => Op.ends_lastly fun begun _ => ?_
    cases begun with
    | error fault => exact Op.ends_failAfter.mpr trivial
    | ok named =>
      refine Op.ends_lastly fun _ τ => Op.ends_addTransaction.mpr ?_
      simp [Session.nextTransaction]

/-- The explicit transaction that the session remembers was given out. -/
def State.Knows (σ : State ω) : Prop :=
  ∀ t, σ.session.current = some t → t < σ.session.transactions.length

/-- Transactions that were given out stay so. -/
theorem given_kept (peer : Peer ω) (n : Nat) :
    Kept peer fun σ : State (Recorded ω) => n ≤ σ.session.transactions.length :=
  .of_courses (fun h course => Nat.le_trans h course.keeps.lasts.given) (fun _ _ _ h => h)
    fun _ _ h => h

/-- A transaction that is over stays so. -/
theorem over_kept (peer : Peer ω) (t : TransactionId) : Kept peer fun σ : State (Recorded ω) =>
    t < σ.session.transactions.length ∧ (σ.session.transaction t).state.isTerminated = true := by
  refine .of_courses (fun h course => ?_) (fun _ _ _ h => h) fun _ _ h => h
  have lasts := course.keeps.lasts
  have same := (lasts.leadsTo t h.1).eq_of_terminated h.2
  exact ⟨Nat.lt_of_lt_of_le h.1 lasts.given, same ▸ h.2⟩

/-- A transaction that a call begins is the one that the session remembers; a call that fails gives
    it none. -/
theorem beginTransaction_remembers (config : TransactionConfig) (σ : State (Recorded ω)) :
    (beginTransaction peer.recorded config).Ends σ (fun _ τ => τ.Knows) fun _ τ => σ.Forgets τ := by
  have checked : Op.Reaps (ω := ω) checkOpen := .of_commutes fun _ _ => checkOpen_commutes
  have opening (mode : AccessMode) :
      (openTransaction peer.recorded mode .explicitTransaction config .caller).Reaps :=
    .of_commutes fun _ _ => openTransaction_commutes _ _ _ _
  rw [beginTransaction, Op.ends_bind]
  refine (Op.Obeys.ends checked.forgets σ).imp (fun _ τ path => ?_) fun _ _ path => path
  rw [Op.ends_bind]
  refine (Op.ends_after path (reapTransaction_reaps.forgets τ)).imp (fun _ υ path => ?_)
    fun _ _ path => path
  rw [Op.ends_bind, Op.ends_theSession]
  dsimp only
  split
  · exact path
  · rw [Op.ends_bind]
    refine ((Op.ends_after path ((opening _).forgets υ)).and
      (openTransaction_given _ _ _ _ _ υ)).imp (fun t φ h => ?_) fun _ _ h => h.1
    rw [Op.ends_bind, Op.ends_changeSession]
    intro t' same
    exact Option.some.inj same ▸ h.2

theorem State.Knows.forget {σ τ : State (Recorded ω)} (h : σ.Knows) (forgets : σ.Forgets τ)
    (given : σ.session.transactions.length ≤ τ.session.transactions.length) : τ.Knows := by
  intro t current
  rcases forgets with same | none
  · exact Nat.lt_of_lt_of_le (h t (same.symm.trans current)) given
  · cases none.symm.trans current

theorem Operation.knows {σ : State (Recorded ω)} (h : σ.Knows) (op : Operation ω) :
    (op.after peer σ).Knows := by
  have given := given_kept peer σ.session.transactions.length
  by_cases begins : ∃ config, op = .beginTransaction config
  · obtain ⟨config, rfl⟩ := begins
    have within : (GraphSession.beginTransaction peer.recorded config).Within .working :=
      beginTransaction_within trivial trivial trivial config
    exact Op.Ends.state (((beginTransaction_remembers config σ).and
      (given.op within (Nat.le_refl _))).imp (fun _ _ h' => h'.1)
        fun _ _ h' => h.forget h'.1 h'.2)
  · exact h.forget ((op.reaps fun config e => begins ⟨config, e⟩).forgets σ)
      (given.operation (Nat.le_refl _) op)

theorem play_knows (peer : Peer ω) (config : SessionConfig) (w : ω) (ops : List (Operation ω)) :
    (play peer config w ops).Knows := by
  have start (w : ω) : (State.initial config w).Knows := fun _ current => by cases current
  have step (σ : State (Recorded ω)) (op : Operation ω) (h : σ.Knows) :
      (op.after peer σ).Knows := Operation.knows h op
  exact play_keeps start step w ops

/-! ## A transaction that is over -/

/-- The session remembers an explicit transaction that is over. -/
def Session.IsStale (s : Session) : Prop :=
  ∃ t < s.transactions.length, s.current = some t ∧ (s.transaction t).state.isTerminated = true

/-- The state of a session that has forgotten its explicit transaction. -/
def State.forgetful (σ : State ω) : State ω :=
  { σ with session := { σ.session with current := none } }

/-- An operation that does not look at a transaction that is over leaves it. -/
theorem Operation.stays_stale {op : Operation ω} (ignores : op.IgnoresCurrent)
    {σ : State (Recorded ω)} (h : σ.session.IsStale) : (op.after peer σ).session.IsStale := by
  obtain ⟨t, given, current, ended⟩ := h
  obtain ⟨given, ended⟩ := (over_kept peer t).operation ⟨given, ended⟩ op
  exact ⟨t, given, (Act.CommutesWith.current ignores.commutes σ).trans current, ended⟩

/-! ## Actions that look, where the transaction is over -/

/-- From a session that remembers a transaction that is over the action comes to the same as from
    one that has forgotten it, or it fails at once. -/
def Op.SkipsEnded (x : Op ω α) : Prop :=
  ∀ σ, σ.session.IsStale → x.exec σ.forgetful = x.exec σ ∨
    ∃ fault, x.exec σ = (.error fault, σ) ∧ x.exec σ.forgetful = (.error fault, σ.forgetful)

/-- As `Op.SkipsEnded`, or it leaves the session. -/
def Act.SkipsEnded (x : Act ω α) : Prop :=
  ∀ σ, σ.session.IsStale → x.exec σ.forgetful = x.exec σ ∨
    (x.exec σ).2.session = σ.session ∧
      x.exec σ.forgetful = ((x.exec σ).1, (x.exec σ).2.forgetful)

theorem Op.exec_checkOpen (σ : State ω) : Op.exec (checkOpen : Op ω Unit) σ =
    if σ.session.closed then (.error .sessionClosed, σ) else (.ok (), σ) := by
  rw [checkOpen, Op.exec_bind, Op.exec_theSession]
  dsimp only
  split <;> rfl

theorem exec_reapTransaction_none {σ : State ω} (h : σ.session.current = none) :
    (reapTransaction peer).exec σ = (.ok (), σ) := by
  rw [reapTransaction, Op.exec_bind, Op.exec_theSession]
  dsimp only
  rw [h]
  rfl

theorem exec_reapTransaction_over {σ : State ω} {t : TransactionId}
    (current : σ.session.current = some t)
    (ended : (σ.session.transaction t).state.isTerminated = true) :
    (reapTransaction peer).exec σ = (.ok (), σ.forgetful) := by
  rw [reapTransaction, Op.exec_bind, Op.exec_theSession]
  dsimp only
  rw [current]
  dsimp only
  rw [ended]
  rfl

namespace Op.SkipsEnded

theorem settleThen {outcome : Except Fault β} {f : β → Op ω α} (hf : ∀ b, (f b).SkipsEnded) :
    (settleOn outcome >>= f).SkipsEnded := by
  cases outcome with
  | error fault => exact fun σ _ => .inr ⟨fault, rfl, rfl⟩
  | ok b => exact hf b

theorem checkThen {f : Unit → Op ω α} (hf : (f ()).SkipsEnded) : (checkOpen >>= f).SkipsEnded := by
  intro σ stale
  rw [Op.exec_bind, Op.exec_bind, Op.exec_checkOpen, Op.exec_checkOpen]
  cases closed : σ.session.closed with
  | true => exact .inr ⟨.sessionClosed, rfl, by simp [State.forgetful, closed]⟩
  | false =>
    have same : σ.forgetful.session.closed = false := closed
    rw [same]
    exact hf σ stale

theorem reapThen {f : Unit → Op ω α} : (reapTransaction peer >>= f).SkipsEnded := by
  rintro σ ⟨t, -, current, ended⟩
  left
  rw [Op.exec_bind, Op.exec_bind, exec_reapTransaction_over current ended,
    exec_reapTransaction_none (σ := σ.forgetful) rfl]

end Op.SkipsEnded

/-- What follows where an action comes to the same. -/
theorem Act.exec_bind_congr {x : Act ω β} {f : β → Act ω α} {σ τ : State ω}
    (h : x.exec σ = x.exec τ) : (x >>= f).exec σ = (x >>= f).exec τ := by
  rw [Act.exec_bind, Act.exec_bind, h]

namespace Act.SkipsEnded

/-- What follows an action that may fail, where nothing follows its failure. -/
theorem runThen {x : Op ω β} {f : Except Fault β → Act ω α} (hx : x.SkipsEnded)
    (hf : ∀ fault, ∃ a, f (.error fault) = pure a) : (x.run >>= f).SkipsEnded := by
  intro σ stale
  rcases hx σ stale with same | ⟨fault, left, right⟩
  · exact .inl (Act.exec_bind_congr same)
  · right
    obtain ⟨a, ends⟩ := hf fault
    simp only [Act.exec_bind, Act.exec_run, left, right, ends, Act.exec_pure, and_self]

theorem andTell {x : Act ω β} (f : β → α) (hx : x.SkipsEnded) :
    (x >>= fun b => pure (f b)).SkipsEnded := by
  intro σ stale
  rcases hx σ stale with same | ⟨kept, same⟩
  · exact .inl (Act.exec_bind_congr same)
  · right
    rw [Act.exec_bind, Act.exec_bind, same]
    exact ⟨kept, rfl⟩

theorem noteThen {event : Event} {f : Unit → Act ω α} (hf : (f ()).SkipsEnded) :
    (note peer event >>= f).SkipsEnded :=
  fun σ stale => hf { σ with world := (peer.answer (.note event) σ.world).2 } stale

end Act.SkipsEnded

theorem prepareExecute_skipsEnded : (prepareExecute peer).SkipsEnded := .checkThen .reapThen

theorem executeWith_skipsEnded (options : ExecuteOptions) (patience : Nat)
    (work : TransactionFunction ω α) : (executeWith peer options patience work).SkipsEnded :=
  .runThen prepareExecute_skipsEnded fun _ => ⟨_, rfl⟩

/-- A series that is over before its first attempt stays so. -/
theorem Blocking.exec_execute_refused {mode : AccessMode} {config : TransactionConfig}
    {patience : Nat} {work : TransactionFunction ω α} {fault : Fault} {σ τ : State ω}
    (h : (prepareExecute peer).exec σ = (.error fault, τ)) :
    (Blocking.execute peer mode config patience work).exec σ = (some (.error fault), τ) := by
  have begun : (Blocking.begin (α := α) peer).exec σ = (.finished (.error fault), τ) := by
    rw [Blocking.begin, Act.exec_bind, Act.exec_run, h]
    rfl
  rw [Blocking.execute, Act.exec_bind, begun]
  cases patience <;> rfl

theorem Blocking.execute_skipsEnded (mode : AccessMode) (config : TransactionConfig)
    (patience : Nat) (work : TransactionFunction ω α) :
    (Blocking.execute peer mode config patience work).SkipsEnded := by
  intro σ stale
  rcases prepareExecute_skipsEnded σ stale with same | ⟨fault, left, right⟩
  · have begun : (Blocking.begin (α := α) peer).exec σ.forgetful =
        (Blocking.begin (α := α) peer).exec σ := Act.exec_bind_congr same
    exact .inl (Act.exec_bind_congr begun)
  · rw [Blocking.exec_execute_refused left, Blocking.exec_execute_refused right]
    exact .inr ⟨rfl, rfl⟩

theorem exec_closeQuietly_over {σ : State ω} {t : TransactionId}
    (ended : (σ.session.transaction t).state.isTerminated = true) :
    (closeQuietly peer t).exec σ = ((), σ) := by
  have closed : (closeTransaction peer t).exec σ = (.ok (), σ) := by
    rw [closeTransaction, Op.exec_bind, Op.exec_theSession]
    dsimp only
    rw [ended]
    rfl
  rw [closeQuietly, Act.exec_bind, Act.exec_run, closed]
  rfl

theorem exec_endCurrent_over {σ : State ω} {t : TransactionId}
    (current : σ.session.current = some t)
    (ended : (σ.session.transaction t).state.isTerminated = true) :
    (endCurrent peer).exec σ = ((), σ.forgetful) := by
  rw [endCurrent, Act.exec_bind, Act.exec_theSession]
  dsimp only
  rw [current]
  exact exec_closeQuietly_over (σ := σ.forgetful) ended

theorem close_skipsEnded : (close peer).SkipsEnded := by
  intro σ stale
  obtain ⟨t, -, current, ended⟩ := stale
  have alike : (endCurrent peer).exec σ.forgetful = (endCurrent peer).exec σ := by
    rw [exec_endCurrent_over current ended]
    rfl
  have same : σ.forgetful.session.closed = σ.session.closed := rfl
  rw [close, Act.exec_bind, Act.exec_bind, Act.exec_theSession, Act.exec_theSession]
  dsimp only
  rw [same]
  cases σ.session.closed with
  | true => exact .inr ⟨rfl, rfl⟩
  | false => exact .inl (Act.exec_bind_congr alike)

theorem Operation.skipsEnded (op : Operation ω) (peer : Peer ω) (h : ¬ op.IgnoresCurrent) :
    (op.perform peer).SkipsEnded := by
  cases op with
  | run source params =>
    exact .runThen (.settleThen fun _ => .checkThen .reapThen) fun _ => ⟨_, rfl⟩
  | beginTransaction config => exact .runThen (.checkThen .reapThen) fun _ => ⟨_, rfl⟩
  | execute mode config patience work => exact executeWith_skipsEnded _ patience _
  | executeRenamed mode patience work => exact .noteThen (executeWith_skipsEnded _ patience _)
  | executeQuery source params mode patience =>
    rw [perform, executeQueryWith]
    cases Query.ofSource source with
    | error fault => exact fun σ _ => .inr ⟨rfl, rfl⟩
    | ok query => exact executeWith_skipsEnded _ patience _
  | executeBlocking mode config patience work =>
    exact Blocking.execute_skipsEnded mode config patience _
  | close => exact .andTell (fun _ => some (Except.ok ())) close_skipsEnded
  | lastBookmarks | lastBookmark | serverInfo | access | elsewhere => exact absurd trivial h

/-! ## Agreement -/

/-- What happened after `past` and after `past'` is the same, and has led to the same; but the
    second session may have forgotten an explicit transaction that is over. -/
def State.AgreesAfter (past past' : History) (σ τ : State (Recorded ω)) : Prop :=
  ∃ ρ : State (Recorded ω), σ = ρ.mapCurrent id past ∧
    (τ = ρ.mapCurrent id past' ∨ ρ.session.IsStale ∧ τ = ρ.forgetful.mapCurrent id past')

/-- Sessions that agree are answered the same, and agree after the operation. -/
theorem Operation.perform_agree (op : Operation ω) {σ τ : State (Recorded ω)}
    (h : State.AgreesAfter past past' σ τ) :
    ((op.perform peer).exec τ).1 = ((op.perform peer).exec σ).1 ∧
      State.AgreesAfter past past' (op.after peer σ) (op.after peer τ) := by
  obtain ⟨ρ, rfl, rfl | ⟨stale, rfl⟩⟩ := h
  -- nothing was forgotten: only the past differs, and no operation looks at it
  · unfold Operation.after
    rw [op.commutes past ρ, op.commutes past' ρ]
    exact ⟨rfl, _, rfl, .inl rfl⟩
  · unfold Operation.after
    by_cases ignores : op.IgnoresCurrent
    -- the operation does not look: what one session remembers stays, and stays over
    · have same : (op.perform peer).exec (ρ.forgetful.mapCurrent id past') =
          (((op.perform peer).exec ρ).1,
            ((op.perform peer).exec ρ).2.forgetful.mapCurrent id past') :=
        ignores.commutes (fun _ => none) past' ρ
      rw [op.commutes past ρ, same]
      exact ⟨rfl, _, rfl, .inr ⟨op.stays_stale ignores stale, rfl⟩⟩
    -- it looks: both come to the same state, or neither session changes
    · rw [op.commutes past ρ, op.commutes past' ρ.forgetful]
      rcases op.skipsEnded peer ignores ρ stale with same | ⟨kept, same⟩
      · rw [same]
        exact ⟨rfl, _, rfl, .inl rfl⟩
      · rw [same]
        exact ⟨rfl, _, rfl, .inr ⟨kept ▸ stale, rfl⟩⟩

/-- Sessions that agree do so after every sequence of operations. -/
theorem State.AgreesAfter.play {σ τ : State (Recorded ω)} (h : State.AgreesAfter past past' σ τ)
    (ops : List (Operation ω)) :
    State.AgreesAfter past past' (ops.foldl (Operation.after peer) σ)
      (ops.foldl (Operation.after peer) τ) := by
  induction ops generalizing σ τ with
  | nil => exact h
  | cons op rest ih => exact ih (op.perform_agree h).2

end GraphSession
