import GraphSession.Proofs.Independence

/-!
  What the actions of a session do not depend on.

  No action looks at the history, and only those that begin work or end the session look at which
  transaction the session takes for its explicit one.  `State.mapCurrent mask past` is a state with
  more in its past and another explicit transaction.  An action commutes with that
  (`Act.CommutesWith`) when it has the same outcome from the changed state, and ends in the changed
  end.

  The rules of this module follow the text of an action.  Where `mask` is the identity, only the
  past is longer, and every action commutes with that.
-/

namespace GraphSession

variable {ω α β : Type} {mask : Option TransactionId → Option TransactionId} {past : History}

/-! ## Another explicit transaction and a longer past -/

/-- The session with another explicit transaction. -/
def Session.mapCurrent (mask : Option TransactionId → Option TransactionId) (s : Session) :
    Session :=
  { s with current := mask s.current }

/-- The state with another explicit transaction, and with more in its past. -/
def State.mapCurrent (mask : Option TransactionId → Option TransactionId) (past : History)
    (σ : State (Recorded ω)) : State (Recorded ω) :=
  { session := σ.session.mapCurrent mask, world := ⟨σ.world.world, σ.history ++ past⟩ }

/-- From the changed state the action has the same outcome, and ends in the changed end. -/
def Act.CommutesWith (mask : Option TransactionId → Option TransactionId) (past : History)
    (x : Act (Recorded ω) α) : Prop :=
  ∀ σ, x.exec (σ.mapCurrent mask past) = ((x.exec σ).1, (x.exec σ).2.mapCurrent mask past)

/-- As `Act.CommutesWith`, for an action that may fail. -/
def Op.CommutesWith (mask : Option TransactionId → Option TransactionId) (past : History)
    (x : Op (Recorded ω) α) : Prop :=
  Act.CommutesWith mask past x.run

/-! ## Actions that always succeed -/

namespace Act.CommutesWith

theorem pure (a : α) : Act.CommutesWith (ω := ω) mask past (Pure.pure a) := fun _ => rfl

theorem bind {x : Act (Recorded ω) β} {f : β → Act (Recorded ω) α} (hx : x.CommutesWith mask past)
    (hf : ∀ b, (f b).CommutesWith mask past) : (x >>= f).CommutesWith mask past := by
  intro σ
  rw [Act.exec_bind, Act.exec_bind, hx σ]
  exact hf _ _

theorem run {x : Op (Recorded ω) α} (hx : x.CommutesWith mask past) :
    Act.CommutesWith mask past x.run := hx

/-- The session is looked at, and the veil does not matter. -/
theorem read {f : Session → Act (Recorded ω) α} (seen : ∀ s, f (s.mapCurrent mask) = f s)
    (hf : ∀ s, (f s).CommutesWith mask past) :
    (GraphSession.theSession >>= f).CommutesWith mask past := by
  intro σ
  show (f (σ.session.mapCurrent mask)).exec (σ.mapCurrent mask past) = _
  rw [seen]
  exact hf σ.session σ

theorem changeSession {f : Session → Session}
    (h : ∀ s, f (s.mapCurrent mask) = (f s).mapCurrent mask) :
    Act.CommutesWith (ω := ω) mask past (GraphSession.changeSession f) := by
  intro σ
  have changed : { σ.mapCurrent mask past with session := f (σ.session.mapCurrent mask) } =
      State.mapCurrent mask past { σ with session := f σ.session } := by
    rw [h]
    rfl
  exact congrArg (Prod.mk ()) changed

theorem ask {peer : Peer ω} (request : Request) :
    (GraphSession.ask peer.recorded request).CommutesWith mask past := fun _ => rfl

theorem note {peer : Peer ω} (event : Event) :
    (GraphSession.note peer.recorded event).CommutesWith mask past := fun _ => rfl

end Act.CommutesWith

/-! ## Actions that may fail -/

namespace Op.CommutesWith

theorem pure (a : α) : Op.CommutesWith (ω := ω) mask past (Pure.pure a) := fun _ => rfl

theorem throw (fault : Fault) :
    Op.CommutesWith (ω := ω) (α := α) mask past (MonadExcept.throw fault) := fun _ => rfl

theorem settleOn (outcome : Except Fault α) :
    Op.CommutesWith (ω := ω) mask past (GraphSession.settleOn outcome) := fun _ => rfl

theorem failIf (fault : Option Fault) :
    Op.CommutesWith (ω := ω) mask past (GraphSession.failIf fault) := by
  cases fault with
  | none => exact pure ()
  | some fault => exact throw fault

theorem bind {x : Op (Recorded ω) β} {f : β → Op (Recorded ω) α} (hx : x.CommutesWith mask past)
    (hf : ∀ b, (f b).CommutesWith mask past) : (x >>= f).CommutesWith mask past := by
  have follows (outcome : Except Fault β) :
      Act.CommutesWith mask past (ExceptT.bindCont f outcome) := by
    cases outcome with
    | ok b => exact hf b
    | error fault => exact throw fault
  exact Act.CommutesWith.bind hx follows

theorem lift {x : Act (Recorded ω) α} (hx : x.CommutesWith mask past) :
    Op.CommutesWith mask past (liftM x : Op (Recorded ω) α) := by
  intro σ
  rw [Act.exec_run, Act.exec_run, Op.exec_lift, Op.exec_lift, hx σ]

theorem attempt {x : Op (Recorded ω) α} (hx : x.CommutesWith mask past) :
    (GraphSession.attempt x).CommutesWith mask past := by
  intro σ
  have here := hx σ
  rw [Act.exec_run, Act.exec_run] at here
  rw [Act.exec_run, Act.exec_run, Op.exec_attempt, Op.exec_attempt, here]

/-- The session is looked at, and the veil does not matter. -/
theorem read {f : Session → Op (Recorded ω) α} (seen : ∀ s, f (s.mapCurrent mask) = f s)
    (hf : ∀ s, (f s).CommutesWith mask past) :
    (GraphSession.theSession >>= f).CommutesWith mask past :=
  Act.CommutesWith.read seen hf

theorem changeSession {f : Session → Session}
    (h : ∀ s, f (s.mapCurrent mask) = (f s).mapCurrent mask) :
    Op.CommutesWith (ω := ω) mask past (GraphSession.changeSession f) :=
  .lift (.changeSession h)

/-- The same action for one result after the other. -/
theorem forM {f : ResultId → Op (Recorded ω) Unit} (h : ∀ id, (f id).CommutesWith mask past)
    (ids : List ResultId) : (ids.forM f).CommutesWith mask past := by
  induction ids with
  | nil => exact pure ()
  | cons id rest ih => exact bind (h id) fun _ => ih

theorem addResult (r : Result) :
    Op.CommutesWith (ω := ω) mask past (GraphSession.addResult r) := fun _ => rfl

theorem addTransaction (v : Transaction) :
    Op.CommutesWith (ω := ω) mask past (GraphSession.addTransaction v) := fun _ => rfl

/-- The history goes on. -/
theorem log (e : Happening) :
    Op.CommutesWith mask past (modify fun σ : State (Recorded ω) =>
      { σ with world := σ.world.add e }) := fun _ => rfl

/-- The surroundings change by themselves. -/
theorem drift (f : ω → ω) :
    Op.CommutesWith mask past (modify fun σ : State (Recorded ω) =>
      { σ with world := { σ.world with world := f σ.world.world } }) := fun _ => rfl

/-- An outcome of the action is its outcome from the changed state. -/
theorem meet {x : Op (Recorded ω) α} (h : x.CommutesWith mask past) {σ τ : State (Recorded ω)}
    {outcome : Except Fault α} (e : x.exec σ = (outcome, τ)) :
    x.exec (σ.mapCurrent mask past) = (outcome, τ.mapCurrent mask past) := by
  have here := h σ
  rwa [Act.exec_run, Act.exec_run, e] at here

end Op.CommutesWith

section Actions

variable {peer : Peer ω}

/-! ## Requests -/

theorem sendHeld_commutes (sender : Sender) (m : Message) :
    (sendHeld peer.recorded sender m).CommutesWith mask past := by
  refine .read (fun _ => rfl) fun s => ?_
  cases s.connection with
  | none => exact .throw .noConnection
  | some c => exact .ask (.send c sender m)

/-! ## Units of work -/

theorem releaseConnection_commutes :
    (releaseConnection peer.recorded).CommutesWith mask past := by
  refine .read (fun _ => rfl) fun s => ?_
  cases s.connection with
  | none => exact .pure ()
  | some c =>
    exact .bind (.changeSession fun _ => rfl) fun _ => .bind (.ask (.release c)) fun _ => .note _

theorem endUnit_commutes : (endUnit peer.recorded).CommutesWith mask past := by
  refine .bind (.changeSession fun _ => rfl) fun _ => .read (fun _ => rfl) fun s => ?_
  split
  · exact releaseConnection_commutes
  · exact .pure ()

theorem abortUnit_commutes : (abortUnit peer.recorded).CommutesWith mask past := by
  refine .read (fun _ => rfl) fun s => ?_
  cases s.connection with
  | none => exact endUnit_commutes
  | some c =>
    have reset : (send peer.recorded c .session .reset).CommutesWith mask past := .ask _
    refine .bind (.run reset) fun outcome => ?_
    cases outcome with
    | ok _ => exact endUnit_commutes
    | error fault => exact .bind (.note _) fun _ => endUnit_commutes

theorem endAllUnits_commutes : (endAllUnits peer.recorded).CommutesWith mask past :=
  .bind (.changeSession fun _ => rfl) fun _ => releaseConnection_commutes

/-! ## Bookmarks -/

theorem bookmarksForWork_commutes : (bookmarksForWork peer.recorded).CommutesWith mask past := by
  refine .read (fun _ => rfl) fun s => ?_
  split
  · exact .bind (.ask .getBookmarks) fun _ => .pure _
  · exact .pure _

theorem takeBookmark?_commutes (sent : Bookmarks) (token : Option String) :
    (takeBookmark? peer.recorded sent token).CommutesWith mask past := by
  cases token with
  | none => exact .pure ()
  | some token =>
    refine .bind (.changeSession fun _ => rfl) fun _ => .read (fun _ => rfl) fun s => ?_
    split
    · exact .ask (.updateBookmarks sent _)
    · exact .pure ()

/-! ## Where work goes -/

theorem pinDatabase_commutes (named : Option String) :
    (pinDatabase peer.recorded named).CommutesWith mask past := by
  cases named with
  | none => exact .pure ()
  | some database =>
    refine .read (fun _ => rfl) fun s => ?_
    split
    · exact .bind (.note _) fun _ => .changeSession fun _ => rfl
    · exact .pure ()

theorem findHome_commutes (o : Overrides) :
    (findHome peer.recorded o).CommutesWith mask past :=
  .read (fun _ => rfl) fun _ => .bind bookmarksForWork_commutes fun _ =>
    .bind (.ask (.findHome _)) fun _ => .pure _

theorem resolveDatabase_commutes (o : Overrides) :
    (resolveDatabase peer.recorded o).CommutesWith mask past := by
  refine .read (fun _ => rfl) fun s => ?_
  split
  · exact .pure _
  · exact .pure _
  · split
    · exact .pure _
    · refine .bind (findHome_commutes o) fun home => .read (fun _ => rfl) fun s => ?_
      have noted : Op.CommutesWith mask past (do
          liftM (note peer.recorded (.homeResolved home))
          return home : Op (Recorded ω) (Option String)) :=
        .bind (.lift (.note _)) fun _ => .pure _
      split
      · exact .bind (.changeSession fun _ => rfl) fun _ => noted
      · exact noted

theorem acquire_commutes (mode : AccessMode) (database user : Option String)
    (api : Option ApiKind) :
    (acquire peer.recorded mode database user api).CommutesWith mask past := by
  refine .read (fun _ => rfl) fun s => .bind bookmarksForWork_commutes fun _ =>
    .bind (.ask (.acquire _)) fun c => ?_
  have noted : Op.CommutesWith mask past (do
      liftM (note peer.recorded (.connectionAcquired mode api))
      return c : Op (Recorded ω) Connection) :=
    .bind (.lift (.note _)) fun _ => .pure _
  cases api with
  | none => exact noted
  | some kind =>
    dsimp only
    split
    · have told : (send peer.recorded c .session (.telemetry kind)).CommutesWith mask past := .ask _
      refine .bind (.attempt told) fun outcome => ?_
      cases outcome with
      | ok _ => exact noted
      | error fault => exact .bind (.lift (.ask (.release c))) fun _ => .throw fault
    · exact noted

theorem connect_commutes (mode : AccessMode) (api : ApiKind) (o : Overrides) :
    (connect peer.recorded mode api o).CommutesWith mask past := by
  refine .read (fun _ => rfl) fun s => ?_
  split
  · exact .pure _
  · exact .bind (resolveDatabase_commutes o) fun _ => .bind (acquire_commutes _ _ _ _) fun _ =>
      .bind (.changeSession fun _ => rfl) fun _ => .pure _

/-! ## Streams -/

theorem abortOrigin_commutes (origin : Origin) :
    (abortOrigin peer.recorded origin).CommutesWith mask past := by
  cases origin with
  | autoCommit sent pins => exact abortUnit_commutes
  | transaction id => exact fun _ => rfl

theorem completeOrigin_commutes (summary : Summary) (origin : Origin) :
    (completeOrigin peer.recorded summary origin).CommutesWith mask past := by
  cases origin with
  | transaction id => exact .pure ()
  | autoCommit sent pins =>
    have reported : Op.CommutesWith mask past (do
        let reported ← attempt (takeBookmark? peer.recorded sent summary.bookmark)
        endUnit peer.recorded
        settleOn reported) :=
      .bind (.attempt (takeBookmark?_commutes sent _)) fun reported =>
        .bind (.lift endUnit_commutes) fun _ => .settleOn reported
    cases pins with
    | true => exact .bind (.lift (pinDatabase_commutes _)) fun _ => reported
    | false => exact reported

theorem finishStream_commutes (id : ResultId) (metadata : Metadata) :
    (finishStream peer.recorded id metadata).CommutesWith mask past :=
  .read (fun _ => rfl) fun _ => .bind (.changeSession fun _ => rfl) fun _ =>
    completeOrigin_commutes _ _

theorem failStream_commutes (id : ResultId) (fault : Fault) :
    (failStream peer.recorded id fault).CommutesWith mask past :=
  .read (fun _ => rfl) fun _ => .bind (.changeSession fun _ => rfl) fun _ =>
    abortOrigin_commutes _

theorem fetch_commutes (id : ResultId) : (fetch peer.recorded id).CommutesWith mask past := by
  have pulled : (pullHeld peer.recorded id).CommutesWith mask past :=
    .read (fun _ => rfl) fun _ => sendHeld_commutes _ _
  refine .bind (.attempt pulled) fun outcome => ?_
  cases outcome with
  | error fault => exact .bind (.lift (failStream_commutes id fault)) fun _ => .throw fault
  | ok batch =>
    refine .bind (.changeSession fun _ => rfl) fun _ => ?_
    split
    · exact .pure true
    · exact .bind (finishStream_commutes id _) fun _ => .pure false

theorem discardRest_commutes (id : ResultId) :
    (discardRest peer.recorded id).CommutesWith mask past := by
  refine .read (fun _ => rfl) fun s => ?_
  split
  · refine .bind (.attempt (sendHeld_commutes _ _)) fun outcome => ?_
    cases outcome with
    | error fault => exact .bind (.lift (failStream_commutes id fault)) fun _ => .throw fault
    | ok metadata => exact finishStream_commutes id metadata
  · exact .pure ()

theorem startResult_commutes (request : RunRequest) (origin : Origin) :
    (startResult peer.recorded request origin).CommutesWith mask past := by
  refine .read (fun _ => rfl) fun s => .bind (.attempt (sendHeld_commutes _ _)) fun outcome => ?_
  have started (r : Result) : Op.CommutesWith mask past (do
      let id ← addResult r
      let _ ← fetch peer.recorded id
      return id) :=
    .bind (.addResult r) fun id => .bind (fetch_commutes id) fun _ => .pure id
  cases outcome with
  | error fault => exact .bind (.lift (abortOrigin_commutes origin)) fun _ => .throw fault
  | ok reply =>
    dsimp only
    split
    · exact .bind (.lift (pinDatabase_commutes _)) fun _ => started _
    · exact started _

/-! ## Reading -/

theorem fetchWhile_commutes (id : ResultId) (hungry : Result → Bool) :
    (fetchWhile peer.recorded id hungry).CommutesWith mask past := by
  intro σ
  show fetchFrom peer.recorded id hungry (σ.mapCurrent mask past) =
    ((fetchFrom peer.recorded id hungry σ).1,
      (fetchFrom peer.recorded id hungry σ).2.mapCurrent mask past)
  -- the loop is a function of the state, so the induction is on its run and not on its text
  fun_induction fetchFrom peer.recorded id hungry σ with
  | case1 σ r more τ e ih =>
    rw [fetchFrom_turn (s := σ.mapCurrent mask past) more, (fetch_commutes id).meet e]
    exact ih
  | case2 σ r more τ e =>
    rw [fetchFrom_turn (s := σ.mapCurrent mask past) more, (fetch_commutes id).meet e]
  | case3 σ r more fault τ e =>
    rw [fetchFrom_turn (s := σ.mapCurrent mask past) more, (fetch_commutes id).meet e]
  | case4 σ r stopped =>
    rw [fetchFrom, if_neg (by exact stopped)]

theorem bufferAll_commutes (id : ResultId) :
    (bufferAll peer.recorded id).CommutesWith mask past :=
  fetchWhile_commutes id _

theorem checkUsable_commutes (id : ResultId) :
    Op.CommutesWith (ω := ω) mask past (checkUsable id) := by
  refine .read (fun _ => rfl) fun s => ?_
  split
  · exact .throw _
  · exact .pure ()

theorem peek_commutes (id : ResultId) : (peek peer.recorded id).CommutesWith mask past :=
  .bind (checkUsable_commutes id) fun _ => .bind (fetchWhile_commutes id _) fun _ =>
    .read (fun _ => rfl) fun _ => .pure _

theorem next_commutes (id : ResultId) : (next peer.recorded id).CommutesWith mask past :=
  .bind (peek_commutes id) fun _ => .bind (.changeSession fun _ => rfl) fun _ => .pure _

theorem drainFrom_commutes (id : ResultId) (read : List Record) :
    Act.CommutesWith mask past (drainFrom peer.recorded id read) := by
  intro σ
  show drainFrom peer.recorded id read (σ.mapCurrent mask past) =
    ((drainFrom peer.recorded id read σ).1,
      (drainFrom peer.recorded id read σ).2.mapCurrent mask past)
  have fetched {σ τ : State (Recorded ω)} {outcome : Except Fault Bool}
      (e : Op.exec (fetch peer.recorded id) (σ.emptied id) = (outcome, τ)) :
      Op.exec (fetch peer.recorded id) ((σ.mapCurrent mask past).emptied id) =
        (outcome, τ.mapCurrent mask past) :=
    (fetch_commutes id).meet e
  fun_induction drainFrom peer.recorded id read σ with
  | case1 read σ r read' more τ e ih =>
    rw [drainFrom_turn (s := σ.mapCurrent mask past) more, fetched e]
    exact ih
  | case2 read σ r read' more τ e =>
    rw [drainFrom_turn (s := σ.mapCurrent mask past) more, fetched e]
    rfl
  | case3 read σ r read' more fault τ e =>
    rw [drainFrom_turn (s := σ.mapCurrent mask past) more, fetched e]
    rfl
  | case4 read σ r read' stopped =>
    rw [drainFrom, if_neg (by exact stopped)]
    rfl

theorem drain_commutes (id : ResultId) : (drain peer.recorded id).CommutesWith mask past := by
  refine .read (fun _ => rfl) fun s => ?_
  split
  · exact .pure _
  · exact drainFrom_commutes id []

theorem collect_commutes (id : ResultId) : (collect peer.recorded id).CommutesWith mask past := by
  refine .bind (.lift (drain_commutes id)) fun outcome => ?_
  split
  · exact .pure _
  · exact .throw _

theorem single_commutes (id : ResultId) : (single peer.recorded id).CommutesWith mask past := by
  rw [single_eq]
  have verdict (first second : Option Record) : Op.CommutesWith mask past (do
      discardRest peer.recorded id
      settleOn (onlyRecord first second)) :=
    .bind (discardRest_commutes id) fun _ => .settleOn _
  refine .bind (next_commutes id) fun first => ?_
  dsimp only
  split
  · exact .bind (next_commutes id) fun second => verdict first second
  · exact .bind (.pure none) fun second => verdict first second

theorem consume_commutes (id : ResultId) : (consume peer.recorded id).CommutesWith mask past := by
  refine .read (fun _ => rfl) fun s => .bind (.failIf _) fun _ => ?_
  split
  · exact .pure _
  · refine .bind (discardRest_commutes id) fun _ => .bind (.changeSession fun _ => rfl) fun _ =>
      .read (fun _ => rfl) fun s => ?_
    split
    · exact .pure _
    · exact .throw _
    · exact .throw _

theorem endResult_commutes (id : ResultId) :
    (endResult peer.recorded id).CommutesWith mask past :=
  .bind (.attempt (discardRest_commutes id)) fun discarded =>
    .bind (.changeSession fun _ => rfl) fun _ => .settleOn discarded

/-! ## Transactions -/

theorem takeResults_commutes (id : TransactionId) :
    Op.CommutesWith (ω := ω) mask past (takeResults id) :=
  .read (fun _ => rfl) fun _ => .bind (.changeSession fun _ => rfl) fun _ => .pure _

theorem setState_commutes (id : TransactionId) (state : TransactionState) :
    Op.CommutesWith (ω := ω) mask past (setState id state) :=
  fun _ => rfl

theorem runIn_commutes (id : TransactionId) (source : QuerySource) (params : Option Params) :
    (runIn peer.recorded id source params).CommutesWith mask past := by
  refine .bind (.settleOn _) fun query => .read (fun _ => rfl) fun s =>
    .bind (.failIf _) fun _ => ?_
  have started (parameters : Params) : Op.CommutesWith mask past (do
      let result ← startResult peer.recorded { query := query.text, parameters } (.transaction id)
      changeTransaction id fun t => { t with results := t.results ++ [result] }
      return result) :=
    .bind (startResult_commutes _ _) fun _ => .bind (.changeSession fun _ => rfl) fun _ => .pure _
  dsimp only
  split
  · exact .throw _
  · split
    · exact .bind (bufferAll_commutes _) fun _ => started _
    · exact started _

theorem endResults_commutes (ids : List ResultId) :
    (endResults peer.recorded ids).CommutesWith mask past := by
  induction ids with
  | nil => exact .pure ()
  | cons id rest ih => exact .bind (endResult_commutes id) fun _ => ih

theorem commit_commutes (id : TransactionId) :
    (commit peer.recorded id).CommutesWith mask past := by
  refine .read (fun _ => rfl) fun s => .bind (.failIf _) fun _ =>
    .bind (takeResults_commutes id) fun results => ?_
  have acknowledged : Op.CommutesWith mask past
      (do endResults peer.recorded results; commitHeld peer.recorded id) :=
    .bind (endResults_commutes results) fun _ => sendHeld_commutes _ _
  refine .bind (.attempt acknowledged) fun outcome => ?_
  cases outcome with
  | error fault =>
    exact .bind (setState_commutes id _) fun _ => .bind (.lift abortUnit_commutes) fun _ =>
      .throw fault
  | ok token =>
    exact .bind (setState_commutes id _) fun _ =>
      .bind (.attempt (takeBookmark?_commutes _ token)) fun reported =>
        .bind (.lift endUnit_commutes) fun _ => .settleOn reported

theorem rollback_commutes (id : TransactionId) :
    (rollback peer.recorded id).CommutesWith mask past := by
  refine .read (fun _ => rfl) fun s => ?_
  dsimp only
  split
  · exact .throw _
  · refine .bind (takeResults_commutes id) fun results =>
      .bind (.forM (fun _ _ => rfl) results) fun _ =>
        .bind (setState_commutes id _) fun _ => ?_
    split
    · exact .lift abortUnit_commutes
    · refine .bind (.attempt (sendHeld_commutes _ _)) fun outcome => ?_
      cases outcome with
      | ok _ => exact .lift endUnit_commutes
      | error fault => exact .bind (.lift abortUnit_commutes) fun _ => .throw fault

theorem closeTransaction_commutes (id : TransactionId) :
    (closeTransaction peer.recorded id).CommutesWith mask past := by
  refine .read (fun _ => rfl) fun s => ?_
  split
  · exact rollback_commutes id
  · exact .pure ()

theorem closeQuietly_commutes (id : TransactionId) :
    (closeQuietly peer.recorded id).CommutesWith mask past := by
  refine .bind (.run (closeTransaction_commutes id)) fun outcome => ?_
  cases outcome with
  | ok _ => exact .pure ()
  | error fault => exact .note _

theorem settle_commutes (id : TransactionId) (outcome : Except Fault α) :
    (settle peer.recorded id outcome).CommutesWith mask past := by
  have committed : Op.CommutesWith mask past (do
      let a ← settleOn outcome
      commit peer.recorded id
      return a) :=
    .bind (.settleOn outcome) fun _ => .bind (commit_commutes id) fun _ => .pure _
  refine .bind (.attempt committed) fun outcome => ?_
  cases outcome with
  | ok a => exact .pure a
  | error fault => exact .bind (.lift (closeQuietly_commutes id)) fun _ => .throw fault

theorem dropHandle_commutes (id : TransactionId) :
    (dropHandle peer.recorded id).CommutesWith mask past := by
  refine .read (fun _ => rfl) fun s => ?_
  have dropped : Act.CommutesWith (ω := ω) mask past
      (changeTransaction id ({ · with holder := .nobody })) := .changeSession fun _ => rfl
  dsimp only
  split
  · split
    · exact .bind (.note _) fun _ => dropped
    · exact dropped
  · exact .pure ()

/-! ## Handles -/

theorem checkHolder_commutes (id : TransactionId) (allowed : Holder → Bool) :
    Op.CommutesWith (ω := ω) mask past (checkHolder id allowed) := by
  refine .read (fun _ => rfl) fun s => ?_
  split
  · exact .throw _
  · exact .pure ()

theorem Access.perform_commutes (a : Access) :
    (a.perform peer.recorded).CommutesWith mask past := by
  cases a with
  | run id source params =>
    exact .bind (checkHolder_commutes id _) fun _ => runIn_commutes id source params
  | commit id => exact .bind (checkHolder_commutes id _) fun _ => commit_commutes id
  | rollback id => exact .bind (checkHolder_commutes id _) fun _ => rollback_commutes id
  | close id => exact .bind (checkHolder_commutes id _) fun _ => closeTransaction_commutes id
  | drop id => exact .lift (dropHandle_commutes id)
  | viewTransaction id => exact .read (fun _ => rfl) fun _ => .pure _
  | next id => exact next_commutes id
  | peek id => exact peek_commutes id
  | single id => exact single_commutes id
  | collect id => exact collect_commutes id
  | drain id => exact .lift (drain_commutes id)
  | consume id => exact consume_commutes id
  | viewResult id => exact .read (fun _ => rfl) fun _ => .pure _

theorem Access.performTold_commutes (a : Access) :
    (a.performTold peer).CommutesWith mask past :=
  .bind (.run a.perform_commutes) fun _ => fun _ => rfl

theorem Work.recorded_commutes (work : Work ω α) :
    (work.recorded.perform peer.recorded).CommutesWith mask past := by
  induction work with
  | done outcome => exact .bind (.log _) fun _ => .settleOn outcome
  | call a next ih =>
    exact .bind (.attempt a.perform_commutes) fun outcome => .bind (.log _) fun _ => ih outcome
  | look next ih => exact fun σ => ih σ.world.world σ
  | change f rest ih => exact .bind (.drift f) fun _ => ih

/-! ## The session itself -/

theorem lastBookmarks_commutes : (lastBookmarks peer.recorded).CommutesWith mask past := by
  have own : Op.CommutesWith (ω := ω) mask past (do return (← theSession).bookmarks) :=
    .read (fun _ => rfl) fun _ => .pure _
  refine .read (fun _ => rfl) fun s => ?_
  dsimp only
  split
  · exact .bind (bufferAll_commutes _) fun _ => own
  · exact own

theorem lastBookmark_commutes : (lastBookmark peer.recorded).CommutesWith mask past :=
  .bind (.lift (.note _)) fun _ => .bind lastBookmarks_commutes fun _ => .pure _

theorem checkOpen_commutes : Op.CommutesWith (ω := ω) mask past checkOpen := by
  refine .read (fun _ => rfl) fun s => ?_
  split
  · exact .throw _
  · exact .pure ()

theorem serverInfo_commutes : (serverInfo peer.recorded).CommutesWith mask past := by
  refine .bind checkOpen_commutes fun _ => .read (fun _ => rfl) fun s => ?_
  split
  · exact .pure _
  · exact .bind (resolveDatabase_commutes {}) fun _ => .bind (acquire_commutes _ _ _ _) fun c =>
      .bind (.lift (.ask (.release c))) fun _ => .pure _

theorem bufferAutoResult_commutes : (bufferAutoResult peer.recorded).CommutesWith mask past := by
  refine .read (fun _ => rfl) fun s => ?_
  split
  · exact .pure ()
  · exact .bind (.changeSession fun _ => rfl) fun _ => bufferAll_commutes _

theorem consumeAutoResult_commutes :
    (consumeAutoResult peer.recorded).CommutesWith mask past := by
  refine .read (fun _ => rfl) fun s => ?_
  split
  · exact .pure ()
  · refine .bind (.changeSession fun _ => rfl) fun _ => .bind (.run (consume_commutes _))
      fun outcome => ?_
    cases outcome with
    | ok _ => exact .pure ()
    | error fault => exact .note _

theorem openTransaction_commutes (mode : AccessMode) (api : ApiKind) (config : TransactionConfig)
    (holder : Holder) :
    (openTransaction peer.recorded mode api config holder).CommutesWith mask past := by
  have prepared : Op.CommutesWith mask past (do
      let database ← connect peer.recorded mode api {}
      let bookmarks ← bookmarksForWork peer.recorded
      return (database, bookmarks)) :=
    .bind (connect_commutes mode api {}) fun _ => .bind bookmarksForWork_commutes fun _ =>
      .pure _
  refine .bind (.changeSession fun _ => rfl) fun _ => .bind (.attempt prepared) fun outcome => ?_
  cases outcome with
  | error fault => exact .bind (.lift endUnit_commutes) fun _ => .throw fault
  | ok prepared =>
    refine .read (fun _ => rfl) fun s => .bind (.attempt (sendHeld_commutes _ _)) fun begun => ?_
    cases begun with
    | error fault => exact .bind (.lift abortUnit_commutes) fun _ => .throw fault
    | ok named => exact .bind (.lift (pinDatabase_commutes named)) fun _ => .addTransaction _

/-! ## Transaction functions, once they may start -/

theorem decide_commutes (backoff : Backoff) (fault : Fault) :
    (decide peer.recorded backoff fault).CommutesWith mask past :=
  .bind (.ask .readClock) fun _ => .bind (.ask .drawSample) fun _ => .pure _

theorem attemptOnce_commutes (options : ExecuteOptions) (work : TransactionFunction ω α)
    (calls : Nat) :
    (attemptOnce peer.recorded options (TransactionFunction.recorded work) calls).CommutesWith mask
      past := by
  refine .bind (.run (openTransaction_commutes _ _ _ _)) fun opened => ?_
  cases opened with
  | error fault => exact .pure _
  | ok id =>
    exact .bind (.run (work calls id).recorded_commutes) fun outcome =>
      .bind (.run (settle_commutes id outcome)) fun _ => .pure _

theorem attemptFrom_commutes (options : ExecuteOptions) (work : TransactionFunction ω α)
    (patience calls : Nat) (backoff : Backoff) :
    (attemptFrom peer.recorded options (TransactionFunction.recorded work) patience calls
      backoff).CommutesWith mask past := by
  induction patience generalizing calls backoff with
  | zero => exact .pure none
  | succ patience ih =>
    refine .bind (attemptOnce_commutes options work calls) fun ended => ?_
    obtain ⟨outcome, calls⟩ := ended
    cases outcome with
    | ok a => exact .pure _
    | error fault =>
      refine .bind (decide_commutes backoff fault) fun decided => ?_
      obtain ⟨decision, backoff⟩ := decided
      cases decision with
      | giveUp fault => exact .pure _
      | retryAfter delay => exact .bind (.note _) fun _ => .bind (.ask _) fun _ => ih calls backoff

theorem Blocking.afterFailure_commutes (calls : Nat) (backoff : Backoff) (fault : Fault) :
    (Blocking.afterFailure (α := α) peer.recorded calls backoff fault).CommutesWith mask past := by
  refine .bind (decide_commutes backoff fault) fun decided => ?_
  obtain ⟨decision, backoff⟩ := decided
  cases decision with
  | giveUp fault => exact .pure _
  | retryAfter delay => exact .bind (.note _) fun _ => .bind (.ask _) fun _ => .pure _

theorem Blocking.step_commutes (options : ExecuteOptions) (work : TransactionFunction ω α)
    (progress : Blocking.Progress α) :
    (Blocking.step peer.recorded options (TransactionFunction.recorded work) progress).CommutesWith
      mask past := by
  cases progress with
  | finished outcome => exact .pure _
  | trying calls backoff =>
    refine .bind (.run (openTransaction_commutes _ _ _ _)) fun opened => ?_
    cases opened with
    | error fault => exact Blocking.afterFailure_commutes calls backoff fault
    | ok id =>
      refine .bind (.run (work calls id).recorded_commutes) fun outcome =>
        .bind (.run (settle_commutes id outcome)) fun settled => ?_
      cases settled with
      | ok a => exact .pure _
      | error fault => exact Blocking.afterFailure_commutes (calls + 1) backoff fault

theorem Blocking.drive_commutes (options : ExecuteOptions) (work : TransactionFunction ω α)
    (patience : Nat) (progress : Blocking.Progress α) :
    (Blocking.drive peer.recorded options (TransactionFunction.recorded work) patience
      progress).CommutesWith mask past := by
  induction patience generalizing progress with
  | zero => exact .pure _
  | succ patience ih =>
    cases progress with
    | finished outcome => exact .pure _
    | trying calls backoff => exact .bind (Blocking.step_commutes options work _) fun _ => ih _

end Actions

end GraphSession
