import GraphSession.Proofs.History

/-!
  The course of an action.

  `Course may σ τ` says that the elementary changes which lead from `σ` to `τ` are those that the
  license `may` allows.  It is a frame for every action at once: what no elementary change touches,
  no action touches, and what only a licensed change touches, only an action with that license does.

  `Act.Within` and `Op.Within` say that an action takes such a course from every state.  The rules
  of this module follow the text of an action; what is true of every course is proved by induction
  on the elementary changes.
-/

namespace GraphSession

variable {ω α β : Type}

/-- What an action may do beside asking, sending and counting. -/
structure License where
  /-- The results whose records it may hand out. -/
  takes : ResultId → Prop := fun _ => False
  /-- The results whose rest it may drop. -/
  drops : ResultId → Prop := fun _ => False
  /-- Whether it may borrow a connection. -/
  borrows : Prop := False
  /-- Whether it may end the session or change which results and transactions are its latest. -/
  directs : Prop := False
  /-- Whether it may commit. -/
  commits : Prop := False
  /-- Whether it may end a transaction. -/
  concludes : Prop := False

/-- The same license, for one more result. -/
def License.handling (may : License) (id : ResultId) : License :=
  { may with
    takes := fun other => other = id ∨ may.takes other
    drops := fun other => other = id ∨ may.drops other }

/-! ## What a change leaves -/

/-- What a transaction may come to from the state it is in.  Only the first state is active, and a
    transaction that is over stays as it ended. -/
def TransactionState.LeadsTo : TransactionState → TransactionState → Prop
  | active, _ => True
  | failed, after => after ≠ active
  | before, after => after = before

namespace TransactionState

variable {s t u : TransactionState}

theorem LeadsTo.refl (s : TransactionState) : s.LeadsTo s := by
  cases s <;> simp [LeadsTo]

theorem LeadsTo.trans (h : s.LeadsTo t) (h' : t.LeadsTo u) : s.LeadsTo u := by
  cases s <;> cases t <;> cases u <;> simp_all [LeadsTo]

/-- An open transaction may come to anything but a new start. -/
theorem LeadsTo.of_open (isOpen : s.isTerminated = false) (inactive : t ≠ active) :
    s.LeadsTo t := by
  cases s with
  | active => trivial
  | failed => exact inactive
  | committed | rolledBack | closed => cases isOpen

theorem LeadsTo.eq_of_terminated (h : s.LeadsTo t) (ended : s.isTerminated = true) : t = s := by
  cases s with
  | active | failed => cases ended
  | committed | rolledBack | closed => exact h

end TransactionState

/-- What a change of a session does to the transactions that were given out: each goes on from the
    state it was in, and none ends without the license for that. -/
structure Session.Lasts (may : License) (s t : Session) : Prop where
  given : s.transactions.length ≤ t.transactions.length
  leadsTo : ∀ id < s.transactions.length, (s.transaction id).state.LeadsTo (t.transaction id).state
  undecided : ¬ may.concludes → ∀ id < s.transactions.length,
    (t.transaction id).state.isTerminated = (s.transaction id).state.isTerminated

namespace Session.Lasts

variable {may : License} {s t u : Session} {id : TransactionId}

/-- A change of no transaction. -/
theorem same (h : t.transactions = s.transactions) : s.Lasts may t := by
  have state (id : TransactionId) : t.transaction id = s.transaction id := by
    simp only [Session.transaction, h]
  exact ⟨h ▸ Nat.le_refl _, fun id _ => state id ▸ .refl _, fun _ id _ => by rw [state]⟩

theorem trans (h : s.Lasts may t) (h' : t.Lasts may u) : s.Lasts may u where
  given := Nat.le_trans h.given h'.given
  leadsTo id hid := (h.leadsTo id hid).trans (h'.leadsTo id (Nat.lt_of_lt_of_le hid h.given))
  undecided n id hid :=
    (h'.undecided n id (Nat.lt_of_lt_of_le hid h.given)).trans (h.undecided n id hid)

/-- A license to end transactions permits more. -/
theorem relax {may' : License} (h : s.Lasts may t) (lax : may'.concludes) : s.Lasts may' t :=
  ⟨h.given, h.leadsTo, fun n => absurd lax n⟩

/-- A change of one transaction. -/
theorem setTransaction {v : Transaction} (leads : (s.transaction id).state.LeadsTo v.state)
    (undecided : ¬ may.concludes →
      v.state.isTerminated = (s.transaction id).state.isTerminated) :
    s.Lasts may (s.setTransaction id v) where
  given := by simp [Session.setTransaction]
  leadsTo other _ := by
    rw [Session.transaction_setTransaction_eq]
    split
    · next e => exact e.1 ▸ leads
    · exact .refl _
  undecided n other _ := by
    rw [Session.transaction_setTransaction_eq]
    split
    · next e => exact e.1 ▸ undecided n
    · rfl

/-- One more transaction. -/
theorem add {v : Transaction} (h : t.transactions = s.transactions ++ [v]) : s.Lasts may t := by
  have state (id : TransactionId) (hid : id < s.transactions.length) :
      t.transaction id = s.transaction id := by
    simp only [Session.transaction, h, List.getD_eq_getElem?_getD, List.getElem?_append_left hid]
  exact ⟨by simp [h], fun id hid => state id hid ▸ .refl _, fun _ id hid => by rw [state id hid]⟩

end Session.Lasts

/-- What every course leaves of a session, under a license. -/
structure Session.Keeps (may : License) (s t : Session) : Prop where
  config : t.config = s.config
  own : ¬ may.directs → t.autoResult = s.autoResult ∧ t.current = s.current ∧ t.closed = s.closed
  lasts : s.Lasts may t

theorem Session.Keeps.trans {may : License} {s t u : Session} (h : s.Keeps may t)
    (h' : t.Keeps may u) : s.Keeps may u where
  config := h'.config.trans h.config
  own n := by
    obtain ⟨auto, current, closed⟩ := h.own n
    obtain ⟨auto', current', closed'⟩ := h'.own n
    exact ⟨auto'.trans auto, current'.trans current, closed'.trans closed⟩
  lasts := h.lasts.trans h'.lasts

/-- What a change leaves that borrows no connection, unless it is licensed to. -/
structure Session.Tends (may : License) (s t : Session) : Prop extends s.Keeps may t where
  connection : ¬ may.borrows → t.connection = s.connection

/-! ## Events of a course -/

/-- Whether a commit was acknowledged. -/
def Happening.isCommit : Happening → Bool
  | asked (.send _ _ .commit) (.ok _) => true
  | _ => false

/-- Something that neither starts a result nor brings records. -/
def Happening.IsPlain : Happening → Prop
  | asked (.send _ _ (.run _)) (.ok _) => False
  | asked (.send _ _ (.pull _)) (.ok _) => False
  | _ => True

/-- What concerns a connection that the session does not hold yet. -/
def Happening.IsBorrowing : Happening → Prop
  | asked (.acquire _) _ => True
  | asked (.release _) _ => True
  | asked (.send _ .session (.telemetry _)) (.ok _) => True
  | _ => False

/-- Whether telemetry failed. -/
def Happening.failsTelemetry : Happening → Bool
  | asked (.send _ _ (.telemetry _)) (.error _) => true
  | _ => false

theorem Happening.IsAside.isCommit {e : Happening} (h : e.IsAside) : e.isCommit = false := by
  unfold Happening.isCommit
  split
  · cases h
  · rfl

theorem Happening.IsBorrowing.isCommit {e : Happening} (h : e.IsBorrowing) :
    e.isCommit = false := by
  unfold IsBorrowing at h
  split at h
  · rfl
  · rfl
  · rfl
  · cases h

/-- The surroundings were asked, and a commit was acknowledged only where the license allows it. -/
def Happening.IsPermitted (may : License) (e : Happening) : Prop :=
  (∃ request answer, e = asked request answer) ∧ (e.isCommit = true → may.commits)

/-- The last records of a result have come. -/
def Happening.Completes (id : ResultId) : Happening → Prop
  | asked (.send _ sender (.pull _)) (.ok batch) => sender = .result id ∧ batch.more = false
  | _ => False

/-- All records of a result have come. -/
def History.Complete (id : ResultId) (h : History) : Prop := ∃ e ∈ h, e.Completes id

/-- The transaction that the server opened. -/
def Happening.begun? : Happening → Option TransactionId
  | asked (.send _ (.transaction t) (.begin _)) (.ok _) => some t
  | _ => none

/-- A connection is borrowed, and goes back at once because telemetry fails on it. -/
def History.loanRefused (request : AcquireRequest) (c : Connection) (kind : ApiKind)
    (fault : Fault) : History :=
  [.asked (.release c) (), .asked (.send c .session (.telemetry kind)) (.error fault),
    .asked (.acquire request) (.ok c)]

theorem History.forall_loanRefused {Q : Happening → Prop} {request : AcquireRequest}
    {c : Connection} {kind : ApiKind} {fault : Fault} :
    (∀ e ∈ loanRefused request c kind fault, Q e) ↔
      Q (.asked (.release c) ()) ∧ Q (.asked (.send c .session (.telemetry kind)) (.error fault)) ∧
        Q (.asked (.acquire request) (.ok c)) := by
  simp [loanRefused]

/-- Something happened, and then the log was told of it. -/
theorem History.forall_noted {Q : Happening → Prop} {later : History} {e : Happening}
    (asides : ∀ e' ∈ later, ∃ event, e' = .asked (.note event) ())
    (notes : ∀ event, Q (.asked (.note event) ())) (here : Q e) : ∀ e' ∈ later ++ [e], Q e' := by
  intro e' he
  rcases List.mem_append.mp he with he | he
  · obtain ⟨event, rfl⟩ := asides e' he
    exact notes event
  · rw [List.mem_singleton.mp he]
    exact here

/-! ## Courses -/

/-- Elementary changes from one state to another, as a license allows them. -/
inductive Course : License → State (Recorded ω) → State (Recorded ω) → Prop
  | rest (may : License) (σ : State (Recorded ω)) : Course may σ σ
  | andThen {may : License} {σ τ υ : State (Recorded ω)} :
    Course may σ τ → Course may τ υ → Course may σ υ
  /-- Nothing happened, and no result changed. -/
  | tend {may : License} {σ τ : State (Recorded ω)}
    (results : τ.session.results = σ.session.results)
    (kept : σ.session.Tends may τ.session) (history : τ.history = σ.history) : Course may σ τ
  | aside {may : License} {σ : State (Recorded ω)} {request : Request} {answer : request.Answer}
    (w : ω) (aside : (Happening.asked request answer).IsAside) :
    Course may σ (σ.heard request answer w)
  | borrowing {may : License} {σ : State (Recorded ω)} {request : Request}
    {answer : request.Answer} (w : ω) (h : may.borrows)
    (borrowing : (Happening.asked request answer).IsBorrowing) :
    Course may σ (σ.heard request answer w)
  /-- A connection was borrowed, and went back at once because telemetry failed on it. -/
  | loanRefused {may : License} {σ : State (Recorded ω)} (w : ω) (h : may.borrows)
    (request : AcquireRequest) (c : Connection) (kind : ApiKind) (fault : Fault) :
    Course may σ
      { σ with world := ⟨w, History.loanRefused request c kind fault ++ σ.history⟩ }
  /-- A message on the session's connection. -/
  | message {may : License} {σ : State (Recorded ω)} {c : Connection} {sender : Sender}
    {m : Message} {answer : Except Fault m.Reply} (w : ω)
    (held : σ.session.connection = some c)
    (plain : (Happening.asked (.send c sender m) answer).IsPlain)
    (unbegun : (Happening.asked (.send c sender m) answer).begun? = none)
    (unfailed : (Happening.asked (.send c sender m) answer).failsTelemetry = false)
    (commits : (Happening.asked (.send c sender m) answer).isCommit = true → may.commits) :
    Course may σ (σ.heard (.send c sender m) answer w)
  | release {may : License} {σ : State (Recorded ω)} {c : Connection} (w : ω)
    (held : σ.session.connection = some c) :
    Course may σ
      (State.heard { σ with session := { σ.session with connection := none } } (.release c) () w)
  /-- A query was run, and its result is new. -/
  | start {may : License} {σ τ : State (Recorded ω)} {c : Connection} {request : RunRequest}
    {reply : RunReply} {r : Result} {later : History} (held : σ.session.connection = some c)
    (history : τ.history =
      later ++ .asked (.send c (.result σ.session.nextResult) (.run request)) (.ok reply) ::
        σ.history)
    (asides : ∀ e ∈ later, ∃ event, e = .asked (.note event) ())
    (results : τ.session.results = σ.session.results ++ [r])
    (keys : r.keys = reply.keys) (buffer : r.buffer = []) (usable : r.unusable? = none)
    (streaming : r.isStreaming = true) (kept : σ.session.Tends may τ.session) : Course may σ τ
  /-- A transaction was begun, and it is new. -/
  | begun {may : License} {σ τ : State (Recorded ω)} {c : Connection} {request : WorkRequest}
    {named : Option String} {t : Transaction} {later : History}
    (held : σ.session.connection = some c)
    (history : τ.history =
      later ++ .asked (.send c (.transaction σ.session.nextTransaction) (.begin request))
        (.ok named) :: σ.history)
    (asides : ∀ e ∈ later, ∃ event, e = .asked (.note event) ())
    (results : τ.session.results = σ.session.results)
    (transactions : τ.session.transactions = σ.session.transactions ++ [t])
    (kept : σ.session.Tends may τ.session) : Course may σ τ
  /-- A batch of records arrived. -/
  | absorb {may : License} {σ : State (Recorded ω)} {c : Connection} {id : ResultId}
    (size : FetchSize) (batch : Batch) (w : ω) (held : σ.session.connection = some c)
    (streaming : (σ.session.result id).isStreaming = true) :
    Course may σ
      { session := σ.session.setResult id
          { σ.session.result id with
            buffer := (σ.session.result id).buffer ++
              batch.records.map (Record.mk (σ.session.result id).keys) }
        world := ⟨w, .asked (.send c (.result id) (.pull size)) (.ok batch) :: σ.history⟩ }
  /-- The stream of a result ended well: all its records have come, or its rest was dropped. -/
  | finish {may : License} {σ : State (Recorded ω)} {id : ResultId} (summary : Summary)
    (streaming : (σ.session.result id).isStreaming = true)
    (h : may.drops id ∨ History.Complete id σ.history) :
    Course may σ
      { σ with
        session := σ.session.setResult id
          { σ.session.result id with stream := .finished summary } }
  /-- Records were handed out. -/
  | take {may : License} {σ : State (Recorded ω)} {id : ResultId} (h : may.takes id)
    (buffer : List Record) :
    Course may σ
      { σ with session := σ.session.setResult id { σ.session.result id with buffer } }
  /-- A result will not be read any more. -/
  | retire {may : License} {σ : State (Recorded ω)} {id : ResultId} {r : Result}
    (keys : r.keys = (σ.session.result id).keys)
    (streaming : r.isStreaming = true → (σ.session.result id).isStreaming = true)
    (spent : r.unusable? ≠ none) :
    Course may σ { σ with session := σ.session.setResult id r }
  /-- What was done with a result does not matter when it will not be read any more. -/
  | spend {may : License} {σ τ : State (Recorded ω)} {id : ResultId}
    (h : Course (may.handling id) σ τ) (spent : (τ.session.result id).unusable? ≠ none) :
    Course may σ τ

/-- The action takes a course that the license allows. -/
def Act.Within (may : License) (act : Act (Recorded ω) α) : Prop :=
  ∀ σ, Course may σ (act.exec σ).2

/-- The action takes a course that the license allows, also when it fails. -/
def Op.Within (may : License) (op : Op (Recorded ω) α) : Prop :=
  ∀ σ, Course may σ (op.exec σ).2

section Rules

variable {may : License}

namespace Course

/-! ## Frames -/

variable {σ τ : State (Recorded ω)}

/-- Nothing of the history is lost. -/
theorem grows (h : Course may σ τ) : σ.history <:+ τ.history := by
  induction h with
  | rest => exact List.suffix_refl _
  | andThen _ _ ih₁ ih₂ => exact ih₁.trans ih₂
  | tend _ _ history => exact history ▸ List.suffix_refl _
  | start _ history | begun _ history =>
    exact history ▸ (List.suffix_cons _ _).trans (List.suffix_append _ _)
  | finish | take | retire => exact List.suffix_refl _
  | spend _ _ ih => exact ih
  | aside | borrowing | message | release | absorb => exact List.suffix_cons _ _
  | loanRefused => exact List.suffix_append _ _

/-- The configuration stays, and so does what only a license allows to change. -/
theorem keeps (h : Course may σ τ) : σ.session.Keeps may τ.session := by
  induction h with
  | andThen _ _ ih₁ ih₂ => exact ih₁.trans ih₂
  | tend _ kept _ => exact kept.toKeeps
  | start _ _ _ _ _ _ _ _ kept => exact kept.toKeeps
  | begun _ _ _ _ _ kept => exact kept.toKeeps
  | spend _ _ ih => exact ⟨ih.config, ih.own, ih.lasts.given, ih.lasts.leadsTo, ih.lasts.undecided⟩
  | rest | aside | borrowing | loanRefused | message | release | absorb | finish | take | retire =>
    exact ⟨rfl, fun _ => ⟨rfl, rfl, rfl⟩, .same rfl⟩

/-- Without the license for it, the session stays open or closed, and its latest auto-commit result
    and its explicit transaction stay the latest. -/
theorem own (h : Course may σ τ) (n : ¬ may.directs) :
    τ.session.autoResult = σ.session.autoResult ∧ τ.session.current = σ.session.current ∧
      τ.session.closed = σ.session.closed :=
  h.keeps.own n

/-- Without a connection, and without the license to borrow one, nothing is sent. -/
theorem unconnected (h : Course may σ τ) (n : ¬ may.borrows)
    (free : σ.session.connection = none) :
    τ.session.connection = none ∧ σ.Since (∀ e ∈ ·, e.IsAside) τ := by
  have none_held {s : Session} {c : Connection} (free : s.connection = none)
      (held : s.connection = some c) {p : Prop} : p := by rw [free] at held; cases held
  induction h with
  | andThen _ _ ih₁ ih₂ =>
    have ⟨free₁, since₁⟩ := ih₁ n free
    have ⟨free₂, since₂⟩ := ih₂ n free₁
    exact ⟨free₂, since₁.all_andThen since₂⟩
  | tend _ kept history => exact ⟨(kept.connection n).trans free, .nothing (by simp) history⟩
  | aside w he => exact ⟨free, [_], rfl, by simpa using he⟩
  | borrowing _ h | loanRefused _ h => exact absurd h n
  | message _ held => exact none_held free held
  | release _ held => exact none_held free held
  | start held | begun held => exact none_held free held
  | absorb _ _ _ held => exact none_held free held
  | spend _ _ ih => exact ih n free
  | rest | finish | take | retire => exact ⟨free, .nothing (by simp) rfl⟩

/-- Only the surroundings are asked, and they acknowledge a commit only where that is licensed. -/
theorem permitted (h : Course may σ τ) : σ.Since (∀ e ∈ ·, e.IsPermitted may) τ := by
  have uncommitted {may : License} {request : Request} {answer : request.Answer}
      (h : (Happening.asked request answer).isCommit = false) :
      (Happening.asked request answer).IsPermitted may :=
    ⟨⟨request, answer, rfl⟩, by rw [h]; simp⟩
  induction h with
  | andThen _ _ ih₁ ih₂ => exact ih₁.all_andThen ih₂
  | tend _ _ history => exact .nothing (by simp) history
  | aside w he => exact .one (uncommitted he.isCommit) rfl
  | borrowing _ _ he => exact .one (uncommitted he.isCommit) rfl
  | loanRefused =>
    exact ⟨_, rfl, History.forall_loanRefused.mpr
      ⟨uncommitted rfl, uncommitted rfl, uncommitted rfl⟩⟩
  | message _ _ _ _ _ commits => exact .one ⟨⟨_, _, rfl⟩, commits⟩ rfl
  | start _ history asides | begun _ history asides =>
    exact ⟨_, history.trans (List.append_cons _ _ _),
      History.forall_noted asides (fun _ => uncommitted rfl) (uncommitted rfl)⟩
  | release | absorb => exact .one (uncommitted rfl) rfl
  | spend _ _ ih => exact ih
  | rest | finish | take | retire => exact .nothing (by simp) rfl

/-- Without the license for it, nothing is committed. -/
theorem uncommitted (h : Course may σ τ) (n : ¬ may.commits) :
    σ.Since (∀ e ∈ ·, e.isCommit = false) τ :=
  h.permitted.imp fun _ all e he => Bool.eq_false_iff.mpr fun commit => n ((all e he).2 commit)

end Course

/-! ## Rules for actions that always succeed -/

/-- An action after another one, from a state that matters. -/
theorem Act.course_bind {x : Act (Recorded ω) β} {f : β → Act (Recorded ω) α}
    {σ : State (Recorded ω)} (hx : Course may σ (x.exec σ).2)
    (hf : ∀ b τ, x.exec σ = (b, τ) → Course may τ ((f b).exec τ).2) :
    Course may σ ((x >>= f).exec σ).2 :=
  hx.andThen (hf _ _ rfl)

namespace Act.Within

theorem pure (a : α) : Act.Within (ω := ω) may (Pure.pure a) := fun σ => .rest may σ

theorem bind {x : Act (Recorded ω) β} {f : β → Act (Recorded ω) α} (hx : x.Within may)
    (hf : ∀ b, (f b).Within may) : (x >>= f).Within may :=
  fun σ => (hx σ).andThen (hf _ _)

theorem run {op : Op (Recorded ω) α} (h : op.Within may) : Act.Within may op.run := h

theorem theSession : Act.Within (ω := ω) may GraphSession.theSession := fun σ => .rest may σ

theorem changeSession {f : Session → Session} (results : ∀ s, (f s).results = s.results)
    (kept : ∀ s : Session, s.Tends may (f s)) :
    Act.Within (ω := ω) may (GraphSession.changeSession f) :=
  fun σ => .tend (results σ.session) (kept σ.session) rfl

theorem ask {peer : Peer ω} {request : Request}
    (h : ∀ answer, (Happening.asked request answer).IsAside) :
    (GraphSession.ask peer.recorded request).Within may :=
  fun _ => .aside _ (h _)

theorem note {peer : Peer ω} (event : Event) : (GraphSession.note peer.recorded event).Within may :=
  ask fun _ => trivial

end Act.Within

/-! ## Rules for actions that may fail -/

namespace Op.Within

theorem pure (a : α) : Op.Within (ω := ω) may (Pure.pure a) := fun σ => .rest may σ

theorem throw (fault : Fault) : Op.Within (ω := ω) (α := α) may (MonadExcept.throw fault) :=
  fun σ => .rest may σ

end Op.Within

/-- As `Act.course_bind`; a failure of the first action is the end. -/
theorem Op.course_bind {x : Op (Recorded ω) β} {f : β → Op (Recorded ω) α}
    {σ : State (Recorded ω)} (hx : Course may σ (x.exec σ).2)
    (hf : ∀ b τ, x.exec σ = (.ok b, τ) → Course may τ ((f b).exec τ).2) :
    Course may σ ((x >>= f).exec σ).2 := by
  rw [Op.exec_bind]
  rcases h : x.exec σ with ⟨fault | b, τ⟩
  · rw [h] at hx
    exact hx
  · rw [h] at hx
    exact hx.andThen (hf b τ h)

namespace Op.Within

theorem bind {x : Op (Recorded ω) β} {f : β → Op (Recorded ω) α} (hx : x.Within may)
    (hf : ∀ b, (f b).Within may) : (x >>= f).Within may :=
  fun σ => Op.course_bind (hx σ) fun b τ _ => hf b τ

theorem lift {x : Act (Recorded ω) α} (h : x.Within may) :
    Op.Within may (liftM x : Op (Recorded ω) α) := h

theorem attempt {x : Op (Recorded ω) α} (h : x.Within may) :
    (GraphSession.attempt x).Within may := h

theorem failAfter {act : Act (Recorded ω) Unit} (h : act.Within may) (fault : Fault) :
    Op.Within may (GraphSession.failAfter act fault : Op (Recorded ω) α) := h

theorem settleOn (outcome : Except Fault α) :
    Op.Within (ω := ω) may (GraphSession.settleOn outcome) := fun σ => .rest may σ

theorem failIf (fault : Option Fault) : Op.Within (ω := ω) may (GraphSession.failIf fault) := by
  cases fault with
  | none => exact pure ()
  | some f => exact throw f

theorem theSession : Op.Within (ω := ω) may GraphSession.theSession := fun σ => .rest may σ

theorem changeSession {f : Session → Session} (results : ∀ s, (f s).results = s.results)
    (kept : ∀ s : Session, s.Tends may (f s)) :
    Op.Within (ω := ω) may (GraphSession.changeSession f) :=
  fun σ => .tend (results σ.session) (kept σ.session) rfl

end Op.Within

/-! ## Courses as postconditions -/

theorem Act.Within.ends {act : Act (Recorded ω) α} (h : act.Within may) (σ : State (Recorded ω)) :
    act.Ends σ fun _ τ => Course may σ τ :=
  h σ

theorem Op.Within.ends {op : Op (Recorded ω) α} (h : op.Within may) (σ : State (Recorded ω)) :
    op.Ends σ (fun _ τ => Course may σ τ) fun _ τ => Course may σ τ := by
  have hσ := h σ
  unfold Op.Ends
  split
  · next e => rwa [e] at hσ
  · next e => rwa [e] at hσ

/-- An action that needs no license but that to end transactions loses nothing of the history. -/
theorem Act.Within.grows {act : Act (Recorded ω) α} (h : act.Within { concludes := True })
    (σ : State (Recorded ω)) : act.Ends σ fun _ τ => σ.history <:+ τ.history :=
  (h σ).grows

theorem Op.Ends.course {op : Op (Recorded ω) α} {σ : State (Recorded ω)}
    (h : op.Ends σ (fun _ => Course may σ) fun _ => Course may σ) :
    Course may σ (op.exec σ).2 :=
  h.state

/-- After a course, an action with the same license prolongs it. -/
theorem Course.ends {op : Op (Recorded ω) α} {σ τ : State (Recorded ω)} (h : Course may σ τ)
    (hop : Course may τ (op.exec τ).2) :
    op.Ends τ (fun _ => Course may σ) fun _ => Course may σ := by
  unfold Op.Ends
  split
  · next e => rw [e] at hop; exact h.andThen hop
  · next e => rw [e] at hop; exact h.andThen hop

end Rules

end GraphSession
