import GraphSession.Proofs.Operation

/-!
  Twins: two runs of a session that differ in nothing but the bookmark sets of the manager.

  The bookmarks that a session fetches from its manager are sent with new work, and kept in results
  and transactions for the report at their end.  `blind` forgets them there; nothing else of a
  session depends on them.  `Peer.Alike` says of two surroundings that they answer alike whatever
  bookmarks they are sent, except that their managers may hold different ones.  A relation `R` says
  which of their states count as the same.

  `Act.Twins` and `Op.Twins` say of two actions that from states that are the same, once they are
  blind, they are answered the same and lead to states that are the same.  The rules of this module
  follow the text of an action, on both sides at once.
-/

namespace GraphSession

variable {ω α α' β β' : Type}

/-! ## Blindness -/

/-- The request, but for the bookmarks that it carries. -/
def AcquireRequest.blind (r : AcquireRequest) : AcquireRequest := { r with bookmarks := .empty }

def RoutingRequest.blind (r : RoutingRequest) : RoutingRequest := { r with bookmarks := .empty }

def WorkRequest.blind (r : WorkRequest) : WorkRequest := { r with bookmarks := .empty }

def RunRequest.blind (r : RunRequest) : RunRequest := { r with work := r.work.blind }

/-- The query of a request is told without its bookmarks. -/
theorem RunRequest.query_of_blind {r r' : RunRequest} (same : r.blind = r'.blind) :
    Query.mk r.query r.parameters r.work.metadata r.work.timeout =
      Query.mk r'.query r'.parameters r'.work.metadata r'.work.timeout := by
  have query := congrArg (fun r : RunRequest =>
    Query.mk r.query r.parameters r.work.metadata r.work.timeout) same
  exact query

/-- The unit of work that a result belongs to, but for the bookmarks that its request carried. -/
def Origin.blind : Origin → Origin
  | autoCommit _ pins => autoCommit .empty pins
  | transaction id => transaction id

def Result.blind (r : Result) : Result := { r with origin := r.origin.blind }

theorem Result.origin_blind (r : Result) : r.blind.origin.blind = r.origin.blind := by
  cases h : r.origin <;> simp [blind, Origin.blind, h]

def Transaction.blind (v : Transaction) : Transaction := { v with sent := .empty }

/-- A session, but for the bookmarks that its work carried. -/
def Session.blind (s : Session) : Session :=
  { s with
    results := s.results.map Result.blind
    transactions := s.transactions.map Transaction.blind }

namespace Session

theorem result_blind (s : Session) (id : ResultId) : s.blind.result id = (s.result id).blind := by
  show (s.results.map Result.blind).getD id .absent = (s.results.getD id .absent).blind
  simp only [List.getD_eq_getElem?_getD, List.getElem?_map]
  cases s.results[id]? <;> rfl

theorem transaction_blind (s : Session) (id : TransactionId) :
    s.blind.transaction id = (s.transaction id).blind := by
  show (s.transactions.map Transaction.blind).getD id .absent =
    (s.transactions.getD id .absent).blind
  simp only [List.getD_eq_getElem?_getD, List.getElem?_map]
  cases s.transactions[id]? <;> rfl

/-- What is seen of a session without bookmarks is the same in a twin. -/
theorem twin_sees {s t : Session} (same : s.blind = t.blind) {f : Session → α}
    (h : ∀ s, f s.blind = f s) : f s = f t := by
  rw [← h s, same, h t]

/-- What is seen of a result without its bookmarks is seen in the blind session. -/
theorem sees_result (s : Session) {f : Result → α} (h : ∀ r, f r.blind = f r) (id : ResultId) :
    f (s.result id) = f (s.blind.result id) := by
  rw [s.result_blind, h]

/-- What is seen of a transaction without its bookmarks is seen in the blind session. -/
theorem sees_transaction (s : Session) {f : Transaction → α} (h : ∀ v, f v.blind = f v)
    (id : TransactionId) : f (s.transaction id) = f (s.blind.transaction id) := by
  rw [s.transaction_blind, h]

/-- What is seen of a result without its bookmarks is the same in a twin. -/
theorem twin_result {s t : Session} (same : s.blind = t.blind) {f : Result → α}
    (h : ∀ r, f r.blind = f r) (id : ResultId) : f (s.result id) = f (t.result id) := by
  rw [s.sees_result h, same, ← t.sees_result h]

/-- What is seen of a transaction without its bookmarks is the same in a twin. -/
theorem twin_transaction {s t : Session} (same : s.blind = t.blind) {f : Transaction → α}
    (h : ∀ v, f v.blind = f v) (id : TransactionId) :
    f (s.transaction id) = f (t.transaction id) := by
  rw [s.sees_transaction h, same, ← t.sees_transaction h]

theorem blind_setResult (s : Session) (id : ResultId) (r : Result) :
    (s.setResult id r).blind = s.blind.setResult id r.blind := by
  simp [blind, setResult, List.map_set]

theorem blind_setTransaction (s : Session) (id : TransactionId) (v : Transaction) :
    (s.setTransaction id v).blind = s.blind.setTransaction id v.blind := by
  simp [blind, setTransaction, List.map_set]

/-- The session with a new result. -/
def withResult (s : Session) (r : Result) : Session := { s with results := s.results ++ [r] }

/-- The session with a new transaction. -/
def withTransaction (s : Session) (v : Transaction) : Session :=
  { s with transactions := s.transactions ++ [v] }

theorem blind_withResult (s : Session) (r : Result) :
    (s.withResult r).blind = s.blind.withResult r.blind := by
  simp [blind, withResult]

theorem blind_withTransaction (s : Session) (v : Transaction) :
    (s.withTransaction v).blind = s.blind.withTransaction v.blind := by
  simp [blind, withTransaction]

theorem nextResult_blind (s : Session) : s.blind.nextResult = s.nextResult := List.length_map _

theorem nextTransaction_blind (s : Session) : s.blind.nextTransaction = s.nextTransaction :=
  List.length_map _

end Session

/-! ## Surroundings -/

/-- Two outcomes are the same fault, or answers as `Q` says. -/
inductive Outcomes (Q : α → β → Prop) : Except Fault α → Except Fault β → Prop
  | ok {a : α} {b : β} : Q a b → Outcomes Q (.ok a) (.ok b)
  | error (fault : Fault) : Outcomes Q (.error fault) (.error fault)

theorem Outcomes.refl (outcome : Except Fault α) : Outcomes Eq outcome outcome := by
  cases outcome with
  | ok a => exact .ok rfl
  | error fault => exact .error fault

theorem Outcomes.eq {o o' : Except Fault α} (h : Outcomes Eq o o') : o = o' := by
  cases h with
  | ok e => rw [e]
  | error => rfl

/-- The requests differ at most in the bookmarks that are sent.  So their answers are to be the
    same, but for the bookmarks that the manager is found to hold. -/
inductive Request.Alike : (r r' : Request) → (r.Answer → r'.Answer → Prop) → Prop
  | acquire {r r' : AcquireRequest} (h : r.blind = r'.blind) :
    Alike (.acquire r) (.acquire r') (Outcomes Eq)
  | findHome {r r' : RoutingRequest} (h : r.blind = r'.blind) :
    Alike (.findHome r) (.findHome r') (Outcomes Eq)
  | getBookmarks : Alike .getBookmarks .getBookmarks (Outcomes fun _ _ => True)
  | updateBookmarks (previous previous' new : Bookmarks) :
    Alike (.updateBookmarks previous new) (.updateBookmarks previous' new) (Outcomes Eq)
  | run (c : Connection) (sender : Sender) {r r' : RunRequest} (h : r.blind = r'.blind) :
    Alike (.send c sender (.run r)) (.send c sender (.run r')) (Outcomes Eq)
  | begin (c : Connection) (sender : Sender) {r r' : WorkRequest} (h : r.blind = r'.blind) :
    Alike (.send c sender (.begin r)) (.send c sender (.begin r')) (Outcomes Eq)
  | send (c : Connection) (sender : Sender) (m : Message) :
    Alike (.send c sender m) (.send c sender m) (Outcomes Eq)
  | release (c : Connection) : Alike (.release c) (.release c) Eq
  | pausing {r : Request} (h : r.IsPausing) : Alike r r Eq

/-- From states that `R` relates, the surroundings answer requests alike and come to states that `R`
    relates. -/
structure Peer.Alike (R : ω → ω → Prop) (p q : Peer ω) : Prop where
  routing : p.routing = q.routing
  answer : ∀ {r r' : Request} {Q : r.Answer → r'.Answer → Prop}, r.Alike r' Q → ∀ {w v}, R w v →
    Q (p.answer r w).1 (q.answer r' v).1 ∧ R (p.answer r w).2 (q.answer r' v).2

/-- The states are the same, but for the bookmarks that were sent and for the history. -/
structure State.Twin (R : ω → ω → Prop) (σ τ : State (Recorded ω)) : Prop where
  session : σ.session.blind = τ.session.blind
  world : R σ.world.world τ.world.world

/-- From twin states two actions are answered as `Q` says and lead to twin states. -/
def Act.Twins (R : ω → ω → Prop) (Q : α → α' → Prop) (x : Act (Recorded ω) α)
    (y : Act (Recorded ω) α') : Prop :=
  ∀ σ τ, State.Twin R σ τ → Q (x.exec σ).1 (y.exec τ).1 ∧ State.Twin R (x.exec σ).2 (y.exec τ).2

/-- From twin states two actions that may fail do so with the same fault, or are answered as `Q`
    says, and lead to twin states. -/
def Op.Twins (R : ω → ω → Prop) (Q : α → α' → Prop) (x : Op (Recorded ω) α)
    (y : Op (Recorded ω) α') : Prop :=
  Act.Twins R (Outcomes Q) x.run y.run

variable {R : ω → ω → Prop} {Q : α → α' → Prop} {P : β → β' → Prop}

/-! ## Actions that always succeed -/

namespace Act.Twins

theorem pure {a : α} {b : α'} (h : Q a b) : Act.Twins R Q (Pure.pure a) (Pure.pure b) :=
  fun _ _ twin => ⟨h, twin⟩

theorem bind {x : Act (Recorded ω) β} {y : Act (Recorded ω) β'} {f : β → Act (Recorded ω) α}
    {g : β' → Act (Recorded ω) α'} (hx : Act.Twins R P x y)
    (hf : ∀ a b, P a b → Act.Twins R Q (f a) (g b)) : Act.Twins R Q (x >>= f) (y >>= g) := by
  intro σ τ twin
  obtain ⟨same, twin⟩ := hx σ τ twin
  exact hf _ _ same _ _ twin

/-- What follows on the same answer. -/
theorem andThen {x y : Act (Recorded ω) β} {f : β → Act (Recorded ω) α}
    {g : β → Act (Recorded ω) α'} (hx : Act.Twins R Eq x y)
    (hf : ∀ b, Act.Twins R Q (f b) (g b)) : Act.Twins R Q (x >>= f) (y >>= g) :=
  hx.bind fun b _ same => same ▸ hf b

/-- What follows on the same outcome of an action that may fail. -/
theorem run_bind {x y : Op (Recorded ω) β} {f : Except Fault β → Act (Recorded ω) α}
    {g : Except Fault β → Act (Recorded ω) α'} (hx : Op.Twins R Eq x y)
    (hf : ∀ outcome, Act.Twins R Q (f outcome) (g outcome)) :
    Act.Twins R Q (x.run >>= f) (y.run >>= g) :=
  bind hx fun o _ same => same.eq ▸ hf o

/-- The session is looked at. -/
theorem theSession {f : Session → Act (Recorded ω) α} {g : Session → Act (Recorded ω) α'}
    (h : ∀ s t, s.blind = t.blind → Act.Twins R Q (f s) (g t)) :
    Act.Twins R Q (GraphSession.theSession >>= f) (GraphSession.theSession >>= g) :=
  fun σ τ twin => h _ _ twin.session σ τ twin

/-- The session is looked at, and what was sent does not matter. -/
theorem read {f : Session → Act (Recorded ω) α} {g : Session → Act (Recorded ω) α'}
    (left : ∀ s, f s = f s.blind) (right : ∀ s, g s = g s.blind)
    (h : ∀ s, Act.Twins R Q (f s) (g s)) :
    Act.Twins R Q (GraphSession.theSession >>= f) (GraphSession.theSession >>= g) := by
  refine theSession fun s t same => ?_
  rw [left s, right t, same]
  exact h _

theorem changeSession {f : Session → Session} (h : ∀ s, (f s).blind = f s.blind) :
    Act.Twins R Eq (GraphSession.changeSession f) (GraphSession.changeSession f) := by
  intro σ τ twin
  have same : (f σ.session).blind = (f τ.session).blind := by
    rw [h σ.session, h τ.session, twin.session]
  exact ⟨rfl, same, twin.world⟩

theorem changeResult {id : ResultId} {f : Result → Result} (h : ∀ r, (f r).blind = f r.blind) :
    Act.Twins R Eq (GraphSession.changeResult id f) (GraphSession.changeResult id f) :=
  changeSession fun s => by rw [s.blind_setResult, h, s.result_blind]

theorem changeTransaction {id : TransactionId} {f : Transaction → Transaction}
    (h : ∀ v, (f v).blind = f v.blind) :
    Act.Twins R Eq (GraphSession.changeTransaction id f) (GraphSession.changeTransaction id f) :=
  changeSession fun s => by rw [s.blind_setTransaction, h, s.transaction_blind]

end Act.Twins

/-! ## Actions that may fail -/

namespace Op.Twins

theorem pure {a : α} {b : α'} (h : Q a b) : Op.Twins R Q (Pure.pure a) (Pure.pure b) :=
  fun _ _ twin => ⟨.ok h, twin⟩

theorem throw (fault : Fault) :
    Op.Twins R Q (MonadExcept.throw fault) (MonadExcept.throw fault) :=
  fun _ _ twin => ⟨.error fault, twin⟩

theorem bind {x : Op (Recorded ω) β} {y : Op (Recorded ω) β'} {f : β → Op (Recorded ω) α}
    {g : β' → Op (Recorded ω) α'} (hx : Op.Twins R P x y)
    (hf : ∀ a b, P a b → Op.Twins R Q (f a) (g b)) : Op.Twins R Q (x >>= f) (y >>= g) := by
  have follows {o : Except Fault β} {o' : Except Fault β'} (same : Outcomes P o o') :
      Act.Twins R (Outcomes Q) (ExceptT.bindCont f o) (ExceptT.bindCont g o') := by
    cases same with
    | ok same => exact hf _ _ same
    | error fault => exact throw fault
  exact Act.Twins.bind hx fun _ _ same => follows same

/-- What follows on the same answer. -/
theorem andThen {x y : Op (Recorded ω) β} {f : β → Op (Recorded ω) α} {g : β → Op (Recorded ω) α'}
    (hx : Op.Twins R Eq x y) (hf : ∀ b, Op.Twins R Q (f b) (g b)) :
    Op.Twins R Q (x >>= f) (y >>= g) :=
  hx.bind fun b _ same => same ▸ hf b

theorem lift {x : Act (Recorded ω) α} {y : Act (Recorded ω) α'} (h : Act.Twins R Q x y) :
    Op.Twins R Q (liftM x : Op (Recorded ω) α) (liftM y : Op (Recorded ω) α') := by
  intro σ τ twin
  obtain ⟨same, twin⟩ := h σ τ twin
  exact ⟨.ok same, twin⟩

/-- What follows on an action that always succeeds. -/
theorem liftThen {x y : Act (Recorded ω) β} {f : β → Op (Recorded ω) α}
    {g : β → Op (Recorded ω) α'} (hx : Act.Twins R Eq x y)
    (hf : ∀ b, Op.Twins R Q (f b) (g b)) :
    Op.Twins R Q ((liftM x : Op (Recorded ω) β) >>= f) ((liftM y : Op (Recorded ω) β) >>= g) :=
  andThen (lift hx) hf

/-- What follows on the outcome of an action. -/
theorem attempt_bind {x : Op (Recorded ω) β} {y : Op (Recorded ω) β'}
    {f : Except Fault β → Op (Recorded ω) α} {g : Except Fault β' → Op (Recorded ω) α'}
    (hx : Op.Twins R P x y) (ok : ∀ a b, P a b → Op.Twins R Q (f (.ok a)) (g (.ok b)))
    (error : ∀ fault, Op.Twins R Q (f (.error fault)) (g (.error fault))) :
    Op.Twins R Q (attempt x >>= f) (attempt y >>= g) := by
  have follows {o : Except Fault β} {o' : Except Fault β'} (same : Outcomes P o o') :
      Op.Twins R Q (f o) (g o') := by
    cases same with
    | ok same => exact ok _ _ same
    | error fault => exact error fault
  intro σ τ twin
  obtain ⟨same, twin⟩ := hx σ τ twin
  exact follows same _ _ twin

/-- What follows on the same outcome. -/
theorem attemptThen {x y : Op (Recorded ω) β} {f : Except Fault β → Op (Recorded ω) α}
    {g : Except Fault β → Op (Recorded ω) α'} (hx : Op.Twins R Eq x y)
    (hf : ∀ outcome, Op.Twins R Q (f outcome) (g outcome)) :
    Op.Twins R Q (attempt x >>= f) (attempt y >>= g) :=
  hx.attempt_bind (fun b _ same => same ▸ hf (.ok b)) fun fault => hf (.error fault)

theorem settleOn (outcome : Except Fault α) :
    Op.Twins R Eq (GraphSession.settleOn outcome) (GraphSession.settleOn outcome) :=
  fun _ _ twin => ⟨.refl outcome, twin⟩

theorem failIf (fault : Option Fault) :
    Op.Twins R Eq (GraphSession.failIf fault) (GraphSession.failIf fault) := by
  cases fault with
  | none => exact pure rfl
  | some fault => exact throw fault

/-- The session is looked at. -/
theorem theSession {f : Session → Op (Recorded ω) α} {g : Session → Op (Recorded ω) α'}
    (h : ∀ s t, s.blind = t.blind → Op.Twins R Q (f s) (g t)) :
    Op.Twins R Q (GraphSession.theSession >>= f) (GraphSession.theSession >>= g) :=
  Act.Twins.theSession h

/-- The session is looked at, and what was sent does not matter. -/
theorem read {f : Session → Op (Recorded ω) α} {g : Session → Op (Recorded ω) α'}
    (left : ∀ s, f s = f s.blind) (right : ∀ s, g s = g s.blind)
    (h : ∀ s, Op.Twins R Q (f s) (g s)) :
    Op.Twins R Q (GraphSession.theSession >>= f) (GraphSession.theSession >>= g) :=
  Act.Twins.read left right h

theorem changeSession {f : Session → Session} (h : ∀ s, (f s).blind = f s.blind) :
    Op.Twins R Eq (GraphSession.changeSession f) (GraphSession.changeSession f) :=
  .lift (.changeSession h)

theorem changeResult {id : ResultId} {f : Result → Result} (h : ∀ r, (f r).blind = f r.blind) :
    Op.Twins R Eq (GraphSession.changeResult id f) (GraphSession.changeResult id f) :=
  .lift (.changeResult h)

theorem changeTransaction {id : TransactionId} {f : Transaction → Transaction}
    (h : ∀ v, (f v).blind = f v.blind) :
    Op.Twins R Eq (GraphSession.changeTransaction id f) (GraphSession.changeTransaction id f) :=
  .lift (.changeTransaction h)

/-- The same action for one result after the other. -/
theorem forM {f g : ResultId → Op (Recorded ω) Unit} (h : ∀ id, Op.Twins R Eq (f id) (g id))
    (ids : List ResultId) : Op.Twins R Eq (ids.forM f) (ids.forM g) := by
  induction ids with
  | nil => exact pure rfl
  | cons id rest ih => exact andThen (h id) fun _ => ih

/-- An outcome of the one action, and where it leads, as met by the other. -/
theorem meet {x y : Op (Recorded ω) β} (h : Op.Twins R Eq x y) {σ τ σ' : State (Recorded ω)}
    (twin : State.Twin R σ τ) {outcome : Except Fault β} (e : x.exec σ = (outcome, σ')) :
    ∃ τ', y.exec τ = (outcome, τ') ∧ State.Twin R σ' τ' := by
  obtain ⟨same, next⟩ := h σ τ twin
  rw [Act.exec_run, Act.exec_run, e] at same
  rw [Act.exec_run, Act.exec_run, e] at next
  exact ⟨(y.exec τ).2, Prod.ext same.eq.symm rfl, next⟩

/-- The history goes on. -/
theorem log (e : Happening) :
    Op.Twins R Eq (modify fun σ : State (Recorded ω) => { σ with world := σ.world.add e })
      (modify fun σ : State (Recorded ω) => { σ with world := σ.world.add e }) :=
  fun _ _ twin => ⟨.ok rfl, twin.session, twin.world⟩

/-- The surroundings change by themselves. -/
theorem drift {f g : ω → ω} (h : ∀ w v, R w v → R (f w) (g v)) :
    Op.Twins R Eq
      (modify fun σ : State (Recorded ω) =>
        { σ with world := { σ.world with world := f σ.world.world } })
      (modify fun σ : State (Recorded ω) =>
        { σ with world := { σ.world with world := g σ.world.world } }) :=
  fun _ _ twin => ⟨.ok rfl, twin.session, h _ _ twin.world⟩

/-- A result and its twin are given the same number. -/
theorem addResult {r r' : Result} (h : r.blind = r'.blind) :
    Op.Twins R Eq (GraphSession.addResult r) (GraphSession.addResult r') := by
  intro σ τ twin
  have number : σ.session.nextResult = τ.session.nextResult := by
    rw [← σ.session.nextResult_blind, twin.session, τ.session.nextResult_blind]
  have grown : (σ.session.withResult r).blind = (τ.session.withResult r').blind := by
    rw [σ.session.blind_withResult, twin.session, h, τ.session.blind_withResult]
  exact ⟨.ok number, grown, twin.world⟩

/-- A transaction and its twin are given the same number. -/
theorem addTransaction {v v' : Transaction} (h : v.blind = v'.blind) :
    Op.Twins R Eq (GraphSession.addTransaction v) (GraphSession.addTransaction v') := by
  intro σ τ twin
  have number : σ.session.nextTransaction = τ.session.nextTransaction := by
    rw [← σ.session.nextTransaction_blind, twin.session, τ.session.nextTransaction_blind]
  have grown : (σ.session.withTransaction v).blind = (τ.session.withTransaction v').blind := by
    rw [σ.session.blind_withTransaction, twin.session, h, τ.session.blind_withTransaction]
  exact ⟨.ok number, grown, twin.world⟩

end Op.Twins

/-! ## Requests -/

section Requests

variable {p q : Peer ω} (alike : Peer.Alike R p q)

include alike

theorem ask_twins {r r' : Request} {Q : r.Answer → r'.Answer → Prop} (h : r.Alike r' Q) :
    Act.Twins R Q (ask p.recorded r) (ask q.recorded r') := by
  intro σ τ twin
  obtain ⟨same, world⟩ := alike.answer h twin.world
  exact ⟨same, twin.session, world⟩

theorem note_twins (event : Event) :
    Act.Twins R Eq (note p.recorded event) (note q.recorded event) :=
  ask_twins alike (.pausing trivial)

theorem giveBack_twins (c : Connection) :
    Act.Twins R Eq (giveBack p.recorded c) (giveBack q.recorded c) :=
  ask_twins alike (.release c)

theorem send_twins (c : Connection) (sender : Sender) (m : Message) :
    Op.Twins R Eq (send p.recorded c sender m) (send q.recorded c sender m) :=
  ask_twins alike (.send c sender m)

theorem borrow_twins {r r' : AcquireRequest} (h : r.blind = r'.blind) :
    Op.Twins R Eq (borrow p.recorded r) (borrow q.recorded r') :=
  ask_twins alike (.acquire h)

theorem askHomes_twins {r r' : RoutingRequest} (h : r.blind = r'.blind) :
    Op.Twins R Eq (askHomes p.recorded r) (askHomes q.recorded r') :=
  ask_twins alike (.findHome h)

theorem reportBookmarks_twins (previous previous' new : Bookmarks) :
    Op.Twins R Eq (reportBookmarks p.recorded previous new)
      (reportBookmarks q.recorded previous' new) :=
  ask_twins alike (.updateBookmarks previous previous' new)

theorem sendHeld_twins {sender : Sender} {m m' : Message} {Q : m.Reply → m'.Reply → Prop}
    (h : ∀ c, (Request.send c sender m).Alike (.send c sender m') (Outcomes Q)) :
    Op.Twins R Q (sendHeld p.recorded sender m) (sendHeld q.recorded sender m') := by
  refine .read (fun _ => rfl) (fun _ => rfl) fun s => ?_
  cases s.connection with
  | none => exact .throw .noConnection
  | some c => exact ask_twins alike (h c)

theorem runHeld_twins (id : ResultId) {r r' : RunRequest} (h : r.blind = r'.blind) :
    Op.Twins R Eq (runHeld p.recorded id r) (runHeld q.recorded id r') := by
  have sent (c : Connection) : (Request.send c (.result id) (.run r)).Alike
      (.send c (.result id) (.run r')) (Outcomes Eq) := .run c _ h
  exact sendHeld_twins alike sent

theorem beginHeld_twins (id : TransactionId) {r r' : WorkRequest} (h : r.blind = r'.blind) :
    Op.Twins R Eq (beginHeld p.recorded id r) (beginHeld q.recorded id r') := by
  have sent (c : Connection) : (Request.send c (.transaction id) (.begin r)).Alike
      (.send c (.transaction id) (.begin r')) (Outcomes Eq) := .begin c _ h
  exact sendHeld_twins alike sent

end Requests

end GraphSession
