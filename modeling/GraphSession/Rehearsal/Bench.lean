import GraphSession.Blocking.Execute
import GraphSession.Blocking.Handle
import GraphSession.Rehearsal.Scenario

/-!
  Playing a scenario.

  The bench holds the surroundings, the sessions and what is kept under names.  A transaction
  function is played as `Work` whose surroundings are the bench, so it can use whatever is kept
  there; handles of other sessions are reached through the bench.
-/

namespace GraphSession.Rehearsal

variable {ρ α : Type}

/-- A session on the bench.  What it gave out can be used after it was let go of. -/
structure Seat where
  session : Session
  dropped : Bool := false

/-- A place that was never taken. -/
def Seat.absent : Seat := ⟨.ofConfig {}, true⟩

/-- What is kept under a name. -/
structure Handle where
  /-- The number of the session. -/
  session : Nat
  id : Nat
  /-- Whether it is the transaction of a transaction function. -/
  managed : Bool := false

/-- Everything a scenario is played with. -/
structure Bench (ρ : Type) where
  /-- Whether callers wait for each call. -/
  blocking : Bool
  surroundings : Surroundings (Mark ρ)
  seats : List Seat
  results : Fields Handle := .empty
  transactions : Fields Handle := .empty

/-- Nobody waits for more attempts than this. -/
def patience : Nat := 1000000000

namespace Bench

/-- The surroundings as the sessions of the bench see them. -/
def peer (b : Bench ρ) : Peer (Bench ρ) :=
  (Surroundings.peer b.surroundings.pool.isRouting).within surroundings
    (fun surroundings b => { b with surroundings }) (fun _ _ => rfl)

def seat (b : Bench ρ) (number : Nat) : Seat := b.seats.getD number .absent

def changeStage (b : Bench ρ) (f : Stage (Mark ρ) → Stage (Mark ρ)) : Bench ρ :=
  { b with surroundings := { b.surroundings with stage := f b.surroundings.stage } }

def now (b : Bench ρ) : Instant := b.surroundings.stage.now

/-- Writes a mark into the log. -/
def write (b : Bench ρ) (mark : Mark ρ) : Bench ρ := b.changeStage (·.write (.mark mark))

/-- Lets one of the sessions act. -/
def act (b : Bench ρ) (number : Nat) (action : Act (Bench ρ) α) : α × Bench ρ :=
  let seat := b.seat number
  let (a, s) := action.exec ⟨seat.session, b⟩
  (a, { s.world with seats := s.world.seats.set number { seat with session := s.session } })

def keepResult (b : Bench ρ) (name : String) (h : Handle) : Bench ρ :=
  { b with results := b.results.insert name h }

def forgetResult (b : Bench ρ) (name : String) : Bench ρ :=
  { b with results := b.results.erase name }

def keepTransaction (b : Bench ρ) (name : String) (h : Handle) : Bench ρ :=
  { b with transactions := b.transactions.insert name h }

def forgetTransaction (b : Bench ρ) (name : String) : Bench ρ :=
  { b with transactions := b.transactions.erase name }

end Bench

/-! ### Handles -/

/-- The code of functions over a bench. -/
abbrev Play (ρ : Type) := Work (Bench ρ)

/-- Looks at the bench. -/
def theBench : Play ρ (Bench ρ) := .look pure

/-- Changes the bench. -/
def changeBench (f : Bench ρ → Bench ρ) : Play ρ Unit := .change f (pure ())

/-- Makes an access to a session, from code that runs on the session `here`. -/
def reach (here there : Nat) (a : Access) : Play ρ a.Reply :=
  if here = there then .access a
  else .look fun b =>
    let (outcome, b) := b.act there (a.perform b.peer).run
    .change (fun _ => b) (.done outcome)

/-- Keeps a transaction under a name and lets go of what was there before. -/
def replaceTransaction (here : Nat) (name : String) (h : Handle) : Play ρ Unit := do
  let old := (← theBench).transactions.get? name
  changeBench (·.keepTransaction name h)
  match old with
  | some old => reach here old.session (.drop old.id)
  | none => pure ()

/-- A step with a result. -/
def ResultStep.play (here : Nat) (name : String) (h : Handle) : ResultStep → Play ρ (Answer ρ)
  | next => do return .record (← reach here h.session (.next h.id))
  | peek => do return .record (← reach here h.session (.peek h.id))
  | single => do return .record (some (← reach here h.session (.single h.id)))
  | collect => do return .records (← reach here h.session (.collect h.id))
  | drain => do
    changeBench (·.forgetResult name)
    let (records, fault) ← reach here h.session (.drain h.id)
    return .items records fault
  | consume => do return .summary (← reach here h.session (.consume h.id))
  | isOpen => do return .flag (← reach here h.session (.viewResult h.id)).isOpen
  | keys => do return .keys (← reach here h.session (.viewResult h.id)).keys
  | debug => do
    let view ← reach here h.session (.viewResult h.id)
    return .text (if (← theBench).blocking then Blocking.debugResult view else view.debug)
  | drop => do
    changeBench (·.forgetResult name)
    return .nothing

/-- A step with a transaction.  Only the caller who began a transaction can end it or ask for its
    state. -/
def TransactionStep.play (here : Nat) (name : String) (h : Handle) :
    TransactionStep → Play ρ (Answer ρ)
  | run source params keep => do
    let id ← reach here h.session (.run h.id source params)
    changeBench (·.keepResult keep ⟨h.session, id, false⟩)
    return .keys (← reach here h.session (.viewResult id)).keys
  | commit => own (do reach here h.session (.commit h.id); return .nothing)
  | rollback => own (do reach here h.session (.rollback h.id); return .nothing)
  | close => own (do reach here h.session (.close h.id); return .nothing)
  | state => own (do return .state (← reach here h.session (.viewTransaction h.id)).state)
  | isOpen => do
    return .flag !(← reach here h.session (.viewTransaction h.id)).state.isTerminated
  | debug => do
    let view ← reach here h.session (.viewTransaction h.id)
    return .text (if (← theBench).blocking then Blocking.debugTransaction view else view.debug)
  | drop => do
    changeBench (·.forgetTransaction name)
    reach here h.session (.drop h.id)
    return .nothing
where
  own (play : Play ρ (Answer ρ)) : Play ρ (Answer ρ) :=
    if h.managed then pure (.missing name) else play

/-- The handle a step names, if it is there. -/
def HandleStep.handle? (b : Bench ρ) : HandleStep → Option Handle
  | result name _ => b.results.get? name
  | transaction name _ => b.transactions.get? name

/-- Whether a step only lets go of something. -/
def HandleStep.isDrop : HandleStep → Bool
  | result _ .drop | transaction _ .drop => true
  | _ => false

/-- A step with what is kept under a name, from code that runs on the session `here`.  A caller that
    waits for each call can let go of what is not there. -/
def HandleStep.play (here : Nat) (step : HandleStep) : Play ρ (Answer ρ) := do
  let b ← theBench
  match step, step.handle? b with
  | .result name _, none | .transaction name _, none =>
    return if b.blocking && step.isDrop then .nothing else .missing name
  | .result name step, some h => step.play here name h
  | .transaction name step, some h => step.play here name h

/-! ### Transaction functions -/

/-- A step of a transaction function. -/
def InnerStep.play (here : Nat) (id : TransactionId) : InnerStep → Play ρ (Answer ρ)
  | run source params keep => do
    let result ← .access (.run id source params)
    changeBench (·.keepResult keep ⟨here, result, false⟩)
    return .keys (← .access (.viewResult result)).keys
  | save keep => do
    replaceTransaction here keep ⟨here, id, true⟩
    return .nothing
  | isOpen => do return .flag !(← .access (.viewTransaction id)).state.isTerminated
  | debug => do
    let view ← .access (.viewTransaction id)
    return .text (if (← theBench).blocking then Blocking.debugTransaction view else view.debug)
  | handle step => step.play here

/-- The steps of a transaction function, one after the other.  Each is logged; the first fault that
    is not caught ends the function. -/
def playSteps (here : Nat) (id : TransactionId) : List (Labelled InnerStep) → Play ρ Unit
  | [] => pure ()
  | l :: rest => do
    let outcome ← (l.step.play here id).outcome
    changeBench (·.write (.step l.label outcome))
    match outcome with
    | .ok _ => playSteps here id rest
    | .error fault => if l.caught then playSteps here id rest else throw fault

/-- A transaction function that plays a plan. -/
def Plan.play (here : Nat) (p : Plan ρ) : TransactionFunction (Bench ρ) ρ := fun calls id => do
  changeBench fun b => b.write (.attempt (calls + 1) b.now)
  let attempt := p.attempt calls
  playSteps here id attempt.steps
  .done attempt.finish

/-! ### Steps -/

/-- Code that plays a scenario. -/
abbrev Direct (ρ : Type) := StateM (Bench ρ)

/-- The answer to a step, or its fault. -/
abbrev Reply (ρ : Type) := Except Fault (Answer ρ)

/-- Lets one of the sessions act. -/
def onSeat (number : Nat) (action : Act (Bench ρ) α) : Direct ρ α := modifyGet (·.act number action)

/-- Plays code on the session that a handle belongs to. -/
def playHandle (step : HandleStep) : Direct ρ (Reply ρ) := do
  let b ← get
  let here := ((step.handle? b).map Handle.session).getD 0
  onSeat here ((step.play here).perform b.peer).run

/-- The reply to a series of attempts. -/
def replyOf (give : α → Answer ρ) : Option (Except Fault α) → Reply ρ
  | none => .ok .unfinished
  | some outcome => outcome.map give

/-- A step with a session. -/
def SessionStep.play (number : Nat) (step : SessionStep ρ) : Direct ρ (Reply ρ) := do
  let b ← get
  let peer := b.peer
  match step with
  | run source params keep =>
    match ← onSeat number (GraphSession.run peer source params).run with
    | .error fault => return .error fault
    | .ok id =>
      modify (·.keepResult keep ⟨number, id, false⟩)
      return .ok (.keys (((← get).seat number).session.result id).keys)
  | begin config keep =>
    match ← onSeat number (beginTransaction peer config).run with
    | .error fault => return .error fault
    | .ok id =>
      let kept : Play ρ Unit := replaceTransaction number keep ⟨number, id, false⟩
      let _ ← onSeat number (kept.perform peer).run
      return .ok .nothing
  | executeQuery source params kind =>
    let outcome ← onSeat number (GraphSession.executeQuery peer source params kind patience)
    return replyOf .eager outcome
  | execute kind config renamed plan =>
    let work := plan.play number
    let outcome ← onSeat number <|
      if b.blocking then Blocking.execute peer kind config patience work
      else if renamed then executeRenamed peer kind patience work
      else GraphSession.execute peer kind config patience work
    return replyOf .returned outcome
  | lastBookmarks =>
    return (← onSeat number (GraphSession.lastBookmarks peer).run).map .bookmarks
  | lastBookmark => return (← onSeat number (GraphSession.lastBookmark peer).run).map .bookmark
  | serverInfo =>
    return (← onSeat number (GraphSession.serverInfo peer).run).map fun info => .text info.text
  | close =>
    onSeat number (GraphSession.close peer)
    return .ok .nothing
  | debug =>
    let session := (b.seat number).session
    return .ok (.text (if b.blocking then Blocking.debugSession session else session.debug))
  | mode => return .ok (.mode (b.seat number).session.config.defaultMode)

/-- The steps of a function that has a session to itself. -/
def playEnclosed (number : Nat) : List (Labelled (EnclosedStep ρ)) → Direct ρ (Except Fault Unit)
  | [] => return .ok ()
  | l :: rest => do
    let reply ← match l.step with
      | .session step => step.play number
      | .handle step => playHandle step
    modify (·.write (.step l.label reply))
    match reply with
    | .ok _ => playEnclosed number rest
    | .error fault => if l.caught then playEnclosed number rest else return .error fault

/-- Nobody uses a session any more. -/
def Bench.leaveSeat (b : Bench ρ) (number : Nat) : Bench ρ :=
  { b with seats := b.seats.modify number ({ · with dropped := true }) }

/-- A step of a scenario. -/
def Step.play (step : Step ρ) : Direct ρ (Reply ρ) := do
  let b ← get
  match step with
  | session number step =>
    if (b.seat number).dropped then return .ok (.missing "session") else step.play number
  | handle step => playHandle step
  | enclosed number body =>
    if (b.seat number).dropped then return .ok (.missing "session")
    let played ← playEnclosed number body.steps
    onSeat number (GraphSession.close b.peer)
    modify (·.leaveSeat number)
    match played with
    | .error fault => return .error fault
    | .ok () => return body.finish.map .returned
  | drop number =>
    if (b.seat number).dropped then
      return .ok (if b.blocking then .nothing else .missing "session")
    onSeat number (if b.blocking then Blocking.abandon b.peer else abandon b.peer)
    modify (·.leaveSeat number)
    return .ok .nothing
  | advance time =>
    modify (·.changeStage fun s => { s with now := s.now + time.nanos })
    return .ok .nothing
  | metrics => return .ok (.metrics b.surroundings.pool.metrics?)

/-- What is seen of a session: whether it holds a connection and whether it is open. -/
def Seat.glance (s : Seat) : Option (Bool × Bool) :=
  if s.dropped then none else some (s.session.hasConnection, s.session.isOpen)

/-- What is seen of a step. -/
structure Report (ρ : Type) where
  reply : Reply ρ
  log : List (Entry (Mark ρ))
  seats : List (Option (Bool × Bool))
  now : Instant

/-- What was logged; the log is then empty. -/
def takeLog : Direct ρ (List (Entry (Mark ρ))) := modifyGet fun b =>
  let (log, stage) := b.surroundings.stage.takeLog
  (log, b.changeStage fun _ => stage)

/-- Plays a step and reports on it. -/
def report (step : Step ρ) : Direct ρ (Report ρ) := do
  let reply ← step.play
  let log ← takeLog
  let b ← get
  return { reply, log, seats := b.seats.map Seat.glance, now := b.now }

/-- Lets go of the transactions that are kept, by name. -/
def dropTransactions : List (String × Handle) → Direct ρ Unit
  | [] => pure ()
  | (_, h) :: rest => do
    onSeat h.session (dropHandle (← get).peer h.id)
    dropTransactions rest

/-- Lets go of the sessions with these numbers where nothing can be sent any more. -/
def dropUnattended : List Nat → Direct ρ Unit
  | [] => pure ()
  | number :: rest => do
    let b ← get
    if !(b.seat number).dropped then onSeat number (abandonUnattended b.peer)
    dropUnattended rest

/-- Lets go of everything where nothing can be sent any more; what was logged. -/
def leave : Direct ρ (List (Entry (Mark ρ))) := do
  let b ← get
  dropTransactions b.transactions.entries
  dropUnattended (List.range b.seats.length)
  takeLog

/-- A bench for a scenario. -/
def Bench.ofScript (blocking : Bool) (script : Script) (pool : PoolSide) (manager : Option Manager)
    (sessions : List SessionConfig) : Bench ρ :=
  { blocking
    surroundings := { stage := .ofScript script, pool, manager }
    seats := sessions.map fun config => { session := .ofConfig config } }

/-- Plays a scenario: the reports on its steps, and the bench afterwards. -/
def Bench.play (b : Bench ρ) (steps : List (Step ρ)) : List (Report ρ) × Bench ρ :=
  (steps.mapM report).run b

end GraphSession.Rehearsal
