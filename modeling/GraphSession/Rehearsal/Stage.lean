import GraphSession.Bookmarks.Keeper
import GraphSession.Pool.Borrowing

/-!
  A server that answers by a script.

  A rehearsal puts a session in front of scripted surroundings and keeps a log of what they were
  asked.  The stage is the part that server and connections share: the responses to give, the
  failures to have, the streams that are open, the clock and the log.

  Each request is logged before anything else; then the failures of the script decide whether it
  fails, and only one that does not is answered.
-/

namespace GraphSession.Rehearsal

variable {μ : Type}

/-- A place where the script may fail. -/
inductive FailPoint
  | connect
  | acquire
  | findHome
  | authenticate
  | telemetry
  | run
  | pull
  | discard
  | begin
  | commit
  | rollback
  | reset
  | getBookmarks
  | updateBookmarks
  deriving DecidableEq, Repr

/-- A failure of the script: it lets some requests at its place pass and fails the next ones. -/
structure Mishap where
  point : FailPoint
  /-- How many requests pass first. -/
  after : Nat := 0
  /-- How many requests fail then. -/
  times : Nat := 1
  /-- Whether the connection that was asked is unhealthy from then on. -/
  breaks : Bool := false
  fault : Fault

/-- What the server answers to one query. -/
structure Response where
  keys : List String := []
  records : List (List Value) := []
  runDatabase : Option String := none
  runMetadata : Metadata := .empty
  doneMetadata : Metadata := .empty
  deriving Inhabited

/-- The response of a server without a script: one record with the number one. -/
def Response.usual : Response :=
  { keys := ["n"], records := [[.integer 1]]
    doneMetadata := .ofList [("bookmark", .string "res:bm1")] }

/-- A script.  Of several responses the last is repeated, and so is the last bookmark of a
    commit. -/
structure Script where
  responses : List Response := []
  commitBookmarks : List (Option String) := []
  beginDatabase : Option String := none
  mishaps : List Mishap := []
  server : ServerInfo := ⟨⟨"localhost", ServerAddress.defaultPort⟩, "Neo4j/5.13.0", "5.4"⟩
  /-- Whether connections know nothing of authentication and never break. -/
  plainConnections : Bool := false
  /-- Whether the log shows what the journal is told. -/
  trace : Bool := false

/-- Something that the log shows; `μ` is what callers write into it themselves. -/
inductive Entry (μ : Type)
  | connect
  | acquire (request : AcquireRequest)
  | release (connection : Nat)
  | findHome (request : RoutingRequest)
  | authenticate (connection : Nat) (auth : Option AuthToken)
  | message (connection : Nat) (message : Message)
  | getBookmarks
  | updateBookmarks (previous new : Bookmarks)
  | event (event : Event)
  | mark (mark : μ)

/-- Records on their way on a connection. -/
structure OpenStream where
  records : List (List Value)
  doneMetadata : Metadata

/-- The server's end of a connection. -/
structure Line where
  stream : Option OpenStream := none
  healthy : Bool := true

/-- The records that are left on a connection. -/
def Line.left (l : Line) : Nat := (l.stream.map fun s => s.records.length).getD 0

/-- The state of server and connections. -/
structure Stage (μ : Type) where
  script : Script
  /-- The failures still to come. -/
  mishaps : List Mishap
  /-- The connections, numbered from one. -/
  lines : List Line := []
  /-- How many queries and commits succeeded. -/
  runs : Nat := 0
  commits : Nat := 0
  now : Instant := 0
  /-- What was logged since the log was last taken, latest first. -/
  log : List (Entry μ) := []

/-- The element at an index, or the last one. -/
def pick? {α : Type} (l : List α) (index : Nat) : Option α := l[min index (l.length - 1)]?

/-- Whether a request at a place fails, and the failures that are left.  The first failure of that
    place decides. -/
def consult (point : FailPoint) : List Mishap → Option Mishap × List Mishap
  | [] => (none, [])
  | m :: rest =>
    if m.point ≠ point then
      let (found, rest) := consult point rest
      (found, m :: rest)
    else if 0 < m.after then (none, { m with after := m.after - 1 } :: rest)
    else (some m, if m.times ≤ 1 then rest else { m with times := m.times - 1 } :: rest)

/-- Where a message may fail. -/
def failPoint : Message → FailPoint
  | .telemetry _ => .telemetry
  | .run _ => .run
  | .pull _ => .pull
  | .discard => .discard
  | .begin _ => .begin
  | .commit => .commit
  | .rollback => .rollback
  | .reset => .reset

/-- The fault of a connection that is asked for records without a query. -/
def noOpenStream (request : String) : Fault :=
  .plain .protocol (request ++ " without an open stream")

namespace Stage

/-- The beginning of a rehearsal. -/
def ofScript (script : Script) : Stage μ := { script, mishaps := script.mishaps }

def write (s : Stage μ) (entry : Entry μ) : Stage μ := { s with log := entry :: s.log }

/-- What was logged, first entry first; the log is then empty. -/
def takeLog (s : Stage μ) : List (Entry μ) × Stage μ := (s.log.reverse, { s with log := [] })

/-- Tells the journal. -/
def tell (s : Stage μ) (event : Event) : Stage μ :=
  if s.script.trace then s.write (.event event) else s

/-- Lets time pass until a timer rings. -/
def waitUntil (t : Instant) (s : Stage μ) : Stage μ := { s with now := max s.now t }

/-- The server's end of a connection. -/
def line? (s : Stage μ) (connection : Nat) : Option Line := s.lines[connection - 1]?

/-- Changes the server's end of a connection. -/
def changeLine (s : Stage μ) (connection : Nat) (f : Line → Line) : Stage μ :=
  { s with lines := s.lines.modify (connection - 1) f }

/-- A connection is unhealthy from now on. -/
def breakLine (s : Stage μ) (connection : Nat) : Stage μ :=
  s.changeLine connection ({ · with healthy := false })

def setStream (s : Stage μ) (connection : Nat) (stream : Option OpenStream) : Stage μ :=
  s.changeLine connection ({ · with stream })

/-- A new connection. -/
def addLine (s : Stage μ) : Connection × Stage μ :=
  (⟨s.lines.length + 1, s.script.server⟩, { s with lines := s.lines ++ [{}] })

/-- Logs a request and lets it fail if the script says so. -/
def attend (s : Stage μ) (entry : Entry μ) (point : FailPoint) (connection : Option Nat) :
    Option Fault × Stage μ :=
  let (found, mishaps) := consult point s.mishaps
  let s := { s.write entry with mishaps }
  match found, connection with
  | none, _ => (none, s)
  | some m, some id => (some m.fault, if m.breaks then s.breakLine id else s)
  | some m, none => (some m.fault, s)

/-- The answer to a message that does not fail. -/
def reply (s : Stage μ) (connection : Nat) : (m : Message) → Except Fault m.Reply × Stage μ
  | .telemetry _ => (.ok (), s)
  | .run _ =>
    let r := (pick? s.script.responses s.runs).getD .usual
    (.ok ⟨r.keys, r.runDatabase, r.runMetadata⟩,
      { s.setStream connection (some ⟨r.records, r.doneMetadata⟩) with runs := s.runs + 1 })
  | .pull size =>
    match (s.line? connection).bind Line.stream with
    | none => (.error (noOpenStream "PULL"), s)
    | some stream =>
      match size.drop stream.records with
      | [] => (.ok ⟨stream.records, false, stream.doneMetadata⟩, s.setStream connection none)
      | rest =>
        (.ok ⟨size.take stream.records, true, .empty⟩,
          s.setStream connection (some { stream with records := rest }))
  | .discard =>
    match (s.line? connection).bind Line.stream with
    | none => (.error (noOpenStream "DISCARD"), s)
    | some stream => (.ok stream.doneMetadata, s.setStream connection none)
  | .begin _ => (.ok s.script.beginDatabase, s)
  | .commit =>
    (.ok (pick? s.script.commitBookmarks s.commits).join, { s with commits := s.commits + 1 })
  | .rollback => (.ok (), s.setStream connection none)
  | .reset => (.ok (), s.setStream connection none)

/-- The answer to a message. -/
def send (s : Stage μ) (connection : Nat) (m : Message) : Except Fault m.Reply × Stage μ :=
  match s.attend (.message connection m) (failPoint m) (some connection) with
  | (some fault, s) => (.error fault, s)
  | (none, s) => s.reply connection m

/-- Makes a connection. -/
def connect (s : Stage μ) : Except Fault Connection × Stage μ :=
  match s.attend .connect .connect none with
  | (some fault, s) => (.error fault, s)
  | (none, s) =>
    let (connection, s) := s.addLine
    (.ok connection, s)

/-- Authenticates a connection anew.  A plain connection keeps the authentication it has and cannot
    take another. -/
def authenticate (connection : Connection) (auth : Option AuthToken) (s : Stage μ) :
    Except Fault Unit × Stage μ :=
  if s.script.plainConnections then
    (if auth.isSome then .error .authenticationNotSupported else .ok (), s)
  else
    match s.attend (.authenticate connection.id auth) .authenticate (some connection.id) with
    | (some fault, s) => (.error fault, s)
    | (none, s) => (.ok (), s)

def isHealthy (connection : Connection) (s : Stage μ) : Bool :=
  s.script.plainConnections || ((s.line? connection.id).map Line.healthy).getD false

/-- The stage as a pool sees it. -/
def connector : Connector (Stage μ) where
  connect := connect
  authenticate := authenticate
  isHealthy := isHealthy
  note event s := s.tell event
  now := now
  waitUntil := waitUntil

/-- The records that are left on some connections. -/
def leftOn : List Line → Nat
  | [] => 0
  | l :: rest => l.left + leftOn rest

/-- The records that are left on all connections. -/
def backlog (s : Stage μ) : Nat := leftOn s.lines

theorem attend_lines {s t : Stage μ} {entry : Entry μ} {point : FailPoint} {connection : Option Nat}
    (h : s.attend entry point connection = (none, t)) : t.lines = s.lines := by
  simp only [attend] at h
  split at h
  · cases h
    rfl
  · cases h
  · cases h

/-- One connection with fewer records makes fewer records altogether. -/
theorem leftOn_modify_lt {f : Line → Line} :
    ∀ {lines : List Line} {i : Nat} {l : Line}, lines[i]? = some l → (f l).left < l.left →
      leftOn (lines.modify i f) < leftOn lines
  | [], i, l, h, _ => by simp at h
  | a :: rest, 0, l, h, lt => by
    simp only [List.getElem?_cons_zero, Option.some.injEq] at h
    subst h
    simp only [List.modify_zero_cons, leftOn]
    omega
  | a :: rest, i + 1, l, h, lt => by
    simp only [List.getElem?_cons_succ] at h
    have := leftOn_modify_lt h lt
    simp only [List.modify_succ_cons, leftOn]
    omega

/-- A pull that leaves records takes some. -/
theorem length_drop_lt {size : FetchSize} {α : Type} {l rest : List α} (h : size.drop l = rest)
    (ne : rest ≠ []) : rest.length < l.length := by
  cases size with
  | all => exact absurd h.symm ne
  | upTo n =>
    subst h
    simp only [FetchSize.drop, List.length_drop]
    have hl : 0 < (l.drop n.val).length := List.length_pos_iff.mpr ne
    have hn := n.property
    simp only [List.length_drop] at hl
    omega

/-- A pull that promises more lowers the number of records that are left. -/
theorem backlog_lt {s t : Stage μ} {connection : Nat} {size : FetchSize} {batch : Batch}
    (h : s.send connection (.pull size) = (.ok batch, t)) (more : batch.more = true) :
    t.backlog < s.backlog := by
  unfold send at h
  rcases ha : s.attend (.message connection (.pull size)) (failPoint (.pull size))
    (some connection) with ⟨_ | fault, u⟩
  · simp only [ha, reply] at h
    have lines := attend_lines ha
    cases hl : (u.line? connection).bind Line.stream with
    | none => simp [hl] at h
    | some stream =>
      simp only [hl] at h
      obtain ⟨line, line_eq, stream_eq⟩ := Option.bind_eq_some_iff.mp hl
      split at h
      · cases h
        cases more
      · next rest ne =>
        cases h
        have lt := length_drop_lt rfl ne
        unfold backlog
        rw [← lines]
        refine leftOn_modify_lt line_eq ?_
        simp only [Line.left, stream_eq, Option.map_some, Option.getD_some]
        exact lt
  · simp [ha] at h

end Stage

end GraphSession.Rehearsal
