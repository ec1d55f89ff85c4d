import Mathlib.Data.List.Induction
import Mathlib.Data.List.Nodup
import Mathlib.Data.List.Perm.Subperm
import GraphSession.Proofs.Lending

/-!
  Which connection a pool hands out.

  1. **The machine.**  A `Counter` is a pool at work whose borrowers may have to wait: they come,
     look again whether it is their turn, or leave.  In between anything may be done with the pool,
     so a permit that comes back is used by whoever has waited for it.

  2. **Identity.**  That two connections are the same object shows in nothing that the pool looks
     at.  Here they are the same when they are equal, so the results speak of runs in which no
     connection is made twice (`made` has no duplicates), as every run is whose connector makes new
     objects.

  3. **The crux (`Moved.held`)**: after each visit the connections that are idle or lent are, with
     their multiplicity, among those that were so before and those that were made by it.  What has
     dropped out is therefore out for good, and nothing is ever idle twice, lent twice or both.

  4. **Order.**  The line is worked off from the front and joined at the back, so whoever stands
     before another in line has been idle for longer (`idleLonger_of_line`).  "Longer" is said of
     the history, and not of the line: idle ever since a moment when the other was not.
-/

namespace GraphSession

variable {ω : Type} {c : Connector ω}

/-! ## What a look at a request finds -/

namespace Pool

/-- What becomes of the line when a borrower is looked after: what was asked of the connector,
    latest first, what the borrower finds, and the pool that is left. -/
inductive Yields (healthy : Connection → Bool) (token : Option AuthToken) (p : Pool) :
    List Contact → Look → Pool → Prop
  /-- The first healthy connection in line, and those before it are given up. -/
  | again {sick behind : List Connection} {connection : Connection} {q : Pool}
    (line : p.idle = sick ++ connection :: behind) (ill : ∀ x ∈ sick, healthy x = false)
    (well : healthy connection = true) (left : q.idle = behind)
    (counted : q.discarded = p.discarded + sick.length) :
    Yields healthy token p [.authenticate connection token (.ok ())] (.ready (.ok connection)) q
  /-- A new connection.  None in line was healthy, and all are given up. -/
  | anew {connection : Connection} {q : Pool} (ill : ∀ x ∈ p.idle, healthy x = false)
    (left : q.idle = []) (counted : q.discarded = p.discarded + p.idle.length) :
    Yields healthy token p [.authenticate connection token (.ok ()), .connect (.ok connection)]
      (.ready (.ok connection)) q
  /-- No connection, so far or at all. -/
  | nothing {contacts : List Contact} {look : Look} {q : Pool}
    (without : ∀ connection, look ≠ .ready (.ok connection)) (left : q.idle <:+ p.idle) :
    Yields healthy token p contacts look q

variable {healthy : Connection → Bool} {token : Option AuthToken} {p p' q : Pool}

/-- Only the line matters, and what was given up so far. -/
theorem Yields.of_line {contacts : List Contact} {look : Look}
    (h : Yields healthy token p contacts look q) (idle : p.idle = p'.idle)
    (discarded : p.discarded = p'.discarded) : Yields healthy token p' contacts look q := by
  cases h with
  | again line ill well left counted =>
    exact .again (idle ▸ line) ill well left (discarded ▸ counted)
  | anew ill left counted => exact .anew (idle ▸ ill) left (by rw [counted, idle, discarded])
  | nothing without left => exact .nothing without (idle ▸ left)

@[simp] theorem returnPermit_idle (p : Pool) : p.returnPermit.idle = p.idle := by
  unfold returnPermit
  split <;> rfl

theorem claim?_line {ticket : Ticket} (h : p.claim? ticket = some q) :
    q.idle = p.idle ∧ q.discarded = p.discarded := by
  unfold claim? at h
  split at h
  · cases h
    exact ⟨rfl, rfl⟩
  · cases h

theorem takePermit?_line (h : p.takePermit? = some q) :
    q.idle = p.idle ∧ q.discarded = p.discarded := by
  unfold takePermit? at h
  split at h
  · cases h
    exact ⟨rfl, rfl⟩
  · cases h

@[simp] theorem withdraw_idle (p : Pool) (ticket : Ticket) :
    (p.withdraw ticket).idle = p.idle := by
  unfold withdraw
  split
  · next h => rw [returnPermit_idle, (claim?_line h).1]
  · rfl

theorem serve_yields (c : Connector ω) (request : AcquireRequest) (p : Pool) (w : Watched ω) :
    ∃ contacts, Yields (c.isHealthy · w.world) request.auth p contacts
        (.ready (serve c.watched request p w).1) (serve c.watched request p w).2.1 ∧
      (serve c.watched request p w).2.2.contacts = contacts ++ w.contacts := by
  rw [serve, connectionFor]
  obtain ⟨sick, connection, behind, line, ill, well, taken⟩ | ⟨ill, taken⟩ :=
    p.takeIdle_cases (c.watched.isHealthy · w)
  · rw [taken]
    cases auth : (c.authenticate connection request.auth w.world).1 with
    | ok _ =>
      simp only [Connector.watched, auth]
      exact ⟨[_], .again line ill well rfl rfl, rfl⟩
    | error fault =>
      simp only [Connector.watched, auth]
      refine ⟨[_], .nothing (by simp) ?_, rfl⟩
      rw [returnPermit_idle, line]
      exact (List.suffix_cons _ _).trans (List.suffix_append _ _)
  · rw [taken]
    cases new : (c.connect w.world).1 with
    | error fault =>
      simp only [Connector.watched, new]
      exact ⟨[_], .nothing (by simp) (by simp [thin]), rfl⟩
    | ok connection =>
      cases auth : (c.authenticate connection request.auth (c.connect w.world).2).1 with
      | ok _ =>
        simp only [Connector.watched, new, auth]
        exact ⟨[_, _], .anew ill rfl rfl, rfl⟩
      | error fault =>
        simp only [Connector.watched, new, auth]
        exact ⟨[_, _], .nothing (by simp) (by simp [thin]), rfl⟩

theorem poll_yields (c : Connector ω) (b : Borrower) (p : Pool) (w : Watched ω) :
    ∃ contacts, Yields (c.isHealthy · w.world) b.request.auth p contacts
        (poll c.watched b p w).1 (poll c.watched b p w).2.1 ∧
      (poll c.watched b p w).2.2.contacts = contacts ++ w.contacts := by
  unfold poll
  by_cases closed : p.closed = true
  · rw [if_pos closed]
    exact ⟨[], .nothing (by simp) (by simp), rfl⟩
  · rw [if_neg closed]
    cases claimed : p.claim? b.ticket with
    | some q =>
      obtain ⟨contacts, yields, asked⟩ := serve_yields c b.request q w
      obtain ⟨idle, discarded⟩ := claim?_line claimed
      exact ⟨contacts, yields.of_line idle discarded, asked⟩
    | none =>
      dsimp only
      by_cases late : b.due ≤ c.watched.now w
      · rw [if_pos late]
        exact ⟨[], .nothing (by simp [expire]) (by simp [expire]), rfl⟩
      · rw [if_neg late]
        exact ⟨[], .nothing (by simp) List.suffix_rfl, rfl⟩

theorem start_yields (c : Connector ω) (request : AcquireRequest) (p : Pool) (w : Watched ω) :
    ∃ contacts, Yields (c.isHealthy · w.world) request.auth p contacts
        (start c.watched request p w).1 (start c.watched request p w).2.1 ∧
      (start c.watched request p w).2.2.contacts = contacts ++ w.contacts := by
  unfold start
  by_cases closed : p.closed = true
  · rw [if_pos closed]
    exact ⟨[], .nothing (by simp) List.suffix_rfl, rfl⟩
  · rw [if_neg closed]
    cases taken : p.takePermit? with
    | some q =>
      obtain ⟨contacts, yields, asked⟩ := serve_yields c request q w
      obtain ⟨idle, discarded⟩ := takePermit?_line taken
      exact ⟨contacts, yields.of_line idle discarded, asked⟩
    | none =>
      obtain ⟨contacts, yields, asked⟩ := poll_yields c ⟨p.nextTicket, request,
        request.timeout.getD p.config.acquisitionTimeout, _⟩ p.enqueue.2 w
      exact ⟨contacts, yields.of_line rfl rfl, asked⟩

/-- A request that is waited for to the end. -/
theorem acquire_yields (c : Connector ω) (request : AcquireRequest) (p : Pool) (w : Watched ω) :
    ∃ contacts, Yields (c.isHealthy · w.world) request.auth p contacts
        (.ready (acquire c.watched request p w).1) (acquire c.watched request p w).2.1 ∧
      (acquire c.watched request p w).2.2.contacts = contacts ++ w.contacts := by
  have started := start_yields c request p w
  unfold acquire
  generalize start c.watched request p w = looked at started ⊢
  obtain ⟨look, q, w'⟩ := looked
  obtain ⟨contacts, yields, asked⟩ := started
  cases look with
  | ready outcome => exact ⟨contacts, yields, asked⟩
  | waiting b =>
    refine ⟨contacts, .nothing (by simp [expire]) ?_, asked⟩
    cases yields with
    | nothing _ left => simpa [expire] using left

/-- A connection that comes back joins the line at its end, or is given up. -/
theorem release_line (c : Connector ω) (connection : Connection) (p : Pool) (w : Watched ω) :
    (release c.watched connection p w).2.contacts = w.contacts ∧
      ((release c.watched connection p w).1.idle = p.idle ++ [connection] ∨
        (release c.watched connection p w).1.idle = p.idle) := by
  unfold release shelve
  by_cases foreign : p.inUse = 0
  · rw [if_pos foreign]
    exact ⟨rfl, .inr rfl⟩
  · rw [if_neg foreign]
    dsimp only
    split
    · next q shelved =>
      split at shelved
      · cases shelved
      · cases shelved
        exact ⟨rfl, .inl (by simp)⟩
    · next q shelved =>
      split at shelved
      · cases shelved
        exact ⟨rfl, .inr (by simp)⟩
      · cases shelved

end Pool

/-! ## The machine -/

/-- A pool at work with the borrowers that wait for it. -/
structure Counter (ω : Type) extends Lending ω where
  waiting : List Borrower := []

/-- What is done with a pool. -/
inductive Visit (ω : Type)
  /-- Something that is done to its end. -/
  | deal (dealing : Dealing ω)
  /-- A borrower comes with a request, and waits if it has to. -/
  | arrive (request : AcquireRequest)
  /-- The borrower with this number looks whether it is its turn. -/
  | look (ticket : Ticket)
  /-- The borrower with this number does not want to wait any more. -/
  | leave (ticket : Ticket)

/-- The request that is answered, and the answer. -/
abbrev Reply := Option (AcquireRequest × Except Fault Connection)

namespace Counter

/-- A counter where nobody was yet. -/
def opened (config : PoolConfig) (w : ω) : Counter ω := { Lending.fresh config w with }

/-- A borrower that looked goes with what it got, or waits. -/
def seen (s : Counter ω) (request : AcquireRequest) (found : Look × Pool × Watched ω) :
    Reply × Counter ω :=
  match found with
  | (.ready outcome, pool, around) =>
    (some (request, outcome),
      { s with pool, around, lent := outcome.toOption.toList ++ s.lent })
  | (.waiting b, pool, around) => (none, { s with pool, around, waiting := b :: s.waiting })

/-- The borrower that waits with this number. -/
def waiting? (s : Counter ω) (ticket : Ticket) : Option Borrower :=
  s.waiting.find? (·.ticket == ticket)

/-- Nobody waits with this number any more. -/
def without (s : Counter ω) (ticket : Ticket) : Counter ω :=
  { s with waiting := s.waiting.filter (·.ticket != ticket) }

/-- One visit: who gets an answer, and the counter after it. -/
def visit (c : Connector ω) (s : Counter ω) : Visit ω → Reply × Counter ω
  | .deal (.acquire request) =>
    let (outcome, lending) := s.toLending.acquire c request
    (some (request, outcome), { s with toLending := lending })
  | .deal dealing => (none, { s with toLending := s.toLending.after c dealing })
  | .arrive request => s.seen request (s.pool.start c.watched request s.around)
  | .look ticket =>
    match s.waiting? ticket with
    | none => (none, s)
    | some b => (s.without ticket).seen b.request (s.pool.poll c.watched b s.around)
  | .leave ticket =>
    match s.waiting? ticket with
    | none => (none, s)
    | some b => (none, { s.without ticket with pool := s.pool.withdraw b.ticket })

/-- The counter after one visit after another. -/
def run (c : Connector ω) (s : Counter ω) (visits : List (Visit ω)) : Counter ω :=
  visits.foldl (fun s v => (s.visit c v).2) s

@[simp] theorem run_append (c : Connector ω) (s : Counter ω) (visits more : List (Visit ω)) :
    s.run c (visits ++ more) = (s.run c visits).run c more := List.foldl_append

/-- The connections that the pool still knows of: those in line and those that are lent. -/
def held (s : Counter ω) : List Connection := s.pool.idle ++ s.lent

end Counter

/-- The connections that a connector made. -/
def Contact.made? : Contact → Option Connection
  | connect (.ok connection) => some connection
  | _ => none

/-- The connections that were made for a counter, latest first. -/
def Counter.made (s : Counter ω) : List Connection := s.around.contacts.filterMap Contact.made?

/-! ## One visit -/

namespace Counter

variable {s s' : Counter ω} {reply : Reply}

/-- What a visit does to the connections: one is handed out, one comes back into the line, or some
    are given up and none appears. -/
inductive Moved (c : Connector ω) (s : Counter ω) : Reply → Counter ω → Prop
  | handed {request : AcquireRequest} {connection : Connection} {contacts : List Contact}
    {s' : Counter ω}
    (yields : s.pool.Yields (c.isHealthy · s.around.world) request.auth contacts
      (.ready (.ok connection)) s'.pool)
    (lent : s'.lent = connection :: s.lent)
    (asked : s'.around.contacts = contacts ++ s.around.contacts) :
    Moved c s (some (request, .ok connection)) s'
  | shelved {connection : Connection} {s' : Counter ω} (borrowed : connection ∈ s.lent)
    (lent : s'.lent = s.lent.erase connection) (line : s'.pool.idle = s.pool.idle ++ [connection])
    (asked : s'.around.contacts = s.around.contacts) : Moved c s none s'
  | kept (contacts : List Contact) {reply : Reply} {s' : Counter ω}
    (without : ∀ request connection, reply ≠ some (request, .ok connection))
    (lent : s'.lent.Sublist s.lent) (line : s'.pool.idle <:+ s.pool.idle)
    (asked : s'.around.contacts = contacts ++ s.around.contacts) : Moved c s reply s'

/-- A visit that changes no connection. -/
theorem Moved.still (lent : s'.lent = s.lent) (line : s'.pool.idle = s.pool.idle)
    (asked : s'.around.contacts = s.around.contacts) : Moved c s none s' :=
  .kept [] (by simp) (lent ▸ .refl _) (line ▸ List.suffix_rfl) asked

/-- A borrower that looked, whoever waits apart from it. -/
theorem seen_moved {t : Counter ω} (same : t.lent = s.lent) {request : AcquireRequest}
    (found : Look × Pool × Watched ω) {contacts : List Contact}
    (yields : s.pool.Yields (c.isHealthy · s.around.world) request.auth contacts found.1 found.2.1)
    (asked : found.2.2.contacts = contacts ++ s.around.contacts) :
    Moved c s (t.seen request found).1 (t.seen request found).2 := by
  obtain ⟨look, pool, around⟩ := found
  have nothing (without : ∀ connection, look ≠ .ready (.ok connection)) :
      pool.idle <:+ s.pool.idle := by
    cases yields with
    | again => exact absurd rfl (without _)
    | anew => exact absurd rfl (without _)
    | nothing _ left => exact left
  cases look with
  | waiting b => exact .kept _ (by simp [seen]) (same ▸ .refl _) (nothing (by simp)) asked
  | ready outcome =>
    cases outcome with
    | ok connection => exact .handed yields (congrArg (connection :: ·) same) asked
    | error fault => exact .kept _ (by simp [seen]) (same ▸ .refl _) (nothing (by simp)) asked

/-- What can come of one visit. -/
theorem visit_moves (c : Connector ω) (s : Counter ω) (v : Visit ω) :
    Moved c s (s.visit c v).1 (s.visit c v).2 := by
  cases v with
  | deal dealing =>
    cases dealing with
    | acquire request =>
      obtain ⟨contacts, yields, asked⟩ := s.pool.acquire_yields c request s.around
      let found := s.pool.acquire c.watched request s.around
      exact seen_moved (t := s) rfl (.ready found.1, found.2) yields asked
    | giveBack connection =>
      by_cases borrowed : connection ∈ s.lent
      · have after : s.toLending.after c (.giveBack connection) =
            s.toLending.giveBack c connection := if_pos borrowed
        obtain ⟨asked, line | line⟩ := s.pool.release_line c connection s.around
        · refine .shelved borrowed ?_ ?_ ?_ <;> simp only [visit, after]
          · rfl
          · exact line
          · exact asked
        · refine .kept [] (by simp [visit]) ?_ ?_ ?_ <;> simp only [visit, after]
          · exact List.erase_sublist
          · exact line ▸ List.suffix_rfl
          · exact asked
      · have after : s.toLending.after c (.giveBack connection) = s.toLending := if_neg borrowed
        refine .still ?_ ?_ ?_ <;> simp only [visit, after]
    | close => exact .kept [] (by simp [visit]) (.refl _) (List.nil_suffix) rfl
    | elsewhere change => exact .still rfl rfl rfl
  | arrive request =>
    obtain ⟨contacts, yields, asked⟩ := s.pool.start_yields c request s.around
    exact seen_moved rfl _ yields asked
  | look ticket =>
    simp only [visit]
    cases s.waiting? ticket with
    | none => exact .still rfl rfl rfl
    | some b =>
      obtain ⟨contacts, yields, asked⟩ := s.pool.poll_yields c b s.around
      exact seen_moved (s := s) (t := s.without ticket) rfl _ yields asked
  | leave ticket =>
    simp only [visit]
    cases s.waiting? ticket with
    | none => exact .still rfl rfl rfl
    | some b => exact .still rfl (Pool.withdraw_idle _ _) rfl

/-! ## What is held -/

theorem made_of_asked (contacts : List Contact)
    (asked : s'.around.contacts = contacts ++ s.around.contacts) :
    s'.made = contacts.filterMap Contact.made? ++ s.made := by
  rw [made, asked, List.filterMap_append, made]

/-- What is held after a visit was held before, or was made by it. -/
theorem Moved.held (h : Moved c s reply s') :
    ∃ new, s'.made = new ++ s.made ∧ s'.held.Subperm (new ++ s.held) := by
  cases h with
  | @handed _ connection _ _ yields lent asked =>
    refine ⟨_, made_of_asked _ asked, ?_⟩
    rw [Counter.held, lent]
    cases yields with
    | @again sick behind _ _ line ill well left =>
      show (s'.pool.idle ++ connection :: s.lent).Subperm s.held
      rw [left, Counter.held, line]
      have moved : (behind ++ connection :: s.lent).Perm (connection :: behind ++ s.lent) :=
        List.perm_middle
      refine moved.subperm.trans (List.Sublist.subperm ?_)
      rw [List.append_assoc]
      exact List.sublist_append_right _ _
    | anew ill left =>
      show (s'.pool.idle ++ connection :: s.lent).Subperm (connection :: (s.pool.idle ++ s.lent))
      rw [left]
      exact ((List.sublist_append_right _ _).cons_cons connection).subperm
    | nothing without => exact absurd rfl (without _)
  | @shelved connection _ borrowed lent line asked =>
    refine ⟨[], made_of_asked [] asked, ?_⟩
    rw [Counter.held, Counter.held, lent, line, List.nil_append, List.append_assoc]
    exact ((List.perm_cons_erase borrowed).symm.append_left _).subperm
  | kept _ without lent line asked =>
    exact ⟨_, made_of_asked _ asked, ((line.sublist.append lent).trans
      (List.sublist_append_right _ _)).subperm⟩

/-- What is held after a run was held before, or was made in it. -/
theorem run_held (c : Connector ω) (s : Counter ω) (visits : List (Visit ω)) :
    ∃ new, (s.run c visits).made = new ++ s.made ∧
      (s.run c visits).held.Subperm (new ++ s.held) := by
  induction visits generalizing s with
  | nil => exact ⟨[], rfl, .refl _⟩
  | cons v rest ih =>
    obtain ⟨new, made, held⟩ := (visit_moves c s v).held
    obtain ⟨newer, made', held'⟩ := ih (s.visit c v).2
    refine ⟨newer ++ new, ?_, ?_⟩
    · rw [run, List.foldl_cons]
      exact made'.trans (by rw [made, List.append_assoc])
    · rw [run, List.foldl_cons, List.append_assoc]
      exact held'.trans ((List.subperm_append_left newer).2 held)

theorem nodup_of_subperm {l m : List Connection} (h : l.Subperm m) (distinct : m.Nodup) :
    l.Nodup := by
  obtain ⟨l', same, inside⟩ := h
  exact same.nodup_iff.1 (distinct.sublist inside)

/-- What was made before was made in the end. -/
theorem distinct_before {visits more : List (Visit ω)}
    (distinct : (s.run c (visits ++ more)).made.Nodup) : (s.run c visits).made.Nodup := by
  obtain ⟨new, made, -⟩ := (s.run c visits).run_held c more
  rw [run_append, made] at distinct
  exact distinct.of_append_right

variable {config : PoolConfig} {w : ω} {visits : List (Visit ω)}

/-- Nothing is held that was not made, or more often. -/
theorem held_made (c : Connector ω) (config : PoolConfig) (w : ω) (visits : List (Visit ω)) :
    ((opened config w).run c visits).held.Subperm ((opened config w).run c visits).made := by
  obtain ⟨new, made, held⟩ := (opened config w).run_held c visits
  rw [made]
  exact held

/-- Nothing is idle or lent twice, and nothing is both. -/
theorem held_nodup (distinct : ((opened config w).run c visits).made.Nodup) :
    ((opened config w).run c visits).held.Nodup :=
  nodup_of_subperm (held_made c config w visits) distinct

/-- What is not held any more is not held ever again. -/
theorem gone_for_good {x : Connection} {more : List (Visit ω)}
    (distinct : (s.run c more).made.Nodup) (known : x ∈ s.made) (gone : x ∉ s.held) :
    x ∉ (s.run c more).held := by
  obtain ⟨new, made, held⟩ := s.run_held c more
  rw [made] at distinct
  intro back
  obtain fresh | old := List.mem_append.1 (held.subset back)
  · exact List.disjoint_of_nodup_append distinct fresh known
  · exact gone old

/-! ## Who has been idle for longer -/

/-- At the end of these visits `x` has been idle ever since a moment when `y` was not. -/
def IdleLonger (c : Connector ω) (s : Counter ω) (visits : List (Visit ω)) (x y : Connection) :
    Prop :=
  ∃ earlier later, visits = earlier ++ later ∧ y ∉ (s.run c earlier).pool.idle ∧
    ∀ part, part <+: later → x ∈ (s.run c (earlier ++ part)).pool.idle

/-- Of two connections one at most has been idle for longer. -/
theorem IdleLonger.asymm {x y : Connection} (h : IdleLonger c s visits x y) :
    ¬ IdleLonger c s visits y x := by
  rintro ⟨earlier', later', split', notThen', since'⟩
  obtain ⟨earlier, later, split, notThen, since⟩ := h
  obtain ⟨part, rfl, rest⟩ | ⟨part, rfl, rest⟩ := List.append_eq_append_iff.1 (split.symm.trans split')
  · exact notThen' (since part ⟨later', rest.symm⟩)
  · exact notThen (since' part ⟨later, rest.symm⟩)

/-- Whoever is still idle after one more visit has been idle for longer still. -/
theorem IdleLonger.after {x y : Connection} {v : Visit ω} (h : IdleLonger c s visits x y)
    (still : x ∈ (s.run c (visits ++ [v])).pool.idle) : IdleLonger c s (visits ++ [v]) x y := by
  obtain ⟨earlier, later, rfl, notThen, since⟩ := h
  refine ⟨earlier, later ++ [v], List.append_assoc _ _ _, notThen, fun part inside => ?_⟩
  obtain whole | part' := List.prefix_concat_iff.1 inside
  · rw [whole, ← List.append_assoc]
    exact still
  · exact since part part'

/-- What a visit does to the line: it gets shorter at the front, or somebody joins it. -/
theorem Moved.line (h : Moved c s reply s') :
    s'.pool.idle <:+ s.pool.idle ∨ ∃ z ∈ s.lent, s'.pool.idle = s.pool.idle ++ [z] := by
  cases h with
  | handed yields =>
    refine .inl ?_
    cases yields with
    | again line ill well left =>
      rw [left, line]
      exact (List.suffix_cons _ _).trans (List.suffix_append _ _)
    | anew ill left => rw [left]; exact List.nil_suffix
    | nothing without => exact absurd rfl (without _)
  | shelved borrowed lent line => exact .inr ⟨_, borrowed, line⟩
  | kept _ without lent line => exact .inl line

/-- Two of a line that somebody has joined: both were there, or the second has just come. -/
theorem pair_sublist_concat {x y z : Connection} {line : List Connection}
    (h : [x, y].Sublist (line ++ [z])) : [x, y].Sublist line ∨ y = z ∧ x ∈ line := by
  have mirrored : [y, x].Sublist (z :: line.reverse) := by simpa using h.reverse
  obtain before | ⟨rfl, front⟩ := List.cons_sublist_cons'.1 mirrored
  · exact .inl (by simpa using before.reverse)
  · exact .inr ⟨rfl, by simpa using front⟩

/-- Whoever stands before another in line has been idle for longer. -/
theorem idleLonger_of_line {x y : Connection}
    (distinct : ((opened config w).run c visits).made.Nodup)
    (line : [x, y].Sublist ((opened config w).run c visits).pool.idle) :
    IdleLonger c (opened config w) visits x y := by
  induction visits using List.reverseRecOn with
  | nil => cases line
  | append_singleton visits v ih =>
    have ih := ih (distinct_before distinct)
    have still : x ∈ ((opened config w).run c (visits ++ [v])).pool.idle :=
      line.subset List.mem_cons_self
    have nodup := held_nodup (distinct_before distinct)
    have moved := visit_moves c ((opened config w).run c visits) v
    have last : (opened config w).run c (visits ++ [v]) =
        (((opened config w).run c visits).visit c v).2 := run_append _ _ _ _
    rw [← last] at moved
    obtain ⟨behind⟩ | ⟨z, borrowed, joined⟩ := moved.line
    · exact (ih (line.trans behind.sublist)).after still
    · rw [joined] at line
      obtain before | ⟨rfl, front⟩ := pair_sublist_concat line
      · exact (ih before).after still
      · refine ⟨visits, [v], rfl, fun idle => ?_, fun part inside => ?_⟩
        · exact List.disjoint_of_nodup_append nodup idle borrowed
        · obtain rfl | part' := List.prefix_concat_iff.1 (show part <+: [] ++ [v] from inside)
          · exact still
          · rw [List.prefix_nil.1 part', List.append_nil]
            exact front

/-! ## What is handed out -/

/-- A connection was given up: it was made, and is neither idle nor lent. -/
def Discarded (s : Counter ω) (x : Connection) : Prop :=
  x ∈ s.made ∧ x ∉ s.pool.idle ∧ x ∉ s.lent

/-- How a connection is handed out in answer to a request, by a visit that leads from `s`, where
    these visits have led, to `s'`. -/
structure HandsOut (c : Connector ω) (start : Counter ω) (visits : List (Visit ω))
    (request : AcquireRequest) (connection : Connection) (s s' : Counter ω) : Prop where
  /-- Nobody else has it, it joins what is lent, and it is not idle. -/
  alone : connection ∉ s.lent ∧ s'.lent = connection :: s.lent ∧ connection ∉ s'.pool.idle
  /-- The last that this visit asked of the connector is to authenticate it as requested, and the
      connector did. -/
  authenticated : ∃ contacts, s'.around.contacts =
    .authenticate connection request.auth (.ok ()) :: (contacts ++ s.around.contacts)
  /-- When a healthy connection was idle, it is the one that has been idle for longest.  Whatever
      has been idle for longer was unhealthy, and is given up. -/
  longest : (∃ x ∈ s.pool.idle, c.isHealthy x s.around.world = true) →
    (connection ∈ s.pool.idle ∧ c.isHealthy connection s.around.world = true) ∧
    (∀ x ∈ s.pool.idle, c.isHealthy x s.around.world = true → x ≠ connection →
      IdleLonger c start visits connection x) ∧
    ∀ x ∈ s.pool.idle, IdleLonger c start visits x connection →
      c.isHealthy x s.around.world = false ∧ s'.Discarded x
  /-- Otherwise it was made for this request, and nothing is idle any more. -/
  anew : (∀ x ∈ s.pool.idle, c.isHealthy x s.around.world = false) →
    s'.made = connection :: s.made ∧ connection ∉ s.made ∧ s'.pool.idle = []
  /-- Everything that left the line unused is counted as given up. -/
  counted : s'.pool.discarded + s'.pool.idle.length + (if connection ∈ s.pool.idle then 1 else 0) =
    s.pool.discarded + s.pool.idle.length

/-- An idle connection is handed out. -/
theorem hands_out_again {request : AcquireRequest} {connection : Connection}
    {sick behind : List Connection}
    (distinct : ((opened config w).run c visits).made.Nodup)
    (line : ((opened config w).run c visits).pool.idle = sick ++ connection :: behind)
    (ill : ∀ x ∈ sick, c.isHealthy x ((opened config w).run c visits).around.world = false)
    (well : c.isHealthy connection ((opened config w).run c visits).around.world = true)
    (left : s'.pool.idle = behind)
    (counted : s'.pool.discarded = ((opened config w).run c visits).pool.discarded + sick.length)
    (lent : s'.lent = connection :: ((opened config w).run c visits).lent)
    (asked : s'.around.contacts = .authenticate connection request.auth (.ok ()) ::
      ((opened config w).run c visits).around.contacts) :
    HandsOut c (opened config w) visits request connection ((opened config w).run c visits) s' := by
  have held : (sick ++ connection :: behind ++ ((opened config w).run c visits).lent).Nodup := by
    rw [← line]
    exact held_nodup distinct
  have apart := List.disjoint_of_nodup_append held
  have inLine := held.of_append_left
  have sickApart := List.disjoint_of_nodup_append inLine
  have notBehind := (List.nodup_cons.1 inLine.of_append_right).1
  have idle : connection ∈ ((opened config w).run c visits).pool.idle := by simp [line]
  have later (x : Connection) (hx : x ∈ behind) :
      IdleLonger c (opened config w) visits connection x :=
    idleLonger_of_line distinct (line ▸ ((List.singleton_sublist.2 hx).cons_cons connection).trans
      (List.sublist_append_right _ _))
  refine ⟨⟨fun h => apart (by simp) h, lent, left ▸ notBehind⟩, ⟨[], asked⟩,
    fun _ => ⟨⟨idle, well⟩, fun x hx healthy other => ?_, fun x hx longer => ?_⟩,
    fun none => ?_, ?_⟩
  · rw [line] at hx
    obtain before | rfl | after : x ∈ sick ∨ x = connection ∨ x ∈ behind := by simpa using hx
    · exact absurd healthy (by simp [ill x before])
    · exact absurd rfl other
    · exact later x after
  · rw [line] at hx
    obtain before | rfl | after : x ∈ sick ∨ x = connection ∨ x ∈ behind := by simpa using hx
    · have known : x ∈ ((opened config w).run c visits).made :=
        (held_made c config w visits).subset (List.mem_append_left _ (by simp [line, before]))
      refine ⟨ill x before, made_of_asked [_] asked ▸ known,
        fun h => sickApart before (.tail _ (left ▸ h)), fun h => ?_⟩
      rw [lent] at h
      obtain rfl | borrowed := List.mem_cons.1 h
      · exact sickApart before List.mem_cons_self
      · exact apart (List.mem_append_left _ before) borrowed
    · exact absurd longer longer.asymm
    · exact absurd longer (later x after).asymm
  · exact absurd (none connection idle) (by simp [well])
  · rw [if_pos idle, counted, left, line, List.length_append, List.length_cons]
    omega

/-- A new connection is handed out. -/
theorem hands_out_anew {request : AcquireRequest} {connection : Connection}
    (distinct : s'.made.Nodup)
    (ill : ∀ x ∈ ((opened config w).run c visits).pool.idle,
      c.isHealthy x ((opened config w).run c visits).around.world = false)
    (left : s'.pool.idle = [])
    (counted : s'.pool.discarded = ((opened config w).run c visits).pool.discarded +
      ((opened config w).run c visits).pool.idle.length)
    (lent : s'.lent = connection :: ((opened config w).run c visits).lent)
    (asked : s'.around.contacts = .authenticate connection request.auth (.ok ()) ::
      .connect (.ok connection) :: ((opened config w).run c visits).around.contacts) :
    HandsOut c (opened config w) visits request connection ((opened config w).run c visits) s' := by
  have made : s'.made = connection :: ((opened config w).run c visits).made :=
    made_of_asked [_, _] asked
  rw [made] at distinct
  have fresh : connection ∉ ((opened config w).run c visits).held := fun h =>
    (List.nodup_cons.1 distinct).1 ((held_made c config w visits).subset h)
  have notIdle : connection ∉ ((opened config w).run c visits).pool.idle := fun h =>
    fresh (List.mem_append_left _ h)
  refine ⟨⟨fun h => fresh (List.mem_append_right _ h), lent, by simp [left]⟩,
    ⟨[_], asked⟩, fun some => ?_,
    fun _ => ⟨made, (List.nodup_cons.1 distinct).1, left⟩, ?_⟩
  · obtain ⟨x, idle, well⟩ := some
    exact absurd (ill x idle) (by simp [well])
  · rw [if_neg notIdle, counted, left, List.length_nil]
    omega

/-- Whatever a visit hands out is handed out as it should be. -/
theorem visit_hands_out {v : Visit ω} {request : AcquireRequest} {connection : Connection}
    (distinct : ((opened config w).run c (visits ++ [v])).made.Nodup)
    (returned : (((opened config w).run c visits).visit c v).1 = some (request, .ok connection)) :
    HandsOut c (opened config w) visits request connection ((opened config w).run c visits)
      (((opened config w).run c visits).visit c v).2 := by
  have moved := visit_moves c ((opened config w).run c visits) v
  have before := distinct_before distinct
  rw [run_append] at distinct
  change (((opened config w).run c visits).visit c v).2.made.Nodup at distinct
  generalize ((opened config w).run c visits).visit c v = visited at moved returned distinct ⊢
  obtain ⟨reply, s'⟩ := visited
  cases returned
  cases moved with
  | handed yields lent asked =>
    cases yields with
    | again line ill well left counted =>
      exact hands_out_again before line ill well left counted lent asked
    | anew ill left counted => exact hands_out_anew distinct ill left counted lent asked
    | nothing without => exact absurd rfl (without _)
  | kept _ without => exact absurd rfl (without _ _)

/-- What a visit hands out is lent then. -/
theorem lent_of_returned {v : Visit ω} {request : AcquireRequest} {connection : Connection}
    (returned : (s.visit c v).1 = some (request, .ok connection)) :
    connection ∈ (s.visit c v).2.lent := by
  have moved := visit_moves c s v
  generalize s.visit c v = visited at moved returned ⊢
  obtain ⟨reply, s'⟩ := visited
  cases returned
  cases moved with
  | handed yields lent => exact lent ▸ List.mem_cons_self
  | kept _ without => exact absurd rfl (without _ _)

/-- **What a pool hands out.**  Take any series of visits in which no connection is made twice, and
    cut it anywhere.  A connection that the next visit hands out is handed out as `HandsOut` says;
    and a connection that was given up before the cut is not handed out by any visit after it. -/
theorem run_hands_out (c : Connector ω) (config : PoolConfig) (w : ω) (visits : List (Visit ω))
    (distinct : ((opened config w).run c visits).made.Nodup) :
    ∀ before after, before ++ after = visits →
      let s := (opened config w).run c before
      (∀ v rest request connection, after = v :: rest →
        (s.visit c v).1 = some (request, .ok connection) →
        HandsOut c (opened config w) before request connection s (s.visit c v).2) ∧
      ∀ x, s.Discarded x → ∀ earlier v rest request, after = earlier ++ v :: rest →
        ((s.run c earlier).visit c v).1 ≠ some (request, .ok x) := by
  rintro before after rfl s
  refine ⟨?_, ?_⟩
  · rintro v rest request connection rfl returned
    rw [List.append_cons] at distinct
    exact visit_hands_out (distinct_before distinct) returned
  · rintro x ⟨known, notIdle, notLent⟩ earlier v rest request rfl returned
    have gone : x ∉ s.held := fun h => (List.mem_append.1 h).elim notIdle notLent
    rw [run_append, List.append_cons] at distinct
    refine gone_for_good (distinct_before distinct) known gone ?_
    rw [run_append]
    exact List.mem_append_right _ (lent_of_returned returned)

end Counter

/-- A connector that numbers its connections and never fails.  The world around it is the next
    number, and the numbers of the connections that broke. -/
def numbering : Connector (Nat × List Nat) where
  connect w := (.ok { id := w.1, server := default }, (w.1 + 1, w.2))
  authenticate _ _ w := (.ok (), w)
  isHealthy connection w := !w.2.contains connection.id
  note _ w := w
  now _ := 0
  waitUntil _ w := w

/-- The connection with a number. -/
def numbered (id : Nat) : Connection := { id, server := default }

/-- Three connections are lent and come back; then the first one breaks. -/
def threeBack : List (Visit (Nat × List Nat)) :=
  [.arrive {}, .arrive {}, .arrive {}, .deal (.giveBack (numbered 0)),
    .deal (.giveBack (numbered 1)), .deal (.giveBack (numbered 2)),
    .deal (.elsewhere fun w => (w.1, 0 :: w.2))]

/-- The request of the next one who comes. -/
def newcomer : AcquireRequest := { auth := some (.bearer "pass") }

/-- Who comes next gets the second of them, which has been idle for longest of those that are
    healthy, and the first is given up. -/
theorem threeBack_hands_out :
    ((Counter.opened {} (0, [])).run numbering (threeBack ++ [.arrive newcomer])).made.Nodup ∧
      Counter.HandsOut numbering (Counter.opened {} (0, [])) threeBack newcomer (numbered 1)
        ((Counter.opened {} (0, [])).run numbering threeBack)
        (((Counter.opened {} (0, [])).run numbering threeBack).visit numbering
          (.arrive newcomer)).2 := by
  have made : ((Counter.opened {} (0, [])).run numbering (threeBack ++ [.arrive newcomer])).made =
      [numbered 2, numbered 1, numbered 0] := rfl
  have distinct : ((Counter.opened {} (0, [])).run numbering
      (threeBack ++ [.arrive newcomer])).made.Nodup := by
    rw [made]
    decide
  have returned : (((Counter.opened {} (0, [])).run numbering threeBack).visit numbering
      (.arrive newcomer)).1 = some (newcomer, .ok (numbered 1)) := rfl
  have handed := Counter.run_hands_out numbering {} (0, []) _ distinct
  exact ⟨distinct, (handed threeBack [.arrive newcomer] rfl).1 _ [] _ _ rfl returned⟩

end GraphSession
