import GraphSession.Proofs.Lending

/-!
  The capacity of a pool.

  A pool keeps its capacity in two places: a number of free permits, and a number of connections
  that are lent.  `Lending.Sound` says how they agree, with each other, with the connections that
  borrowers really have, and with the line of idle ones.

  **The crux** is that a borrower takes its permit before it has a connection, so each of the five
  ways of `Pool.Served` must either hand out a connection or give the permit back (`Served.lends`
  and `Served.fails`).  A permit that were lost there would only show once they are all gone.

  Nobody waits between two dealings (`unawaited`, `ungranted`), because each is run to its end.
-/

namespace GraphSession

variable {ω : Type} {c : Connector ω} {config : PoolConfig}

/-! ## What serving a borrower does to the pool -/

namespace Pool.Served

variable {token : Option AuthToken} {p q : Pool} {contacts : List Contact}
  {outcome : Except Fault Connection}

/-- A borrower that is served was not sent away: the connector was asked for something. -/
theorem asks (h : Served token p contacts outcome q) : contacts ≠ [] := by
  cases h <;> exact List.cons_ne_nil _ _

theorem untouched (h : Served token p contacts outcome q) (line : p.queue = []) :
    q.config = p.config ∧ q.queue = [] ∧ q.granted = p.granted ∧ q.closed = p.closed ∧
      q.timeouts = p.timeouts := by
  cases h <;> simp [handOut, thin, returnPermit, line]

/-- Who gets a connection keeps the permit, and takes the connection out of the line or finds the
    line empty. -/
theorem lends {connection : Connection} (h : Served token p contacts (.ok connection) q) :
    q.inUse = p.inUse + 1 ∧ q.permits = p.permits ∧
      (q.idle.length + 1 ≤ p.idle.length ∨ q.idle = []) := by
  cases h with
  | again line =>
    refine ⟨rfl, rfl, .inl ?_⟩
    simp only [line, handOut, thin, List.length_append, List.length_cons]
    omega
  | anew => exact ⟨rfl, rfl, .inr rfl⟩

/-- Who gets no connection gives the permit back. -/
theorem fails {fault : Fault} (h : Served token p contacts (.error fault) q) (line : p.queue = []) :
    q.inUse = p.inUse ∧ q.permits = p.permits + 1 ∧ q.idle.length ≤ p.idle.length := by
  cases h with
  | againInVain split =>
    refine ⟨?_, ?_, ?_⟩
    · simp [thin, returnPermit, line]
    · simp [thin, returnPermit, line]
    · simp [split, thin, returnPermit, line]
      omega
  | anewInVain => simp [thin, returnPermit, line]
  | unconnected => simp [thin, returnPermit, line]

end Pool.Served

/-! ## Soundness -/

namespace Lending

/-- The books of a pool at work agree. -/
structure Sound (config : PoolConfig) (l : Lending ω) : Prop where
  settings : l.pool.config = config
  /-- What is counted as lent is what borrowers have. -/
  counted : l.pool.inUse = l.lent.length
  /-- Every permit that is not free stands for a connection that is lent. -/
  balanced : l.pool.inUse + l.pool.permits = config.maxSize
  idle_le : l.pool.idle.length ≤ config.maxIdle
  room : l.pool.idle.length + l.pool.inUse ≤ config.maxSize
  unawaited : l.pool.queue = []
  ungranted : l.pool.granted = []
  emptied : l.pool.closed = true → l.pool.idle = []

theorem sound_fresh (config : PoolConfig) (w : ω) : (fresh config w).Sound config where
  settings := rfl
  counted := rfl
  balanced := Nat.zero_add _
  idle_le := Nat.zero_le _
  room := Nat.zero_le _
  unawaited := rfl
  ungranted := rfl
  emptied _ := rfl

namespace Sound

variable {l : Lending ω}

/-- A request for a connection ends in one of three ways: the pool is closed; all permits are
    taken, and the time runs out; or the borrower is served. -/
theorem acquire_cases (h : l.Sound config) (c : Connector ω) (request : AcquireRequest) :
    (l.pool.closed = true ∧ l.acquire c request = (.error .poolClosed, l)) ∨
    (l.pool.closed = false ∧ l.pool.inUse = config.maxSize ∧ ∃ w, l.acquire c request =
        (.error (.poolExhausted (request.timeout.getD config.acquisitionTimeout).text),
          ⟨{ l.pool with
              nextTicket := l.pool.nextTicket + 1, timeouts := l.pool.timeouts + 1 }, l.lent, w⟩) ∧
      w.contacts = l.around.contacts) ∨
    (l.pool.closed = false ∧ l.pool.inUse < config.maxSize ∧ ∃ contacts outcome q w,
      l.acquire c request = (outcome, ⟨q, outcome.toOption.toList ++ l.lent, w⟩) ∧
      Pool.Served request.auth { l.pool with permits := l.pool.permits - 1 } contacts outcome q ∧
      w.contacts = contacts ++ l.around.contacts) := by
  have balanced := h.balanced
  cases opened : l.pool.closed with
  | true => exact .inl ⟨rfl, acquire_closed c request opened⟩
  | false =>
    by_cases free : 0 < l.pool.permits
    · exact .inr (.inr ⟨rfl, by omega, acquire_served c request opened (if_pos free)⟩)
    · have := acquire_exhausted c request opened (by omega) h.unawaited h.ungranted
      rw [h.settings] at this
      exact .inr (.inl ⟨rfl, by omega, this⟩)

theorem acquire (h : l.Sound config) (c : Connector ω) (request : AcquireRequest) :
    (l.acquire c request).2.Sound config := by
  obtain ⟨-, eq⟩ | ⟨-, -, w, eq, -⟩ | ⟨opened, free, contacts, outcome, q, w, eq, served, -⟩ :=
    h.acquire_cases c request <;> rw [eq]
  · exact h
  · exact { h with }
  · obtain ⟨settings, line, granted, still, -⟩ := served.untouched h.unawaited
    have counted := h.counted
    have balanced := h.balanced
    have idle_le := h.idle_le
    have room := h.room
    have notClosed : q.closed = true → q.idle = [] := by simp [still, opened]
    cases outcome with
    | error fault =>
      obtain ⟨inUse, permits, idle⟩ := served.fails h.unawaited
      simp only at inUse permits idle
      exact ⟨settings.trans h.settings, inUse.trans counted, by simp only; omega,
        by simp only; omega, by simp only; omega, line, granted.trans h.ungranted, notClosed⟩
    | ok connection =>
      obtain ⟨inUse, permits, idle⟩ := served.lends
      simp only at inUse permits idle
      have shorter : q.idle.length ≤ l.pool.idle.length ∧
          q.idle.length + q.inUse ≤ config.maxSize := by
        obtain taken | empty := idle
        · omega
        · simp only [empty, List.length_nil]
          omega
      exact ⟨settings.trans h.settings, by simp [inUse, counted, Except.toOption],
        by simp only; omega, by simp only; omega, shorter.2, line, granted.trans h.ungranted,
        notClosed⟩

theorem giveBack (h : l.Sound config) (c : Connector ω) {connection : Connection}
    (lent : connection ∈ l.lent) : (l.giveBack c connection).Sound config := by
  have counted := h.counted
  have balanced := h.balanced
  have room := h.room
  have some_lent : 0 < l.lent.length := List.length_pos_of_mem lent
  have erased : (l.lent.erase connection).length = l.lent.length - 1 :=
    List.length_erase_of_mem lent
  obtain ⟨q, w, eq, -, ⟨opened, shorter, rfl⟩ | rfl⟩ :=
    giveBack_cases c connection (by omega) h.unawaited
  · rw [eq]
    rw [h.settings] at shorter
    exact ⟨h.settings, by simp only; omega, by simp only; omega, by simp; omega, by simp; omega,
      h.unawaited, h.ungranted, by simp [opened]⟩
  · rw [eq]
    exact ⟨h.settings, by simp only; omega, by simp only; omega, h.idle_le, by simp only; omega,
      h.unawaited, h.ungranted, h.emptied⟩

theorem close (h : l.Sound config) (c : Connector ω) : (l.close c).Sound config := by
  have room := h.room
  obtain ⟨w, eq, -⟩ := close_eq c l
  rw [eq]
  exact ⟨h.settings, h.counted, h.balanced, Nat.zero_le _, by simp only [List.length_nil]; omega,
    rfl, h.ungranted, fun _ => rfl⟩

/-- Every dealing keeps the books sound. -/
theorem after (c : Connector ω) (l : Lending ω) (d : Dealing ω) (h : l.Sound config) :
    (l.after c d).Sound config := by
  cases d with
  | acquire request => exact h.acquire c request
  | giveBack connection =>
    simp only [Lending.after]
    split
    · rename_i lent
      exact h.giveBack c lent
    · exact h
  | close => exact h.close c
  | elsewhere change => exact { h with }

end Sound

/-- The books are sound after all dealings. -/
theorem sound_run (c : Connector ω) (config : PoolConfig) (w : ω) (dealings : List (Dealing ω)) :
    ((fresh config w).run c dealings).Sound config :=
  run_keeps (Sound.after c) dealings (sound_fresh config w)

/-! ## A closed pool -/

/-- A closed pool is never opened again. -/
theorem Sound.closed_after {l : Lending ω} (h : l.Sound config) (c : Connector ω) (d : Dealing ω)
    (closed : l.pool.closed = true) : (l.after c d).pool.closed = true := by
  cases d with
  | acquire request =>
    simp only [Lending.after, acquire_closed c request closed]
    exact closed
  | giveBack connection =>
    simp only [Lending.after]
    split
    · rename_i lent
      have := h.counted
      have := List.length_pos_of_mem lent
      obtain ⟨q, w, eq, -, ⟨opened, -⟩ | rfl⟩ :=
        giveBack_cases c connection (by omega) h.unawaited
      · simp [closed] at opened
      · rw [eq]
        exact closed
    · exact closed
  | close => rfl
  | elsewhere change => exact closed

/-- Whatever is done with a closed pool, it stays closed. -/
theorem Sound.closed_run {l : Lending ω} (h : l.Sound config) (c : Connector ω)
    (closed : l.pool.closed = true) (dealings : List (Dealing ω)) :
    (l.run c dealings).pool.closed = true :=
  (run_keeps (P := fun l => l.Sound config ∧ l.pool.closed = true)
    (fun l d hl => ⟨hl.1.after c l d, hl.1.closed_after c d hl.2⟩) dealings ⟨h, closed⟩).2

/-! ## Capacity -/

/-- A request for a connection waits in vain for a permit: nothing is asked of the connector, and
    the fault tells how long it waited. -/
def TimesOut (c : Connector ω) (request : AcquireRequest) (l : Lending ω) : Prop :=
  (l.acquire c request).1 =
      .error (.poolExhausted (request.timeout.getD l.pool.config.acquisitionTimeout).text) ∧
    (l.acquire c request).2.around.contacts = l.around.contacts

/-- How a pool answers one request for a connection. -/
structure Answers (config : PoolConfig) (c : Connector ω) (request : AcquireRequest)
    (l : Lending ω) : Prop where
  /-- Who fails, for whatever reason, takes nothing away. -/
  failed : ∀ fault, (l.acquire c request).1 = .error fault →
    (l.acquire c request).2.pool.inUse = l.pool.inUse ∧
      (l.acquire c request).2.pool.permits = l.pool.permits
  /-- As long as the pool is open, a request times out just when everything is lent. -/
  timesOut_iff : l.pool.closed = false →
    (l.TimesOut c request ↔ l.pool.inUse = config.maxSize)
  /-- Requests that time out are counted, and no others are. -/
  timeouts : (l.acquire c request).2.pool.timeouts =
    l.pool.timeouts + if l.pool.closed = false ∧ l.pool.inUse = config.maxSize then 1 else 0
  closed : l.pool.closed = true → l.acquire c request = (.error .poolClosed, l)

theorem Sound.answers {l : Lending ω} (h : l.Sound config) (c : Connector ω)
    (request : AcquireRequest) : Answers config c request l := by
  obtain ⟨closed, eq⟩ | ⟨opened, full, w, eq, asked⟩ |
    ⟨opened, free, contacts, outcome, q, w, eq, served, asked⟩ := h.acquire_cases c request
  · exact ⟨fun _ _ => by rw [eq]; exact ⟨rfl, rfl⟩, by simp [closed], by simp [eq, closed],
      fun _ => eq⟩
  · refine ⟨fun _ _ => by rw [eq]; exact ⟨rfl, rfl⟩, fun _ => ⟨fun _ => full, fun _ => ?_⟩,
      by simp [eq, opened, full], by simp [opened]⟩
    rw [TimesOut, eq, h.settings]
    exact ⟨rfl, asked⟩
  · have balanced := h.balanced
    refine ⟨fun fault hf => ?_, fun _ => ⟨fun out => ?_, fun full => by omega⟩, ?_,
      by simp [opened]⟩
    · rw [eq] at hf ⊢
      simp only at hf
      subst hf
      obtain ⟨inUse, permits, -⟩ := served.fails h.unawaited
      simp only at inUse permits
      exact ⟨inUse, by simp only; omega⟩
    · -- a borrower that is served asks the connector for something
      have same := out.2
      rw [eq, asked] at same
      exact absurd (List.append_left_eq_self.mp same) served.asks
    · rw [eq]
      simp only [served.untouched h.unawaited, opened, true_and, Nat.ne_of_lt free, if_false,
        Nat.add_zero]

/-- **Capacity.**  Whatever is done with a pool, and whatever the connector answers: what is counted
    as lent is what borrowers have; it makes up the capacity together with the free permits; the
    idle connections fit in the line, and with the lent ones in the pool; a request takes nothing
    away when it fails, times out just when all is lent, and fails as soon as the pool is closed;
    and a pool that was closed never has anything again.  The pool is the one that its operations
    make of it, one after the other. -/
theorem pool_keeps_capacity (c : Connector ω) (config : PoolConfig) (w : ω)
    (dealings : List (Dealing ω)) :
    let l := (fresh config w).run c dealings
    l.unwatched = dealings.foldl (fun s d => d.perform c s) (.ofConfig config, [], w) ∧
    l.pool.inUse = l.lent.length ∧
    l.pool.inUse + l.pool.permits = config.maxSize ∧
    l.pool.idle.length ≤ config.maxIdle ∧
    l.pool.idle.length + l.pool.inUse ≤ config.maxSize ∧
    (∀ request, Answers config c request l) ∧
    ∀ more, let l' := (l.close c).run c more
      l'.pool.closed = true ∧ l'.pool.idle = [] ∧
      ∀ request, l'.acquire c request = (.error .poolClosed, l') := by
  intro l
  have sound : l.Sound config := sound_run c config w dealings
  refine ⟨run_unwatched c _ dealings, sound.counted, sound.balanced, sound.idle_le, sound.room,
    sound.answers c, ?_⟩
  intro more l'
  have shut := (sound.close c).closed_run c rfl more
  have still : l'.Sound config := run_keeps (Sound.after c) more (sound.close c)
  exact ⟨shut, still.emptied shut, fun request => acquire_closed c request shut⟩

end Lending

end GraphSession
