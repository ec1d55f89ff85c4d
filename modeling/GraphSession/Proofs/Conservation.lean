import GraphSession.Proofs.Capacity

/-!
  What becomes of the connections that a pool makes.

  A pool counts the connections that it made, those that wait in line, those that are lent and those
  that it gave up.  Every connection moves from one count to another: into the line and out of it,
  to a borrower and back, and at last to those that were given up, be it because it was found
  unhealthy, because the line was full, or because the pool was closed.

  One way out is on no count: a connection that does not authenticate is dropped, whether it was new
  or had been idle, and is not among those that were given up.  So the balance has one more term,
  and the counts of the pool agree just as long as every authentication succeeds.
-/

namespace GraphSession

variable {ω : Type} {c : Connector ω} {config : PoolConfig}

/-- An authentication that failed. -/
def Contact.isRefusal : Contact → Bool
  | authenticate _ _ (.error _) => true
  | _ => false

/-- Serving a borrower moves connections from one count to another, unless one is refused. -/
theorem Pool.Served.accounts {token : Option AuthToken} {p q : Pool} {contacts : List Contact}
    {outcome : Except Fault Connection} (h : Served token p contacts outcome q)
    (line : p.queue = []) :
    q.created + (p.idle.length + p.inUse + p.discarded) =
      p.created + (q.idle.length + q.inUse + q.discarded + contacts.countP Contact.isRefusal) := by
  cases h with
  | again split | againInVain split =>
    simp [handOut, returnPermit, thin, line, split, Contact.isRefusal]
    omega
  | anew | anewInVain | unconnected =>
    simp [handOut, returnPermit, thin, line, Contact.isRefusal, List.countP_cons]
    omega

namespace Lending

/-- How many authentications failed. -/
def refusals (l : Lending ω) : Nat := l.around.contacts.countP Contact.isRefusal

/-- Every connection that was made is idle, lent, given up or refused. -/
def Accounted (l : Lending ω) : Prop :=
  l.pool.created = l.pool.idle.length + l.pool.inUse + l.pool.discarded + l.refusals

variable {l : Lending ω}

theorem Accounted.acquire (h : l.Accounted) (sound : l.Sound config) (c : Connector ω)
    (request : AcquireRequest) : (l.acquire c request).2.Accounted := by
  obtain ⟨-, eq⟩ | ⟨-, -, w, eq, asked⟩ | ⟨-, -, contacts, outcome, q, w, eq, served, asked⟩ :=
    sound.acquire_cases c request
  · rw [eq]
    exact h
  · rw [eq]
    simpa only [Accounted, refusals, asked] using h
  · have moved := served.accounts sound.unawaited
    rw [eq]
    simp only [Accounted, refusals, asked, List.countP_append] at h moved ⊢
    omega

theorem Accounted.giveBack (h : l.Accounted) (sound : l.Sound config) (c : Connector ω)
    {connection : Connection} (lent : connection ∈ l.lent) :
    (l.giveBack c connection).Accounted := by
  have counted := sound.counted
  have some_lent : 0 < l.lent.length := List.length_pos_of_mem lent
  obtain ⟨q, w, eq, asked, ⟨-, -, rfl⟩ | rfl⟩ :=
      giveBack_cases c connection (by omega) sound.unawaited <;>
    rw [eq] <;>
    simp only [Accounted, refusals, asked, List.length_append, List.length_singleton] at h ⊢ <;>
    omega

theorem Accounted.close (h : l.Accounted) (c : Connector ω) : (l.close c).Accounted := by
  obtain ⟨w, eq, asked⟩ := close_eq c l
  rw [eq]
  simp only [Accounted, refusals, asked, List.length_nil] at h ⊢
  omega

/-- Every dealing keeps the balance. -/
theorem Accounted.after (h : l.Accounted) (sound : l.Sound config) (c : Connector ω)
    (d : Dealing ω) : (l.after c d).Accounted := by
  cases d with
  | acquire request => exact h.acquire sound c request
  | giveBack connection =>
    simp only [Lending.after]
    split
    · rename_i lent
      exact h.giveBack sound c lent
    · exact h
  | close => exact h.close c
  | elsewhere change => exact h

/-- **Conservation.**  After whatever was done with a pool, every connection that it made is idle,
    lent, given up, or was refused an authentication.  So the counts of the pool agree if and only
    if no authentication ever failed. -/
theorem metrics_account (c : Connector ω) (config : PoolConfig) (w : ω)
    (dealings : List (Dealing ω)) :
    let l := (fresh config w).run c dealings
    let m := l.pool.metrics
    m.created = m.idle + m.inUse + m.discarded + l.refusals ∧
      (m.created = m.idle + m.inUse + m.discarded ↔
        ∀ e ∈ l.around.contacts, e.isRefusal = false) := by
  intro l m
  have accounted : l.Sound config ∧ l.Accounted :=
    run_keeps (P := fun l => l.Sound config ∧ l.Accounted)
      (fun l d h => ⟨h.1.after c l d, h.2.after h.1 c d⟩) dealings ⟨sound_fresh config w, rfl⟩
  have made : m.created = m.idle + m.inUse + m.discarded + l.refusals := accounted.2
  have none : l.refusals = 0 ↔ ∀ e ∈ l.around.contacts, e.isRefusal = false := by
    simp only [refusals, List.countP_eq_zero, Bool.not_eq_true]
  exact ⟨made, by rw [← none]; omega⟩

end Lending

end GraphSession
