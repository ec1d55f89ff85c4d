import GraphSession.Proofs.Operation

/-!
  How often an operation commits.

  A transaction function may be called again and again, but what it did must not be done twice.  So
  when a commit has been acknowledged, all that may still happen is that its bookmark is reported,
  the connection goes back, and the outcome is looked at.

  There is one way around this.  The report to the bookmark manager comes after the commit and its
  fault is the outcome of the commit; a fault that is worth another attempt then brings one, and
  with it another commit.  A commit is *excused* when its report failed in this way, and the results
  of this module say that nothing else leads on from a commit: there are at most as many commits as
  excuses, and one.
-/

namespace GraphSession

variable {ω α β : Type}

/-! ## What follows a commit -/

/-- What may still happen after a commit. -/
def Happening.IsAftermath : Happening → Prop
  | asked (.updateBookmarks ..) _ => True
  | asked (.release _) _ | asked (.note _) _ => True
  | asked .readClock _ | asked .drawSample _ => True
  | used (.commit _) _ => True
  | _ => False

/-- A report to the bookmark manager that failed with a fault worth another attempt. -/
def Happening.isFailedReport : Happening → Bool
  | asked (.updateBookmarks ..) (.error fault) => fault.isRetryable
  | _ => false

namespace History

/-- The first thing that happened was such a report. -/
def Excuses (after : History) : Prop := after.getLast?.any Happening.isFailedReport = true

/-- Every commit that was acknowledged is excused. -/
def Excused (h : History) : Prop :=
  ∀ after e before, h = after ++ e :: before → e.isCommit = true → Excuses after

/-- Nothing but its aftermath follows a commit, unless it is excused. -/
def CommitsOnce (h : History) : Prop :=
  ∀ after e before, h = after ++ e :: before → e.isCommit = true →
    (∀ e' ∈ after, e'.IsAftermath) ∨ Excuses after

/-- How many commits were acknowledged. -/
def commits (h : History) : Nat := h.countP Happening.isCommit

/-- How many reports failed with a fault worth another attempt. -/
def failedReports (h : History) : Nat := h.countP Happening.isFailedReport

/-! ## Histories one after the other -/

/-- Whatever is found in two histories is found in the later or in the earlier one. -/
theorem split_append {l l' after before : History} {e : Happening}
    (h : l' ++ l = after ++ e :: before) :
    (∃ a, after = l' ++ a ∧ l = a ++ e :: before) ∨
      ∃ b, l' = after ++ e :: b ∧ before = b ++ l := by
  rcases List.append_eq_append_iff.mp h with ⟨a, rfl, rfl⟩ | ⟨b, rfl, hb⟩
  · exact .inl ⟨a, rfl, rfl⟩
  · cases b with
    | nil => exact .inl ⟨[], by simp, hb.symm⟩
    | cons e' b =>
      obtain ⟨rfl, rfl⟩ := List.cons.inj hb
      exact .inr ⟨b, rfl, rfl⟩

theorem Excuses.append {after : History} (h : Excuses after) (later : History) :
    Excuses (later ++ after) := by
  unfold Excuses at *
  rw [List.getLast?_append]
  cases hlast : after.getLast? with
  | none => rw [hlast] at h; cases h
  | some e => rwa [hlast] at h

theorem Excused.append {l l' : History} (h : Excused l) (h' : Excused l') : Excused (l' ++ l) := by
  intro after e before split commit
  rcases split_append split with ⟨a, rfl, rfl⟩ | ⟨b, rfl, rfl⟩
  · exact (h a e before rfl commit).append l'
  · exact h' after e b rfl commit

theorem Excused.commitsOnce {l l' : History} (h : Excused l) (h' : CommitsOnce l') :
    CommitsOnce (l' ++ l) := by
  intro after e before split commit
  rcases split_append split with ⟨a, rfl, rfl⟩ | ⟨b, rfl, rfl⟩
  · exact .inr ((h a e before rfl commit).append l')
  · exact h' after e b rfl commit

theorem excused_of_uncommitted {l : History} (h : ∀ e ∈ l, e.isCommit = false) : Excused l := by
  rintro after e before rfl commit
  rw [h e (by simp)] at commit
  cases commit

theorem commitsOnce_nil : CommitsOnce [] := fun after _ _ split => by
  cases after <;> cases split

theorem commitsOnce_of_uncommitted {l : History} (h : ∀ e ∈ l, e.isCommit = false) :
    CommitsOnce l := by
  simpa using (excused_of_uncommitted h).commitsOnce commitsOnce_nil

/-- What follows a commit is not another one. -/
theorem isCommit_of_isAftermath {e : Happening} (h : e.IsAftermath) : e.isCommit = false := by
  unfold Happening.isCommit
  split
  · cases h
  · rfl

theorem CommitsOnce.append {l l' : History} (h : CommitsOnce l) (h' : ∀ e ∈ l', e.IsAftermath) :
    CommitsOnce (l' ++ l) := by
  intro after e before split commit
  rcases split_append split with ⟨a, rfl, rfl⟩ | ⟨b, rfl, rfl⟩
  · refine (h a e before rfl commit).imp (fun ha e' he' => ?_) fun excuse => excuse.append l'
    exact (List.mem_append.mp he').elim (h' e') (ha e')
  · rw [isCommit_of_isAftermath (h' e (by simp))] at commit
    cases commit

/-- A commit and its aftermath. -/
theorem commitsOnce_cons {e : Happening} {l l' : History}
    (h : ∀ e ∈ l, e.isCommit = false) (h' : ∀ e ∈ l', e.IsAftermath) :
    CommitsOnce (l' ++ e :: l) := by
  refine CommitsOnce.append (fun after c before split commit => ?_) h'
  cases after with
  | nil => exact .inl (by simp)
  | cons c' after =>
    obtain ⟨-, rfl⟩ := List.cons.inj split
    rw [h c (by simp)] at commit
    cases commit

/-! ## Counting -/

/-- In the earlier part of a history in which every commit is excused there are at most as many
    commits as excuses; the first of the later ones may be the excuse of the last commit. -/
theorem commits_le_of_excuses (later h : History)
    (excused : ∀ after e before, h = after ++ e :: before → e.isCommit = true →
      Excuses (later ++ after)) :
    h.commits ≤ h.failedReports + (later.getLast?.any Happening.isFailedReport).toNat := by
  unfold commits failedReports
  induction h generalizing later with
  | nil => exact Nat.zero_le _
  | cons e past ih =>
    have rest := ih (later ++ [e]) fun after c before split commit => by
      have excuse : Excuses (later ++ e :: after) :=
        excused (e :: after) c before (by rw [split]; rfl) commit
      rwa [List.append_assoc]
    rw [List.getLast?_concat, Option.any_some] at rest
    rw [List.countP_cons, List.countP_cons]
    have here : e.isCommit = true → later.getLast?.any Happening.isFailedReport = true :=
      fun commit => by
        have excuse : Excuses (later ++ []) := excused [] e past rfl commit
        rwa [List.append_nil] at excuse
    cases commit : e.isCommit with
    | false => cases report : e.isFailedReport <;> simp [report] at rest ⊢ <;> omega
    | true =>
      rw [here commit]
      cases report : e.isFailedReport <;> simp [report] at rest ⊢ <;> omega

theorem isFailedReport_of_isCommit {e : Happening} (h : e.isCommit = true) :
    e.isFailedReport = false := by
  unfold Happening.isFailedReport
  split
  · cases h
  · rfl

/-- A commit whose report is the next thing that happens, and fails. -/
theorem excused_cons {e report : Happening} {l : History} (h : ∀ e ∈ l, e.isCommit = false)
    (failed : report.isFailedReport = true) : Excused (report :: e :: l) := by
  intro after c before split commit
  match after, split with
  | [], split =>
    obtain ⟨rfl, -⟩ := List.cons.inj split
    rw [isFailedReport_of_isCommit commit] at failed
    cases failed
  | [_], split =>
    obtain ⟨rfl, -⟩ := List.cons.inj split
    exact failed
  | _ :: _ :: after, split =>
    obtain ⟨-, split⟩ := List.cons.inj split
    obtain ⟨-, rfl⟩ := List.cons.inj split
    rw [h c (by simp)] at commit
    cases commit

/-- There are at most as many commits as excuses, and one. -/
theorem CommitsOnce.commits_le {h : History} (once : CommitsOnce h) :
    h.commits ≤ h.failedReports + 1 := by
  by_cases last : ∃ after e before, h = after ++ e :: before ∧ e.isCommit = true ∧ ¬ Excuses after
  · -- there is no other commit after one that is not excused
    obtain ⟨after, e, before, rfl, commit, bare⟩ := last
    have aftermath := (once after e before rfl commit).resolve_right bare
    have rest := commits_le_of_excuses (after ++ [e]) before fun a c b split isCommit => by
      rw [List.append_assoc]
      refine (once (after ++ e :: a) c b (by rw [split]; simp) isCommit).resolve_left fun all => ?_
      rw [isCommit_of_isAftermath (all e (by simp))] at commit
      cases commit
    rw [List.getLast?_concat, Option.any_some, isFailedReport_of_isCommit commit] at rest
    have none_after : after.countP Happening.isCommit = 0 :=
      List.countP_eq_zero.mpr fun c hc => by simp [isCommit_of_isAftermath (aftermath c hc)]
    unfold commits failedReports at *
    rw [List.countP_append, List.countP_append, List.countP_cons, List.countP_cons, none_after,
      commit, isFailedReport_of_isCommit commit]
    simp at rest ⊢
    omega
  · have excused : Excused h := fun after e before split commit =>
      Classical.byContradiction fun bare => last ⟨after, e, before, split, commit, bare⟩
    have no_more : h.commits ≤ h.failedReports := commits_le_of_excuses [] h excused
    omega

end History

/-! ## A commit -/

/-- What an attempt may have done that came to `outcome`. -/
def History.Attempted (outcome : Except Fault α) (h : History) : Prop :=
  h.CommitsOnce ∧ ∀ fault, outcome = .error fault → fault.isRetryable = true → h.Excused

namespace History

theorem attempted_of_uncommitted {outcome : Except Fault α} {l : History}
    (h : ∀ e ∈ l, e.isCommit = false) : Attempted outcome l :=
  ⟨commitsOnce_of_uncommitted h, fun _ _ _ => excused_of_uncommitted h⟩

theorem Attempted.after {outcome : Except Fault α} {l l' : History} (h : Attempted outcome l')
    (quiet : ∀ e ∈ l, e.isCommit = false) : Attempted outcome (l' ++ l) :=
  ⟨(excused_of_uncommitted quiet).commitsOnce h.1, fun fault e retryable =>
    (excused_of_uncommitted quiet).append (h.2 fault e retryable)⟩

/-- After an acknowledged commit nothing happened but its aftermath. -/
theorem attempted_acknowledged {a : α} {e : Happening} {l l' : History}
    (quiet : ∀ e ∈ l, e.isCommit = false) (aftermath : ∀ e ∈ l', e.IsAftermath) :
    Attempted (.ok a : Except Fault α) (l' ++ e :: l) :=
  ⟨commitsOnce_cons quiet aftermath, fun _ e => by cases e⟩

/-- After an acknowledged commit its report failed, and that is the outcome. -/
theorem attempted_reported {fault : Fault} {sent new : Bookmarks} {e : Happening} {l l' : History}
    (quiet : ∀ e ∈ l, e.isCommit = false) (aftermath : ∀ e ∈ l', e.IsAftermath) :
    Attempted (.error fault : Except Fault α)
      (l' ++ [.asked (.updateBookmarks sent new) (.error fault)] ++ e :: l) := by
  refine ⟨commitsOnce_cons quiet fun e' he' => ?_, fun f same retryable => ?_⟩
  · rcases List.mem_append.mp he' with he' | he'
    · exact aftermath e' he'
    · rw [List.mem_singleton.mp he']
      trivial
  · cases same
    have failed : Happening.isFailedReport (.asked (.updateBookmarks sent new) (.error fault)) =
        true := retryable
    rw [List.append_assoc]
    refine (excused_cons quiet failed).append (excused_of_uncommitted fun e' he' => ?_)
    exact isCommit_of_isAftermath (aftermath e' he')

end History

section Actions

variable {peer : Peer ω} {σ : State (Recorded ω)} {t : TransactionId}

/-- Nothing was committed. -/
abbrev State.Quiet (σ τ : State (Recorded ω)) : Prop :=
  σ.Since (∀ e ∈ ·, e.isCommit = false) τ

/-- Nothing happened but the aftermath of a commit. -/
abbrev State.Settling (σ τ : State (Recorded ω)) : Prop :=
  σ.Since (∀ e ∈ ·, e.IsAftermath) τ

theorem Op.Within.quiet {op : Op (Recorded ω) β} {may : License} (h : op.Within may)
    (n : ¬ may.commits) (σ : State (Recorded ω)) :
    op.Ends σ (fun _ τ => σ.Quiet τ) fun _ τ => σ.Quiet τ :=
  (h.ends σ).imp (fun _ _ h => h.uncommitted n) fun _ _ h => h.uncommitted n

theorem Act.Within.quiet {act : Act (Recorded ω) β} {may : License} (h : act.Within may)
    (n : ¬ may.commits) (σ : State (Recorded ω)) : act.Ends σ fun _ τ => σ.Quiet τ :=
  (h.ends σ).imp fun _ _ h => h.uncommitted n

/-- The end of a unit of work gives the connection back, if it does anything. -/
theorem endUnit_settling : (endUnit peer.recorded).Ends σ fun _ τ => σ.Settling τ := by
  rw [endUnit, Act.ends_bind, Act.ends_changeSession, Act.ends_bind, Act.ends_theSession]
  split
  · rw [releaseConnection, Act.ends_bind, Act.ends_theSession]
    split
    · exact .nothing (by simp) rfl
    · rw [Act.ends_bind, Act.ends_changeSession, Act.ends_bind]
      refine Act.ends_giveBack fun w => Act.ends_note fun w' => ?_
      exact ⟨[_, _], rfl, by simp [Happening.IsAftermath]⟩
  · exact .nothing (by simp) rfl

/-- The report of a bookmark; when it fails, it was there. -/
theorem takeBookmark?_settling (sent : Bookmarks) (token : Option String) :
    (takeBookmark? peer.recorded sent token).Ends σ (fun _ τ => σ.Settling τ) fun fault τ =>
      ∃ new, τ.history = .asked (.updateBookmarks sent new) (.error fault) :: σ.history := by
  cases token with
  | none => exact .nothing (by simp) rfl
  | some token =>
    rw [takeBookmark?, takeBookmark, Op.ends_bind, Op.ends_changeSession, Op.ends_bind,
      Op.ends_theSession]
    split
    · exact Op.ends_reportBookmarks (fun w => .one (by trivial) rfl)
        fun fault w => ⟨_, rfl⟩
    · exact .nothing (by simp) rfl

/-- Nothing but its aftermath follows a commit when its bookmark is reported and the unit ends.
    This fails only if the report does, and the report is then the first thing that happens. -/
theorem reportAndEnd_settling (sent : Bookmarks) (token : Option String) :
    (reportAndEnd peer.recorded sent token).Ends σ (fun _ τ => σ.Settling τ) fun fault τ =>
      ∃ new, σ.Since (fun l => ∃ later,
        l = later ++ [.asked (.updateBookmarks sent new) (.error fault)] ∧
          ∀ e ∈ later, e.IsAftermath) τ := by
  refine Op.ends_attemptThen.mpr ((takeBookmark?_settling sent token).imp (fun _ υ h => ?_)
    fun fault υ h => ?_)
  · exact endUnit_settling.imp fun _ _ h' => h.all_andThen h'
  · obtain ⟨new, report⟩ := h
    refine endUnit_settling.imp fun _ φ h' => ?_
    obtain ⟨later, history, aftermath⟩ := h'
    refine ⟨new, later ++ [_], ?_, later, rfl, aftermath⟩
    rw [history, report, List.append_assoc]
    rfl

/-- A commit that is acknowledged fails only when the report of its bookmark does. -/
theorem commit_attempted :
    (commit peer.recorded t).Ends σ
      (fun a τ => σ.Since (History.Attempted (.ok a : Except Fault Unit)) τ)
      fun fault τ => σ.Since (History.Attempted (.error fault : Except Fault Unit)) τ := by
  have quietly {σ τ : State (Recorded ω)} {outcome : Except Fault Unit} (h : σ.Quiet τ) :
      σ.Since (History.Attempted outcome) τ :=
    h.imp fun _ => History.attempted_of_uncommitted
  -- nothing is committed unless the server says so
  have aborted (fault : Fault) {τ : State (Recorded ω)} (h : σ.Quiet τ) : Op.Ends (do
        setState t .closed
        failAfter (abortUnit peer.recorded) fault : Op (Recorded ω) Unit) τ
      (fun a τ => σ.Since (History.Attempted (.ok a : Except Fault Unit)) τ)
      fun fault τ => σ.Since (History.Attempted (.error fault : Except Fault Unit)) τ := by
    have aborting : (abortUnit peer.recorded).Within {} := abortUnit_within
    rw [Op.ends_bind, setState, Op.ends_changeTransaction, Op.ends_failAfter]
    exact (aborting.quiet (fun h => h) _).imp fun _ _ h' => quietly (h.all_andThen h')
  have reported (sent : Bookmarks) (token : Option String) {τ : State (Recorded ω)} {e : Happening}
      {l : History} (quiet : ∀ e ∈ l, e.isCommit = false)
      (history : τ.history = e :: l ++ σ.history) : Op.Ends (do
        setState t .committed
        reportAndEnd peer.recorded sent token : Op (Recorded ω) Unit) τ
      (fun a τ => σ.Since (History.Attempted (.ok a : Except Fault Unit)) τ)
      fun fault τ => σ.Since (History.Attempted (.error fault : Except Fault Unit)) τ := by
    have committed : σ.Since (fun l' => l' = e :: l) τ := ⟨_, history, rfl⟩
    rw [Op.ends_bind, setState, Op.ends_changeTransaction]
    refine (reportAndEnd_settling sent token).imp ?_ ?_
    · intro _ υ h
      refine committed.andThen h fun l₁ l₂ e₁ aftermath => ?_
      rw [e₁]
      exact History.attempted_acknowledged quiet aftermath
    · intro fault υ h
      obtain ⟨new, h⟩ := h
      refine committed.andThen h fun l₁ l₂ e₁ e₂ => ?_
      obtain ⟨later, rfl, aftermath⟩ := e₂
      rw [e₁]
      exact History.attempted_reported quiet aftermath
  rw [commit, Op.ends_bind, Op.ends_theSession, Op.ends_bind, Op.ends_failIf]
  refine ⟨fun _ => ?_, fun fault _ => quietly (.nothing (by simp) rfl)⟩
  rw [Op.ends_bind, takeResults, Op.ends_bind, Op.ends_theSession, Op.ends_bind,
    Op.ends_changeTransaction, Op.ends_pure, Op.ends_bind, Op.ends_attempt, Op.ends_bind]
  have ended : (endResults peer.recorded (σ.session.transaction t).results).Within {} :=
    endResults_within _
  refine (ended.quiet (fun h => h) _).imp (fun _ τ h => ?_) fun fault τ h => aborted fault h
  obtain ⟨l, hl, quiet⟩ := h
  rw [commitHeld]
  cases held : τ.session.connection with
  | none =>
    rw [sendHeld, Op.ends_bind, Op.ends_theSession, held]
    exact aborted _ ⟨l, hl, quiet⟩
  | some c =>
    refine Op.ends_sendHeld held (fun token w => ?_) fun fault w => ?_
    · exact reported _ token quiet (congrArg (_ :: ·) hl)
    · refine aborted fault ⟨_ :: l, congrArg (_ :: ·) hl, fun e he => ?_⟩
      rcases List.mem_cons.mp he with rfl | he
      · rfl
      · exact quiet e he

/-! ## The code of a transaction function -/

/-- A transaction function commits nothing: its own transaction is the session's to end, and no
    other is open. -/
theorem Access.perform_quiet (h : σ.Managed t) (a : Access) :
    (a.perform peer.recorded).Ends σ (fun _ τ => σ.Quiet τ) fun _ τ => σ.Quiet τ := by
  cases a with
  | commit t' =>
    rw [Access.perform, Op.ends_bind, checkHolder, Op.ends_bind, Op.ends_theSession]
    split
    · exact .nothing (by simp) rfl
    · next mine =>
      have spent : (σ.session.transaction t').state ≠ .active := by
        intro active
        obtain ⟨v, s, holder, -, h⟩ := h
        obtain ⟨v', same, -, mine', -⟩ := h.opened (t := t') (by rw [active]; rfl)
        cases same
        rw [holder] at mine'
        simp [← mine'] at mine
      exact Op.ends_pure.mpr (commit_refused spent fun _ _ => .nothing (by simp) rfl)
  | _ => exact (Access.perform_within _).quiet (by exact fun h => h) σ

theorem Access.performTold_quiet (h : σ.Managed t) (a : Access) :
    (a.performTold peer).Ends σ fun _ τ => σ.Quiet τ := by
  have told {τ : State (Recorded ω)} (outcome : Except Fault a.Reply) (h : σ.Quiet τ) :
      σ.Quiet { τ with world := τ.world.add (.used a outcome) } :=
    h.all_andThen (.one rfl rfl)
  rw [performTold, Act.ends_bind, Act.ends_run]
  exact (a.perform_quiet h).imp (fun r τ h => told (.ok r) h) fun fault τ h => told (.error fault) h

theorem Work.perform_quiet (h : σ.Managed t) (w : Work ω α) :
    (w.recorded.perform peer.recorded).Ends σ (fun _ τ => σ.Quiet τ) fun _ τ => σ.Quiet τ := by
  refine (w.perform_keeps (fun τ => τ.Managed t ∧ σ.Quiet τ) (fun τ a h => ?_)
    (fun τ w h => ⟨h.1.drift w, h.2⟩) (fun τ fault h => ?_) ⟨h, .nothing (by simp) rfl⟩).imp
    (fun _ _ h => h.2) fun _ _ h => h.1.2
  · exact ((a.performTold_managed h.1).and (a.performTold_quiet h.1)).imp fun _ υ h' =>
      ⟨h'.1, h.2.all_andThen h'.2⟩
  · exact ⟨h.1.log trivial trivial trivial, h.2.all_andThen (.one rfl rfl)⟩

/-! ## An attempt -/

/-- Where nothing is open there is nothing to close. -/
theorem closeQuietly_idle (h : σ.Stands {}) (t : TransactionId) :
    (closeQuietly peer.recorded t).Ends σ fun _ τ => τ.history = σ.history := by
  rw [closeQuietly, Act.ends_bind, Act.ends_run, closeTransaction, Op.ends_bind,
    Op.ends_theSession, h.isTerminated (by simp)]
  rfl

theorem settle_attempted (h : σ.Managed t) (outcome : Except Fault α) :
    Act.Ends (settle peer.recorded t outcome).run σ fun o τ => σ.Since (History.Attempted o) τ := by
  have closed : (closeQuietly peer.recorded t).Within { concludes := True } :=
    closeQuietly_within trivial t
  have refused (fault : Fault) {τ : State (Recorded ω)} (h : σ.Quiet τ) :
      (failAfter (closeQuietly peer.recorded t) fault : Op (Recorded ω) α).Ends τ
        (fun a τ => σ.Since (History.Attempted (.ok a)) τ)
        fun fault τ => σ.Since (History.Attempted (.error fault : Except Fault α)) τ :=
    Op.ends_failAfter.mpr ((closed.quiet (fun h => h) τ).imp fun _ υ h' =>
      (h.all_andThen h').imp fun _ => History.attempted_of_uncommitted)
  rw [Act.ends_run, settle, Op.ends_bind, Op.ends_attempt, Op.ends_bind, Op.ends_settleOn]
  refine ⟨fun a _ => ?_, fun fault _ => refused fault (.nothing (by simp) rfl)⟩
  rw [Op.ends_bind]
  by_cases active : (σ.session.transaction t).state = .active
  · obtain ⟨v, s, holder, linked, steady⟩ := h
    refine (commit_attempted.and (commit_stands steady linked active)).imp ?_ ?_
    · intro _ τ h
      exact h.1.imp fun l hl => ⟨hl.1, fun _ e => by cases e⟩
    · -- the transaction is over, whatever the commit failed with
      intro fault τ h
      rw [Op.ends_bind, Op.ends_lift]
      refine (closeQuietly_idle h.2.1 t).imp fun _ υ same => ?_
      obtain ⟨l, hl, attempted⟩ := h.1
      refine ⟨l, same.trans hl, attempted.1, fun f e => ?_⟩
      cases e
      exact attempted.2 fault rfl
  · exact commit_refused active fun fault _ => refused fault (.nothing (by simp) rfl)

/-- What an attempt does once its transaction is open. -/
theorem settledWork_attempted {v : Transaction} (holder : v.holder = .session)
    (h : σ.Live 0 (some (t, v)) none) (w : Work ω α) :
    Act.Ends (do
      let outcome ← (w.recorded.perform peer.recorded).run
      (settle peer.recorded t outcome).run : Act (Recorded ω) (Except Fault α)) σ
      fun outcome τ => σ.Since (History.Attempted outcome) τ := by
  have managed : σ.Managed t :=
    ⟨v, none, holder, .quiet, .inl (h.busy (.inl (Option.some_ne_none _)))⟩
  have settled {τ : State (Recorded ω)} (outcome : Except Fault α) (h : τ.Managed t)
      (quiet : σ.Quiet τ) :
      Act.Ends (settle peer.recorded t outcome).run τ
        fun outcome τ => σ.Since (History.Attempted outcome) τ :=
    (settle_attempted h outcome).imp fun _ _ h' =>
      quiet.andThen h' fun _ _ hl hl' => hl'.after hl
  rw [Act.ends_bind, Act.ends_run]
  exact ((w.perform_managed managed).and (w.perform_quiet managed)).imp
    (fun a τ h => settled (.ok a) h.1 h.2) fun fault τ h => settled (.error fault) h.1.1 h.2

theorem attemptOnce_attempted (h : σ.Stands {}) (options : ExecuteOptions)
    (work : TransactionFunction ω α) (calls : Nat) :
    (attemptOnce peer.recorded options (TransactionFunction.recorded work) calls).Ends σ
      fun r τ => σ.Since (History.Attempted r.1) τ := by
  have opened : (openTransaction peer.recorded options.mode options.api options.config
      .session).Within { borrows := True } := openTransaction_within trivial _ _ _ _
  rw [attemptOnce, Act.ends_bind, Act.ends_run]
  refine ((openTransaction_stands h _ _ _ _).and (opened.quiet (fun h => h) σ)).imp
    (fun t τ h => ?_) fun fault τ h => h.2.imp fun _ => History.attempted_of_uncommitted
  obtain ⟨⟨v, holder, live⟩, quiet⟩ := h
  exact (settledWork_attempted holder live (work calls t)).imp fun _ _ h' =>
    quiet.andThen h' fun _ _ hl hl' => hl'.after hl

/-- Another attempt is made only after a fault that is worth one. -/
theorem Backoff.isRetryable_of_retryAfter {b b' : Backoff} {now : Instant} {sample : Float}
    {fault : Fault} {delay : Duration}
    (h : b.onFailure now sample fault = (.retryAfter delay, b')) : fault.isRetryable = true := by
  unfold onFailure at h
  dsimp only at h
  split at h
  · cases h
  · next retryable => simpa using retryable

/-- What is decided after a failure, and what was looked at to decide it. -/
theorem decide_settling (backoff : Backoff) (fault : Fault) :
    (decide peer.recorded backoff fault).Ends σ fun r τ =>
      σ.Settling τ ∧ ∀ delay, r.1 = .retryAfter delay → fault.isRetryable = true := by
  rw [decide, Act.ends_bind]
  refine Act.ends_ask fun now w => ?_
  rw [Act.ends_bind]
  refine Act.ends_ask fun sample w' => ?_
  exact ⟨⟨[_, _], rfl, by simp [Happening.IsAftermath]⟩, fun delay e =>
    Backoff.isRetryable_of_retryAfter (Prod.ext e rfl)⟩

/-- A failed attempt is followed by a decision.  When that is to try again, nothing stands that was
    committed without an excuse. -/
theorem decided_attempted {τ : State (Recorded ω)} {fault : Fault} {backoff : Backoff}
    (h : σ.Since (History.Attempted (.error fault : Except Fault α)) τ) :
    (decide peer.recorded backoff fault).Ends τ fun r υ => σ.Since History.CommitsOnce υ ∧
      ∀ delay, r.1 = .retryAfter delay → σ.Since History.Excused υ := by
  refine (decide_settling backoff fault).imp fun r υ hυ => ⟨?_, fun delay e => ?_⟩
  · exact h.andThen hυ.1 fun _ _ hl hl' => hl.1.append hl'
  · refine h.andThen hυ.1 fun l l' hl hl' => (hl.2 fault rfl (hυ.2 delay e)).append ?_
    exact History.excused_of_uncommitted fun e he => History.isCommit_of_isAftermath (hl' e he)

/-! ## A series of attempts -/

/-- The wait before another attempt. -/
theorem State.Since.waited {τ : State (Recorded ω)} (h : σ.Since History.Excused τ) (event : Event)
    (delay : Duration) (w w' : ω) :
    σ.Since History.Excused ((τ.heard (.note event) () w).heard (.sleep delay) () w') := by
  have waited : τ.Quiet ((τ.heard (.note event) () w).heard (.sleep delay) () w') :=
    ⟨[_, _], rfl, by simp [Happening.isCommit]⟩
  exact h.andThen waited fun _ _ hl hl' => hl.append (History.excused_of_uncommitted hl')

theorem attemptFrom_commitsOnce (h : σ.Stands {}) (options : ExecuteOptions)
    (work : TransactionFunction ω α) (patience calls : Nat) (backoff : Backoff) :
    (attemptFrom peer.recorded options (TransactionFunction.recorded work) patience calls
      backoff).Ends σ fun _ τ => σ.Since History.CommitsOnce τ := by
  induction patience generalizing σ calls backoff with
  | zero => exact .nothing History.commitsOnce_nil rfl
  | succ patience ih =>
    rw [attemptFrom, Act.ends_bind]
    refine ((attemptOnce_attempted h options work calls).and
      (attemptOnce_stands h options work calls)).imp fun r τ hτ => ?_
    obtain ⟨outcome, calls⟩ := r
    obtain ⟨attempted, stands, answers⟩ := hτ
    cases outcome with
    | ok a => exact attempted.imp fun _ hl => hl.1
    | error fault =>
      rw [Act.ends_bind]
      refine ((decided_attempted attempted).and
        (decide_stands stands backoff (answers fault rfl))).imp fun r υ hυ => ?_
      obtain ⟨decision, backoff⟩ := r
      cases decision with
      | giveUp f => exact hυ.1.1
      | retryAfter delay =>
        rw [Act.ends_bind]
        refine Act.ends_note fun w => ?_
        rw [Act.ends_bind]
        refine Act.ends_ask fun _ w' => ?_
        refine Act.Ends.imp (ih ((hυ.2.1.noted _ w).aside (by trivial) (by trivial) w') calls
          backoff) fun _ _ h' => ?_
        exact ((hυ.1.2 delay rfl).waited _ _ w w').andThen h' fun _ _ hl hl' => hl.commitsOnce hl'

theorem prepareExecute_quiet (σ : State (Recorded ω)) :
    (prepareExecute peer.recorded).Ends σ (fun _ τ => σ.Quiet τ) fun _ τ => σ.Quiet τ := by
  have prepared : (prepareExecute peer.recorded).Within { directs := True, concludes := True } :=
    prepareExecute_within trivial trivial
  exact prepared.quiet (fun h => h) σ

theorem executeWith_commitsOnce (h : σ.Rests) (options : ExecuteOptions) (patience : Nat)
    (work : TransactionFunction ω α) :
    (executeWith peer.recorded options patience (TransactionFunction.recorded work)).Ends σ
      fun _ τ => σ.Since History.CommitsOnce τ := by
  rw [executeWith, Act.ends_bind, Act.ends_run]
  refine ((prepareExecute_stands h).and (prepareExecute_quiet σ)).imp (fun _ τ h => ?_)
    fun fault τ h => h.2.imp fun _ hl => History.commitsOnce_of_uncommitted hl
  rw [Act.ends_bind]
  refine Act.ends_ask fun now w => ?_
  rw [Act.ends_bind, Act.ends_theSession]
  have begun : σ.Quiet (τ.heard .readClock now w) :=
    h.2.all_andThen (.one rfl rfl)
  refine Act.Ends.imp (attemptFrom_commitsOnce (h.1.aside (by trivial) (by trivial) w) options work
    patience 0 _) fun _ _ h' => ?_
  exact begun.andThen h' fun _ _ hl hl' =>
    (History.excused_of_uncommitted hl).commitsOnce hl'

theorem executeQueryWith_commitsOnce (h : σ.Rests) (source : QuerySource) (mode : AccessMode)
    (patience : Nat) (work : Query → TransactionFunction ω α) :
    (executeQueryWith peer.recorded source mode patience fun query =>
      TransactionFunction.recorded (work query)).Ends σ
      fun _ τ => σ.Since History.CommitsOnce τ := by
  rw [executeQueryWith]
  cases Query.ofSource source with
  | error fault => exact .nothing History.commitsOnce_nil rfl
  | ok query => exact executeWith_commitsOnce h _ patience (work _)

/-! ## Series that a waiting caller drives -/

namespace Blocking

/-- Between two steps of a series every commit is excused. -/
def Progress.Commits (progress : Progress α) (h : History) : Prop :=
  match progress with
  | .trying .. => h.Excused
  | .finished _ => h.CommitsOnce

theorem afterFailure_commits {τ : State (Recorded ω)} {fault : Fault}
    (h : σ.Since (History.Attempted (.error fault : Except Fault α)) τ) (calls : Nat)
    (backoff : Backoff) :
    (afterFailure (α := α) peer.recorded calls backoff fault).Ends τ
      fun progress υ => σ.Since progress.Commits υ := by
  rw [afterFailure, Act.ends_bind]
  refine (decided_attempted h).imp fun r υ hυ => ?_
  obtain ⟨decision, backoff⟩ := r
  cases decision with
  | giveUp f => exact hυ.1
  | retryAfter delay =>
    rw [Act.ends_bind]
    refine Act.ends_note fun w => ?_
    rw [Act.ends_bind]
    exact Act.ends_ask fun _ w' => (hυ.2 delay rfl).waited _ _ w w'

theorem step_commits (h : σ.Stands {}) (options : ExecuteOptions)
    (work : TransactionFunction ω α) (calls : Nat) (backoff : Backoff) :
    (step peer.recorded options (TransactionFunction.recorded work) (.trying calls backoff)).Ends σ
      fun progress τ => σ.Since progress.Commits τ := by
  have opened : (openTransaction peer.recorded options.mode options.api options.config
      .session).Within { borrows := True } := openTransaction_within trivial _ _ _ _
  rw [step, Act.ends_bind, Act.ends_run]
  refine ((openTransaction_stands h _ _ _ _).and (opened.quiet (fun h => h) σ)).imp
    (fun t τ h => ?_) fun fault τ h =>
      afterFailure_commits (h.2.imp fun _ => History.attempted_of_uncommitted) calls backoff
  obtain ⟨⟨v, holder, live⟩, quiet⟩ := h
  rw [Act.ends_bind]
  refine (Act.ends_bind.mp (settledWork_attempted holder live (work calls t))).imp fun o υ hυ => ?_
  rw [Act.ends_bind]
  refine Act.Ends.imp hυ fun outcome φ hφ => ?_
  have attempted : σ.Since (History.Attempted outcome) φ :=
    quiet.andThen hφ fun _ _ hl hl' => hl'.after hl
  cases outcome with
  | ok a => exact attempted.imp fun _ hl => hl.1
  | error fault => exact afterFailure_commits attempted (calls + 1) backoff

theorem Progress.Commits.commitsOnce {progress : Progress α} {h : History}
    (commits : progress.Commits h) : h.CommitsOnce := by
  cases progress with
  | trying calls backoff =>
    exact fun after e before split commit => .inr (commits after e before split commit)
  | finished outcome => exact commits

theorem drive_commitsOnce {progress : Progress α} {τ : State (Recorded ω)}
    (since : σ.Since progress.Commits τ) (h : progress.IsSound τ) (options : ExecuteOptions)
    (work : TransactionFunction ω α) (patience : Nat) :
    (drive peer.recorded options (TransactionFunction.recorded work) patience progress).Ends τ
      fun _ υ => σ.Since History.CommitsOnce υ := by
  induction patience generalizing τ progress with
  | zero => exact since.imp fun _ => Progress.Commits.commitsOnce
  | succ patience ih =>
    cases progress with
    | finished outcome => exact since
    | trying calls backoff =>
      rw [drive, Act.ends_bind]
      refine ((step_sound h options work).and (step_commits h options work calls backoff)).imp
        fun progress υ hυ => ih ?_ hυ.1
      refine since.andThen hυ.2 fun l l' hl hl' => ?_
      cases progress with
      | trying calls backoff => exact History.Excused.append hl hl'
      | finished outcome => exact History.Excused.commitsOnce hl hl'

theorem begin_quiet (σ : State (Recorded ω)) :
    (begin (α := α) peer.recorded).Ends σ fun _ τ => σ.Quiet τ := by
  rw [begin, Act.ends_bind, Act.ends_run]
  refine (prepareExecute_quiet σ).imp (fun _ τ h => ?_) fun fault τ h => h
  rw [Act.ends_bind]
  exact Act.ends_ask fun now w => h.all_andThen (.one rfl rfl)

theorem execute_commitsOnce (h : σ.Rests) (mode : AccessMode) (config : TransactionConfig)
    (patience : Nat) (work : TransactionFunction ω α) :
    (execute peer.recorded mode config patience (TransactionFunction.recorded work)).Ends σ
      fun _ τ => σ.Since History.CommitsOnce τ := by
  rw [execute, Act.ends_bind]
  refine ((begin_sound h).and (begin_quiet σ)).imp fun progress τ h => ?_
  have begun : σ.Since progress.Commits τ := h.2.imp fun l hl => by
    cases progress with
    | trying calls backoff => exact History.excused_of_uncommitted hl
    | finished outcome => exact History.commitsOnce_of_uncommitted hl
  rw [Act.ends_bind]
  exact (drive_commitsOnce begun h.1 _ work patience).imp fun _ _ h => h

end Blocking

/-! ## Operations -/

/-- The license for everything but a commit. -/
def License.uncommitting : License :=
  { drops := fun _ => True, borrows := True, directs := True, concludes := True }

theorem concluded_quiet {op : Op (Recorded ω) β} (h : op.Within .uncommitting)
    (σ : State (Recorded ω)) :
    (concluded op).Ends σ fun _ τ => σ.Since History.CommitsOnce τ := by
  rw [concluded, Act.ends_bind, Act.ends_run]
  have once {τ : State (Recorded ω)} (h : σ.Quiet τ) : σ.Since History.CommitsOnce τ :=
    h.imp fun _ => History.commitsOnce_of_uncommitted
  exact (h.quiet (fun h => h) σ).imp (fun _ _ h => once h) fun _ _ h => once h

/-- An access commits at most once, and then it is over. -/
theorem Access.performTold_commitsOnce (a : Access) (σ : State (Recorded ω)) :
    (a.performTold peer).Ends σ fun _ τ => σ.Since History.CommitsOnce τ := by
  have quietly (h : ¬ a.license.commits) :
      (a.performTold peer).Ends σ fun _ τ => σ.Since History.CommitsOnce τ := by
    have told {τ : State (Recorded ω)} (outcome : Except Fault a.Reply) (h : σ.Quiet τ) :
        σ.Since History.CommitsOnce { τ with world := τ.world.add (.used a outcome) } :=
      State.Since.imp (h.all_andThen (.one rfl rfl))
        fun _ => History.commitsOnce_of_uncommitted
    rw [performTold, Act.ends_bind, Act.ends_run]
    exact (a.perform_within.quiet h σ).imp (fun r _ h => told (.ok r) h)
      fun fault _ h => told (.error fault) h
  cases a with
  | commit t =>
    have told {τ : State (Recorded ω)} (outcome : Except Fault Unit)
        (h : σ.Since History.CommitsOnce τ) :
        σ.Since History.CommitsOnce { τ with world := τ.world.add (.used (.commit t) outcome) } :=
      h.andThen (.one (by trivial) rfl) fun _ _ hl hl' => hl.append hl'
    rw [performTold, Act.ends_bind, Act.ends_run, Access.perform, Op.ends_bind, checkHolder,
      Op.ends_bind, Op.ends_theSession]
    split
    · exact told _ (.nothing History.commitsOnce_nil rfl)
    · refine Op.ends_pure.mpr (commit_attempted.imp ?_ ?_)
      · intro r _ h
        exact told (.ok r) (h.imp fun _ => And.left)
      · intro fault _ h
        exact told (.error fault) (h.imp fun _ => And.left)
  | _ => exact quietly fun h => h

/-- Every operation commits at most once, but for excuses. -/
theorem Operation.perform_commitsOnce (h : σ.Rests) (op : Operation ω) :
    (op.perform peer).Ends σ fun _ τ => σ.Since History.CommitsOnce τ := by
  cases op with
  | run source params => exact concluded_quiet (run_within trivial trivial trivial source params) σ
  | beginTransaction config =>
    exact concluded_quiet (beginTransaction_within trivial trivial trivial config) σ
  | execute mode config patience work => exact executeWith_commitsOnce h _ patience work
  | executeRenamed mode patience work =>
    rw [perform, GraphSession.executeRenamed, Act.ends_bind]
    refine Act.ends_note fun w => ?_
    have noted : σ.Quiet (σ.heard (.note (.executeRenamed mode)) () w) :=
      .one rfl rfl
    refine Act.Ends.imp (executeWith_commitsOnce (h.noted _ w) _ patience work) fun _ _ h' => ?_
    exact noted.andThen h' fun _ _ hl hl' => (History.excused_of_uncommitted hl).commitsOnce hl'
  | executeQuery source params mode patience =>
    exact executeQueryWith_commitsOnce h source mode patience fun query _ id =>
      .eager id (.query query) params
  | executeBlocking mode config patience work =>
    exact Blocking.execute_commitsOnce h mode config patience work
  | lastBookmarks => exact concluded_quiet lastBookmarks_within σ
  | lastBookmark => exact concluded_quiet lastBookmark_within σ
  | serverInfo => exact concluded_quiet (serverInfo_within trivial) σ
  | close =>
    exact concluded_quiet (.lift fun σ => close_course trivial trivial fun _ _ => trivial) σ
  | access a =>
    rw [perform, Act.ends_bind]
    exact (a.performTold_commitsOnce σ).imp fun _ _ h => h
  | elsewhere f => exact .nothing History.commitsOnce_nil rfl

end Actions

/-- Whatever a session has been through, and whatever the surroundings and the code of transaction
    functions do: during one operation nothing but its aftermath follows a commit, unless the report
    of its bookmark failed with a fault worth another attempt; so there are at most as many commits
    as such reports, and one. -/
theorem play_commitsOnce (peer : Peer ω) (config : SessionConfig) (w : ω)
    (ops : List (Operation ω)) (op : Operation ω) :
    (play peer config w ops).Since (fun later => later.CommitsOnce ∧
      later.commits ≤ later.failedReports + 1) (op.after peer (play peer config w ops)) := by
  have once : (play peer config w ops).Since History.CommitsOnce
      (op.after peer (play peer config w ops)) :=
    op.perform_commitsOnce (play_rests peer config w ops)
  exact once.imp fun _ h => ⟨h, h.commits_le⟩

end GraphSession
