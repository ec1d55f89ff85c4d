import GraphSession.Proofs.Steering

/-!
  The results that callers obtained from transactions.

  A result that a query in a transaction gave out is one of those that the transaction has, until it
  is out of scope; and a transaction that is over has none.  `State.Ledger` says so.  So whatever
  way a transaction ends, no result that was obtained from it is left in scope.

  A rollback takes every result out of scope, whatever fails.  A commit stops at the first result
  that cannot be dropped: that result was streaming, and of the results of a transaction only the
  last one streams.
-/

namespace GraphSession

variable {ω α : Type} {peer : Peer ω} {u : Option (TransactionId × Transaction)}
  {s : Option ResultId} {σ τ : State (Recorded ω)}

/-! ## The ledger -/

/-- The result `r` was obtained from the transaction `t`. -/
def History.Obtained (t : TransactionId) (r : ResultId) (h : History) : Prop :=
  ∃ source params, Happening.used (.run t source params) (.ok r) ∈ h

/-- The session is tidy, and a result that was obtained from a transaction is there or out of
    scope. -/
structure State.Ledger (σ : State (Recorded ω)) : Prop where
  tidy : σ.session.IsTidy
  owned : ∀ t r, σ.history.Obtained t r →
    r ∈ (σ.session.transaction t).results ∨ (σ.session.result r).outOfScope ≠ none

namespace State.Ledger

/-- Nothing was obtained from a new session. -/
theorem initial (config : SessionConfig) (w : ω) : (State.initial config w).Ledger where
  tidy := by
    have none (id : TransactionId) : (State.initial config w).session.transaction id = .absent :=
      Session.transaction_of_le (Nat.zero_le id)
    refine ⟨fun id r there => ?_, fun id => ?_, fun id _ => ?_⟩
    · rw [none] at there
      cases there
    · rw [none]
      exact List.nodup_nil
    · rw [none]
      rfl
  owned t r obtained := by
    obtain ⟨source, params, mem⟩ := obtained
    cases mem

/-- A result of a transaction that is over is out of scope. -/
theorem outOfScope (h : σ.Ledger) {t : TransactionId} {r : ResultId}
    (ended : (σ.session.transaction t).state.isTerminated = true)
    (obtained : σ.history.Obtained t r) : (σ.session.result r).outOfScope ≠ none := by
  rcases h.owned t r obtained with there | gone
  · rw [h.tidy.ended t ended] at there
    cases there
  · exact gone

/-- Results were released, and nothing was obtained. -/
theorem kept (h : σ.Ledger) (released : σ.session.Releases τ.session)
    (scope : ∀ r, (σ.session.result r).outOfScope ≠ none → (τ.session.result r).outOfScope ≠ none)
    (quiet : ∀ t r, τ.history.Obtained t r → σ.history.Obtained t r) : τ.Ledger where
  tidy := released.tidy
  owned t r obtained := by
    rcases h.owned t r (quiet t r obtained) with there | gone
    · exact released.released t r there
    · exact .inr (scope r gone)

/-- The history says more, but nothing of another result. -/
theorem log (h : σ.Ledger) {e : Happening}
    (owned : ∀ t source params r, e = .used (.run t source params) (.ok r) →
      r ∈ (σ.session.transaction t).results) :
    State.Ledger { σ with world := σ.world.add e } where
  tidy := h.tidy
  owned t r obtained := by
    obtain ⟨source, params, mem⟩ := obtained
    rcases List.mem_cons.mp mem with here | before
    · exact .inl (owned t source params r here.symm)
    · exact h.owned t r ⟨source, params, before⟩

theorem heard (h : σ.Ledger) (request : Request) (answer : request.Answer) (w : ω) :
    (σ.heard request answer w).Ledger where
  tidy := h.tidy
  owned t r obtained := by
    obtain ⟨source, params, mem⟩ := obtained
    rcases List.mem_cons.mp mem with here | before
    · cases here
    · exact h.owned t r ⟨source, params, before⟩

theorem drift (h : σ.Ledger) (w : ω) :
    State.Ledger { σ with world := { σ.world with world := w } } :=
  ⟨h.tidy, h.owned⟩

end State.Ledger

/-- On its course a session gives nothing to callers. -/
theorem Course.obtained {may : License} (h : Course may σ τ) {t : TransactionId} {r : ResultId}
    (obtained : τ.history.Obtained t r) : σ.history.Obtained t r := by
  obtain ⟨later, history, permitted⟩ := h.permitted
  obtain ⟨source, params, mem⟩ := obtained
  rw [history] at mem
  rcases List.mem_append.mp mem with mem | mem
  · obtain ⟨⟨request, answer, e⟩, -⟩ := permitted _ mem
    cases e
  · exact ⟨source, params, mem⟩

/-- A path on which nothing is committed leaves the ledger in order. -/
theorem State.Ledger.along {may : License} {e : Purpose} (h : σ.Ledger) (path : Path peer e σ τ)
    (uncommitted : ¬ e.commits) (course : Course may σ τ) : τ.Ledger :=
  h.kept (path.retains.released uncommitted h.tidy) path.retains.scope fun _ _ => course.obtained

/-! ## The end of a transaction -/

/-- A result that is not streaming has nothing to drop. -/
theorem discardRest_quiet {id : ResultId} (quiet : (σ.session.result id).isStreaming = false) :
    (discardRest peer.recorded id).exec σ = (.ok (), σ) := by
  rw [discardRest, Op.exec_bind, Op.exec_theSession]
  simp only [quiet]
  rfl

/-- A result whose transaction commits is out of scope, and was streaming if that failed. -/
theorem endResult_scope {id : ResultId} (given : id < σ.session.results.length) :
    (endResult peer.recorded id).Ends σ
      (fun _ τ => (τ.session.result id).outOfScope ≠ none)
      fun _ τ => (τ.session.result id).outOfScope ≠ none ∧
        (σ.session.result id).isStreaming = true := by
  have ended {τ : State (Recorded ω)} (path : Path peer {} σ τ) (r : Result)
      (beyond : r.outOfScope ≠ none) :
      ((τ.session.setResult id r).result id).outOfScope ≠ none := by
    rw [Session.result_setResult_eq, if_pos ⟨rfl, Nat.lt_of_lt_of_le given path.grown.given⟩]
    exact beyond
  rw [endResult, Op.ends_bind, Op.ends_attempt]
  cases streaming : (σ.session.result id).isStreaming with
  | true =>
    have walked : Op.Along peer {} (discardRest peer.recorded id) := discardRest_along id
    refine (walked.ends σ).imp (fun _ τ path => ?_) fun fault τ path => ?_
    · rw [Op.ends_bind, Op.ends_changeResult, Op.ends_settleOn]
      exact ⟨fun _ _ => ended path _ (Option.some_ne_none _), fun _ e => by cases e⟩
    · rw [Op.ends_bind, Op.ends_changeResult, Op.ends_settleOn]
      exact ⟨fun _ e => (by cases e), fun _ _ => ⟨ended path _ (Option.some_ne_none _), rfl⟩⟩
  | false =>
    unfold Op.Ends
    rw [discardRest_quiet streaming]
    exact ended (.rest σ) _ (Option.some_ne_none _)

/-- The latest of several results, if it is not the first, is the latest of the others. -/
theorem latest_of_cons {id r : ResultId} {rest : List ResultId}
    (last : (id :: rest).getLast? = some r) (other : id ≠ r) : rest.getLast? = some r := by
  cases rest with
  | nil => exact absurd (Option.some.inj last) other
  | cons a rest => exact last

/-- The results of a transaction that commits are out of scope, also if one cannot be dropped: that
    is the last one. -/
theorem endResults_scope {p : TransactionId × Transaction} {ids : List ResultId}
    (h : σ.Live 0 (some p) s) (latest : ∀ r, s = some r → ids.getLast? = some r)
    (once : ids.Nodup) (given : ∀ r ∈ ids, r < σ.session.results.length) :
    (endResults peer.recorded ids).Ends σ
      (fun _ τ => ∀ r ∈ ids, (τ.session.result r).outOfScope ≠ none)
      fun _ τ => ∀ r ∈ ids, (τ.session.result r).outOfScope ≠ none := by
  induction ids generalizing σ s with
  | nil => exact fun r hr => by cases hr
  | cons id rest ih =>
    obtain ⟨apart, once⟩ := List.nodup_cons.mp once
    rw [endResults, Op.ends_bind]
    have walked : Op.Along peer {} (endResult peer.recorded id) := endResult_along id
    refine (((endResult_stands h).and (endResult_scope (given id List.mem_cons_self))).and
      (walked.ends σ)).imp (fun _ τ hτ => ?_) fun _ τ hτ => ?_
    · obtain ⟨⟨live, beyond⟩, path⟩ := hτ
      have latest' (r : ResultId) (hr : (if s = some id then none else s) = some r) :
          rest.getLast? = some r := by
        split at hr
        · cases hr
        · next other => exact latest_of_cons (latest r hr) fun same => other (same ▸ hr)
      have given' (r : ResultId) (hr : r ∈ rest) : r < τ.session.results.length :=
        Nat.lt_of_lt_of_le (given r (List.mem_cons_of_mem id hr)) path.grown.given
      have walked' : Op.Along peer {} (endResults peer.recorded rest) := endResults_along rest
      refine ((ih live latest' once given').and (walked'.ends τ)).imp (fun _ υ hυ r hr => ?_)
        fun _ υ hυ r hr => ?_
      · rcases List.mem_cons.mp hr with rfl | hr
        · exact hυ.2.retains.scope r beyond
        · exact hυ.1 r hr
      · rcases List.mem_cons.mp hr with rfl | hr
        · exact hυ.2.retains.scope r beyond
        · exact hυ.1 r hr
    · obtain ⟨⟨-, beyond, streaming⟩, -⟩ := hτ
      -- nothing is left after the result that was streaming
      have busy := h.busy (.inl (Option.some_ne_none p))
      have last := latest id ((busy.streaming id).mp streaming)
      cases rest with
      | nil => exact fun r hr => List.mem_singleton.mp hr ▸ beyond
      | cons a rest =>
        rw [List.getLast?_cons_cons] at last
        exact absurd (List.mem_of_getLast? last) apart

/-- The state after a transaction has given up its results. -/
def State.drained (σ : State (Recorded ω)) (t : TransactionId) : State (Recorded ω) :=
  { σ with
    session := σ.session.setTransaction t { σ.session.transaction t with results := [] } }

/-- A transaction that has given up its results, all out of scope, ends; whatever follows brings
    none of them back. -/
theorem setState_releases (tidy : σ.session.IsTidy) {t : TransactionId}
    (here : t < σ.session.transactions.length) (path : Path peer {} (σ.drained t) τ)
    (gone : ∀ r ∈ (σ.session.transaction t).results, (τ.session.result r).outOfScope ≠ none)
    (state : TransactionState) {after : Op (Recorded ω) Unit} (follows : after.Along peer {}) :
    Op.Ends (do setState t state; after : Op (Recorded ω) Unit) τ
      (fun _ υ => σ.session.Releases υ.session) fun _ υ => σ.session.Releases υ.session := by
  have kept := path.retains.enlisted fun n => n
  have released : σ.session.Releases
      (τ.session.setTransaction t { τ.session.transaction t with state }) := by
    refine tidy.drop t ?_ (fun other apart => ?_) path.grown.given gone
    · have drained : ((σ.drained t).session.transaction t).results = [] := by
        rw [State.drained, Session.transaction_setTransaction_eq, if_pos ⟨rfl, here⟩]
      rw [Session.transaction_setTransaction_eq]
      split
      · exact (kept t).1.trans drained
      · exact (kept t).1.trans drained
    · have old : (σ.drained t).session.transaction other = σ.session.transaction other := by
        rw [State.drained, Session.transaction_setTransaction_eq, if_neg fun e => apart e.1.symm]
      rw [Session.transaction_setTransaction_eq, if_neg fun e => apart e.1.symm, ← old]
      exact kept other
  rw [Op.ends_bind, setState, Op.ends_changeTransaction]
  exact (follows.ends _).imp (fun _ υ more => more.releases (fun n => n) released)
    fun _ υ more => more.releases (fun n => n) released

/-- A commit leaves no result of its transaction in scope, whatever it comes to. -/
theorem commit_releases (h : σ.Steady u s) (linked : Linked u s) (tidy : σ.session.IsTidy)
    {t : TransactionId} (active : (σ.session.transaction t).state = .active) :
    (commit peer.recorded t).Ends σ (fun _ τ => σ.session.Releases τ.session)
      fun _ τ => σ.session.Releases τ.session := by
  obtain ⟨rfl, s', live, latest⟩ := h.active linked active
  have refused : (σ.session.transaction t).refusal? "commit" = none := by
    rw [Transaction.refusal?, active]
  have here : t < σ.session.transactions.length :=
    Session.lt_of_not_isTerminated (by rw [active]; rfl)
  have closed (fault : Fault) {τ : State (Recorded ω)} (path : Path peer {} (σ.drained t) τ)
      (gone : ∀ r ∈ (σ.session.transaction t).results, (τ.session.result r).outOfScope ≠ none) :
      Op.Ends (do
        setState t .closed
        failAfter (abortUnit peer.recorded) fault : Op (Recorded ω) Unit) τ
        (fun _ υ => σ.session.Releases υ.session) fun _ υ => σ.session.Releases υ.session :=
    setState_releases tidy here path gone .closed (.failAfter abortUnit_along fault)
  rw [commit, Op.ends_bind, Op.ends_theSession, Op.ends_bind, Op.ends_failIf]
  refine ⟨fun _ => ?_, fun f e => absurd (refused.symm.trans e) (by simp)⟩
  rw [Op.ends_bind, takeResults, Op.ends_bind, Op.ends_theSession, Op.ends_bind,
    Op.ends_changeTransaction, Op.ends_pure, Op.ends_bind, Op.ends_attempt, Op.ends_bind]
  let drop (v : Transaction) : Transaction := { v with results := [] }
  have taken : (σ.drained t).Live 0 (some (t, drop (σ.session.transaction t))) s' :=
    ((live.busy (.inl (Option.some_ne_none _))).setTransaction drop rfl).live
      (.inl (Option.some_ne_none _))
  have walked : Op.Along peer {}
      (endResults peer.recorded (σ.session.transaction t).results) := endResults_along _
  refine ((endResults_scope taken (fun r hr => latest hr) (tidy.once t) (tidy.given t)).and
    (walked.ends (σ.drained t))).imp (fun _ τ hτ => ?_) fun fault τ hτ => closed fault hτ.2 hτ.1
  obtain ⟨gone, path⟩ := hτ
  have sent : Op.Along peer {} (commitHeld peer.recorded t) := commitHeld_along t
  refine (sent.ends τ).imp (fun token υ more => ?_) fun fault υ more => ?_
  · exact setState_releases tidy here (path.andThen more)
      (fun r hr => more.retains.scope r (gone r hr)) .committed (reportAndEnd_along _ token)
  · exact closed fault (path.andThen more) fun r hr => more.retains.scope r (gone r hr)

/-- So does the end of an attempt. -/
theorem settle_releases (h : σ.Steady u s) (linked : Linked u s) (tidy : σ.session.IsTidy)
    (t : TransactionId) (outcome : Except Fault α) :
    (settle peer.recorded t outcome).Ends σ (fun _ τ => σ.session.Releases τ.session)
      fun _ τ => σ.session.Releases τ.session := by
  have closed (fault : Fault) {τ : State (Recorded ω)} (released : σ.session.Releases τ.session) :
      (failAfter (closeQuietly peer.recorded t) fault : Op (Recorded ω) α).Ends τ
        (fun _ υ => σ.session.Releases υ.session) fun _ υ => σ.session.Releases υ.session := by
    have walked : Op.Along peer { enlists := True }
        (failAfter (closeQuietly peer.recorded t) fault : Op (Recorded ω) α) :=
      .failAfter (closeQuietly_along trivial t) fault
    exact (walked.ends τ).imp (fun _ υ more => more.releases (fun n => n) released)
      fun _ υ more => more.releases (fun n => n) released
  have still : σ.session.Releases σ.session := tidy.releases rfl (Nat.le_refl _)
  rw [settle, Op.ends_bind, Op.ends_attempt, Op.ends_bind, Op.ends_settleOn]
  refine ⟨fun a _ => ?_, fun fault _ => closed fault still⟩
  rw [Op.ends_bind]
  by_cases active : (σ.session.transaction t).state = .active
  · exact (commit_releases h linked tidy active).imp (fun _ _ released => released)
      fun fault _ released => closed fault released
  · exact commit_refused active fun fault _ => closed fault still

/-! ## What keeps the ledger -/

namespace State.Ledger

variable {may : License} {e : Purpose}

theorem op (h : σ.Ledger) {x : Op (Recorded ω) α} (along : x.Along peer e)
    (within : x.Within may) (uncommitted : ¬ e.commits) :
    x.Ends σ (fun _ τ => τ.Ledger) fun _ τ => τ.Ledger :=
  ((along.ends σ).and (within.ends σ)).imp (fun _ _ h' => h.along h'.1 uncommitted h'.2)
    fun _ _ h' => h.along h'.1 uncommitted h'.2

/-- What may commit keeps the ledger if it leaves no result behind. -/
theorem releasing (h : σ.Ledger) {x : Op (Recorded ω) α} (along : x.Along peer e)
    (within : x.Within may)
    (releases : x.Ends σ (fun _ τ => σ.session.Releases τ.session)
      fun _ τ => σ.session.Releases τ.session) :
    x.Ends σ (fun _ τ => τ.Ledger) fun _ τ => τ.Ledger := by
  have kept {τ : State (Recorded ω)} (released : σ.session.Releases τ.session)
      (path : Path peer e σ τ) (course : Course may σ τ) : τ.Ledger :=
    h.kept released path.retains.scope fun _ _ => course.obtained
  exact ((releases.and (along.ends σ)).and (within.ends σ)).imp
    (fun _ _ h' => kept h'.1.1 h'.1.2 h'.2) fun _ _ h' => kept h'.1.1 h'.1.2 h'.2

end State.Ledger

theorem settle_ledger (h : σ.Steady u s) (linked : Linked u s) (ledger : σ.Ledger)
    (t : TransactionId) (outcome : Except Fault α) :
    (settle peer.recorded t outcome).Ends σ (fun _ τ => τ.Ledger) fun _ τ => τ.Ledger := by
  have along : Op.Along peer { enlists := True, commits := True }
      (settle peer.recorded t outcome) := settle_along trivial trivial t outcome
  have within : (settle peer.recorded t outcome).Within { commits := True, concludes := True } :=
    settle_within trivial trivial t outcome
  exact ledger.releasing along within (settle_releases h linked ledger.tidy t outcome)

/-- An access keeps the ledger. -/
theorem Access.perform_ledger (h : σ.Steady u s) (linked : Linked u s) (ledger : σ.Ledger)
    (a : Access) :
    (a.perform peer.recorded).Ends σ (fun _ τ => τ.Ledger) fun _ τ => τ.Ledger := by
  have within : (a.perform peer.recorded).Within a.license := a.perform_within
  by_cases commits : ∃ t, a = .commit t
  · obtain ⟨t, rfl⟩ := commits
    have along : Op.Along peer { enlists := True, commits := True }
        ((Access.commit t).perform peer.recorded) :=
      perform_along trivial rfl _ fun _ _ => trivial
    refine ledger.releasing along within ?_
    have still : σ.session.Releases σ.session := ledger.tidy.releases rfl (Nat.le_refl _)
    rw [perform, Op.ends_bind, checkHolder, Op.ends_bind, Op.ends_theSession]
    split
    · exact still
    · by_cases active : (σ.session.transaction t).state = .active
      · exact commit_releases h linked ledger.tidy active
      · exact commit_refused active fun _ _ => still
  · have along : Op.Along peer { enlists := True } (a.perform peer.recorded) :=
      a.perform_along trivial rfl fun t e => commits ⟨t, e⟩
    exact ledger.op along within fun n => n

/-- A result that a query gives out is one of its transaction. -/
theorem Access.perform_enlists (h : σ.Steady u s) (linked : Linked u s) (a : Access) :
    (a.perform peer.recorded).Ends σ
      (fun reply τ => ∀ t source params r,
        Happening.used a (.ok reply) = .used (.run t source params) (.ok r) →
          r ∈ (τ.session.transaction t).results)
      fun _ _ => True := by
  cases a with
  | run t source params =>
    rw [perform, Op.ends_bind, checkHolder, Op.ends_bind, Op.ends_theSession]
    split
    · trivial
    · refine (runIn_stands h linked t source params).imp (fun r τ hτ => ?_) fun _ _ _ => trivial
      obtain ⟨v, v', s', rfl, -, last, -, steady⟩ := hτ
      intro t' source' params' r' same
      cases same
      obtain ⟨v'', same, results, -⟩ := steady.opened steady.isOpen
      cases same
      rw [← results]
      exact List.mem_of_getLast? last
  | _ => exact (Op.ends_trivial _ σ).imp (fun _ _ _ _ _ _ _ same => by cases same) fun _ _ h => h

theorem Access.performTold_ledger (h : σ.Steady u s) (linked : Linked u s) (ledger : σ.Ledger)
    (a : Access) : (a.performTold peer).Ends σ fun _ τ => τ.Ledger := by
  rw [performTold, Act.ends_bind, Act.ends_run]
  refine ((a.perform_ledger h linked ledger).and (a.perform_enlists h linked)).imp
    (fun r τ hτ => ?_) fun fault τ hτ => ?_
  · exact hτ.1.log hτ.2
  · exact hτ.1.log fun t source params r same => by cases same

end GraphSession
