import GraphSession.Proofs.Conduct
import GraphSession.Proofs.Supply

/-!
  Records at hand.

  Of the records that came for a result some are gone, and as long as the result can be read the
  others are in its buffer: `State.Stock` says so, and which they are.  `State.Whole` says that the
  stream of a result that can be read is open unless all of its records have come.

  Records come by three ways, the pull that follows a query, the pulls of a reader and those that
  another operation makes to have the connection for itself.  All of them are elementary changes of
  a course, so one induction shows that an action without the license to hand out the records of a
  result leaves its stock, and one without the license to drop its rest leaves it whole.
-/

namespace GraphSession

variable {ω α : Type}

/-- A stream that is open has not failed. -/
theorem Result.failure?_of_isStreaming {v : Result}
    (h : v.isStreaming = true) : v.stream.failure? = none := by
  unfold Result.isStreaming at h
  cases hs : v.stream with
  | failed reason => rw [hs] at h; cases h
  | «open» | finished _ | abandoned => rfl

namespace State

/-- The records that came for a result. -/
def records (r : ResultId) (σ : State (Recorded ω)) : List Record :=
  σ.history.rows r (σ.history.sent r)

/-- The history tells of the results that the session gave out, and of no others. -/
structure Tracked (σ : State (Recorded ω)) : Prop where
  started : ∀ r, r < σ.session.results.length →
    σ.history.keys? r = some (σ.session.result r).keys
  unstarted : ∀ r, σ.session.results.length ≤ r →
    σ.history.keys? r = none ∧ σ.history.sent r = []
  fresh : Always Fresh σ.history

/-- Of the records of a result `gone` are gone, and the rest is at hand while it can be read. -/
structure Stock (r : ResultId) (gone : List Record) (σ : State (Recorded ω)) : Prop where
  inOrder : gone <+: σ.records r
  readable : (σ.session.result r).unusable? = none →
    gone ++ (σ.session.result r).buffer = σ.records r

/-- While a result can be read, its stream is open or all of its records have come. -/
def Whole (r : ResultId) (σ : State (Recorded ω)) : Prop :=
  (σ.session.result r).unusable? = none →
    (σ.session.result r).isStreaming = true ∨ σ.history.Complete r

/-- From `σ` to `τ` the records of a result grow.  If the license does not take them, those that
    were handed out and those at hand are still all of them; and if it does not drop them, a result
    that can be read still has an open stream or all of its records. -/
structure ResultKept (may : License) (r : ResultId) (σ τ : State (Recorded ω)) : Prop where
  grown : σ.records r <+: τ.records r
  stock : ¬ may.takes r → ∀ gone, σ.Stock r gone → τ.Stock r gone
  whole : ¬ may.drops r → σ.Whole r → τ.Whole r

/-! ## Tracking -/

section Tracking

variable {σ τ : State (Recorded ω)} {id r : ResultId} {may : License}

/-- Of a result that was not given out nothing has come. -/
theorem Tracked.records_eq_nil (h : σ.Tracked) (unstarted : σ.session.results.length ≤ r) :
    σ.records r = [] := by
  unfold State.records
  rw [(h.unstarted r unstarted).2]
  rfl

theorem Tracked.plains (h : σ.Tracked) {later : History} (plain : ∀ e ∈ later, e.IsPlain)
    (history : τ.history = later ++ σ.history)
    (results : τ.session.results = σ.session.results) : τ.Tracked := by
  refine ⟨?_, ?_, ?_⟩
  · intro r hr
    rw [results] at hr
    rw [history, History.keys?_plains plain, h.started r hr]
    simp only [Session.result, results]
  · intro r hr
    rw [results] at hr
    rw [history, History.keys?_plains plain, History.sent_plains plain]
    exact h.unstarted r hr
  · rw [history]
    exact h.fresh.append fun e he past => (plain e he).fresh past

theorem Tracked.plain (h : σ.Tracked) {e : Happening} (plain : e.IsPlain)
    (history : τ.history = e :: σ.history)
    (results : τ.session.results = σ.session.results) : τ.Tracked :=
  h.plains (fun _ he => List.mem_singleton.mp he ▸ plain)
    (show τ.history = [e] ++ σ.history from history) results

theorem Tracked.tend (h : σ.Tracked) (history : τ.history = σ.history)
    (results : τ.session.results = σ.session.results) : τ.Tracked :=
  h.plains (by simp) (show τ.history = [] ++ σ.history from history) results

/-- A change of a result that leaves its keys. -/
theorem Tracked.setResult (h : σ.Tracked) {r : Result}
    (keys : r.keys = (σ.session.result id).keys) :
    State.Tracked { σ with session := σ.session.setResult id r } := by
  have length : (σ.session.results.set id r).length = σ.session.results.length :=
    List.length_set
  refine ⟨fun other hr => ?_, fun other hr => h.unstarted other (length ▸ hr), h.fresh⟩
  have started := h.started other (length ▸ hr)
  show σ.history.keys? other = some ((σ.session.setResult id r).result other).keys
  rw [started, Session.result_setResult_eq]
  split
  · next e => rw [keys, e.1]
  · rfl

/-! ## Elementary changes -/

/-- A result that nothing touches is kept. -/
theorem ResultKept.same (result : τ.session.result r = σ.session.result r)
    (records : τ.records r = σ.records r)
    (complete : σ.history.Complete r → τ.history.Complete r) : σ.ResultKept may r τ where
  grown := records ▸ List.prefix_refl _
  stock _ gone h := by
    refine ⟨records ▸ h.inOrder, fun usable => ?_⟩
    rw [result] at usable ⊢
    rw [records]
    exact h.readable usable
  whole _ h usable := by
    rw [result] at usable ⊢
    exact (h usable).imp (fun h => h) complete

theorem ResultKept.plains {later : History} (plain : ∀ e ∈ later, e.IsPlain)
    (history : τ.history = later ++ σ.history)
    (results : τ.session.results = σ.session.results) : σ.ResultKept may r τ := by
  refine .same ?_ ?_ fun h => ?_
  · simp only [Session.result, results]
  · unfold State.records
    rw [history, History.sent_plains plain]
    unfold History.rows
    rw [History.keys?_plains plain]
  · exact h.mono (history ▸ List.suffix_append _ _)

theorem ResultKept.plain {e : Happening} (plain : e.IsPlain)
    (history : τ.history = e :: σ.history) (results : τ.session.results = σ.session.results) :
    σ.ResultKept may r τ :=
  .plains (fun _ he => List.mem_singleton.mp he ▸ plain)
    (show τ.history = [e] ++ σ.history from history) results

/-- A change of a result touches no other. -/
theorem ResultKept.setResult {v : Result}
    (own : r = id → id < σ.session.results.length →
      σ.ResultKept may id { σ with session := σ.session.setResult id v }) :
    σ.ResultKept may r { σ with session := σ.session.setResult id v } := by
  by_cases given : r = id ∧ id < σ.session.results.length
  · obtain ⟨rfl, here⟩ := given
    exact own rfl here
  · refine .same ?_ rfl fun h => h
    show (σ.session.setResult id v).result r = σ.session.result r
    rw [Session.result_setResult_eq, if_neg fun e => given ⟨e.1.symm, e.2⟩]

/-- A change that leaves the records at hand, and whether they can be read, and the stream unless
    the rest of it may be dropped or has come. -/
theorem ResultKept.own {v : Result} (here : r < σ.session.results.length)
    (buffer : ¬ may.takes r → v.buffer = (σ.session.result r).buffer)
    (usable : v.unusable? = none → (σ.session.result r).unusable? = none)
    (streaming : ¬ may.drops r → v.isStreaming = (σ.session.result r).isStreaming ∨
      σ.history.Complete r) :
    σ.ResultKept may r { σ with session := σ.session.setResult r v } := by
  have now : (σ.session.setResult r v).result r = v := by
    rw [Session.result_setResult _ _ _ here, if_pos rfl]
  refine ⟨List.prefix_refl _, fun n gone h => ⟨h.inOrder, fun can => ?_⟩, fun n h can => ?_⟩
  · show gone ++ ((σ.session.setResult r v).result r).buffer = σ.records r
    have can : ((σ.session.setResult r v).result r).unusable? = none := can
    rw [now] at can ⊢
    rw [buffer n]
    exact h.readable (usable can)
  · have can : ((σ.session.setResult r v).result r).unusable? = none := can
    rw [now] at can
    show ((σ.session.setResult r v).result r).isStreaming = true ∨ σ.history.Complete r
    rw [now]
    rcases streaming n with same | complete
    · rw [same]
      exact h (usable can)
    · exact .inr complete

/-- A result that cannot be read afterwards keeps what has gone in order. -/
theorem ResultKept.spent (grown : σ.records r <+: τ.records r)
    (spent : (τ.session.result r).unusable? ≠ none) : σ.ResultKept may r τ :=
  ⟨grown, fun _ _ h => ⟨h.inOrder.trans grown, fun can => absurd can spent⟩,
    fun _ _ can => absurd can spent⟩

/-! ## Results that start -/

/-- The history after a query was answered. -/
theorem Tracked.start (h : σ.Tracked) {c : Connection} {request : RunRequest} {reply : RunReply}
    {v : Result} {later : History} (plain : ∀ e ∈ later, e.IsPlain)
    (history : τ.history = later ++
      .asked (.send c (.result σ.session.nextResult) (.run request)) (.ok reply) :: σ.history)
    (results : τ.session.results = σ.session.results ++ [v]) (keys : v.keys = reply.keys) :
    τ.Tracked := by
  have own (r : ResultId) : τ.history.keys? r =
      if r = σ.session.nextResult then some reply.keys else σ.history.keys? r := by
    rw [history, History.keys?_plains plain, History.keys?_cons]
    by_cases e : r = σ.session.nextResult
    · simp [Happening.keys?, e]
    · simp [Happening.keys?, e, Ne.symm e]
  have sent (r : ResultId) : τ.history.sent r = σ.history.sent r := by
    rw [history, History.sent_plains plain]
    exact List.append_nil _
  have length : τ.session.results.length = σ.session.results.length + 1 := by
    rw [results, List.length_append]
    rfl
  have result (r : ResultId) : τ.session.result r =
      if r = σ.session.nextResult then v else σ.session.result r := Session.result_added results r
  refine ⟨?_, ?_, ?_⟩
  · intro r hr
    rw [own, result]
    split
    · rw [keys]
    · next e =>
      rw [length] at hr
      exact h.started r (Nat.lt_of_le_of_ne (Nat.le_of_lt_succ hr) e)
  · intro r hr
    have beyond : σ.session.nextResult < r := by
      rw [length] at hr
      exact hr
    rw [own, if_neg (Nat.ne_of_gt beyond), sent]
    exact h.unstarted r (Nat.le_of_lt beyond)
  · rw [history]
    have fresh : Always Fresh (.asked
        (.send c (.result σ.session.nextResult) (.run request)) (.ok reply) :: σ.history) :=
      ⟨(h.unstarted _ (Nat.le_refl _)).1, h.fresh⟩
    exact fresh.append fun e he past => (plain e he).fresh past

/-- A result that starts has nothing at hand, and nothing has come for it. -/
theorem ResultKept.start (h : σ.Tracked) {c : Connection} {request : RunRequest} {reply : RunReply}
    {v : Result} {later : History} (plain : ∀ e ∈ later, e.IsPlain)
    (history : τ.history = later ++
      .asked (.send c (.result σ.session.nextResult) (.run request)) (.ok reply) :: σ.history)
    (results : τ.session.results = σ.session.results ++ [v]) (buffer : v.buffer = [])
    (streaming : v.isStreaming = true) : σ.ResultKept may r τ := by
  have result : τ.session.result r =
      if r = σ.session.nextResult then v else σ.session.result r := Session.result_added results r
  have sent : τ.history.sent r = σ.history.sent r := by
    rw [history, History.sent_plains plain]
    exact List.append_nil _
  by_cases own : r = σ.session.nextResult
  · have before : σ.records r = [] := h.records_eq_nil (by rw [own]; exact Nat.le_refl _)
    have after : τ.records r = [] := by
      unfold State.records
      rw [sent, (h.unstarted r (by rw [own]; exact Nat.le_refl _)).2]
      rfl
    rw [if_pos own] at result
    have still : (τ.session.result r).isStreaming = true := by rw [result, streaming]
    refine ⟨before ▸ List.nil_prefix, fun _ gone stock => ?_, fun _ _ _ => .inl still⟩
    have none_gone : gone = [] := List.prefix_nil.mp (before ▸ stock.inOrder)
    rw [none_gone]
    refine ⟨List.nil_prefix, fun _ => ?_⟩
    rw [result, buffer, after]
    rfl
  · rw [if_neg own] at result
    refine .same result ?_ fun complete => ?_
    · unfold State.records History.rows
      rw [sent, history, History.keys?_plains plain, History.keys?_run, if_neg (Ne.symm own)]
    · rw [history]
      exact complete.mono ((List.suffix_cons _ _).trans (List.suffix_append _ _))

/-! ## Batches that arrive -/

/-- The state after a batch was taken into the buffer of its result. -/
def absorbed (σ : State (Recorded ω)) (id : ResultId) (c : Connection) (size : FetchSize)
    (batch : Batch) (w : ω) : State (Recorded ω) :=
  { session := σ.session.setResult id
      { σ.session.result id with
        buffer := (σ.session.result id).buffer ++
          batch.records.map (Record.mk (σ.session.result id).keys) }
    world := ⟨w, .asked (.send c (.result id) (.pull size)) (.ok batch) :: σ.history⟩ }

section Absorbed

variable {c : Connection} {size : FetchSize} {batch : Batch} {w : ω}

theorem sent_absorbed : (σ.absorbed id c size batch w).history.sent r =
    σ.history.sent r ++ if id = r then batch.records else [] :=
  History.sent_pull

theorem keys?_absorbed : (σ.absorbed id c size batch w).history.keys? r = σ.history.keys? r :=
  History.keys?_pull

theorem Tracked.absorb (h : σ.Tracked) (streaming : (σ.session.result id).isStreaming = true) :
    (σ.absorbed id c size batch w).Tracked := by
  have here := Session.lt_of_isStreaming streaming
  have same : State.Tracked { σ with session := (σ.absorbed id c size batch w).session } :=
    h.setResult rfl
  refine ⟨?_, ?_, trivial, h.fresh⟩
  · intro r hr
    rw [keys?_absorbed]
    exact same.started r hr
  · intro r hr
    rw [keys?_absorbed, sent_absorbed]
    have unstarted := same.unstarted r hr
    have other : id ≠ r := by
      rintro rfl
      have hr : (σ.session.results.set id _).length ≤ id := hr
      rw [List.length_set] at hr
      exact absurd here (Nat.not_lt_of_le hr)
    rw [if_neg other, List.append_nil]
    exact unstarted

/-- Records that come are at hand. -/
theorem ResultKept.absorb (h : σ.Tracked) (streaming : (σ.session.result id).isStreaming = true) :
    σ.ResultKept may r (σ.absorbed id c size batch w) := by
  have here := Session.lt_of_isStreaming streaming
  have result : (σ.absorbed id c size batch w).session.result r = _ :=
    Session.result_setResult σ.session r _ here
  have complete (before : σ.history.Complete r) :
      (σ.absorbed id c size batch w).history.Complete r := before.mono (List.suffix_cons _ _)
  have records : (σ.absorbed id c size batch w).records r = σ.records r ++
      σ.history.rows r (if id = r then batch.records else []) := by
    unfold State.records History.rows
    rw [sent_absorbed, keys?_absorbed, List.map_append]
  by_cases own : r = id
  · subst own
    rw [if_pos rfl] at result records
    have keyed : σ.history.rows r batch.records =
        batch.records.map (Record.mk (σ.session.result r).keys) := by
      unfold History.rows
      rw [h.started r here]
      rfl
    rw [keyed] at records
    have grown : σ.records r <+: (σ.absorbed r c size batch w).records r :=
      ⟨_, records.symm⟩
    refine ⟨grown, fun _ gone stock => ⟨stock.inOrder.trans grown, fun can => ?_⟩,
      fun _ _ _ => .inl ?_⟩
    · rw [result] at can ⊢
      have was : (σ.session.result r).unusable? = none := can
      rw [records, ← stock.readable was, List.append_assoc]
    · rw [result]
      exact streaming
  · rw [if_neg own] at result
    rw [if_neg (Ne.symm own)] at records
    exact .same result (records.trans (List.append_nil _)) complete

end Absorbed

end Tracking

end State

/-! ## Courses -/

section Courses

variable {σ τ : State (Recorded ω)} {may : License}

/-- In every course the session tracks its results, and every result is kept as the license says. -/
theorem Course.resultKept (h : Course may σ τ) (tracked : σ.Tracked) :
    τ.Tracked ∧ ∀ r, σ.ResultKept may r τ := by
  induction h with
  | rest may σ => exact ⟨tracked, fun r => .same rfl rfl fun h => h⟩
  | andThen _ _ ih₁ ih₂ =>
    obtain ⟨tracked, resultKept₁⟩ := ih₁ tracked
    obtain ⟨tracked, resultKept₂⟩ := ih₂ tracked
    exact ⟨tracked, fun r => ⟨(resultKept₁ r).grown.trans (resultKept₂ r).grown,
      fun n gone h => (resultKept₂ r).stock n gone ((resultKept₁ r).stock n gone h),
      fun n h => (resultKept₂ r).whole n ((resultKept₁ r).whole n h)⟩⟩
  | tend results kept history =>
    exact ⟨tracked.tend history results, fun r =>
      .plains (by simp) (show _ = [] ++ _ from history) results⟩
  | aside w aside =>
    exact ⟨tracked.plain aside.isPlain rfl rfl, fun r => .plain aside.isPlain rfl rfl⟩
  | borrowing w _ borrowing =>
    exact ⟨tracked.plain borrowing.isPlain rfl rfl, fun r => .plain borrowing.isPlain rfl rfl⟩
  | loanRefused _ _ request c kind fault =>
    have plain : ∀ e ∈ History.loanRefused request c kind fault, e.IsPlain :=
      History.forall_loanRefused.mpr ⟨trivial, trivial, trivial⟩
    exact ⟨tracked.plains plain rfl rfl, fun r => .plains plain rfl rfl⟩
  | message w _ plain _ _ _ => exact ⟨tracked.plain plain rfl rfl, fun r => .plain plain rfl rfl⟩
  | release w held =>
    exact ⟨tracked.plain (by trivial) rfl rfl, fun r => .plain (by trivial) rfl rfl⟩
  | start held history notes results keys buffer _ streaming kept =>
    have plain : ∀ e ∈ _, Happening.IsPlain e := fun e he => by
      obtain ⟨event, rfl⟩ := notes e he
      trivial
    exact ⟨tracked.start plain history results keys,
      fun r => .start tracked plain history results buffer streaming⟩
  | begun held history notes results _ _ =>
    have history := history.trans (List.append_cons _ _ _)
    refine ⟨tracked.plains ?_ history results, fun r => .plains ?_ history results⟩ <;>
      exact History.forall_noted notes (fun _ => trivial) trivial
  | absorb size batch w held streaming =>
    exact ⟨tracked.absorb streaming, fun r => .absorb tracked streaming⟩
  | @finish may σ id summary streaming h =>
    refine ⟨tracked.setResult rfl, fun r => .setResult fun e here => ?_⟩
    subst e
    refine .own here (fun _ => rfl) (fun can => ?_) fun n => .inr (h.resolve_left n)
    obtain ⟨scope, consumed, -⟩ := Result.usable_iff.mp can
    exact Result.usable_iff.mpr ⟨scope, consumed, Result.failure?_of_isStreaming streaming⟩
  | @take may σ id takes buffer =>
    refine ⟨tracked.setResult rfl, fun r => .setResult fun e here => ?_⟩
    subst e
    exact .own here (fun n => absurd takes n) (fun can => can) fun _ => .inl rfl
  | @retire may σ id v keys streaming spent =>
    refine ⟨tracked.setResult keys, fun r => .setResult fun e here => ?_⟩
    subst e
    exact .spent (List.prefix_refl _) (Session.unusable_setResult _ _ spent)
  | @spend may σ τ id _ spent ih =>
    obtain ⟨tracked, resultKept⟩ := ih tracked
    refine ⟨tracked, fun r => ?_⟩
    by_cases own : r = id
    · subst own
      exact .spent (resultKept r).grown spent
    · have still {p : Prop} (n : ¬ p) : ¬ (r = id ∨ p) := fun h => h.elim own n
      exact ⟨(resultKept r).grown, fun n => (resultKept r).stock (still n),
        fun n => (resultKept r).whole (still n)⟩

end Courses

end GraphSession
