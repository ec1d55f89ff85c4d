import GraphSession.Blocking.Handle
import GraphSession.Proofs.Cursor

/-!
  Iterating over a result.

  There are two ways to take the items of a result one by one.  A stream is over after its first
  fault.  A caller that waits asks for the next item again and again, and nothing but the result
  remembers that there was a fault.  Up to the first fault both give the same items, and without a
  fault they end alike.  After a fault the result decides how the caller goes on: one that can
  still be read gives what is at hand and ends, and one that cannot be read any more gives a fault
  each time it is asked, so that the iteration never ends.
-/

namespace GraphSession.Blocking

variable {ω : Type} {id : ResultId}

/-- What an iteration gives: a record, or a fault. -/
abbrev Item := Except Fault Record

/-- Takes items until there are no more, or as many as the caller has patience for: the items, and
    whether the end was reached. -/
def iterate (peer : Peer ω) (id : ResultId) : (patience : Nat) → Act ω (List Item × Bool)
  | 0 => return ([], false)
  | patience + 1 => do
    match ← nextItem peer id with
    | none => return ([], true)
    | some item => do
      let (items, ended) ← iterate peer id patience
      return (item :: items, ended)

/-- The items of a stream, given what reading it to the end comes to. -/
def streamItems : List Record × Option Fault → List Item
  | (records, fault) => records.map .ok ++ (fault.map .error).toList

/-! ## Caller and peer -/

section Turns

variable {peer : Peer ω} {s t u : State ω} {items more : List Item} {item : Item} {patience : Nat}

theorem nextItem_exec : (nextItem peer id).exec s = match (next peer id).exec s with
    | (.ok record, t) => (record.map .ok, t)
    | (.error fault, t) => (some (.error fault), t) := by
  rw [nextItem, Act.exec_bind, Act.exec_run]
  rcases (next peer id).exec s with ⟨_ | _ | _, _⟩ <;> rfl

/-- What comes to pass when these items have been taken first. -/
def after (items : List Item) :
    (List Item × Bool) × State ω → (List Item × Bool) × State ω
  | ((more, ended), t) => ((items ++ more, ended), t)

theorem iterate_succ : (iterate peer id (patience + 1)).exec s =
    match (nextItem peer id).exec s with
    | (none, t) => (([], true), t)
    | (some item, t) => after [item] ((iterate peer id patience).exec t) := by
  rw [iterate, Act.exec_bind]
  rcases (nextItem peer id).exec s with ⟨_ | item, t⟩ <;> rfl

/-- An iteration that ended comes to the same with more patience. -/
theorem iterate_mono (ended : ((iterate peer id patience).exec s).1.2 = true) (more : Nat) :
    (iterate peer id (patience + more)).exec s = (iterate peer id patience).exec s := by
  induction patience generalizing s with
  | zero => cases ended
  | succ patience ih =>
    rw [Nat.add_right_comm, iterate_succ, iterate_succ]
    rw [iterate_succ] at ended
    rcases e : (nextItem peer id).exec s with ⟨_ | item, t⟩
    · rfl
    · rw [e] at ended
      exact congrArg (after [item]) (ih ended)

/-- An item after which nothing has changed comes again and again. -/
theorem iterate_repeating (same : (nextItem peer id).exec t = (some item, t)) (n : Nat) :
    (iterate peer id n).exec t = ((List.replicate n item, false), t) := by
  induction n with
  | zero => rfl
  | succ n ih =>
    rw [iterate_succ, same]
    exact congrArg (after [item]) ih

/-- With patience for more, the caller gets these items and has come from `s` to `t`. -/
def Gives (peer : Peer ω) (id : ResultId) (s : State ω) (items : List Item) (t : State ω) : Prop :=
  ∀ patience, (iterate peer id (items.length + (patience + 1))).exec s =
    after items ((iterate peer id (patience + 1)).exec t)

namespace Gives

theorem rest (s : State ω) : Gives peer id s [] s := fun patience => by
  rw [List.length_nil, Nat.zero_add]
  rfl

theorem andThen (h : Gives peer id s items t) (h' : Gives peer id t more u) :
    Gives peer id s (items ++ more) u := fun patience => by
  have first := h (more.length + patience)
  rw [Nat.add_assoc more.length, h' patience] at first
  rw [List.length_append, Nat.add_assoc, first]
  show ((items ++ (more ++ _), _), _) = ((items ++ more ++ _, _), _)
  rw [List.append_assoc]

/-- A state from which the next item is the same. -/
theorem of_eq (same : (nextItem peer id).exec s = (nextItem peer id).exec t) :
    Gives peer id s [] t := fun patience => by
  rw [List.length_nil, Nat.zero_add, iterate_succ, iterate_succ, same]
  rfl

theorem one (given : (nextItem peer id).exec s = (some item, t)) :
    Gives peer id s [item] t := fun patience => by
  rw [List.length_singleton, Nat.add_comm, iterate_succ, given]

/-- And then the end. -/
theorem ended (h : Gives peer id s items t) (ceased : (nextItem peer id).exec t = (none, u))
    (enough : items.length < patience) :
    (iterate peer id patience).exec s = ((items, true), u) := by
  obtain ⟨rest, rfl⟩ := Nat.exists_eq_add_of_lt enough
  rw [Nat.add_assoc, h rest, iterate_succ, ceased]
  show ((items ++ [], true), u) = _
  rw [List.append_nil]

/-- And then an item after which the caller goes on from `u`. -/
theorem further (h : Gives peer id s items t) (given : (nextItem peer id).exec t = (some item, u))
    (n : Nat) : (iterate peer id (items.length + 1 + n)).exec s =
      after (items ++ [item]) ((iterate peer id n).exec u) := by
  rw [Nat.add_assoc, Nat.add_comm 1 n, h n, iterate_succ, given]
  show ((items ++ ([item] ++ _), _), _) = ((items ++ [item] ++ _, _), _)
  rw [List.append_assoc]

end Gives

end Turns

/-! ## Results -/

section Results

variable {peer : Peer ω} {σ τ : State (Recorded ω)}

/-- To have at hand what is at hand already changes nothing. -/
theorem keeping_buffer (can : σ.Readable id) :
    σ.keeping id (σ.session.result id).buffer = σ := by
  have here := Session.lt_of_usable can
  have same : σ.session.results.set id (σ.session.result id) = σ.session.results := by
    rw [Session.result, List.getD_eq_getElem?_getD, List.getElem?_eq_getElem here]
    exact List.set_getElem_self here
  show { σ with session := { σ.session with results := σ.session.results.set id _ } } = σ
  rw [same]

theorem keeping_keeping (can : σ.Readable id) (first second : List Record) :
    (σ.keeping id first).keeping id second = σ.keeping id second := by
  have now := State.result_keeping can first
  unfold State.keeping at now ⊢
  rw [now]
  simp only [Session.setResult, List.set_set]

/-- The next item is a record at hand. -/
theorem nextItem_at_hand {record : Record} {rest : List Record} (can : σ.Readable id)
    (hand : (σ.session.result id).buffer = record :: rest) :
    (nextItem peer.recorded id).exec σ = (some (.ok record), σ.keeping id rest) := by
  rw [nextItem_exec, next_at_hand can hand]
  rfl

/-- A result that cannot be read gives a fault, and stays as it is. -/
theorem nextItem_unusable {fault : Fault} (spent : (σ.session.result id).unusable? = some fault) :
    (nextItem peer.recorded id).exec σ = (some (.error fault), σ) := by
  have checked : Op.exec (checkUsable id) σ = (.error fault, σ) := by
    rw [checkUsable, Op.exec_bind, Op.exec_theSession]
    dsimp only
    rw [spent]
    rfl
  rw [nextItem_exec, next, Op.exec_bind, peek, Op.exec_bind, checked]

/-- A result that is at its end gives nothing, and stays as it is. -/
theorem nextItem_atEnd (atEnd : σ.AtEnd id) : (nextItem peer.recorded id).exec σ = (none, σ) := by
  obtain ⟨can, ended, empty⟩ := atEnd
  have enough : ((σ.session.result id).isStreaming && (σ.session.result id).isDry) = false := by
    rw [ended]
    rfl
  have kept := keeping_buffer can
  rw [empty] at kept
  rw [nextItem_exec, next_exec can, fetchFrom_enough enough]
  show (((σ.session.result id).buffer.head?).map Except.ok,
    σ.keeping id (σ.session.result id).buffer.tail) = _
  rw [empty]
  exact Prod.ext rfl kept

/-- The records at hand come first. -/
theorem gives_at_hand (can : σ.Readable id) :
    Gives peer.recorded id σ ((σ.session.result id).buffer.map .ok) (σ.emptied id) := by
  show Gives peer.recorded id σ _ (σ.keeping id [])
  generalize hand : (σ.session.result id).buffer = records
  induction records generalizing σ with
  | nil =>
    have kept := keeping_buffer can
    rw [hand] at kept
    rw [kept]
    exact .rest σ
  | cons record rest ih =>
    have rested := ih (State.readable_keeping can rest) (by rw [State.result_keeping can])
    rw [keeping_keeping can] at rested
    exact (Gives.one (nextItem_at_hand can hand)).andThen rested

/-! ## Batches -/

/-- A stream that failed is not streaming. -/
theorem failStream_over (fault : Fault) :
    (failStream peer.recorded id fault).Ends σ fun _ τ =>
      (τ.session.result id).isStreaming = false := by
  rw [failStream, Act.ends_bind, Act.ends_theSession, Act.ends_bind, Act.ends_changeResult]
  refine (abortOrigin_results _).imp fun _ τ same => ?_
  have now : τ.session.result id = _ := congrArg (List.getD · id Result.absent) same
  rw [now]
  show ((σ.session.setResult id _).result id).isStreaming = false
  rw [Session.result_setResult_eq]
  split
  · rfl
  · next absent =>
    have beyond : σ.session.results.length ≤ id := Nat.le_of_not_lt fun here => absent ⟨rfl, here⟩
    rw [Session.result_of_le beyond]
    rfl

/-- A result is not streaming after a fetch that failed. -/
theorem fetch_stops (streaming : (σ.session.result id).isStreaming = true) :
    (fetch peer.recorded id).Ends σ (fun _ _ => True) fun _ τ =>
      (τ.session.result id).isStreaming = false := by
  have failed (fault : Fault) (τ : State (Recorded ω)) :
      (failAfter (failStream peer.recorded id fault) fault : Op (Recorded ω) Bool).Ends τ
        (fun _ _ => True) fun _ τ => (τ.session.result id).isStreaming = false :=
    Op.ends_failAfter.mpr (failStream_over fault)
  rw [fetch, Op.ends_bind, Op.ends_attempt, pullHeld, Op.ends_bind, Op.ends_theSession]
  cases held : σ.session.connection with
  | none =>
    rw [sendHeld, Op.ends_bind, Op.ends_theSession, held]
    exact failed _ σ
  | some c =>
    refine Op.ends_sendHeld held (fun batch w => ?_) fun fault w => failed fault _
    rw [Op.ends_bind, Op.ends_changeResult]
    cases batch.more with
    | true => exact trivial
    | false =>
      refine Op.ends_bind.mpr ((finishStream_sets _).imp (fun _ _ _ => trivial) fun _ τ h => ?_)
      obtain ⟨summary, results⟩ := h
      have now : τ.session.result id = _ :=
        (congrArg (List.getD · id Result.absent) results).trans
          ((Session.result_setResult _ id _ (by
            show id < (σ.session.results.set id _).length
            rw [List.length_set]
            exact Session.lt_of_isStreaming streaming)).trans (if_pos rfl))
      rw [now]
      rfl

/-- When none is at hand a batch does not change which item is next, and it is the fault when the
    fetch fails. -/
theorem fetch_gives (can : σ.Readable id) (streaming : (σ.session.result id).isStreaming = true)
    (empty : (σ.session.result id).buffer = []) :
    (fetch peer.recorded id).Ends σ
      (fun more τ => Gives peer.recorded id σ [] τ ∧ τ.Readable id ∧
        (τ.session.result id).isStreaming = more)
      fun fault τ => (nextItem peer.recorded id).exec σ = (some (.error fault), τ) ∧
        τ.ReportFault id fault ∧ (τ.session.result id).isStreaming = false := by
  have wanted : ((σ.session.result id).isStreaming && (σ.session.result id).isDry) = true := by
    rw [streaming, Result.isDry, empty]
    rfl
  have turn : fetchFrom peer.recorded id Result.isDry σ = _ := fetchFrom_turn wanted
  refine ((Op.ends_exec _ σ).and ((fetch_reads can streaming).and (fetch_stops streaming))).imp
    (fun more τ h => ?_) fun fault τ h => ?_
  · obtain ⟨e, ⟨can', still⟩, -⟩ := h
    refine ⟨.of_eq ?_, can', still⟩
    rw [e] at turn
    rw [nextItem_exec, nextItem_exec, next_exec can, next_exec can', turn]
    cases more with
    | true => rfl
    | false =>
      have enough : ((τ.session.result id).isStreaming && (τ.session.result id).isDry) = false := by
        rw [still]
        rfl
      rw [fetchFrom_enough enough]
  · obtain ⟨e, reportFault, ceased⟩ := h
    rw [e] at turn
    refine ⟨?_, reportFault, ceased⟩
    rw [nextItem_exec, next_exec can, turn]

/-! ## Reading to the end -/

/-- What was read is what the iteration gives first, and then comes the fault, or the end.  A result
    that can still be read after a fault has ended well, and a report failed. -/
structure Drained (peer : Peer ω) (id : ResultId) (σ : State (Recorded ω))
    (out : List Record × Option Fault) (τ : State (Recorded ω)) : Prop where
  given : ∃ υ, Gives peer.recorded id σ (out.1.map .ok) υ ∧
    (nextItem peer.recorded id).exec υ = (out.2.map .error, τ)
  stopped : ∀ fault, out.2 = some fault → τ.Readable id →
    τ.history.Reported fault ∧ (τ.session.result id).isStreaming = false

theorem drainFrom_gives (can : σ.Readable id) :
    Drained peer id σ (drainFrom peer.recorded id [] σ).1 (drainFrom peer.recorded id [] σ).2 := by
  -- what is at hand is taken before anything is fetched
  have emptied {read : List Record} {τ : State (Recorded ω)} (can : τ.Readable id)
      (given : Gives peer.recorded id σ (read.map .ok) τ) :
      Gives peer.recorded id σ ((read ++ (τ.session.result id).buffer).map .ok) (τ.emptied id) := by
    rw [List.map_append]
    exact given.andThen (gives_at_hand can)
  have ended {read : List Record} {τ : State (Recorded ω)} (can : τ.Readable id)
      (ceased : (τ.session.result id).isStreaming = false)
      (given : Gives peer.recorded id σ (read.map .ok) τ) :
      Drained peer id σ (read ++ (τ.session.result id).buffer, none) (τ.emptied id) :=
    ⟨⟨_, emptied can given, nextItem_atEnd (State.atEnd_keeping can ceased)⟩,
      fun _ e => by cases e⟩
  refine drainFrom_ends
    (fun read τ => Gives peer.recorded id σ (read.map .ok) τ ∧ τ.Readable id) (Drained peer id σ)
    ⟨.rest σ, can⟩ (fun read τ h streaming => ?_) fun read τ h quiet => ended h.2 quiet h.1
  obtain ⟨given, can⟩ := h
  have before := emptied can given
  have empty : ((τ.emptied id).session.result id).buffer = [] := by
    rw [show (τ.emptied id).session.result id = _ from State.result_keeping can []]
  refine (fetch_gives (State.readable_keeping can [])
    ((State.emptied_isStreaming τ id id).trans streaming) empty).imp (fun more υ h => ?_)
    fun fault υ h => ?_
  · obtain ⟨same, can, still⟩ := h
    have given := before.andThen same
    rw [List.append_nil] at given
    cases more with
    | true => exact ⟨given, can⟩
    | false => exact ended can still given
  · obtain ⟨next, reportFault, ceased⟩ := h
    refine ⟨⟨_, before, next⟩, fun f e can => ?_⟩
    cases e
    exact ⟨reportFault can, ceased⟩

theorem drain_gives : (drain peer.recorded id).Ends σ (Drained peer id σ) := by
  rw [drain, Act.ends_bind, Act.ends_theSession]
  cases spent : (σ.session.result id).unusable? with
  | some fault =>
    refine ⟨⟨σ, .rest σ, nextItem_unusable spent⟩, fun _ _ can => ?_⟩
    have can : (σ.session.result id).unusable? = none := can
    rw [spent] at can
    cases can
  | none => exact drainFrom_gives spent

/-! ## The two ways -/

/-- How the iteration over a result compares with the stream, which gives `records` and perhaps a
    `fault`, and leaves `τ`.  Without a fault both end alike.  After a fault a result that cannot be
    read any more gives one each time.  One that can still be read after a fault, which is that of a
    report, gives what is at hand. -/
structure Iteration (peer : Peer ω) (id : ResultId) (σ : State (Recorded ω)) (records : List Record)
    (fault : Option Fault) (τ : State (Recorded ω)) : Prop where
  agrees : fault = none → ∀ patience > records.length,
    (iterate peer.recorded id patience).exec σ = ((records.map .ok, true), τ)
  repeats : ∀ first again, fault = some first → (τ.session.result id).unusable? = some again →
    ∀ n, (iterate peer.recorded id (records.length + 1 + n)).exec σ =
      ((records.map .ok ++ [.error first] ++ List.replicate n (.error again), false), τ)
  resumes : ∀ first, fault = some first → τ.Readable id → τ.history.Reported first ∧
    ∀ patience > records.length + 1 + (τ.session.result id).buffer.length,
      (iterate peer.recorded id patience).exec σ =
        ((records.map .ok ++ [.error first] ++ (τ.session.result id).buffer.map .ok, true),
          τ.emptied id)

/-- The iteration comes to its end. -/
def Terminates (peer : Peer ω) (id : ResultId) (σ : State (Recorded ω)) : Prop :=
  ∃ patience, ((iterate peer.recorded id patience).exec σ).1.2 = true

/-- The iteration comes to its end, and gives these items until then. -/
def Amounts (peer : Peer ω) (id : ResultId) (σ : State (Recorded ω)) (items : List Item) : Prop :=
  ∃ patience, ((iterate peer.recorded id patience).exec σ).1 = (items, true)

namespace Iteration

variable {records : List Record} {fault : Option Fault}

theorem terminates_iff (h : Iteration peer id σ records fault τ) :
    Terminates peer id σ ↔ fault = none ∨ τ.Readable id := by
  constructor
  · rintro ⟨patience, ended⟩
    cases failed : fault with
    | none => exact .inl rfl
    | some first =>
      refine .inr ?_
      show (τ.session.result id).unusable? = none
      by_contra spent
      obtain ⟨again, spent⟩ := Option.ne_none_iff_exists'.mp spent
      have endless := h.repeats first again failed spent patience
      rw [Nat.add_comm, iterate_mono ended] at endless
      rw [endless] at ended
      cases ended
  · rintro (none | can)
    · exact ⟨records.length + 1, by rw [h.agrees none _ (Nat.lt_succ_self _)]⟩
    · cases failed : fault with
      | none => exact ⟨records.length + 1, by rw [h.agrees failed _ (Nat.lt_succ_self _)]⟩
      | some first => exact ⟨_, by rw [(h.resumes first failed can).2 _ (Nat.lt_succ_self _)]⟩

theorem amounts_iff (h : Iteration peer id σ records fault τ) :
    Amounts peer id σ (streamItems (records, fault)) ↔
      fault = none ∨ τ.Readable id ∧ (τ.session.result id).buffer = [] := by
  constructor
  · rintro ⟨patience, same⟩
    have ended : ((iterate peer.recorded id patience).exec σ).1.2 = true := by rw [same]
    cases failed : fault with
    | none => exact .inl rfl
    | some first =>
      have can := (h.terminates_iff.mp ⟨patience, ended⟩).resolve_left (by rw [failed]; simp)
      refine .inr ⟨can, ?_⟩
      have more := (h.resumes first failed can).2
        (patience + (records.length + 1 + (τ.session.result id).buffer.length + 1)) (by omega)
      rw [iterate_mono ended] at more
      rw [more, failed] at same
      have items : streamItems (records, some first) ++ (τ.session.result id).buffer.map Except.ok =
          streamItems (records, some first) := congrArg Prod.fst same
      exact List.map_eq_nil_iff.mp (List.append_right_eq_self.mp items)
  · rintro (none | ⟨can, empty⟩)
    · refine ⟨records.length + 1, ?_⟩
      rw [h.agrees none _ (Nat.lt_succ_self _), none, streamItems]
      simp
    · cases failed : fault with
      | none =>
        refine ⟨records.length + 1, ?_⟩
        rw [h.agrees failed _ (Nat.lt_succ_self _), streamItems]
        simp
      | some first =>
        have last := (h.resumes first failed can).2 _ (Nat.lt_succ_self _)
        refine ⟨_, (congrArg Prod.fst last).trans ?_⟩
        rw [empty, List.map_nil, List.append_nil]
        rfl

end Iteration

/-- Over every result, in every state, the iteration compares with the stream like that.  It ends
    unless a fault left a result that cannot be read, and it gives the items of the stream unless a
    fault left a result that cannot be read or has something at hand. -/
theorem iterate_stream (peer : Peer ω) (id : ResultId) (σ : State (Recorded ω)) :
    (drain peer.recorded id).Ends σ fun out τ => Iteration peer id σ out.1 out.2 τ ∧
      (Terminates peer id σ ↔ out.2 = none ∨ τ.Readable id) ∧
      (Amounts peer id σ (streamItems out) ↔
        out.2 = none ∨ τ.Readable id ∧ (τ.session.result id).buffer = []) := by
  have drained : (drain peer.recorded id).Ends σ (Drained peer id σ) := drain_gives
  refine drained.imp fun out τ drained => ?_
  obtain ⟨records, fault⟩ := out
  obtain ⟨⟨υ, given, next⟩, stopped⟩ := drained
  have iteration : Iteration peer id σ records fault τ := by
    dsimp only at given next stopped
    refine ⟨?_, ?_, ?_⟩
    · rintro rfl patience enough
      exact given.ended next (by rwa [List.length_map])
    · rintro first again rfl spent n
      have further := given.further next n
      rw [iterate_repeating (nextItem_unusable spent), List.length_map] at further
      exact further
    · rintro first rfl can
      obtain ⟨reported, ceased⟩ := stopped first rfl can
      refine ⟨reported, fun patience enough => ?_⟩
      refine ((given.andThen (.one next)).andThen (gives_at_hand can)).ended
        (nextItem_atEnd (State.atEnd_keeping can ceased)) ?_
      simp only [List.length_append, List.length_map, List.length_singleton]
      exact enough
  exact ⟨iteration, iteration.terminates_iff, iteration.amounts_iff⟩

end Results

end GraphSession.Blocking
