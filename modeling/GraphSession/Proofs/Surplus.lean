import GraphSession.Proofs.Cursor

/-!
  What `single` leaves behind.

  `single` reads two records to tell whether there is exactly one, and drops what is left on the
  server.  What was fetched along with the two stays at hand, and the result can still be read.  So
  the outcome depends on the number of records that are left and on nothing else, the stream is over
  afterwards and its unit of work complete; but which records can still be read depends on how they
  came in batches.  `surplus` tells which these are.
-/

namespace GraphSession

variable {ω α : Type} {peer : Peer ω} {id r : ResultId} {σ τ : State (Recorded ω)}

/-! ## Two records of a list -/

/-- The records that stay at hand when two were read and the rest was dropped. -/
def surplus (size : FetchSize) (hand ahead : List α) : List α :=
  (if hand.length < 2 then hand ++ size.take ahead else hand).drop 2

section Lists

variable {size : FetchSize} {hand rest : List α}

theorem FetchSize.head?_take {l : List α} : (size.take l).head? = l.head? := by
  cases size with
  | all => rfl
  | upTo n =>
    have positive : n.val ≠ 0 := Nat.ne_of_gt n.property
    rw [take, List.head?_take, if_neg positive]

/-- After a batch of one record the next batch is no longer. -/
theorem FetchSize.length_take_drop_le {l : List α} (one : (size.take l).length = 1) :
    (size.take (size.drop l)).length ≤ 1 := by
  cases size with
  | all => simp [take, drop]
  | upTo n =>
    simp only [take, drop, List.length_take, List.length_drop] at one ⊢
    omega

/-- Looking for a record loses none. -/
theorem ready_append : (ready size hand rest).1 ++ (ready size hand rest).2 = hand ++ rest := by
  unfold ready
  split
  · next empty =>
    rw [empty, List.nil_append]
    exact FetchSize.take_append_drop size rest
  · rfl

/-- The first one at hand is the first one that is left. -/
theorem ready_head : (ready size hand rest).1.head? = (hand ++ rest).head? := by
  unfold ready
  split
  · next empty =>
    rw [empty, List.nil_append]
    exact FetchSize.head?_take
  · next something =>
    obtain ⟨a, hand, rfl⟩ := List.exists_cons_of_ne_nil something
    rfl

/-- The second one at hand is the second one that is left. -/
theorem ready_head_tail (first : (ready size hand rest).1.head?.isSome = true) :
    (ready size (ready size hand rest).1.tail (ready size hand rest).2).1.head? =
      (hand ++ rest).tail.head? := by
  have all : (ready size hand rest).1 ++ (ready size hand rest).2 = hand ++ rest := ready_append
  rw [ready_head, ← all]
  cases one : (ready size hand rest).1 with
  | nil =>
    rw [one] at first
    cases first
  | cons a more => rfl

/-- What stays at hand after two looks. -/
theorem ready_ready :
    (ready size (ready size hand rest).1.tail (ready size hand rest).2).1.tail =
      surplus size hand rest := by
  match hand with
  | x :: y :: zs => rfl
  | [x] => exact List.drop_one.symm
  | [] =>
    show (ready size (size.take rest).tail (size.drop rest)).1.tail = (size.take rest).drop 2
    rcases batch : size.take rest with _ | ⟨x, _ | ⟨y, zs⟩⟩
    · -- there was nothing ahead
      have nothing : rest = [] := by
        by_contra something
        exact FetchSize.take_ne_nil something batch
      rw [nothing, FetchSize.drop_nil, List.tail_nil, ready, if_pos rfl, FetchSize.take_nil]
      rfl
    · have short := FetchSize.length_take_drop_le (l := rest) (by rw [batch]; rfl)
      show (size.take (size.drop rest)).tail = []
      rw [← List.length_eq_zero_iff, List.length_tail]
      omega
    · rfl

/-- Nothing stays if no more than two were left. -/
theorem surplus_eq_nil (few : (hand ++ rest).length ≤ 2) : surplus size hand rest = [] := by
  have taken : (size.take rest).length ≤ rest.length := by
    cases size with
    | all => exact Nat.le_refl _
    | upTo n => exact List.length_take_le' _ _
  rw [List.length_append] at few
  rw [surplus, List.drop_eq_nil_iff]
  split
  · rw [List.length_append]
    omega
  · omega

end Lists

/-! ## What `single` does -/

section Single

variable {content : ResultId → List (List Value)} {size : FetchSize} {hand rest : List Record}
  {u : Option (TransactionId × Transaction)} {s : Option ResultId}

/-- What `single` comes to when `hand` and `rest` were left. -/
structure State.Decided (content : ResultId → List (List Value)) (size : FetchSize) (r : ResultId)
    (hand rest : List Record) (outcome : Except Fault Record) (σ : State (Recorded ω)) : Prop where
  outcome : outcome = onlyRecord (hand ++ rest).head? (hand ++ rest).tail.head?
  holds : σ.Holds content size r (surplus size hand rest) []
  ceased : (σ.session.result r).isStreaming = false

/-- Both records have been looked for: the rest is dropped, and the outcome is told. -/
theorem verdict_decides {first second : Option Record} (steady : τ.Steady u s)
    (smooth : σ.Smooth τ)
    (seen : Always (Continues content) τ.history → first = (hand ++ rest).head? ∧
      second = (hand ++ rest).tail.head? ∧
        ∃ ahead, τ.Holds content size id (surplus size hand rest) ahead) :
    Op.EndsIf (Continues content) (do
      discardRest peer.recorded id
      settleOn (onlyRecord first second) : Op (Recorded ω) Record) τ
      (fun record υ => σ.Smooth υ → υ.Decided content size id hand rest (.ok record))
      fun fault υ => σ.Smooth υ → υ.Decided content size id hand rest (.error fault) := by
  have course : Op.Within { drops := (· = id) } (do
      discardRest peer.recorded id
      settleOn (onlyRecord first second) : Op (Recorded ω) Record) :=
    .bind (discardRest_within rfl) fun _ => .settleOn _
  refine .assume (course τ) fun always => ?_
  obtain ⟨rfl, rfl, ahead, holds⟩ := seen always
  rw [Op.EndsIf, Op.ends_bind]
  have fails : (discardRest peer.recorded id).FailsBy Request.Reads τ :=
    discardRest_failsReading steady
  refine (Op.Ends.and (discardRest_holds holds) fails).imp ?_ ?_
  · rintro _ υ ⟨⟨holds, ceased⟩, -⟩
    rw [Op.ends_settleOn]
    exact ⟨fun record e _ _ => ⟨e.symm, holds, ceased⟩, fun fault e _ _ => ⟨e.symm, holds, ceased⟩⟩
  · rintro fault υ ⟨-, failed⟩ - smooth'
    exact absurd smooth' (State.Since.failedBy_after smooth failed).not_smooth

/-- Whatever is left of a result, `single` tells whether it is one record, and leaves the
    surplus. -/
theorem single_decides (h : σ.Holds content size id hand rest) (steady : σ.Steady u s) :
    (single peer.recorded id).EndsIf (Continues content) σ
      (fun record τ => σ.Smooth τ → τ.Decided content size id hand rest (.ok record))
      fun fault τ => σ.Smooth τ → τ.Decided content size id hand rest (.error fault) := by
  have fails : (next peer.recorded id).FailsBy Request.Reads σ := next_failsBy steady h.readable
  rw [single_eq, Op.EndsIf, Op.ends_bind]
  refine ((Op.Ends.and (next_holds h) fails).and (next_steady steady)).imp ?_ ?_
  · rintro first τ ⟨⟨seen, smooth⟩, steady⟩
    split
    · next some_first =>
      have course : Op.Within { takes := (· = id), drops := (· = id) } (do
          let second ← next peer.recorded id
          discardRest peer.recorded id
          settleOn (onlyRecord first second) : Op (Recorded ω) Record) :=
        .bind (next_within rfl) fun _ => .bind (discardRest_within rfl) fun _ => .settleOn _
      refine Op.EndsIf.assume (course τ) fun always => ?_
      obtain ⟨rfl, holds⟩ := seen always
      have fails : (next peer.recorded id).FailsBy Request.Reads τ :=
        next_failsBy steady holds.readable
      rw [Op.EndsIf, Op.ends_bind]
      refine ((Op.Ends.and (next_holds holds) fails).and (next_steady steady)).imp ?_ ?_
      · rintro second υ ⟨⟨seen, smooth'⟩, steady⟩
        refine verdict_decides steady (smooth.all_andThen smooth') fun always => ?_
        obtain ⟨rfl, holds⟩ := seen always
        rw [ready_ready] at holds
        exact ⟨ready_head, ready_head_tail some_first, _, holds⟩
      · rintro fault υ ⟨⟨-, failed⟩, -⟩ - smooth'
        exact absurd smooth' (State.Since.failedBy_after smooth failed).not_smooth
    · next no_first =>
      refine verdict_decides steady smooth fun always => ?_
      obtain ⟨rfl, holds⟩ := seen always
      -- nothing was left
      have dry : (ready size hand rest).1 = [] := by simpa using no_first
      have nothing : hand ++ rest = [] := by
        have head : (ready size hand rest).1.head? = (hand ++ rest).head? := ready_head
        rw [dry] at head
        exact List.head?_eq_none_iff.mp head.symm
      rw [dry] at holds
      rw [nothing, surplus_eq_nil (by rw [nothing]; exact Nat.zero_le 2)]
      exact ⟨by rw [dry], rfl, _, holds⟩
  · rintro fault τ ⟨⟨-, failed⟩, -⟩ - smooth
    exact absurd smooth failed.not_smooth

end Single

/-! ## Results whose stream is over -/

/-- A result that was given out, and whose stream is over. -/
structure State.Over (r : ResultId) (σ : State (Recorded ω)) : Prop where
  given : r < σ.session.results.length
  ceased : (σ.session.result r).isStreaming = false

namespace State.Over

theorem same (h : σ.Over r) (results : τ.session.results = σ.session.results) : τ.Over r where
  given := results ▸ h.given
  ceased := by
    have same : τ.session.result r = σ.session.result r := by
      simp only [Session.result, results]
    rw [same]
    exact h.ceased

/-- A change of a result does not open its stream. -/
theorem setResult (h : σ.Over r) {v : Result}
    (streaming : v.isStreaming = true → (σ.session.result id).isStreaming = true) :
    State.Over r { σ with session := σ.session.setResult id v } where
  given := by
    show r < (σ.session.results.set id v).length
    rw [List.length_set]
    exact h.given
  ceased := by
    show ((σ.session.setResult id v).result r).isStreaming = false
    rw [Session.result_setResult_eq]
    split
    · next own =>
      apply Bool.eq_false_iff.mpr
      intro again
      have was := streaming again
      rw [own.1, h.ceased] at was
      cases was
    · exact h.ceased

end State.Over

/-- Nothing comes for a result whose stream is over, whatever is done. -/
theorem Course.ceased {may : License} (course : Course may σ τ) (h : σ.Over r) :
    τ.Over r ∧ τ.history.sent r = σ.history.sent r ∧ τ.history.keys? r = σ.history.keys? r := by
  have plains {σ τ : State (Recorded ω)} {later : History} (h : σ.Over r)
      (plain : ∀ e ∈ later, e.IsPlain) (history : τ.history = later ++ σ.history)
      (results : τ.session.results = σ.session.results) :
      τ.Over r ∧ τ.history.sent r = σ.history.sent r ∧
        τ.history.keys? r = σ.history.keys? r :=
    ⟨h.same results, by rw [history, History.sent_plains plain],
      by rw [history, History.keys?_plains plain]⟩
  have plain {σ τ : State (Recorded ω)} {e : Happening} (h : σ.Over r) (plain : e.IsPlain)
      (history : τ.history = e :: σ.history)
      (results : τ.session.results = σ.session.results) :
      τ.Over r ∧ τ.history.sent r = σ.history.sent r ∧
        τ.history.keys? r = σ.history.keys? r :=
    plains h (fun _ he => List.mem_singleton.mp he ▸ plain)
      (show τ.history = [e] ++ σ.history from history) results
  induction course with
  | rest => exact ⟨h, rfl, rfl⟩
  | andThen _ _ ih₁ ih₂ =>
    obtain ⟨h, sent, keys⟩ := ih₁ h
    obtain ⟨h, sent', keys'⟩ := ih₂ h
    exact ⟨h, sent'.trans sent, keys'.trans keys⟩
  | tend results _ history => exact plains h (by simp) (show _ = [] ++ _ from history) results
  | aside _ aside => exact plain h aside.isPlain rfl rfl
  | borrowing _ _ borrowing => exact plain h borrowing.isPlain rfl rfl
  | loanRefused _ _ request c kind fault =>
    exact plains h (History.forall_loanRefused.mpr ⟨trivial, trivial, trivial⟩) rfl rfl
  | message _ _ isPlain => exact plain h isPlain rfl rfl
  | release => exact plain h (by trivial) rfl rfl
  | @start may σ τ _ _ _ v _ _ history notes results =>
    have isPlain : ∀ e ∈ _, Happening.IsPlain e := fun e he => by
      obtain ⟨event, rfl⟩ := notes e he
      trivial
    have other : r ≠ σ.session.nextResult := Nat.ne_of_lt h.given
    refine ⟨⟨?_, ?_⟩, ?_, ?_⟩
    · rw [results, List.length_append]
      exact Nat.lt_add_right _ h.given
    · rw [Session.result_added results, if_neg other]
      exact h.ceased
    · rw [history, History.sent_plains isPlain]
      exact List.append_nil _
    · rw [history, History.keys?_plains isPlain, History.keys?_run, if_neg (Ne.symm other)]
  | begun _ history notes results =>
    refine plains h ?_ (history.trans (List.append_cons _ _ _)) results
    exact History.forall_noted notes (fun _ => trivial) trivial
  | @absorb may σ c id size batch w _ streaming =>
    have other : id ≠ r := by
      rintro rfl
      rw [h.ceased] at streaming
      cases streaming
    have kept : State.Over r { σ with session := (σ.absorbed id c size batch w).session } :=
      h.setResult fun again => again
    refine ⟨⟨kept.given, kept.ceased⟩, ?_, History.keys?_pull⟩
    rw [State.history, History.sent_pull, if_neg other, List.append_nil]
  | finish _ streaming =>
    exact ⟨h.setResult fun again => (by cases again), rfl, rfl⟩
  | take => exact ⟨h.setResult fun again => again, rfl, rfl⟩
  | retire _ streaming => exact ⟨h.setResult streaming, rfl, rfl⟩
  | spend _ _ ih => exact ih h

/-! ## What is given out afterwards -/

/-- All that is handed out or shown of a result is some of these records, in this order. -/
structure Yields (records : List Record) (r : ResultId) (later : History) : Prop where
  handed : (later.handed r).Sublist records
  shown : ∀ record, .used (.peek r) (.ok (some record)) ∈ later → record ∈ records

/-- Since `σ` the result has given out some of `kept`, and it has nothing else to give: of all that
    came for it, `gone` was gone before. -/
structure State.Yielding (gone kept : List Record) (r : ResultId) (σ τ : State (Recorded ω)) :
    Prop where
  tracked : τ.Tracked
  ceased : τ.Over r
  records : τ.records r = gone ++ kept
  given : ∃ later out, τ.history = later ++ σ.history ∧ (later.handed r).Sublist out ∧
    τ.Stock r (gone ++ out) ∧
    ∀ record, .used (.peek r) (.ok (some record)) ∈ later → record ∈ kept

theorem State.records_plain {e : Happening} (plain : e.IsPlain) :
    State.records r { σ with world := σ.world.add e } = σ.records r := by
  show History.rows r (e :: σ.history) (History.sent r (e :: σ.history)) = _
  rw [History.sent_plain plain, History.rows, History.keys?_plain plain]
  rfl

namespace State.Yielding

variable {υ : State (Recorded ω)} {gone kept : List Record}

/-- What is given out is some of what was kept. -/
theorem yields (h : State.Yielding gone kept r σ τ) : σ.Since (Yields kept r) τ := by
  obtain ⟨later, out, history, sublist, stock, shown⟩ := h.given
  have inOrder := stock.inOrder
  rw [h.records, List.prefix_append_right_inj] at inOrder
  exact ⟨later, history, sublist.trans inOrder.sublist, shown⟩

/-- An action that hands out nothing of the result. -/
theorem course {may : License} (h : State.Yielding gone kept r σ τ) (course : Course may τ υ)
    (n : ¬ may.takes r) : State.Yielding gone kept r σ υ := by
  obtain ⟨later, out, history, sublist, stock, shown⟩ := h.given
  obtain ⟨ceased, sent, keys⟩ := course.ceased h.ceased
  obtain ⟨tracked, stock⟩ := stock.kept h.tracked course n
  obtain ⟨new, history', asked⟩ := course.permitted
  refine ⟨tracked, ceased, ?_, new ++ later, out, ?_, ?_, stock, fun record shows => ?_⟩
  · rw [← h.records, State.records, State.records, History.rows, History.rows, sent, keys]
  · rw [history', history, List.append_assoc]
  · rw [handed_asked fun e he => (asked e he).1]
    exact sublist
  · rcases List.mem_append.mp shows with here | before
    · obtain ⟨request, answer, e⟩ := (asked _ here).1
      cases e
    · exact shown record before

/-- A line of the history that is no use of a handle. -/
theorem log (h : State.Yielding gone kept r σ τ) (fault : Option Fault) :
    State.Yielding gone kept r σ { τ with world := τ.world.add (.returned fault) } := by
  have plain : (Happening.returned fault).IsPlain := trivial
  have logged : τ.ResultKept {} r { τ with world := τ.world.add (.returned fault) } :=
    .plain plain rfl rfl
  obtain ⟨later, out, history, sublist, stock, shown⟩ := h.given
  refine ⟨h.tracked.plain plain rfl rfl, h.ceased.same rfl, ?_, .returned fault :: later, out, ?_,
    ?_, logged.stock (fun h => h) _ stock, fun record shows => ?_⟩
  · exact (records_plain plain).trans h.records
  · exact congrArg (List.cons _) history
  · show (later.handed r ++ []).Sublist out
    rw [List.append_nil]
    exact sublist
  · rcases List.mem_cons.mp shows with e | before
    · cases e
    · exact shown record before

/-- A use of a handle. -/
theorem call (h : State.Yielding gone kept r σ τ) (a : Access) :
    (a.performTold peer).Ends τ fun _ υ => State.Yielding gone kept r σ υ := by
  obtain ⟨later, out, history, sublist, stock, shown⟩ := h.given
  have told {υ : State (Recorded ω)} {outcome : Except Fault a.Reply}
      (course : Course a.license τ υ) (serves : a.Serves r (gone ++ out) outcome υ) :
      State.Yielding gone kept r σ { υ with world := υ.world.add (.used a outcome) } := by
    have plain : (Happening.used a outcome).IsPlain := trivial
    have logged : υ.ResultKept {} r { υ with world := υ.world.add (.used a outcome) } :=
      .plain plain rfl rfl
    obtain ⟨ceased, sent, keys⟩ := course.ceased h.ceased
    have records : υ.records r = gone ++ kept := by
      rw [← h.records, State.records, State.records, History.rows, History.rows, sent, keys]
    obtain ⟨new, history', asked⟩ := course.permitted
    obtain ⟨⟨out', sublist', stock', -⟩, peeked, -⟩ := serves
    rw [List.append_assoc] at stock'
    refine ⟨(course.resultKept h.tracked).1.plain plain rfl rfl, ceased.same rfl,
      (records_plain plain).trans records, .used a outcome :: (new ++ later), out ++ out', ?_, ?_,
      logged.stock (fun h => h) _ stock', fun record shows => ?_⟩
    · show _ :: υ.history = _
      rw [history', history, List.cons_append, List.append_assoc]
    · show (History.handed r (new ++ later) ++ _).Sublist _
      rw [handed_asked fun e he => (asked e he).1]
      exact sublist.append sublist'
    · rcases List.mem_cons.mp shows with e | before
      · -- what is shown is at hand, and so it was kept
        obtain ⟨can, head⟩ := peeked record e.symm
        have all := stock'.readable can
        rw [records, List.append_assoc, List.append_cancel_left_eq] at all
        rw [← all]
        exact List.mem_append_right _ (List.mem_of_head? head)
      · rcases List.mem_append.mp before with here | before
        · obtain ⟨request, answer, e⟩ := (asked _ here).1
          cases e
        · exact shown record before
  have course : Act.Ends (a.perform peer.recorded).run τ fun _ υ => Course a.license τ υ :=
    a.perform_within τ
  exact told course (a.perform_serves h.tracked stock)

end State.Yielding

/-- Whatever is done afterwards, nothing else is given out. -/
theorem yielding_kept (peer : Peer ω) (gone kept : List Record) (r : ResultId)
    (σ : State (Recorded ω)) : Kept peer (State.Yielding gone kept r σ) where
  course h course := h.course course fun h => h
  call _ a h := h.call a
  drift _ _ h := ⟨⟨h.tracked.started, h.tracked.unstarted, h.tracked.fresh⟩,
    ⟨h.ceased.1, h.ceased.2⟩, h.records, h.given.imp fun _ => Exists.imp fun _ hg =>
      ⟨hg.1, hg.2.1, ⟨hg.2.2.1.inOrder, hg.2.2.1.readable⟩, hg.2.2.2⟩⟩
  ended _ fault h := h.log fault
  close σ h := (close_ends σ).imp fun _ _ course => h.course course fun h => h

/-! ## Every use of `single` -/

/-- To collect a result whose stream is over brings what is at hand. -/
theorem collect_at_hand {records : List Record} (can : σ.Readable r)
    (ceased : (σ.session.result r).isStreaming = false)
    (hand : (σ.session.result r).buffer = records) :
    (Op.exec (collect peer.recorded r) σ).1 = .ok records := by
  rw [collect_ended can ceased, hand]

namespace State

/-- The records of a result that can still be read: those at hand, and those that are ahead. -/
def left (content : ResultId → List (List Value)) (r : ResultId) (σ : State (Recorded ω)) :
    List Record :=
  (σ.session.result r).buffer ++ σ.ahead content r

/-- The records of a result that stay at hand if `single` is used. -/
def surplus (content : ResultId → List (List Value)) (r : ResultId) (σ : State (Recorded ω)) :
    List Record :=
  GraphSession.surplus σ.session.fetchSize (σ.session.result r).buffer (σ.ahead content r)

end State

/-- The outcome tells whether one record was left, or none, or more. -/
def TellsOne (left : List Record) : Except Fault Record → Prop
  | .ok record => left = [record]
  | .error fault =>
    left = [] ∧ fault = .noRecord ∨ 2 ≤ left.length ∧ fault = .manyRecords

theorem onlyRecord_tells (left : List Record) :
    TellsOne left (onlyRecord left.head? left.tail.head?) := by
  match left with
  | [] => exact .inl ⟨rfl, rfl⟩
  | [record] => exact rfl
  | _ :: _ :: rest => exact .inr ⟨Nat.le_add_left 2 rest.length, rfl⟩

/-- What `single` leaves of a result, from `σ` to `τ`: the outcome tells whether one record was
    left, the stream is over, and so is the unit of work of an auto-commit result, which returned
    the connection.  What can be read afterwards, in whatever way, is the surplus: all of it by who
    collects it next, and nothing else by anybody.  There is none if at most two records were
    left. -/
structure Singled (peer : Peer ω) (content : ResultId → List (List Value)) (r : ResultId)
    (σ τ : State (Recorded ω)) : Prop where
  outcome : ∃ outcome past, τ.history = .used (.single r) outcome :: past ∧
    TellsOne (σ.left content r) outcome
  ceased : (τ.session.result r).isStreaming = false
  released : (σ.session.result r).isStreaming = true →
    (σ.session.result r).origin.transaction? = none →
      τ.session.units = 0 ∧ τ.session.connection = none
  few : (σ.left content r).length ≤ 2 → σ.surplus content r = []
  collected : (Op.exec (collect peer.recorded r) τ).1 = .ok (σ.surplus content r)
  afterwards : ∀ ops : List (Operation ω),
    τ.Since (Yields (σ.surplus content r) r) (ops.foldl (Operation.after peer) τ)

section Reached

variable {config : SessionConfig} {w : ω} {phase : Phase}
  {u : Option (TransactionId × Transaction)} {s : Option ResultId}

/-- When the only result that can be streaming is not, nothing is open. -/
theorem State.Steady.bare_of_over (h : σ.Steady none (some r))
    (ceased : (σ.session.result r).isStreaming = false) : σ.Stands {} := by
  rcases h with h | h | h
  · have streaming := (h.streaming r).mpr rfl
    rw [ceased] at streaming
    cases streaming
  · exact State.Idle.bare h
  · exact State.Idle.bare h

/-- An auto-commit result that is streaming is all that is open. -/
theorem State.Steady.alone (h : σ.Steady u s) (streaming : (σ.session.result r).isStreaming = true)
    (own : (σ.session.result r).origin.transaction? = none) : σ.Steady none (some r) := by
  obtain ⟨rfl, live⟩ := h.live streaming
  obtain ⟨-, c, d, -, line⟩ := live
  have origin := line.origin r rfl
  rw [own] at origin
  obtain rfl : u = none := Option.map_eq_none_iff.mp origin.symm
  exact h

/-- Whatever a session has come to, it has delivered its results. -/
theorem Reached.delivering (h : Reached peer config w phase σ) : σ.IsDelivering :=
  h.kept delivering_kept (State.initial_delivering config w)

/-- Whenever `single` is used on a result that can be read, and nothing fails, it decides. -/
theorem Reached.decides (h : Reached peer config w phase σ)
    {content : ResultId → List (List Value)} (readable : σ.Readable r)
    (exact : Always (Exact content) (((Access.single r).performTold peer).exec σ).2.history)
    (smooth : σ.Smooth (((Access.single r).performTold peer).exec σ).2) :
    ∃ outcome τ, (single peer.recorded r).exec σ = (outcome, τ) ∧
      (((Access.single r).performTold peer).exec σ).2 =
        { τ with world := τ.world.add (.used (.single r) outcome) } ∧
      τ.Decided content σ.session.fetchSize r (σ.session.result r).buffer (σ.ahead content r)
        outcome := by
  obtain ⟨-, u, s, steady, -⟩ := h.steady
  obtain ⟨phase', after⟩ := h.used (.single r)
  have continues : Always (Continues content)
      (((Access.single r).performTold peer).exec σ).2.history :=
    continues_of_exact after.proper after.delivering.1.fresh exact
  have course : Course (Access.single r).license σ ((single peer.recorded r).exec σ).2 :=
    (Access.single r).perform_within σ
  have holds : σ.Holds content σ.session.fetchSize r (σ.session.result r).buffer
      (σ.ahead content r) := ⟨readable, rfl, rfl, rfl⟩
  have decides : (single peer.recorded r).EndsIf (Continues content) σ _ _ :=
    single_decides holds steady
  rcases e : (single peer.recorded r).exec σ with ⟨outcome, τ⟩
  have told : (((Access.single r).performTold peer).exec σ).2 =
      { τ with world := τ.world.add (.used (.single r) outcome) } := by
    rw [Access.performTold, Act.exec_bind, Act.exec_run, Access.perform, e]
    rfl
  rw [e] at course
  rw [told] at continues smooth
  -- what happened before the outcome was told
  have well : σ.Smooth τ := by
    obtain ⟨l, history, well⟩ := smooth
    obtain ⟨l', history', -⟩ := course.permitted
    refine ⟨l', history', fun e he => well e ?_⟩
    have split : .used (.single r) outcome :: l' ++ σ.history = l ++ σ.history := by
      rw [← history, List.cons_append, ← history']
      rfl
    rw [← List.append_cancel_right split]
    exact List.mem_cons_of_mem _ he
  refine ⟨outcome, τ, rfl, told, ?_⟩
  cases outcome with
  | ok record => exact decides.of_ok e continues.2 well
  | error fault => exact decides.of_error e continues.2 well

/-- Whenever `single` is used on a result that can be read, and nothing fails, it comes to this. -/
theorem reached_single (h : Reached peer config w phase σ) (content : ResultId → List (List Value))
    (readable : σ.Readable r)
    (exact : Always (Exact content) (((Access.single r).performTold peer).exec σ).2.history)
    (smooth : σ.Smooth (((Access.single r).performTold peer).exec σ).2) :
    Singled peer content r σ (((Access.single r).performTold peer).exec σ).2 := by
  obtain ⟨-, u, s, steady, -⟩ := h.steady
  obtain ⟨phase', after⟩ := h.used (.single r)
  have delivering : State.IsDelivering (((Access.single r).performTold peer).exec σ).2 :=
    after.delivering
  obtain ⟨outcome, τ, e, told, decided⟩ := h.decides readable exact smooth
  obtain ⟨rfl, ⟨can, -, hand, -⟩, ceased⟩ := decided
  rw [told] at delivering ⊢
  refine ⟨⟨_, _, rfl, onlyRecord_tells _⟩, ceased, fun streaming own => ?_, surplus_eq_nil, ?_,
    fun ops => ?_⟩
  · have alone : (single peer.recorded r).Ends σ (fun _ τ => τ.Steady none (some r))
        fun _ τ => τ.Steady none (some r) :=
      (single_steady (steady.alone streaming own)).imp (fun _ _ h => h) fun _ _ h => h.1
    have bare : τ.Stands {} := by
      have after := alone.state
      rw [e] at after
      exact after.bare_of_over ceased
    exact ⟨bare.units, bare.slot⟩
  · exact collect_at_hand can ceased hand
  · obtain ⟨gone, -, stock, -⟩ := (delivering.2 r).stock
    have all := stock.readable can
    rw [show _ = σ.surplus content r from hand] at all
    have stock : State.Stock r (gone ++ []) _ := (List.append_nil gone).symm ▸ stock
    refine State.Yielding.yields ((yielding_kept peer gone (σ.surplus content r) r _).foldl ?_ ops)
    exact ⟨delivering.1, ⟨Session.lt_of_usable can, ceased⟩, all.symm, [], [], rfl,
      List.Sublist.refl _, stock, by simp⟩

end Reached

/-! ## Three records that came at once -/

/-- `single` takes two records out of three, although no request is left to be made. -/
theorem single_at_hand {first second : Record} {records : List Record} (can : σ.Readable r)
    (ceased : (σ.session.result r).isStreaming = false)
    (hand : (σ.session.result r).buffer = first :: second :: records) :
    Op.exec (single peer.recorded r) σ =
      (.error .manyRecords, (σ.keeping r (second :: records)).keeping r records) := by
  have can' := State.readable_keeping can (second :: records)
  have kept := State.result_keeping can (second :: records)
  have again : Op.exec (next peer.recorded r) (σ.keeping r (second :: records)) =
      (.ok (some second), (σ.keeping r (second :: records)).keeping r records) :=
    next_at_hand can' (by rw [kept])
  have still : ¬ (((σ.keeping r (second :: records)).keeping r records).session.result
      r).isStreaming = true := by
    rw [State.result_keeping can', kept]
    exact Bool.eq_false_iff.mp ceased
  rw [single, Op.exec_bind, next_at_hand can hand]
  dsimp only
  rw [if_pos (show (some first).isSome = true from rfl), Op.exec_bind, again]
  dsimp only
  rw [Op.exec_bind, discardRest, Op.exec_bind, Op.exec_theSession]
  dsimp only
  rw [if_neg still]
  rfl

/-- The same server with three records behind every query. -/
def threeRecords : Peer (List (List Value)) :=
  { twoRecords with
    answer := fun
      | .send _ _ (.run _), _ =>
        (.ok ⟨["n"], none, .empty⟩, [[.integer 1], [.integer 2], [.integer 3]])
      | request, left => twoRecords.answer request left
    backlog_lt := fun answered more => twoRecords.backlog_lt answered more }

/-- The query has fetched all three, and `single` leaves the third one of them. -/
theorem single_leaves_third :
    Singled threeRecords (fun _ => [[.integer 1], [.integer 2], [.integer 3]]) 0
        (play threeRecords {} [] [.run (.query { text := "RETURN n" }) none])
        (play threeRecords {} [] [.run (.query { text := "RETURN n" }) none,
          .access (.single 0)]) ∧
      State.surplus (fun _ => [[.integer 1], [.integer 2], [.integer 3]]) 0
        (play threeRecords {} [] [.run (.query { text := "RETURN n" }) none]) =
          [⟨["n"], [.integer 3]⟩] := by
  let queried := play threeRecords {} [] [.run (.query { text := "RETURN n" }) none]
  have used : (((Access.single 0).performTold threeRecords).exec queried).2.history =
      .used (.single 0) (.error .manyRecords) :: queried.history := by
    rw [Access.performTold, Act.exec_bind, Act.exec_run, Access.perform,
      single_at_hand rfl rfl rfl]
    rfl
  refine ⟨reached_single (reached_play threeRecords {} [] [.run _ none]) _ rfl ?_ ?_, rfl⟩
  · rw [used]
    refine ⟨trivial, trivial, trivial, fun d r lent opened => ?_, trivial, trivial, trivial,
      trivial, trivial⟩
    -- the pull, which asked for more than there was
    cases lent
    exact ⟨rfl, Bool.false_ne_true.elim, fun left => absurd rfl left⟩
  · exact ⟨[_], used, fun e he => List.mem_singleton.mp he ▸ rfl⟩

end GraphSession
