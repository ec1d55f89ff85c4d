import GraphSession.Session.Reading

/-!
  How an action ends.

  `Op.Ends op s good bad` says that `op`, started in `s`, either succeeds with an answer and a state
  that `good` holds of, or fails with a fault and a state that `bad` holds of; `Act.Ends` says the
  same of an action that cannot fail.  Every building block of actions has a rule here that reduces
  a statement about it to statements about its parts, so that a proof about an action follows its
  text.  The two loops over batches have a rule each, whose premise is one turn of the loop.
-/

namespace GraphSession

variable {ω α β : Type}

/-- Fails with `fault`, after something that cannot fail. -/
def failAfter (act : Act ω Unit) (fault : Fault) : Op ω α := do
  act
  throw fault

/-- From `s`, the action ends with an answer and a state that `post` holds of. -/
def Act.Ends (act : Act ω α) (s : State ω) (post : α → State ω → Prop) : Prop :=
  post (act.exec s).1 (act.exec s).2

/-- From `s`, the action succeeds with `good` or fails with `bad`. -/
def Op.Ends (op : Op ω α) (s : State ω) (good : α → State ω → Prop)
    (bad : Fault → State ω → Prop) : Prop :=
  match op.exec s with
  | (.ok a, t) => good a t
  | (.error fault, t) => bad fault t

section Rules

variable {s : State ω} {post : α → State ω → Prop} {good : α → State ω → Prop}
  {bad : Fault → State ω → Prop}

/-! ## Consequence and conjunction -/

theorem Act.Ends.imp {act : Act ω α} {post' : α → State ω → Prop} (h : act.Ends s post)
    (himp : ∀ a t, post a t → post' a t) : act.Ends s post' :=
  himp _ _ h

theorem Act.Ends.and {act : Act ω α} {post' : α → State ω → Prop} (h : act.Ends s post)
    (h' : act.Ends s post') : act.Ends s fun a t => post a t ∧ post' a t :=
  ⟨h, h'⟩

theorem Op.Ends.imp {op : Op ω α} {good' : α → State ω → Prop} {bad' : Fault → State ω → Prop}
    (h : op.Ends s good bad) (hgood : ∀ a t, good a t → good' a t)
    (hbad : ∀ fault t, bad fault t → bad' fault t) : op.Ends s good' bad' := by
  unfold Op.Ends at *
  split at h
  · exact hgood _ _ h
  · exact hbad _ _ h

theorem Op.Ends.and {op : Op ω α} {good' : α → State ω → Prop} {bad' : Fault → State ω → Prop}
    (h : op.Ends s good bad) (h' : op.Ends s good' bad') :
    op.Ends s (fun a t => good a t ∧ good' a t) (fun fault t => bad fault t ∧ bad' fault t) := by
  unfold Op.Ends at *
  revert h h'
  rcases op.exec s with ⟨_ | _, _⟩ <;> exact fun h h' => ⟨h, h'⟩

theorem Op.ends_trivial (op : Op ω α) (s : State ω) :
    op.Ends s (fun _ _ => True) fun _ _ => True := by
  unfold Op.Ends
  split <;> trivial

/-- How it ends is what it comes to. -/
theorem Op.ends_exec (op : Op ω α) (s : State ω) :
    op.Ends s (fun a t => op.exec s = (.ok a, t)) fun fault t => op.exec s = (.error fault, t) := by
  unfold Op.Ends
  split
  · next e => exact e
  · next e => exact e

/-- What an action that succeeded ended with. -/
theorem Op.Ends.of_ok {op : Op ω α} {a : α} {t : State ω} (h : op.Ends s good bad)
    (e : op.exec s = (.ok a, t)) : good a t := by
  unfold Op.Ends at h
  rwa [e] at h

/-- What an action that failed ended with. -/
theorem Op.Ends.of_error {op : Op ω α} {fault : Fault} {t : State ω} (h : op.Ends s good bad)
    (e : op.exec s = (.error fault, t)) : bad fault t := by
  unfold Op.Ends at h
  rwa [e] at h

/-- What holds of the state in any case. -/
theorem Op.Ends.state {op : Op ω α} {post : State ω → Prop}
    (h : op.Ends s (fun _ => post) fun _ => post) : post (op.exec s).2 := by
  unfold Op.Ends at h
  split at h
  · next e => rw [e]; exact h
  · next e => rw [e]; exact h

/-! ## Actions that always succeed -/

theorem Act.ends_bind {x : Act ω β} {f : β → Act ω α} :
    (x >>= f : Act ω α).Ends s post ↔ x.Ends s fun b t => (f b).Ends t post :=
  Iff.rfl

theorem Act.ends_run {op : Op ω α} {post : Except Fault α → State ω → Prop} :
    Act.Ends op.run s post ↔
      op.Ends s (fun a => post (.ok a)) fun fault => post (.error fault) := by
  unfold Act.Ends Op.Ends
  rw [Act.exec_run]
  rcases op.exec s with ⟨_ | _, _⟩ <;> exact Iff.rfl

theorem Act.ends_theSession {post : Session → State ω → Prop} :
    (theSession : Act ω Session).Ends s post ↔ post s.session s :=
  Iff.rfl

theorem Act.ends_changeSession {f : Session → Session} {post : Unit → State ω → Prop} :
    (changeSession f : Act ω Unit).Ends s post ↔ post () { s with session := f s.session } :=
  Iff.rfl

/-! ## Actions that may fail -/

theorem Op.ends_pure {a : α} : (pure a : Op ω α).Ends s good bad ↔ good a s := Iff.rfl

theorem Op.ends_throw {fault : Fault} : (throw fault : Op ω α).Ends s good bad ↔ bad fault s :=
  Iff.rfl

theorem Op.ends_bind {x : Op ω β} {f : β → Op ω α} :
    (x >>= f : Op ω α).Ends s good bad ↔ x.Ends s (fun b t => (f b).Ends t good bad) bad := by
  unfold Op.Ends
  rw [Op.exec_bind]
  rcases x.exec s with ⟨_ | _, _⟩ <;> exact Iff.rfl

/-- An action that always succeeds, inside one that may fail. -/
theorem Op.ends_lift {x : Act ω α} : (liftM x : Op ω α).Ends s good bad ↔ x.Ends s good := Iff.rfl

theorem Op.ends_failAfter {act : Act ω Unit} {fault : Fault} :
    (failAfter act fault : Op ω α).Ends s good bad ↔ act.Ends s fun _ => bad fault :=
  Iff.rfl

theorem Op.ends_attempt {x : Op ω β} {good : Except Fault β → State ω → Prop} :
    (attempt x).Ends s good bad ↔
      x.Ends s (fun b => good (.ok b)) fun fault => good (.error fault) := by
  unfold Op.Ends
  rw [Op.exec_attempt]
  rcases x.exec s with ⟨_ | _, _⟩ <;> exact Iff.rfl

theorem Op.ends_settleOn {outcome : Except Fault α} :
    (settleOn outcome : Op ω α).Ends s good bad ↔
      (∀ a, outcome = .ok a → good a s) ∧ ∀ fault, outcome = .error fault → bad fault s := by
  unfold Op.Ends
  rw [Op.exec_settleOn]
  cases outcome <;> simp

/-- An action, an act that follows it in any case, and then the outcome of the action. -/
theorem Op.ends_attemptThen {x : Op ω α} {after : Act ω β} :
    (do let outcome ← attempt x; let _ ← liftM after; settleOn outcome : Op ω α).Ends s good bad ↔
      x.Ends s (fun a t => after.Ends t fun _ => good a) fun fault t =>
        after.Ends t fun _ => bad fault := by
  rw [Op.ends_bind, Op.ends_attempt]
  exact Iff.rfl

theorem Op.ends_failIf {fault : Option Fault} {good : Unit → State ω → Prop} :
    (failIf fault : Op ω Unit).Ends s good bad ↔
      (fault = none → good () s) ∧ ∀ f, fault = some f → bad f s := by
  cases fault with
  | none => simp [failIf, Op.ends_pure]
  | some f => simp [failIf, Op.ends_throw]

theorem Op.ends_theSession {good : Session → State ω → Prop} :
    (theSession : Op ω Session).Ends s good bad ↔ good s.session s :=
  Iff.rfl

theorem Op.ends_changeSession {f : Session → Session} {good : Unit → State ω → Prop} :
    (changeSession f : Op ω Unit).Ends s good bad ↔ good () { s with session := f s.session } :=
  Iff.rfl

theorem Op.ends_get {good : State ω → State ω → Prop} :
    (get : Op ω (State ω)).Ends s good bad ↔ good s s :=
  Iff.rfl

theorem Op.ends_modify {f : State ω → State ω} {good : Unit → State ω → Prop} :
    (modify f : Op ω Unit).Ends s good bad ↔ good () (f s) :=
  Iff.rfl

/-! ## Results and transactions -/

theorem Act.ends_changeResult {id : ResultId} {f : Result → Result}
    {post : Unit → State ω → Prop} :
    (changeResult id f : Act ω Unit).Ends s post ↔
      post () { s with session := s.session.setResult id (f (s.session.result id)) } :=
  Iff.rfl

theorem Op.ends_changeResult {id : ResultId} {f : Result → Result}
    {good : Unit → State ω → Prop} :
    (changeResult id f : Op ω Unit).Ends s good bad ↔
      good () { s with session := s.session.setResult id (f (s.session.result id)) } :=
  Iff.rfl

theorem Act.ends_changeTransaction {id : TransactionId} {f : Transaction → Transaction}
    {post : Unit → State ω → Prop} :
    (changeTransaction id f : Act ω Unit).Ends s post ↔
      post () { s with session := s.session.setTransaction id (f (s.session.transaction id)) } :=
  Iff.rfl

theorem Op.ends_changeTransaction {id : TransactionId} {f : Transaction → Transaction}
    {good : Unit → State ω → Prop} :
    (changeTransaction id f : Op ω Unit).Ends s good bad ↔
      good () { s with session := s.session.setTransaction id (f (s.session.transaction id)) } :=
  Iff.rfl

theorem Op.ends_addResult {r : Result} {good : ResultId → State ω → Prop} :
    (addResult r : Op ω ResultId).Ends s good bad ↔
      good s.session.nextResult
        { s with session := { s.session with results := s.session.results ++ [r] } } :=
  Iff.rfl

theorem Op.ends_addTransaction {t : Transaction} {good : TransactionId → State ω → Prop} :
    (addTransaction t : Op ω TransactionId).Ends s good bad ↔
      good s.session.nextTransaction
        { s with
          session := { s.session with transactions := s.session.transactions ++ [t] } } :=
  Iff.rfl

theorem Op.ends_checkUsable {id : ResultId} {good : Unit → State ω → Prop} :
    (checkUsable id : Op ω Unit).Ends s good bad ↔
      ((s.session.result id).unusable? = none → good () s) ∧
        ∀ fault, (s.session.result id).unusable? = some fault → bad fault s := by
  unfold checkUsable
  rw [Op.ends_bind, Op.ends_theSession]
  cases (s.session.result id).unusable? with
  | none => simp [Op.ends_pure]
  | some f => simp [Op.ends_throw]

end Rules

/-! ## The loops over batches -/

/-- A turn of the loop that fetches. -/
theorem fetchFrom_turn {peer : Peer ω} {id : ResultId} {hungry : Result → Bool} {s : State ω}
    (goesOn : ((s.session.result id).isStreaming && hungry (s.session.result id)) = true) :
    fetchFrom peer id hungry s = match Op.exec (fetch peer id) s with
      | (.ok true, t) => fetchFrom peer id hungry t
      | (.ok false, t) => (.ok (), t)
      | (.error fault, t) => (.error fault, t) := by
  rw [fetchFrom, if_pos goesOn]
  rcases Op.exec (fetch peer id) s with ⟨fault | (_ | _), t⟩ <;> rfl

/-- A turn of the loop that reads to the end. -/
theorem drainFrom_turn {peer : Peer ω} {id : ResultId} {read : List Record} {s : State ω}
    (goesOn : (s.session.result id).isStreaming = true) :
    drainFrom peer id read s = match Op.exec (fetch peer id) (s.emptied id) with
      | (.ok true, t) => drainFrom peer id (read ++ (s.session.result id).buffer) t
      | (.ok false, t) =>
        ((read ++ (s.session.result id).buffer ++ (t.session.result id).buffer, none), t.emptied id)
      | (.error fault, t) => ((read ++ (s.session.result id).buffer, some fault), t) := by
  rw [drainFrom, if_pos goesOn]
  rcases Op.exec (fetch peer id) (s.emptied id) with ⟨fault | (_ | _), t⟩ <;> rfl

/-- Nothing is fetched where nothing is streaming or nothing more is wanted. -/
theorem fetchFrom_enough {peer : Peer ω} {id : ResultId} {hungry : Result → Bool} {s : State ω}
    (enough : ((s.session.result id).isStreaming && hungry (s.session.result id)) = false) :
    fetchFrom peer id hungry s = (.ok (), s) := by
  rw [fetchFrom]
  exact if_neg (Bool.eq_false_iff.mp enough)

/-- Fetching while there is more and more is wanted: `inv` holds before each turn, and a turn comes
    only when more is wanted. -/
theorem fetchWhile_turns {peer : Peer ω} {id : ResultId} {hungry : Result → Bool} {s : State ω}
    {good : Unit → State ω → Prop} {bad : Fault → State ω → Prop} (inv : State ω → Prop)
    (start : inv s)
    (turn : ∀ t, inv t → (t.session.result id).isStreaming = true →
      hungry (t.session.result id) = true →
      (fetch peer id).Ends t (fun more u => if more then inv u else good () u) bad)
    (done : ∀ t, inv t →
      ((t.session.result id).isStreaming && hungry (t.session.result id)) = false → good () t) :
    (fetchWhile peer id hungry).Ends s good bad := by
  unfold Op.Ends
  rw [show Op.exec (fetchWhile peer id hungry) s = fetchFrom peer id hungry s from rfl]
  fun_induction fetchFrom peer id hungry s with
  | case1 s r more t e ih =>
    -- a batch came and there is more: the next turn
    obtain ⟨streaming, wanted⟩ := Bool.and_eq_true_iff.mp more
    exact ih ((turn s start streaming wanted).of_ok e)
  | case2 s r more t e =>
    obtain ⟨streaming, wanted⟩ := Bool.and_eq_true_iff.mp more
    simpa using (turn s start streaming wanted).of_ok e
  | case3 s r more fault t e =>
    obtain ⟨streaming, wanted⟩ := Bool.and_eq_true_iff.mp more
    exact (turn s start streaming wanted).of_error e
  | case4 s r more => exact done s start (by simpa using more)

/-- The same, where it does not matter whether more is wanted. -/
theorem fetchWhile_ends {peer : Peer ω} {id : ResultId} {hungry : Result → Bool} {s : State ω}
    {good : Unit → State ω → Prop} {bad : Fault → State ω → Prop} (inv : State ω → Prop)
    (start : inv s)
    (turn : ∀ t, inv t → (t.session.result id).isStreaming = true →
      (fetch peer id).Ends t (fun more u => if more then inv u else good () u) bad)
    (done : ∀ t, inv t →
      ((t.session.result id).isStreaming && hungry (t.session.result id)) = false → good () t) :
    (fetchWhile peer id hungry).Ends s good bad :=
  fetchWhile_turns inv start (fun t h streaming _ => turn t h streaming) done

/-- Reading to the end: `inv` holds before each turn, of what was read until then and of the state
    in which the records at hand are still there. -/
theorem drainFrom_ends {peer : Peer ω} {id : ResultId} {read : List Record} {s : State ω}
    (inv : List Record → State ω → Prop) (post : List Record × Option Fault → State ω → Prop)
    (start : inv read s)
    (turn : ∀ read t, inv read t → (t.session.result id).isStreaming = true →
      (fetch peer id).Ends (t.emptied id)
        (fun more u =>
          if more then inv (read ++ (t.session.result id).buffer) u
          else post (read ++ (t.session.result id).buffer ++ (u.session.result id).buffer, none)
            (u.emptied id))
        (fun fault u => post (read ++ (t.session.result id).buffer, some fault) u))
    (done : ∀ read t, inv read t → (t.session.result id).isStreaming = false →
      post (read ++ (t.session.result id).buffer, none) (t.emptied id)) :
    post (drainFrom peer id read s).1 (drainFrom peer id read s).2 := by
  fun_induction drainFrom peer id read s with
  | case1 read s r read' more t e ih => exact ih ((turn read s start more).of_ok e)
  | case2 read s r read' more t e => exact (turn read s start more).of_ok e
  | case3 read s r read' more fault t e => exact (turn read s start more).of_error e
  | case4 read s r read' more => exact done read s start (by simpa using more)

/-! ## What `single` decides -/

/-- What `single` makes of the first two records that are left. -/
def onlyRecord : Option Record → Option Record → Except Fault Record
  | some record, none => .ok record
  | none, _ => .error .noRecord
  | some _, some _ => .error .manyRecords

theorem onlyRecord_ne_noConnection {first second : Option Record} {fault : Fault}
    (h : onlyRecord first second = .error fault) : fault ≠ .noConnection := by
  rintro rfl
  rcases first with _ | _ <;> rcases second with _ | _ <;> cases h

theorem single_eq {peer : Peer ω} {id : ResultId} : single peer id = (do
    let first ← next peer id
    let second ← if first.isSome then next peer id else pure none
    discardRest peer id
    settleOn (onlyRecord first second)) := by
  refine bind_congr fun first => ?_
  cases first with
  | none => rfl
  | some record =>
    refine bind_congr fun second => bind_congr fun _ => ?_
    cases second <;> rfl

end GraphSession
