import GraphSession.Proofs.Logic

/-!
  What an action does from state to state, whatever it comes to.

  A relation between states that a state has to itself, and that holds over two steps when it holds
  over each, is a frame.  `Act.Obeys R` and `Op.Obeys R` say that an action leads from every state
  only to states in that relation.  The rules of this module follow the text of an action; what is
  particular to a relation is said of the elementary actions alone.
-/

namespace GraphSession

variable {ω α β : Type}

/-- A relation that holds over any number of steps when it holds over each. -/
class IsFrame (R : State ω → State ω → Prop) : Prop where
  rest : ∀ s, R s s
  andThen : ∀ {s t u}, R s t → R t u → R s u

/-- The action leads from every state to one in this relation. -/
def Act.Obeys (R : State ω → State ω → Prop) (act : Act ω α) : Prop :=
  ∀ s, R s (act.exec s).2

/-- The action leads from every state to one in this relation, also when it fails. -/
def Op.Obeys (R : State ω → State ω → Prop) (op : Op ω α) : Prop :=
  ∀ s, R s (op.exec s).2

variable {R : State ω → State ω → Prop} [IsFrame R] {s t : State ω}

/-! ## Actions that always succeed -/

/-- An action after another one, from a state that matters. -/
theorem Act.obeys_bind {x : Act ω β} {f : β → Act ω α} (hx : R s (x.exec s).2)
    (hf : ∀ b t, x.exec s = (b, t) → R t ((f b).exec t).2) : R s ((x >>= f).exec s).2 :=
  IsFrame.andThen hx (hf _ _ rfl)

namespace Act.Obeys

theorem pure (a : α) : Act.Obeys R (Pure.pure a) := fun s => IsFrame.rest s

theorem bind {x : Act ω β} {f : β → Act ω α} (hx : x.Obeys R) (hf : ∀ b, (f b).Obeys R) :
    (x >>= f).Obeys R :=
  fun s => Act.obeys_bind (hx s) fun b t _ => hf b t

omit [IsFrame R] in
theorem run {op : Op ω α} (h : op.Obeys R) : Act.Obeys R op.run := h

theorem theSession : Act.Obeys R GraphSession.theSession := fun s => IsFrame.rest s

end Act.Obeys

omit [IsFrame R] in
theorem Act.Obeys.ends {act : Act ω α} (h : act.Obeys R) (s : State ω) :
    act.Ends s fun _ => R s :=
  h s

/-! ## Actions that may fail -/

omit [IsFrame R] in
/-- What holds in any case of the state that an action ends with. -/
theorem Op.ends_of_exec {op : Op ω α} (h : R s (op.exec t).2) :
    op.Ends t (fun _ => R s) fun _ => R s := by
  unfold Op.Ends
  split
  · next e => rwa [e] at h
  · next e => rwa [e] at h

/-- As `Act.obeys_bind`; a failure of the first action is the end. -/
theorem Op.obeys_bind {x : Op ω β} {f : β → Op ω α} (hx : R s (x.exec s).2)
    (hf : ∀ b t, x.exec s = (.ok b, t) → R t ((f b).exec t).2) : R s ((x >>= f).exec s).2 := by
  rw [Op.exec_bind]
  rcases h : x.exec s with ⟨fault | b, t⟩
  · rw [h] at hx
    exact hx
  · rw [h] at hx
    exact IsFrame.andThen hx (hf b t h)

/-- What follows on a state that was reached, is reached as well. -/
theorem Op.ends_after {op : Op ω α} (h : R s t) (hop : R t (op.exec t).2) :
    op.Ends t (fun _ => R s) fun _ => R s :=
  Op.ends_of_exec (IsFrame.andThen h hop)

namespace Op.Obeys

omit [IsFrame R] in
theorem ends {op : Op ω α} (h : op.Obeys R) (s : State ω) :
    op.Ends s (fun _ => R s) fun _ => R s :=
  Op.ends_of_exec (h s)

theorem pure (a : α) : Op.Obeys R (Pure.pure a) := fun s => IsFrame.rest s

theorem throw (fault : Fault) : Op.Obeys (α := α) R (MonadExcept.throw fault) :=
  fun s => IsFrame.rest s

theorem bind {x : Op ω β} {f : β → Op ω α} (hx : x.Obeys R) (hf : ∀ b, (f b).Obeys R) :
    (x >>= f).Obeys R :=
  fun s => Op.obeys_bind (hx s) fun b t _ => hf b t

omit [IsFrame R] in
theorem lift {x : Act ω α} (h : x.Obeys R) : Op.Obeys R (liftM x : Op ω α) := h

omit [IsFrame R] in
theorem attempt {x : Op ω α} (h : x.Obeys R) : (GraphSession.attempt x).Obeys R := h

omit [IsFrame R] in
theorem failAfter {act : Act ω Unit} (h : act.Obeys R) (fault : Fault) :
    Op.Obeys R (GraphSession.failAfter act fault : Op ω α) := h

theorem settleOn (outcome : Except Fault α) : Op.Obeys R (GraphSession.settleOn outcome) :=
  fun s => IsFrame.rest s

theorem failIf (fault : Option Fault) : Op.Obeys R (GraphSession.failIf fault) := by
  cases fault with
  | none => exact pure ()
  | some f => exact throw f

theorem theSession : Op.Obeys R GraphSession.theSession := fun s => IsFrame.rest s

/-- The same action for one result after the other. -/
theorem forM {ids : List ResultId} {f : ResultId → Op ω Unit} (h : ∀ id, (f id).Obeys R) :
    Op.Obeys R (ids.forM f) := by
  induction ids with
  | nil => exact pure ()
  | cons id rest ih => exact bind (h id) fun _ => ih

end Op.Obeys

/-! ## Reading -/

/-- What a frame must allow for reading: fetching from a result that is streaming, dropping what is
    left of one, and keeping count of what was handed out. -/
structure Reads (peer : Peer ω) (R : State ω → State ω → Prop) : Prop where
  fetch : ∀ id (s : State ω), (s.session.result id).isStreaming = true →
    R s ((GraphSession.fetch peer id).exec s).2
  discardRest : ∀ id, (GraphSession.discardRest peer id).Obeys R
  tend : ∀ (s : State ω) id (r : Result), r.origin = (s.session.result id).origin →
    r.startMetadata = (s.session.result id).startMetadata →
    r.stream = (s.session.result id).stream → r.outOfScope = (s.session.result id).outOfScope →
    R s { s with session := s.session.setResult id r }

namespace Reads

variable {peer : Peer ω}

theorem fetchWhile (k : Reads peer R) (id : ResultId) (hungry : Result → Bool) :
    (GraphSession.fetchWhile peer id hungry).Obeys R := by
  intro s
  refine Op.Ends.state (fetchWhile_ends (R s) (IsFrame.rest s) (fun t path streaming => ?_)
    fun t path _ => path)
  refine (Op.ends_of_exec (k.fetch id t streaming)).imp (fun more u here => ?_)
    fun _ _ here => IsFrame.andThen path here
  cases more <;> exact IsFrame.andThen path here

theorem bufferAll (k : Reads peer R) (id : ResultId) : (GraphSession.bufferAll peer id).Obeys R :=
  k.fetchWhile id _

theorem checkUsable (id : ResultId) : Op.Obeys R (GraphSession.checkUsable id) := by
  refine .bind .theSession fun s => ?_
  split
  · exact .throw _
  · exact .pure _

theorem peek (k : Reads peer R) (id : ResultId) : (GraphSession.peek peer id).Obeys R :=
  .bind (checkUsable id) fun _ => .bind (k.fetchWhile id _) fun _ => .bind .theSession fun _ =>
    .pure _

theorem next (k : Reads peer R) (id : ResultId) : (GraphSession.next peer id).Obeys R :=
  .bind (k.peek id) fun _ => .bind (fun s => k.tend s id _ rfl rfl rfl rfl) fun _ => .pure _

theorem drain (k : Reads peer R) (id : ResultId) : (GraphSession.drain peer id).Obeys R := by
  refine .bind .theSession fun s => ?_
  split
  · exact .pure _
  · intro s
    have emptied (t : State ω) : R t (t.emptied id) := k.tend t id _ rfl rfl rfl rfl
    refine drainFrom_ends (fun _ => R s) (fun _ => R s) (IsFrame.rest s)
      (fun read t path streaming => ?_) fun read t path _ => IsFrame.andThen path (emptied t)
    have streaming : ((t.emptied id).session.result id).isStreaming = true :=
      (State.emptied_isStreaming t id id).trans streaming
    have path : R s (t.emptied id) := IsFrame.andThen path (emptied t)
    refine (Op.ends_of_exec (k.fetch id _ streaming)).imp (fun more u here => ?_)
      fun _ _ here => IsFrame.andThen path here
    cases more with
    | true => exact IsFrame.andThen path here
    | false => exact IsFrame.andThen (IsFrame.andThen path here) (emptied u)

theorem collect (k : Reads peer R) (id : ResultId) : (GraphSession.collect peer id).Obeys R := by
  refine .bind (.lift (k.drain id)) fun outcome => ?_
  split
  · exact .pure _
  · exact .throw _

theorem single (k : Reads peer R) (id : ResultId) : (GraphSession.single peer id).Obeys R := by
  rw [single_eq]
  have verdict (first second : Option Record) : Op.Obeys R (do
      GraphSession.discardRest peer id
      settleOn (onlyRecord first second) : Op ω Record) :=
    .bind (k.discardRest id) fun _ => .settleOn _
  refine .bind (k.next id) fun first => ?_
  dsimp only
  split
  · exact .bind (k.next id) fun second => verdict first second
  · exact .bind (.pure none) fun second => verdict first second

theorem consume (k : Reads peer R) (id : ResultId) : (GraphSession.consume peer id).Obeys R := by
  refine .bind .theSession fun s => .bind (.failIf _) fun _ => ?_
  split
  · exact .pure _
  · refine .bind (k.discardRest id) fun _ =>
      .bind (fun s => k.tend s id _ rfl rfl rfl rfl) fun _ => .bind .theSession fun s => ?_
    split
    · exact .pure _
    · exact .throw _
    · exact .throw _

end Reads

end GraphSession
