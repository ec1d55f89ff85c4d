import GraphSession.Query.Overrides

/-!
  What a query and its parameters are refused for.

  Before anything is sent, a query source and the reserved parameters are checked.  Whatever is
  wrong with them is a fault about an argument, never one about the session.
-/

namespace GraphSession

/-- The fault is about an argument: its value or its type. -/
def Fault.isArgumentError : Fault → Bool
  | plain .invalidArgument _ | plain .invalidType _ => true
  | _ => false

/-- Whatever is refused here is refused for an argument. -/
def RefusesArguments {α : Type} (outcome : Except Fault α) : Prop :=
  ∀ fault, outcome = .error fault → fault.isArgumentError = true

theorem RefusesArguments.ok {α : Type} (a : α) : RefusesArguments (.ok a) := nofun

theorem RefusesArguments.error {α : Type} {fault : Fault} (h : fault.isArgumentError = true) :
    RefusesArguments (.error fault : Except Fault α) := by
  intro f e
  cases e
  exact h

theorem RefusesArguments.map {α β : Type} {outcome : Except Fault α} (h : RefusesArguments outcome)
    (f : α → β) : RefusesArguments (outcome.map f) := by
  cases outcome with
  | ok a => exact .ok _
  | error fault => exact .error (h fault rfl)

namespace Query

theorem checked_refuses (q : Query) : RefusesArguments q.checked := by
  unfold checked
  split
  · exact .error rfl
  · exact .ok _

theorem ofSource_refuses (source : QuerySource) : RefusesArguments (ofSource source) := by
  unfold ofSource
  split
  · exact checked_refuses _
  · exact checked_refuses _
  · exact checked_refuses _
  · exact .error rfl
  · exact .error rfl
  · exact .error rfl

end Query

namespace Overrides

theorem timeoutOf_refuses (value : Value) : RefusesArguments (timeoutOf value) := by
  unfold timeoutOf
  split
  · exact .ok _
  · split
    · exact .error rfl
    · split
      · exact .error rfl
      · split
        · exact .ok _
        · exact .error rfl

theorem textOf_refuses (name : String) (value : Value) : RefusesArguments (textOf name value) := by
  unfold textOf
  split
  · exact .ok _
  · exact .ok _
  · exact .error rfl

/-- One more name is taken out. -/
theorem take_refuses {name : String} {set : Overrides → Value → Except Fault Overrides}
    (hset : ∀ o value, RefusesArguments (set o value)) {e : Extraction}
    (he : RefusesArguments e.1) : RefusesArguments (take name set e).1 := by
  obtain ⟨outcome, params⟩ := e
  cases outcome with
  | error fault => exact he
  | ok o =>
    simp only [take]
    split
    · exact .ok o
    · exact hset o _

/-- The reserved parameters are refused for their values and types. -/
theorem extract_refuses (params : Params) : RefusesArguments (extract params).1 := by
  refine take_refuses (fun o v => (textOf_refuses "database" v).map _) ?_
  refine take_refuses (fun o v => (textOf_refuses "db" v).map _) ?_
  refine take_refuses (fun o v => (textOf_refuses "impersonated_user" v).map _) ?_
  refine take_refuses (fun o v => (textOf_refuses "imp_user" v).map _) ?_
  exact take_refuses (fun o v => (timeoutOf_refuses v).map _) (.ok _)

end Overrides

end GraphSession
