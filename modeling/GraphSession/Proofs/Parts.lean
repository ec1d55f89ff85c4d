import GraphSession.Proofs.Settings
import GraphSession.Value.Basic

/-!
  The parts of a value.

  A value is made of lists and maps, down to what holds nothing more.  What is to hold of a value at
  every depth is said of its `parts`, and shown by one induction over what stands directly in it.
  A map that is made from a list has ascending names, whatever the list is, and is the list if the
  names ascend already.
-/

namespace GraphSession

/-! ## Maps of a list -/

namespace Fields

variable {α : Type} {entries : List (String × α)}

theorem mem_insertAll {e : String × α} {lower : Fields α}
    (mem : e ∈ (insertAll entries lower).entries) : e ∈ lower.entries ∨ e ∈ entries := by
  unfold insertAll at mem
  induction entries generalizing lower with
  | nil => exact .inl mem
  | cons head rest ih =>
    rcases ih mem with inserted | mem
    · rcases mem_place inserted with rfl | mem
      · exact .inr List.mem_cons_self
      · exact .inl mem
    · exact .inr (List.mem_cons_of_mem _ mem)

theorem mem_ofList {e : String × α} (mem : e ∈ (ofList entries).entries) : e ∈ entries :=
  (mem_insertAll mem).resolve_left List.not_mem_nil

theorem place_above {name : String} {value : α} (above : ∀ e ∈ entries, e.1 < name) :
    place name value entries = entries ++ [(name, value)] := by
  induction entries with
  | nil => rfl
  | cons head rest ih =>
    obtain ⟨below, above⟩ := List.forall_mem_cons.mp above
    rw [place, if_neg (lt_asymm below), if_neg below.ne', ih above, List.cons_append]

theorem entries_insertAll {lower : Fields α} (h : Ascends (lower.entries ++ entries)) :
    (insertAll entries lower).entries = lower.entries ++ entries := by
  unfold insertAll
  induction entries generalizing lower with
  | nil => rw [List.append_nil]; rfl
  | cons head rest ih =>
    have above : ∀ e ∈ lower.entries, e.1 < head.1 := fun e mem =>
      (List.pairwise_append.mp h).2.2 e mem head List.mem_cons_self
    have placed : (insert head.1 head.2 lower).entries = lower.entries ++ [head] :=
      place_above above
    rw [List.foldl_cons, ih, placed, List.append_assoc, List.singleton_append]
    rwa [placed, List.append_assoc]

/-- A list whose names ascend is that of a map. -/
theorem entries_ofList (h : Ascends entries) : (ofList entries).entries = entries :=
  entries_insertAll h

end Fields

namespace Value

/-! ## Parts of a value -/

/-- What stands directly in a value. -/
def children : Value → List Value
  | list items => items
  | map entries => entries.map Prod.snd
  | _ => []

theorem sizeOf_lt_of_mem_children {u v : Value} (mem : u ∈ v.children) : sizeOf u < sizeOf v := by
  cases v with
  | list items =>
    have mem : u ∈ items := mem
    have := List.sizeOf_lt_of_mem mem
    rw [list.sizeOf_spec]
    omega
  | map entries =>
    obtain ⟨e, inside, rfl⟩ := List.mem_map.mp mem
    have := List.sizeOf_lt_of_mem inside
    have : sizeOf e = 1 + sizeOf e.1 + sizeOf e.2 := Prod.mk.sizeOf_spec e.1 e.2
    rw [map.sizeOf_spec]
    omega
  | _ => cases mem

theorem induction {P : Value → Prop} (step : ∀ v, (∀ u ∈ v.children, P u) → P v) (v : Value) :
    P v :=
  step v fun u _ => induction step u
termination_by sizeOf v
decreasing_by exact sizeOf_lt_of_mem_children ‹_›

mutual

/-- A value and all that is in it, at every depth. -/
def parts : Value → List Value
  | list items => list items :: itemsParts items
  | map entries => map entries :: entriesParts entries
  | v => [v]

def itemsParts : List Value → List Value
  | [] => []
  | v :: vs => parts v ++ itemsParts vs

def entriesParts : List (String × Value) → List Value
  | [] => []
  | (_, v) :: rest => parts v ++ entriesParts rest

end

mutual

/-- How deep lists, maps and bytes nest. -/
def depth : Value → Nat
  | bytes _ => 1
  | list items => itemsDepth items + 1
  | map entries => entriesDepth entries + 1
  | _ => 0

def itemsDepth : List Value → Nat
  | [] => 0
  | v :: vs => max (depth v) (itemsDepth vs)

def entriesDepth : List (String × Value) → Nat
  | [] => 0
  | (_, v) :: rest => max (depth v) (entriesDepth rest)

end

theorem itemsDepth_le {vs : List Value} {n : Nat} :
    itemsDepth vs ≤ n ↔ ∀ v ∈ vs, v.depth ≤ n := by
  induction vs with
  | nil => simp [itemsDepth]
  | cons v vs ih => rw [itemsDepth, List.forall_mem_cons, Nat.max_le, ih]

theorem entriesDepth_le {es : List (String × Value)} {n : Nat} :
    entriesDepth es ≤ n ↔ ∀ e ∈ es, e.2.depth ≤ n := by
  induction es with
  | nil => simp [entriesDepth]
  | cons e es ih => rw [entriesDepth, List.forall_mem_cons, Nat.max_le, ih]

/-- Parts are a value and the parts of what stands directly in it. -/
theorem mem_parts {part v : Value} :
    part ∈ v.parts ↔ part = v ∨ ∃ u ∈ v.children, part ∈ u.parts := by
  have items (vs : List Value) : part ∈ itemsParts vs ↔ ∃ u ∈ vs, part ∈ u.parts := by
    induction vs with
    | nil => simp [itemsParts]
    | cons v vs ih => simp [itemsParts, ih]
  have entries (es : List (String × Value)) :
      part ∈ entriesParts es ↔ ∃ u ∈ es.map Prod.snd, part ∈ u.parts := by
    induction es with
    | nil => simp [entriesParts]
    | cons e es ih => simp [entriesParts, ih]
  cases v with
  | list vs => rw [parts, List.mem_cons, items, children]
  | map es => rw [parts, List.mem_cons, entries, children]
  | _ => simp [parts, children]

theorem self_mem_parts (v : Value) : v ∈ v.parts := mem_parts.mpr (.inl rfl)

/-- What holds of all parts holds of the value and of all parts of what stands in it. -/
theorem forall_parts {P : Value → Prop} {v : Value} :
    (∀ part ∈ v.parts, P part) ↔ P v ∧ ∀ u ∈ v.children, ∀ part ∈ u.parts, P part := by
  constructor
  · exact fun all => ⟨all v (self_mem_parts v), fun u mem part inside =>
      all part (mem_parts.mpr (.inr ⟨u, mem, inside⟩))⟩
  · rintro ⟨self, inside⟩ part mem
    rcases mem_parts.mp mem with rfl | ⟨u, child, mem⟩
    · exact self
    · exact inside u child part mem

end Value

end GraphSession
