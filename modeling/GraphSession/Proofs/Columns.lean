import GraphSession.Proofs.Parts
import GraphSession.Record

/-!
  What a record tells of a key.

  Nothing keeps a server from sending a key twice, or a row that is longer or shorter than the list
  of its keys.  All that a record holds under a key is the key's `column`, and every reader goes by
  it: a look-up tells the first value of the column, and the map holds the last one.  So they agree
  on which keys there are, and on their values as long as no column begins and ends with different
  ones; the readers that convert go by the look-up.
-/

namespace GraphSession

/-! ## The values under a name -/

namespace Fields

variable {α : Type}

/-- All values under a name, in the order of the list. -/
def under (entries : List (String × α)) (name : String) : List α :=
  entries.filterMap fun entry => if entry.1 = name then some entry.2 else none

theorem under_cons_self (name : String) (value : α) (rest : List (String × α)) :
    under ((name, value) :: rest) name = value :: under rest name := by
  simp [under]

theorem under_cons_of_ne {key name : String} (apart : key ≠ name) (value : α)
    (rest : List (String × α)) : under ((key, value) :: rest) name = under rest name := by
  simp [under, apart]

/-- Of the values that are put in under a name the last one is found, and what was there before if
    there are none. -/
theorem get?_insertAll_last (lower : Fields α) (entries : List (String × α)) (name : String) :
    (insertAll entries lower).get? name = (under entries name).getLast?.or (lower.get? name) := by
  unfold insertAll
  induction entries generalizing lower with
  | nil => rfl
  | cons entry rest ih =>
    obtain ⟨key, value⟩ := entry
    rw [List.foldl_cons, ih, get?_insert]
    by_cases same : key = name
    · subst same
      rw [under_cons_self, if_pos rfl, List.getLast?_cons]
      cases (under rest key).getLast? <;> rfl
    · rw [under_cons_of_ne same, if_neg (Ne.symm same)]

theorem get?_ofList (entries : List (String × α)) (name : String) :
    (ofList entries).get? name = (under entries name).getLast? := by
  rw [ofList, get?_insertAll_last, get?_empty, Option.or_none]

/-- The value at the first position of a key is the first one under it: where the first position has
    no value, no later one has. -/
theorem head?_under_zip (keys : List String) (values : List α) (key : String) :
    (under (keys.zip values) key).head? = (keys.idxOf? key).bind (values[·]?) := by
  induction keys generalizing values with
  | nil => rfl
  | cons k keys ih =>
    rw [List.idxOf?_cons]
    cases values with
    | nil =>
      rw [List.zip_nil_right]
      simp [under]
    | cons v values =>
      rw [List.zip_cons_cons]
      by_cases same : k = key
      · subst same
        simp [under_cons_self]
      · rw [under_cons_of_ne same, ih, if_neg (by simpa using same)]
        cases keys.idxOf? key <;> simp

end Fields

/-! ## The readers of a record -/

namespace Record

variable {r : Record} {key : String}

/-- All values that a record holds under a key, in the order of the row. -/
def column (r : Record) (key : String) : List Value := Fields.under (r.keys.zip r.values) key

theorem get?_eq_head? (r : Record) (key : String) : r.get? key = (r.column key).head? :=
  (Fields.head?_under_zip r.keys r.values key).symm

theorem get?_toMap (r : Record) (key : String) : r.toMap.get? key = (r.column key).getLast? :=
  Fields.get?_ofList (r.keys.zip r.values) key

/-- The map lacks a key exactly if a look-up does. -/
theorem get?_toMap_eq_none_iff : r.toMap.get? key = none ↔ r.get? key = none := by
  rw [get?_toMap, get?_eq_head?, List.getLast?_eq_none_iff, List.head?_eq_none_iff]

/-- The two ends of a column are different values. -/
def Splits (column : List Value) : Prop :=
  ∃ first between last, column = first :: between ++ [last] ∧ first ≠ last

theorem getLast?_eq_head?_iff {column : List Value} :
    column.getLast? = column.head? ↔ ¬ Splits column := by
  constructor
  · rintro same ⟨first, between, last, rfl, apart⟩
    rw [List.getLast?_concat, List.cons_append, List.head?_cons] at same
    exact apart (Option.some.inj same).symm
  · intro whole
    rcases List.eq_nil_or_concat' column with rfl | ⟨front, last, rfl⟩
    · rfl
    · cases front with
      | nil => rfl
      | cons first between =>
        rw [List.getLast?_concat, List.cons_append, List.head?_cons]
        by_contra apart
        exact whole ⟨first, between, last, rfl, fun same => apart (congrArg some same.symm)⟩

/-- A value that does not convert is another fault than a missing key. -/
theorem cannotConvert_ne_keyNotFound (typeName target key : String) :
    Fault.cannotConvert typeName target ≠ Fault.keyNotFound key := by
  intro same
  have chars := congrArg String.toList (Fault.plain.inj same).2
  rw [String.toList_append, String.toList_append, String.toList_append, String.toList_append,
    String.toList_append] at chars
  have first : 'C' = 'K' := (List.cons.inj chars).1
  exact absurd first (by decide)

section

variable {α : Type} [OfValue α]

theorem convert_ne_keyNotFound (value : Value) (key : String) :
    value.convert α ≠ .error (.keyNotFound key) := by
  unfold Value.convert
  split
  · intro same
    cases same
  · intro same
    exact cannotConvert_ne_keyNotFound _ _ _ (Except.error.inj same)

/-- Reading a key as a member of a type fails with a missing key exactly if it is missing. -/
theorem getAs_eq_keyNotFound_iff :
    r.getAs α key = .error (.keyNotFound key) ↔ r.get? key = none := by
  unfold getAs
  cases found : r.get? key with
  | none => exact iff_of_true rfl rfl
  | some value => exact iff_of_false (convert_ne_keyNotFound value key) (Option.some_ne_none value)

/-- Reading an optional key tells nothing exactly if it is missing or null. -/
theorem getOptional_eq_none_iff :
    r.getOptional α key = .ok none ↔ r.get? key = none ∨ r.get? key = some .null := by
  unfold getOptional
  split
  · next missing => exact iff_of_true rfl (.inl missing)
  · next null => exact iff_of_true rfl (.inr null)
  · next value notNull found =>
    have converted : (value.convert α).map some ≠ .ok none := by
      cases value.convert α <;> intro same <;> cases same
    refine iff_of_false converted ?_
    rw [found]
    rintro (missing | null)
    · cases missing
    · exact notNull (Option.some.inj null)

end

/-- **What a record tells of a key.**  A record is any keys with any values.  A look-up tells the
    first value of a column, and the map holds the last one; so the two agree on whether a key is
    there, and on its value unless its column begins and ends with different ones.  To read a key as
    a member of a type fails with a missing key exactly if the map lacks it, and to read it as
    optional tells nothing exactly if the map lacks it or the first value is null. -/
theorem readers_tell_column (r : Record) (key : String) (α : Type) [OfValue α] :
    r.get? key = (r.column key).head? ∧
    r.toMap.get? key = (r.column key).getLast? ∧
    (r.toMap.get? key = none ↔ r.get? key = none) ∧
    (r.toMap.get? key = r.get? key ↔ ¬ Splits (r.column key)) ∧
    (r.getAs α key = .error (.keyNotFound key) ↔ r.toMap.get? key = none) ∧
    (r.getOptional α key = .ok none ↔
      r.toMap.get? key = none ∨ (r.column key).head? = some .null) := by
  refine ⟨get?_eq_head? r key, get?_toMap r key, get?_toMap_eq_none_iff, ?_, ?_, ?_⟩
  · rw [get?_eq_head?, get?_toMap]
    exact getLast?_eq_head?_iff
  · rw [getAs_eq_keyNotFound_iff, get?_toMap_eq_none_iff]
  · rw [getOptional_eq_none_iff, get?_toMap_eq_none_iff, ← get?_eq_head?]

/-- A key that is sent twice has two values. -/
example : (Record.mk ["n", "n"] [.null, .boolean true]).get? "n" = some .null ∧
    (Record.mk ["n", "n"] [.null, .boolean true]).toMap.get? "n" = some (.boolean true) :=
  ⟨rfl, rfl⟩

end Record

end GraphSession
