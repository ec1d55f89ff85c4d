/-!
  Named values.

  Parameters, metadata and map values are finite maps from names to values.  A map is the list of
  its entries in ascending order of the names (the order of code points, which is also the order of
  the names' UTF-8 bytes), each name once.  `place` puts an entry where it belongs, and everything
  else that is done with a map goes through it or leaves entries out, so a map stays one.
-/

namespace GraphSession

/-- The names of a list of entries ascend, so each is there once. -/
def Fields.Ascends {α : Type} (entries : List (String × α)) : Prop :=
  entries.Pairwise fun a b => a.1 < b.1

/-- A finite map from names to values. -/
structure Fields (α : Type) where
  entries : List (String × α)
  ascends : Fields.Ascends entries

namespace Fields

variable {α : Type}

instance (entries : List (String × α)) : Decidable (Ascends entries) :=
  inferInstanceAs (Decidable (entries.Pairwise fun a b => a.1 < b.1))

/-- The map without names. -/
def empty : Fields α := ⟨[], .nil⟩

instance : Inhabited (Fields α) := ⟨empty⟩

/-- Whether there are no names. -/
def isEmpty (fields : Fields α) : Bool := fields.entries.isEmpty

/-- The value under a name. -/
def get? (fields : Fields α) (name : String) : Option α :=
  fields.entries.lookup name

/-- Puts an entry into its place in an ascending list, instead of one with the same name. -/
def place (name : String) (value : α) : List (String × α) → List (String × α)
  | [] => [(name, value)]
  | (key, old) :: rest =>
    if name < key then (name, value) :: (key, old) :: rest
    else if name = key then (name, value) :: rest
    else (key, old) :: place name value rest

theorem mem_place {entry : String × α} {name : String} {value : α} {entries : List (String × α)}
    (mem : entry ∈ place name value entries) : entry = (name, value) ∨ entry ∈ entries := by
  induction entries with
  | nil => exact .inl (List.mem_singleton.mp mem)
  | cons head rest ih =>
    obtain ⟨key, old⟩ := head
    rw [place] at mem
    split at mem
    · exact List.mem_cons.mp mem
    · split at mem
      · exact (List.mem_cons.mp mem).imp_right (List.mem_cons_of_mem _)
      · rcases List.mem_cons.mp mem with rfl | mem
        · exact .inr List.mem_cons_self
        · exact (ih mem).imp_right (List.mem_cons_of_mem _)

theorem ascends_place {entries : List (String × α)} (h : Ascends entries) (name : String)
    (value : α) : Ascends (place name value entries) := by
  induction entries with
  | nil => exact List.pairwise_singleton _ _
  | cons head rest ih =>
    obtain ⟨key, old⟩ := head
    obtain ⟨above, rest_ascends⟩ := List.pairwise_cons.mp h
    rw [place]
    split
    · next below =>
      refine List.pairwise_cons.mpr ⟨fun entry mem => ?_, h⟩
      rcases List.mem_cons.mp mem with rfl | mem
      · exact below
      · exact String.lt_trans below (above entry mem)
    · split
      · next same => exact List.pairwise_cons.mpr ⟨same ▸ above, rest_ascends⟩
      · next notBelow apart =>
        refine List.pairwise_cons.mpr ⟨fun entry mem => ?_, ih rest_ascends⟩
        rcases mem_place mem with rfl | mem
        · exact Std.lt_of_le_of_ne (String.not_lt.mp notBelow) (Ne.symm apart)
        · exact above entry mem

/-- The map with `value` under `name`, whatever was there before. -/
def insert (name : String) (value : α) (fields : Fields α) : Fields α :=
  ⟨place name value fields.entries, ascends_place fields.ascends name value⟩

/-- The map without `name`. -/
def erase (name : String) (fields : Fields α) : Fields α :=
  ⟨fields.entries.filter fun entry => entry.1 ≠ name, List.Pairwise.filter _ fields.ascends⟩

/-- The map with the entries of a list put in one after the other. -/
def insertAll (entries : List (String × α)) (fields : Fields α) : Fields α :=
  entries.foldl (fun fields entry => insert entry.1 entry.2 fields) fields

/-- The map with the entries of a list; of several values under one name the last stays. -/
def ofList (entries : List (String × α)) : Fields α := insertAll entries empty

/-- Both maps together; where both have a name, the value of `upper` stays. -/
def merge (lower upper : Fields α) : Fields α := insertAll upper.entries lower

/-- The first entry decides for its own name and for no other. -/
theorem lookup_cons (key name : String) (value : α) (rest : List (String × α)) :
    ((key, value) :: rest).lookup name = if name = key then some value else rest.lookup name := by
  rw [List.lookup_cons]
  by_cases h : name = key
  · simp [h]
  · simp [h, beq_eq_false_iff_ne.mpr h]

theorem lookup_place (name other : String) (value : α) (entries : List (String × α)) :
    (place name value entries).lookup other =
      if other = name then some value else entries.lookup other := by
  induction entries with
  | nil => simp [place, lookup_cons]
  | cons head rest ih =>
    obtain ⟨key, old⟩ := head
    rw [place]
    split
    · simp only [lookup_cons]
    · split
      · -- the name was there: its value is replaced
        next eq => subst eq; by_cases h : other = name <;> simp [lookup_cons, h]
      · next ne =>
        rw [lookup_cons, lookup_cons, ih]
        by_cases h : other = key
        · have : other ≠ name := fun e => ne (e.symm.trans h)
          rw [if_pos h, if_neg this, if_pos h]
        · simp [h]

theorem get?_empty (name : String) : (empty : Fields α).get? name = none := rfl

/-- A name that was just inserted is found with its value, any other name as before. -/
theorem get?_insert (name other : String) (value : α) (fields : Fields α) :
    (insert name value fields).get? other =
      if other = name then some value else fields.get? other :=
  lookup_place name other value fields.entries

end Fields

end GraphSession
