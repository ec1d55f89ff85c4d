/-!
  Sets of texts in ascending order.

  A set is the ascending list of its members, each once; the order is that of code points, which is
  also the order of the UTF-8 bytes.  Two sets with the same members are therefore equal
  (`TokenSet.ext`), and laws of the set operations follow from their membership lemmas.
-/

namespace GraphSession

/-- A finite set of texts. -/
structure TokenSet where
  toList : List String
  ascending : toList.Pairwise (· < ·)
  deriving DecidableEq

namespace TokenSet

instance : Membership String TokenSet := ⟨fun s x => x ∈ s.toList⟩
instance (x : String) (s : TokenSet) : Decidable (x ∈ s) :=
  inferInstanceAs (Decidable (x ∈ s.toList))

theorem mem_def {x : String} {s : TokenSet} : x ∈ s ↔ x ∈ s.toList := Iff.rfl

/-- The set without members. -/
def empty : TokenSet := ⟨[], .nil⟩

instance : Inhabited TokenSet := ⟨empty⟩

/-- Puts a text into its place in an ascending list. -/
def place (x : String) : List String → List String
  | [] => [x]
  | y :: ys => if x < y then x :: y :: ys else if x = y then y :: ys else y :: place x ys

theorem mem_place {x z : String} {l : List String} : z ∈ place x l ↔ z = x ∨ z ∈ l := by
  induction l with
  | nil => simp [place]
  | cons y ys ih =>
    simp only [place]
    split
    · simp
    · split
      · next eq => subst eq; simp
      · simp only [List.mem_cons, ih]
        constructor <;> rintro (h | h | h) <;> simp [h]

/-- Of two different texts one comes first. -/
theorem lt_of_not_lt_of_ne {x y : String} (h : ¬x < y) (hne : x ≠ y) : y < x := by
  have hle : y ≤ x := String.not_lt.mp h
  by_cases hlt : y < x
  · exact hlt
  · exact absurd (String.le_antisymm (String.not_lt.mp hlt) hle) hne

theorem pairwise_place {x : String} {l : List String} (h : l.Pairwise (· < ·)) :
    (place x l).Pairwise (· < ·) := by
  induction l with
  | nil => simp [place]
  | cons y ys ih =>
    obtain ⟨hy, hys⟩ := List.pairwise_cons.mp h
    simp only [place]
    split
    · next lt =>
      refine List.pairwise_cons.mpr ⟨?_, h⟩
      intro z hz
      rcases List.mem_cons.mp hz with rfl | hz
      · exact lt
      · exact String.lt_trans lt (hy z hz)
    · split
      · exact h
      · next nlt ne =>
        refine List.pairwise_cons.mpr ⟨?_, ih hys⟩
        intro z hz
        rcases mem_place.mp hz with rfl | hz
        · exact lt_of_not_lt_of_ne nlt ne
        · exact hy z hz

/-- The set with one more member. -/
def insert (x : String) (s : TokenSet) : TokenSet :=
  ⟨place x s.toList, pairwise_place s.ascending⟩

@[simp] theorem mem_insert {x z : String} {s : TokenSet} : z ∈ s.insert x ↔ z = x ∨ z ∈ s :=
  mem_place

@[simp] theorem not_mem_empty (x : String) : ¬x ∈ empty := List.not_mem_nil

/-- The members of both sets. -/
def union (a b : TokenSet) : TokenSet :=
  b.toList.foldl (fun s x => s.insert x) a

/-- The members of `a` that are not in `b`. -/
def difference (a b : TokenSet) : TokenSet :=
  ⟨a.toList.filter fun x => x ∉ b, a.ascending.filter _⟩

/-- The texts of a list as a set. -/
def ofList (l : List String) : TokenSet :=
  l.foldl (fun s x => s.insert x) empty

/-- The number of members. -/
def size (s : TokenSet) : Nat := s.toList.length

theorem mem_foldl_insert {z : String} (l : List String) (s : TokenSet) :
    z ∈ l.foldl (fun s x => s.insert x) s ↔ z ∈ s ∨ z ∈ l := by
  induction l generalizing s with
  | nil => simp
  | cons x xs ih =>
    simp only [List.foldl_cons, ih, mem_insert, List.mem_cons]
    constructor
    · rintro ((h | h) | h) <;> simp [h]
    · rintro (h | h | h) <;> simp [h]

@[simp] theorem mem_union {z : String} {a b : TokenSet} : z ∈ a.union b ↔ z ∈ a ∨ z ∈ b :=
  mem_foldl_insert b.toList a

@[simp] theorem mem_difference {z : String} {a b : TokenSet} :
    z ∈ a.difference b ↔ z ∈ a ∧ z ∉ b := by
  simp [mem_def, difference]

@[simp] theorem mem_ofList {z : String} {l : List String} : z ∈ ofList l ↔ z ∈ l := by
  simp [ofList, mem_foldl_insert]

/-- Two ascending lists with the same members are equal. -/
theorem eq_of_mem_iff {l m : List String} (hl : l.Pairwise (· < ·)) (hm : m.Pairwise (· < ·))
    (h : ∀ x, x ∈ l ↔ x ∈ m) : l = m := by
  induction l generalizing m with
  | nil =>
    cases m with
    | nil => rfl
    | cons y ys => exact absurd ((h y).mpr (by simp)) (by simp)
  | cons x xs ih =>
    cases m with
    | nil => exact absurd ((h x).mp (by simp)) (by simp)
    | cons y ys =>
      obtain ⟨hx, hxs⟩ := List.pairwise_cons.mp hl
      obtain ⟨hy, hys⟩ := List.pairwise_cons.mp hm
      -- the two heads are each the least member
      have heads : x = y := by
        rcases List.mem_cons.mp ((h x).mp (by simp)) with e | hxy
        · exact e
        · rcases List.mem_cons.mp ((h y).mpr (by simp)) with e | hyx
          · exact e.symm
          · exact absurd (hy x hxy) (String.lt_asymm (hx y hyx))
      subst heads
      refine congrArg _ (ih hxs hys fun z => ?_)
      have hz := h z
      simp only [List.mem_cons] at hz
      constructor
      · intro hzx
        rcases hz.mp (.inr hzx) with rfl | hzy
        · exact absurd (hx z hzx) (String.lt_irrefl z)
        · exact hzy
      · intro hzy
        rcases hz.mpr (.inr hzy) with rfl | hzx
        · exact absurd (hy z hzy) (String.lt_irrefl z)
        · exact hzx

/-- Sets with the same members are equal. -/
theorem ext {a b : TokenSet} (h : ∀ x, x ∈ a ↔ x ∈ b) : a = b := by
  cases a with
  | mk l hl =>
    cases b with
    | mk m hm =>
      have : l = m := eq_of_mem_iff hl hm h
      subst this
      rfl

end TokenSet

end GraphSession
