import Mathlib.Logic.Basic
import GraphSession.Json.Reader

/-!
  What the reader reads.

  A document has its tokens, and the reader takes exactly these: it answers with a document if the
  text has the tokens of that document and containers nest at most one hundred and twenty-seven
  deep.  One direction is an induction on the document, under any containers that are still open.
  For the other each state of the reader has the tokens that were read to get there, and a step adds
  the token that it takes.
-/

namespace GraphSession.Json

/-- What stands directly in a document. -/
def children : Json → List Json
  | list items => items
  | map entries => entries.map Prod.snd
  | _ => []

theorem sizeOf_lt_of_mem_children {i j : Json} (mem : i ∈ j.children) : sizeOf i < sizeOf j := by
  cases j with
  | list items =>
    have mem : i ∈ items := mem
    have := List.sizeOf_lt_of_mem mem
    rw [list.sizeOf_spec]
    omega
  | map entries =>
    obtain ⟨e, inside, rfl⟩ := List.mem_map.mp mem
    have := List.sizeOf_lt_of_mem inside
    have : sizeOf e = 1 + sizeOf e.1 + sizeOf e.2 := Prod.mk.sizeOf_spec e.1 e.2
    rw [map.sizeOf_spec]
    omega
  | _ => cases mem

/-- What holds of a document if it holds of all that stands directly in it holds of all. -/
theorem induction {P : Json → Prop} (step : ∀ j, (∀ i ∈ j.children, P i) → P j) (j : Json) : P j :=
  step j fun i _ => induction step i
termination_by sizeOf j
decreasing_by exact sizeOf_lt_of_mem_children ‹_›

mutual

/-- The tokens of a document. -/
def tokens : Json → List Token
  | list items => .openList :: [.comma].intercalate (itemTokens items) ++ [.closeList]
  | map entries => .openMap :: [.comma].intercalate (entryTokens entries) ++ [.closeMap]
  | value => [.scalar value]

/-- The tokens of each item of a list. -/
def itemTokens : List Json → List (List Token)
  | [] => []
  | j :: js => tokens j :: itemTokens js

/-- The tokens of each entry of a map. -/
def entryTokens : List (String × Json) → List (List Token)
  | [] => []
  | (name, j) :: rest => (.scalar (.string name) :: .colon :: tokens j) :: entryTokens rest

end

mutual

/-- How deep lists and maps nest. -/
def depth : Json → Nat
  | list items => itemsDepth items + 1
  | map entries => entriesDepth entries + 1
  | _ => 0

def itemsDepth : List Json → Nat
  | [] => 0
  | j :: js => max (depth j) (itemsDepth js)

def entriesDepth : List (String × Json) → Nat
  | [] => 0
  | (_, j) :: rest => max (depth j) (entriesDepth rest)

end

/-- The document is neither a list nor a map. -/
def IsScalar : Json → Prop
  | list _ | map _ => False
  | _ => True

theorem tokens_scalar {j : Json} (h : j.IsScalar) : j.tokens = [.scalar j] := by
  cases j <;> first | rfl | cases h

theorem depth_scalar {j : Json} (h : j.IsScalar) : j.depth = 0 := by
  cases j <;> first | rfl | cases h

theorem itemTokens_eq (js : List Json) : itemTokens js = js.map tokens := by
  induction js with
  | nil => rfl
  | cons j js ih => rw [itemTokens, ih, List.map_cons]

/-- The tokens of an entry. -/
def entry (e : String × Json) : List Token := .scalar (.string e.1) :: .colon :: e.2.tokens

theorem entryTokens_eq (es : List (String × Json)) : entryTokens es = es.map entry := by
  induction es with
  | nil => rfl
  | cons e es ih => rw [entryTokens, ih, List.map_cons, entry]

theorem tokens_list (items : List Json) : (list items).tokens =
    .openList :: [.comma].intercalate (items.map tokens) ++ [.closeList] := by
  rw [tokens, itemTokens_eq]

theorem tokens_map (entries : List (String × Json)) : (map entries).tokens =
    .openMap :: [.comma].intercalate (entries.map entry) ++ [.closeMap] := by
  rw [tokens, entryTokens_eq]

theorem mem_intercalate {t sep : Token} {ts : List Token} {tss : List (List Token)} (mem : t ∈ ts)
    (inside : ts ∈ tss) : t ∈ [sep].intercalate tss := by
  induction tss with
  | nil => cases inside
  | cons us uss ih =>
    have first : t ∈ us → t ∈ [sep].intercalate (us :: uss) := fun mem => by
      cases uss with
      | nil => rwa [List.intercalate_singleton]
      | cons vs vss => simp [mem]
    rcases List.mem_cons.mp inside with rfl | inside
    · exact first mem
    · rw [List.intercalate_cons_of_ne_nil (List.ne_nil_of_mem inside)]
      exact List.mem_append_right _ (ih inside)

/-- The tokens of what stands in a document are among its own. -/
theorem mem_tokens_of_child {i j : Json} {t : Token} (child : i ∈ j.children) (mem : t ∈ i.tokens) :
    t ∈ j.tokens := by
  cases j with
  | list items =>
    have inside : i.tokens ∈ items.map tokens := List.mem_map_of_mem child
    rw [tokens_list]
    exact List.mem_cons_of_mem _ (List.mem_append_left _ (mem_intercalate mem inside))
  | map entries =>
    obtain ⟨e, inside, rfl⟩ := List.mem_map.mp child
    have mem : t ∈ entry e := List.mem_cons_of_mem _ (List.mem_cons_of_mem _ mem)
    rw [tokens_map]
    exact List.mem_cons_of_mem _
      (List.mem_append_left _ (mem_intercalate mem (List.mem_map_of_mem inside)))
  | _ => cases child

theorem itemsDepth_le {items : List Json} {n : Nat} :
    itemsDepth items ≤ n ↔ ∀ i ∈ items, i.depth ≤ n := by
  induction items with
  | nil => simp [itemsDepth]
  | cons j js ih => rw [itemsDepth, List.forall_mem_cons, Nat.max_le, ih]

theorem entriesDepth_le {entries : List (String × Json)} {n : Nat} :
    entriesDepth entries ≤ n ↔ ∀ e ∈ entries, e.2.depth ≤ n := by
  induction entries with
  | nil => simp [entriesDepth]
  | cons e es ih => rw [entriesDepth, List.forall_mem_cons, Nat.max_le, ih]

namespace Reader

variable {stack : List Open} {ts : List Token}

/-! ## A document is read -/

/-- The reader takes the tokens of a document: it completes the document, unless that nests too
    deep. -/
def Takes (j : Json) : Prop := ∀ (stack : List Open) (ts : List Token), stack.length ≤ depthLimit →
  run? (value stack) (j.tokens ++ ts) =
    if j.depth + stack.length ≤ depthLimit then run? (complete j stack) ts else none

theorem takes_scalar {j : Json} (scalar : j.IsScalar) : Takes j := by
  intro stack ts room
  rw [tokens_scalar scalar, depth_scalar scalar, if_pos (by omega)]
  rfl

theorem run?_items {read js : List Json} {j : Json} (takes : ∀ i ∈ j :: js, Takes i)
    (room : (Open.list read :: stack).length ≤ depthLimit) :
    run? (value (.list read :: stack))
        ([.comma].intercalate ((j :: js).map tokens) ++ .closeList :: ts) =
      if itemsDepth (j :: js) + (stack.length + 1) ≤ depthLimit
      then run? (complete (.list (read.reverse ++ j :: js)) stack) ts else none := by
  induction js generalizing j read with
  | nil =>
    rw [List.map_cons, List.map_nil, List.intercalate_singleton,
      takes j List.mem_cons_self _ _ room, List.length_cons, itemsDepth, itemsDepth, Nat.max_zero,
      complete, run?, step?, Option.bind_some, List.reverse_cons]
  | cons i js ih =>
    have more := @ih (j :: read) _ (fun i mem => takes i (List.mem_cons_of_mem _ mem)) room
    rw [List.map_cons, List.map_cons, List.intercalate_cons_cons, List.append_assoc,
      List.append_assoc, takes j List.mem_cons_self _ _ room, List.length_cons, complete,
      List.singleton_append, run?, step?, Option.bind_some, ← List.map_cons, more,
      List.reverse_cons, List.append_assoc, List.singleton_append, ← ite_and,
      itemsDepth.eq_def (j :: i :: js)]
    exact if_congr (by dsimp only; omega) rfl rfl

theorem run?_entries {read es : List (String × Json)} {e : String × Json}
    (takes : ∀ d ∈ e :: es, Takes d.2) (room : (Open.map read e.1 :: stack).length ≤ depthLimit) :
    run? (colon e.1 read stack)
        ([.comma].intercalate ((.colon :: e.2.tokens) :: es.map entry) ++ .closeMap :: ts) =
      if entriesDepth (e :: es) + (stack.length + 1) ≤ depthLimit
      then run? (complete (.map (read.reverse ++ e :: es)) stack) ts else none := by
  induction es generalizing e read with
  | nil =>
    rw [List.map_nil, List.intercalate_singleton, List.cons_append, run?, step?,
      Option.bind_some, takes e List.mem_cons_self _ _ room, List.length_cons, entriesDepth,
      entriesDepth, Nat.max_zero, complete, run?, step?, Option.bind_some, List.reverse_cons]
  | cons d es ih =>
    have more := @ih (e :: read) _ (fun d mem => takes d (List.mem_cons_of_mem _ mem)) room
    rw [List.map_cons, List.intercalate_cons_cons, List.append_assoc, List.append_assoc,
      List.cons_append, run?, step?, Option.bind_some, takes e List.mem_cons_self _ _ room,
      List.length_cons, complete, List.singleton_append, run?, step?, Option.bind_some, entry,
      List.intercalate_cons_cons_left, List.cons_append, run?, step?, Option.bind_some, more,
      List.reverse_cons, List.append_assoc, List.singleton_append, ← ite_and,
      entriesDepth.eq_def (e :: d :: es)]
    exact if_congr (by dsimp only; omega) rfl rfl

theorem run?_firstItem (j : Json) :
    run? (firstItem stack) (j.tokens ++ ts) =
      run? (value (.list [] :: stack)) (j.tokens ++ ts) := by
  cases j <;> rfl

theorem takes_list {items : List Json} (takes : ∀ i ∈ items, Takes i) : Takes (.list items) := by
  intro stack ts room
  rw [tokens_list, List.cons_append, List.cons_append, List.append_assoc, run?, step?, begin?,
    depth]
  by_cases deep : stack.length < depthLimit
  · rw [if_pos deep, Option.bind_some]
    cases items with
    | nil =>
      rw [itemsDepth, if_pos (by omega)]
      rfl
    | cons j js =>
      have more : run? (firstItem stack) ([.comma].intercalate ((j :: js).map tokens) ++
          .closeList :: ts) = run? (value (.list [] :: stack))
            ([.comma].intercalate ((j :: js).map tokens) ++ .closeList :: ts) := by
        cases js with
        | nil =>
          rw [List.map_cons, List.map_nil, List.intercalate_singleton]
          exact run?_firstItem j
        | cons i js =>
          rw [List.map_cons, List.map_cons, List.intercalate_cons_cons, List.append_assoc,
            List.append_assoc]
          exact run?_firstItem j
      rw [List.singleton_append, more, run?_items takes deep, List.reverse_nil, List.nil_append]
      exact if_congr (by omega) rfl rfl
  · rw [if_neg deep, if_neg (by omega)]
    rfl

theorem takes_map {entries : List (String × Json)} (takes : ∀ e ∈ entries, Takes e.2) :
    Takes (.map entries) := by
  intro stack ts room
  rw [tokens_map, List.cons_append, List.cons_append, List.append_assoc, run?, step?, begin?,
    depth]
  by_cases deep : stack.length < depthLimit
  · rw [if_pos deep, Option.bind_some]
    cases entries with
    | nil =>
      rw [entriesDepth, if_pos (by omega)]
      rfl
    | cons e es =>
      rw [List.singleton_append, List.map_cons, entry, List.intercalate_cons_cons_left,
        List.cons_append, run?, step?, Option.bind_some, run?_entries takes deep,
        List.reverse_nil, List.nil_append]
      exact if_congr (by omega) rfl rfl
  · rw [if_neg deep, if_neg (by omega)]
    rfl

/-- The reader takes the tokens of a document, whatever is open and whatever follows. -/
theorem takes (j : Json) : Takes j := by
  induction j using Json.induction with
  | step j takes =>
  cases j with
  | list items => exact takes_list takes
  | map entries => exact takes_map fun e mem => takes e.2 (List.mem_map_of_mem mem)
  | _ => exact takes_scalar trivial

/-! ## Only documents are read -/

/-- The tokens up to the place in a container where its next value stands. -/
def openTokens : Open → List Token
  | .list items => .openList :: items.reverse.flatMap fun j => j.tokens ++ [.comma]
  | .map entries key =>
    .openMap :: entries.reverse.flatMap (fun e => entry e ++ [.comma]) ++
      [.scalar (.string key), .colon]

/-- The tokens up to a place in containers that are still open. -/
def stackTokens : List Open → List Token
  | [] => []
  | o :: stack => stackTokens stack ++ openTokens o

/-- The tokens that were read when the reader is in this state. -/
def Has : Reader → List Token → Prop
  | value stack, ts => ts = stackTokens stack
  | firstItem stack, ts => ts = stackTokens (.list [] :: stack)
  | firstName stack, ts => ts = stackTokens stack ++ [.openMap]
  | name entries stack, ts => ts = stackTokens stack ++
      .openMap :: entries.reverse.flatMap fun e => entry e ++ [.comma]
  | colon key entries stack, ts => ts ++ [.colon] = stackTokens (.map entries key :: stack)
  | afterItem items stack, ts => ∃ j read, items = j :: read ∧
      ts = stackTokens (.list read :: stack) ++ j.tokens
  | afterEntry entries stack, ts => ∃ e read, entries = e :: read ∧
      ts = stackTokens (.map read e.1 :: stack) ++ e.2.tokens
  | finished j, ts => ts = j.tokens

theorem has_complete (j : Json) (stack : List Open) :
    (complete j stack).Has (stackTokens stack ++ j.tokens) := by
  cases stack with
  | nil => rfl
  | cons o stack =>
    cases o with
    | list items => exact ⟨j, items, rfl, rfl⟩
    | map entries key => exact ⟨(key, j), entries, rfl, rfl⟩

theorem intercalate_concat (xs : List (List Token)) (x : List Token) :
    [Token.comma].intercalate (xs ++ [x]) = xs.flatMap (· ++ [.comma]) ++ x := by
  induction xs with
  | nil => simp
  | cons y xs ih =>
    rw [List.cons_append, List.intercalate_cons_of_ne_nil (by simp), ih, List.flatMap_cons]
    simp only [List.append_assoc]

variable {state next : Reader} {t : Token} {ts : List Token}

theorem has_begin (begun : begin? stack t = some state)
    (scalar : ∀ j, t = .scalar j → j.IsScalar) : state.Has (stackTokens stack ++ [t]) := by
  cases t <;> simp only [begin?, Option.ite_none_right_eq_some, Option.some.injEq, reduceCtorEq]
    at begun
  case openList =>
    obtain ⟨-, rfl⟩ := begun
    rfl
  case openMap =>
    obtain ⟨-, rfl⟩ := begun
    rfl
  case scalar j =>
    subst begun
    rw [← tokens_scalar (scalar j rfl)]
    exact has_complete j stack

theorem tokens_list_concat (read : List Json) (j : Json) (stack : List Open) :
    stackTokens stack ++ (list (j :: read).reverse).tokens =
      stackTokens (.list read :: stack) ++ j.tokens ++ [.closeList] := by
  rw [tokens_list, List.reverse_cons, List.map_append, List.map_singleton, intercalate_concat,
    List.flatMap_map, stackTokens, openTokens]
  simp only [List.append_assoc, List.cons_append]

theorem tokens_map_concat (read : List (String × Json)) (e : String × Json) (stack : List Open) :
    stackTokens stack ++ (map (e :: read).reverse).tokens =
      stackTokens (.map read e.1 :: stack) ++ e.2.tokens ++ [.closeMap] := by
  rw [tokens_map, List.reverse_cons, List.map_append, List.map_singleton, intercalate_concat,
    List.flatMap_map, stackTokens, openTokens, entry.eq_def e]
  simp only [List.append_assoc, List.cons_append, List.nil_append]

/-- A step reads its token. -/
theorem has_step (has : state.Has ts) (steps : state.step? t = some next)
    (scalar : ∀ j, t = .scalar j → j.IsScalar) : next.Has (ts ++ [t]) := by
  cases state with
  | value stack =>
    obtain rfl : ts = stackTokens stack := has
    exact has_begin steps scalar
  | firstItem stack =>
    obtain rfl : ts = stackTokens (.list [] :: stack) := has
    cases t with
    | closeList =>
      cases steps
      have := has_complete (.list []) stack
      rw [tokens_list] at this
      simpa [stackTokens, openTokens] using this
    | _ => exact has_begin steps scalar
  | firstName stack =>
    obtain rfl : ts = stackTokens stack ++ [Token.openMap] := has
    cases t with
    | closeMap =>
      cases steps
      have := has_complete (.map []) stack
      rw [tokens_map] at this
      simpa using this
    | scalar j =>
      cases j with
      | string key =>
        cases steps
        simp [Has, stackTokens, openTokens]
      | _ => cases steps
    | _ => cases steps
  | name entries stack =>
    obtain rfl := has
    cases t with
    | scalar j =>
      cases j with
      | string key =>
        cases steps
        simp [Has, stackTokens, openTokens]
      | _ => cases steps
    | _ => cases steps
  | colon key entries stack =>
    cases t with
    | colon =>
      cases steps
      exact has
    | _ => cases steps
  | afterItem items stack =>
    obtain ⟨j, read, rfl, rfl⟩ := has
    cases t with
    | comma =>
      cases steps
      simp [Has, stackTokens, openTokens]
    | closeList =>
      cases steps
      rw [← tokens_list_concat]
      exact has_complete _ stack
    | _ => cases steps
  | afterEntry entries stack =>
    obtain ⟨e, read, rfl, rfl⟩ := has
    cases t with
    | comma =>
      cases steps
      simp [Has, stackTokens, openTokens, entry]
    | closeMap =>
      cases steps
      rw [← tokens_map_concat]
      exact has_complete _ stack
    | _ => cases steps
  | finished j => cases t <;> cases steps

theorem has_run {more : List Token} {j : Json} (has : state.Has ts)
    (runs : state.run? more = some j) (scalars : ∀ j, .scalar j ∈ more → j.IsScalar) :
    ts ++ more = j.tokens := by
  induction more generalizing state ts with
  | nil =>
    cases state with
    | finished j' =>
      cases runs
      rw [List.append_nil]
      exact has
    | _ => cases runs
  | cons t more ih =>
    obtain ⟨next, steps, runs⟩ := Option.bind_eq_some_iff.mp runs
    have := ih (has_step has steps fun j is => scalars j (is ▸ List.mem_cons_self)) runs
      fun j mem => scalars j (List.mem_cons_of_mem t mem)
    rwa [List.append_assoc, List.singleton_append] at this

/-- The tokens of a document are read, unless it nests too deep. -/
theorem run?_tokens (j : Json) :
    run? (value []) j.tokens = if j.depth ≤ depthLimit then some j else none := by
  have reads := takes j [] [] (Nat.zero_le _)
  rwa [List.append_nil, List.length_nil, Nat.add_zero] at reads

/-- Nothing is read but the tokens of documents that do not nest too deep. -/
theorem run?_eq_some_iff {j : Json} (scalars : ∀ i, .scalar i ∈ ts → i.IsScalar) :
    run? (value []) ts = some j ↔ ts = j.tokens ∧ j.depth ≤ depthLimit := by
  constructor
  · intro runs
    have start : (value []).Has [] := rfl
    obtain rfl : ts = j.tokens := has_run start runs scalars
    rw [run?_tokens, Option.ite_none_right_eq_some] at runs
    exact ⟨rfl, runs.1⟩
  · rintro ⟨rfl, fits⟩
    rw [run?_tokens, if_pos fits]

end Reader

end GraphSession.Json
