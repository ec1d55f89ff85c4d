import GraphSession.Bookmarks.Basic
import GraphSession.Proofs.Scanning

/-!
  Bookmarks that are put together and taken apart.

  Bookmarks are a set with one of its members in mind, the latest.  The set obeys the laws of sets,
  and it has one list, in the order of the bytes that its members are written in.  The latest is not
  part of the set: two equal values may have different ones, and what is written does not tell it.
  But whichever way a value was made, its latest is one of its members (`Made.remembers`), and a
  union goes by the same rule for it whether it is built at once or member by member.
-/

namespace GraphSession

/-! ## The order of the bytes -/

namespace Text

/-- The bytes of a text in UTF-8. -/
def bytes (text : String) : List UInt8 := text.toUTF8.data.toList

theorem bytes_eq_flatMap (text : String) :
    bytes text = text.toList.flatMap String.utf8EncodeChar := by
  show text.toByteArray.data.toList = _
  rw [← String.utf8Encode_toList, List.utf8Encode, List.toList_data_toByteArray]

/-- The first byte decides, and the others if it is the same. -/
theorem byte_lt_byte {m n : Nat} {as bs : List UInt8} (fits : n < 256) (le : m ≤ n)
    (others : m = n → as < bs) : UInt8.ofNat m :: as < UInt8.ofNat n :: bs := by
  rw [List.cons_lt_cons_iff]
  rcases Nat.lt_or_eq_of_le le with lt | same
  · left
    rw [UInt8.lt_iff_toNat_lt, UInt8.toNat_ofNat_of_lt' fits,
      UInt8.toNat_ofNat_of_lt' (Nat.lt_trans lt fits)]
    exact lt
  · exact .inr ⟨congrArg UInt8.ofNat same, others same⟩

/-- The lower of two characters has the lower bytes, whatever follows them. -/
theorem utf8EncodeChar_lt {c d : Char} (below : c < d) (cs ds : List UInt8) :
    String.utf8EncodeChar c ++ cs < String.utf8EncodeChar d ++ ds := by
  have below : c.val.toNat < d.val.toNat := below
  have limit : d.val.toNat < 0x110000 := by
    rcases d.valid with low | high <;> omega
  unfold String.utf8EncodeChar
  dsimp only
  generalize c.val.toNat = m at *
  generalize d.val.toNat = n at *
  -- the lower one has no more bytes; with fewer its first byte is lower, and with as many the bytes
  -- are the digits of the code point to base 64
  split_ifs <;> simp only [List.cons_append, List.nil_append] <;>
    repeat first | omega | refine byte_lt_byte (by omega) (by omega) fun same => ?_

/-- Texts in the order of their characters are in the order of their bytes. -/
theorem bytes_lt_bytes {x y : String} (below : x < y) : bytes x < bytes y := by
  rw [String.lt_iff_toList_lt] at below
  rw [bytes_eq_flatMap, bytes_eq_flatMap]
  generalize x.toList = cs at *
  generalize y.toList = ds at *
  induction cs generalizing ds with
  | nil =>
    cases ds with
    | nil => exact absurd below (List.not_lt_nil _)
    | cons d ds =>
      rw [List.flatMap_cons, List.flatMap_nil]
      cases encoded : String.utf8EncodeChar d with
      | nil => exact absurd encoded String.utf8EncodeChar_ne_nil
      | cons b bs => exact List.nil_lt_cons _ _
  | cons c cs ih =>
    cases ds with
    | nil => exact absurd below (List.not_lt_nil _)
    | cons d ds =>
      rw [List.flatMap_cons, List.flatMap_cons]
      rcases List.cons_lt_cons_iff.mp below with lower | ⟨rfl, rest⟩
      · exact utf8EncodeChar_lt lower _ _
      · exact List.append_left_lt (ih ds rest)

end Text

namespace Bookmarks

variable {a b : Bookmarks}

/-! ## Sets -/

/-- Equality is that of the members. -/
theorem beq_iff : (a == b) = true ↔ ∀ x, x ∈ a.tokens ↔ x ∈ b.tokens := by
  show (a.tokens == b.tokens) = true ↔ _
  rw [beq_iff_eq]
  constructor
  · intro same x
    rw [same]
  · exact TokenSet.ext

theorem union_assoc (a b c : Bookmarks) : (a.union b).union c = a.union (b.union c) := by
  have tokens : (a.tokens.union b.tokens).union c.tokens =
      a.tokens.union (b.tokens.union c.tokens) :=
    TokenSet.ext fun x => by simp only [TokenSet.mem_union, or_assoc]
  unfold union
  rw [tokens, Option.or_assoc]

theorem union_comm (a b : Bookmarks) : (a.union b == b.union a) = true :=
  beq_iff.mpr fun x => by simp only [union, TokenSet.mem_union, or_comm]

theorem union_self (a : Bookmarks) : a.union a = a := by
  have tokens : a.tokens.union a.tokens = a.tokens :=
    TokenSet.ext fun x => by rw [TokenSet.mem_union, or_self]
  unfold union
  rw [tokens, Option.or_self]

theorem union_empty (a : Bookmarks) : a.union empty = a := by
  have tokens : a.tokens.union TokenSet.empty = a.tokens := rfl
  unfold union empty
  rw [tokens, Option.none_or]

theorem empty_union (a : Bookmarks) : empty.union a = a := by
  have tokens : TokenSet.empty.union a.tokens = a.tokens :=
    TokenSet.ext fun x => by simp
  unfold union empty
  rw [tokens, Option.or_none]

/-- To take in the members of another value one by one, and then its latest if it knows one, is the
    union of the two, with its latest. -/
theorem extend_eq_union (a b : Bookmarks) : a.extend b = a.union b := by
  unfold extend union
  cases b.latest with
  | none => rfl
  | some x => rfl

theorem difference_union (a b : Bookmarks) :
    ((a.difference b).union b == a.union b) = true := by
  rw [beq_iff]
  intro x
  simp only [union, difference, TokenSet.mem_union, TokenSet.mem_difference]
  by_cases taken : x ∈ b.tokens <;> simp [taken]

/-! ## The list -/

theorem toList_nodup (a : Bookmarks) : a.toList.Nodup :=
  a.tokens.ascending.imp fun below => ne_of_lt below

theorem toList_bytes_ascend (a : Bookmarks) :
    a.toList.Pairwise fun x y => Text.bytes x < Text.bytes y :=
  a.tokens.ascending.imp Text.bytes_lt_bytes

/-- What is written is the list. -/
theorem parse?_toJsonText (a : Bookmarks) :
    Json.parse? a.toJsonText = some (.list (a.toList.map .string)) := by
  have scans : Json.Scans ('[' :: [','].intercalate (a.toList.map fun x =>
      Text.jsonChars x.toList) ++ [']']) (Json.list (a.toList.map .string)).tokens := by
    rw [Json.tokens_list, List.map_map]
    exact Json.scans_list fun x _ => Json.scans_string x
  have flat : Json.itemsDepth (a.toList.map .string) ≤ 0 :=
    Json.itemsDepth_le.mpr (List.forall_mem_map.mpr fun x _ => le_rfl)
  have depth : (Json.list (a.toList.map .string)).depth ≤ Json.Reader.depthLimit := by
    rw [Json.depth, Nat.le_zero.mp flat]
    decide
  rw [toJsonText, Json.parse?_of_scans scans, if_pos depth]

/-- A list of strings is read as the set of these strings. -/
theorem ofJsonText?_of_strings {text : String} {values : List String}
    (parsed : Json.parse? text = some (.list (values.map .string))) :
    ofJsonText? text = some ⟨.ofList values, none⟩ := by
  rw [ofJsonText?, parsed]
  dsimp only
  rw [List.mapM_map]
  show Option.map _ (values.mapM fun x => pure (id x)) = _
  rw [List.mapM_pure, List.map_id]
  rfl

/-- What is written is read as the same set. -/
theorem ofJsonText?_toJsonText (a : Bookmarks) :
    ofJsonText? a.toJsonText = some ⟨a.tokens, none⟩ := by
  have tokens : TokenSet.ofList a.toList = a.tokens :=
    TokenSet.ext fun x => TokenSet.mem_ofList
  rw [ofJsonText?_of_strings a.parse?_toJsonText, tokens]

/-! ## The latest -/

/-- The latest, if known, is a member. -/
def Remembers (a : Bookmarks) : Prop := ∀ x, a.latest = some x → x ∈ a.tokens

theorem remembers_of_unknown (unknown : a.latest = none) : a.Remembers := by
  intro x known
  rw [unknown] at known
  cases known

theorem remembers_ofList (values : List String) : (ofList values).Remembers :=
  fun _ last => TokenSet.mem_ofList.mpr (List.mem_of_getLast? last)

/-- What is read from a text has no latest. -/
theorem remembers_of_text {text : String} (read : ofJsonText? text = some a) : a.Remembers := by
  unfold ofJsonText? at read
  split at read
  · obtain ⟨values, -, rfl⟩ := Option.map_eq_some_iff.mp read
    exact remembers_of_unknown rfl
  · cases read

theorem Remembers.union (ha : a.Remembers) (hb : b.Remembers) : (a.union b).Remembers := by
  intro x latest
  rcases Option.or_eq_some_iff.mp latest with known | ⟨-, known⟩
  · exact TokenSet.mem_union.mpr (.inr (hb x known))
  · exact TokenSet.mem_union.mpr (.inl (ha x known))

/-- A latest that is taken away is forgotten. -/
theorem remembers_difference (a b : Bookmarks) : (a.difference b).Remembers := by
  intro x latest
  exact of_decide_eq_true (Option.filter_eq_some_iff.mp latest).2

/-- Bookmarks that are made by these operations, in any composition. -/
inductive Made : Bookmarks → Prop
  | empty : Made .empty
  | ofList (values : List String) : Made (.ofList values)
  | read {text : String} {a : Bookmarks} : ofJsonText? text = some a → Made a
  | union {a b : Bookmarks} : Made a → Made b → Made (a.union b)
  | extend {a b : Bookmarks} : Made a → Made b → Made (a.extend b)
  | difference {a b : Bookmarks} : Made a → Made b → Made (a.difference b)

theorem Made.remembers (made : a.Made) : a.Remembers := by
  induction made with
  | empty => exact remembers_of_unknown rfl
  | ofList values => exact remembers_ofList values
  | read read => exact remembers_of_text read
  | union _ _ ha hb => exact ha.union hb
  | extend _ _ ha hb =>
    rw [extend_eq_union]
    exact ha.union hb
  | difference => exact remembers_difference _ _

/-- **Bookmarks in any composition.**  The latest is a member, if it is known.  The members have one
    list, each once and in the order of its bytes, and this list is what is written.  Unions are
    associative, idempotent and have the empty set as identity, all of it with the latest, and are
    commutative as sets.  Taking in member by member is the union.  What was taken away is back in
    the union.  What is written is read as an equal value. -/
theorem made_lawful (a b c : Bookmarks) (made : a.Made) :
    (∀ x, a.latest = some x → a.contains x = true) ∧
    a.toList.Nodup ∧ a.toList.Pairwise (fun x y => Text.bytes x < Text.bytes y) ∧
    Json.parse? a.toJsonText = some (.list (a.toList.map .string)) ∧
    (a.union b).union c = a.union (b.union c) ∧
    (a.union b == b.union a) = true ∧
    a.union a = a ∧ empty.union a = a ∧ a.union empty = a ∧
    a.extend b = a.union b ∧
    ((a.difference b).union b == a.union b) = true ∧
    ∃ read, ofJsonText? a.toJsonText = some read ∧ (read == a) = true := by
  refine ⟨?_, a.toList_nodup, a.toList_bytes_ascend, a.parse?_toJsonText, union_assoc a b c,
    union_comm a b, union_self a, empty_union a, union_empty a, extend_eq_union a b,
    difference_union a b, ⟨a.tokens, none⟩, a.ofJsonText?_toJsonText, ?_⟩
  · intro x latest
    exact decide_eq_true (made.remembers x latest)
  · exact beq_iff.mpr fun x => Iff.rfl

/-- What is left of some bookmarks, and one more that was read from a text. -/
def gathered : Bookmarks :=
  ((ofList ["b", "a", "b"]).difference (singleton "a")).extend ⟨(singleton "é").tokens, none⟩

theorem gathered_made : gathered.Made :=
  ((Made.ofList _).difference (.ofList _)).extend (.read (singleton "é").ofJsonText?_toJsonText)

/-- The latest that is left stays the latest, since the text did not tell of another one. -/
theorem gathered_lawful : gathered.latest = some "b" ∧ gathered.contains "b" = true ∧
    gathered.toList = ["b", "é"] ∧
    Json.parse? gathered.toJsonText = some (.list [.string "b", .string "é"]) := by
  obtain ⟨latest, -, -, written, -⟩ := made_lawful gathered empty empty gathered_made
  exact ⟨rfl, latest "b" rfl, rfl, written⟩

end Bookmarks

end GraphSession
