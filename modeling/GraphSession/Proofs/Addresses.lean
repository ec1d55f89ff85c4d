import GraphSession.Address
import GraphSession.Proofs.Numerals

/-!
  How an address may be written.

  There are two ways: a host alone, which has no colon then and gets the default port, and a host, a
  colon and a numeral of the port.  `Writes` lists them and mentions no reader.  A host may have
  colons of its own; since no numeral has one, the last colon of a text is the one in front of the
  port, which is where the reader splits.  So the reader takes exactly the texts that are written in
  one of the two ways, and refuses all others.
-/

namespace GraphSession.ServerAddress

/-! ## Numerals of a port -/

/-- Digits that stand for a number, with any zeros in front. -/
structure IsDecimal (ds : List Char) (n : Nat) : Prop where
  nonempty : ds ≠ []
  digits : ∀ d ∈ ds, d.isDigit = true
  value : Nat.ofDigitChars 10 ds 0 = n

/-- A numeral of a port: digits, or a plus sign and digits. -/
def Spells (cs : List Char) (port : UInt16) : Prop :=
  ∃ ds, IsDecimal ds port.toNat ∧ (cs = ds ∨ cs = '+' :: ds)

variable {cs ds : List Char} {n : Nat} {port : UInt16}

theorem foldl_digits (ds : List Char) (init : Nat) :
    ds.foldl (fun n c => n * 10 + (c.toNat - 48)) init = Nat.ofDigitChars 10 ds init := by
  induction ds generalizing init with
  | nil => rfl
  | cons d ds ih => rw [List.foldl_cons, ih, Nat.ofDigitChars_cons, Nat.mul_comm]; rfl

theorem digitsValue?_eq_some_iff : digitsValue? ds = some n ↔ IsDecimal ds n := by
  unfold digitsValue?
  rw [foldl_digits]
  split
  · next improper =>
    rw [Bool.or_eq_true, List.isEmpty_iff, Bool.not_eq_true', List.all_eq_false] at improper
    constructor
    · intro none
      cases none
    · rintro ⟨nonempty, digits, -⟩
      rcases improper with empty | ⟨d, mem, other⟩
      · exact absurd empty nonempty
      · exact absurd (digits d mem) other
  · next proper =>
    rw [Bool.or_eq_true, not_or, List.isEmpty_iff, Bool.not_eq_true', Bool.not_eq_false,
      List.all_eq_true] at proper
    constructor
    · intro value
      exact ⟨proper.1, proper.2, Option.some.inj value⟩
    · intro decimal
      exact congrArg some decimal.value

/-- What a number is as a port: itself, if it is small enough. -/
theorem bind_ofNat_eq_some_iff : ((digitsValue? ds).bind fun n =>
    if n < 65536 then some (UInt16.ofNat n) else none) = some port ↔
      IsDecimal ds port.toNat := by
  rw [Option.bind_eq_some_iff, ← digitsValue?_eq_some_iff]
  constructor
  · rintro ⟨n, value, small⟩
    split at small
    · next fits =>
      rw [value, ← Option.some.inj small, UInt16.toNat_ofNat_of_lt' fits]
    · cases small
  · intro value
    refine ⟨port.toNat, value, ?_⟩
    rw [if_pos port.toNat_lt, UInt16.ofNat_toNat]

/-- The plus sign is no digit. -/
theorem IsDecimal.head_ne_plus (h : IsDecimal ds n) (rest : List Char) : ds ≠ '+' :: rest := by
  rintro rfl
  exact absurd (h.digits '+' List.mem_cons_self) (by decide)

theorem port?_eq_some_iff : port? cs = some port ↔ Spells cs port := by
  unfold port?
  dsimp only
  split
  · next rest =>
    rw [bind_ofNat_eq_some_iff]
    constructor
    · intro decimal
      exact ⟨rest, decimal, .inr rfl⟩
    · rintro ⟨ds, decimal, same | same⟩
      · exact absurd same.symm (decimal.head_ne_plus rest)
      · rw [(List.cons.inj same).2]
        exact decimal
  · next signless =>
    rw [bind_ofNat_eq_some_iff]
    constructor
    · intro decimal
      exact ⟨cs, decimal, .inl rfl⟩
    · rintro ⟨ds, decimal, same | same⟩
      · rw [same]
        exact decimal
      · exact absurd same (signless ds)

theorem Spells.no_colon (h : Spells cs port) : ':' ∉ cs := by
  obtain ⟨ds, decimal, same⟩ := h
  have plain : ':' ∉ ds := fun mem => absurd (decimal.digits ':' mem) (by decide)
  rcases same with rfl | rfl
  · exact plain
  · intro mem
    rcases List.mem_cons.mp mem with same | mem
    · exact absurd same (by decide)
    · exact plain mem

/-- A port is spelled as it is written in decimal. -/
theorem spells_toString (port : UInt16) : Spells (toString port.toNat).toList port := by
  refine ⟨_, ⟨Json.toList_nat_ne_nil _, fun d mem => Json.isDigit_of_mem_nat mem, ?_⟩, .inl rfl⟩
  rw [Json.toList_toString_nat, Nat.ofDigitChars_ten_toDigits]

/-! ## The last colon -/

theorem bne_colon_of_no_colon (plain : ':' ∉ cs) : ∀ c ∈ cs.reverse, (c != ':') = true := by
  intro c mem
  rw [bne_iff_ne]
  rintro rfl
  exact plain (List.mem_reverse.mp mem)

theorem splitAtLastColon?_of_no_colon (plain : ':' ∉ cs) : splitAtLastColon? cs = none := by
  rw [splitAtLastColon?, List.dropWhile_eq_nil_iff.mpr (bne_colon_of_no_colon plain)]

/-- A text is split at a colon if no other one follows. -/
theorem splitAtLastColon?_append {before after : List Char} (plain : ':' ∉ after) :
    splitAtLastColon? (before ++ ':' :: after) = some (before, after) := by
  have all := bne_colon_of_no_colon plain
  have reversed : (before ++ ':' :: after).reverse = after.reverse ++ ':' :: before.reverse := by
    rw [List.reverse_append, List.reverse_cons, List.append_assoc, List.singleton_append]
  have stops : (':' != ':') = false := rfl
  rw [splitAtLastColon?, reversed, List.dropWhile_append_of_pos all,
    List.takeWhile_append_of_pos all, List.dropWhile_cons, List.takeWhile_cons, stops]
  simp

/-- A text has no colon, or one that no other follows. -/
theorem colon_cases (text : String) : ':' ∉ text.toList ∨
    ∃ host port, text = host ++ ":" ++ port ∧ ':' ∉ port.toList := by
  by_cases mem : ':' ∈ text.toList
  · right
    obtain ⟨after, before, split, plain⟩ :=
      List.eq_append_cons_of_mem (List.mem_reverse.mpr mem)
    refine ⟨String.ofList before.reverse, String.ofList after.reverse, ?_, ?_⟩
    · apply String.toList_injective
      rw [← List.reverse_reverse text.toList, split]
      simp
    · rw [String.toList_ofList, List.mem_reverse]
      exact plain
  · exact .inl mem

/-! ## The reader -/

theorem parse_of_no_colon {text : String} (plain : ':' ∉ text.toList) : parse text =
    if text = "" then .error (.invalidAddress text) else .ok ⟨text, defaultPort⟩ := by
  rw [parse, splitAtLastColon?_of_no_colon plain]
  simp only [String.isEmpty_iff]

theorem parse_of_colon {host port : String} (plain : ':' ∉ port.toList) :
    parse (host ++ ":" ++ port) =
      if host = "" then .error (.invalidAddress (host ++ ":" ++ port))
      else (port? port.toList).elim (.error (.invalidPort port)) fun p => .ok ⟨host, p⟩ := by
  have chars : (host ++ ":" ++ port).toList = host.toList ++ ':' :: port.toList := by
    rw [String.toList_append, String.toList_append, List.append_assoc]
    rfl
  rw [parse, chars, splitAtLastColon?_append plain]
  dsimp only
  rw [String.ofList_toList, String.ofList_toList]
  cases port? port.toList <;>
    simp only [List.isEmpty_iff, String.toList_eq_nil_iff, Option.elim_none, Option.elim_some]

/-- The ways to write an address. -/
inductive Writes : String → ServerAddress → Prop
  | bare {host : String} : host ≠ "" → ':' ∉ host.toList → Writes host ⟨host, defaultPort⟩
  | ported {host numeral : String} {port : UInt16} : host ≠ "" → Spells numeral.toList port →
    Writes (host ++ ":" ++ numeral) ⟨host, port⟩

variable {text : String} {a : ServerAddress}

theorem Writes.host_ne (h : Writes text a) : a.host ≠ "" := by
  cases h with
  | bare nonempty | ported nonempty => exact nonempty

theorem writes_text (nonempty : a.host ≠ "") : Writes a.text a :=
  .ported nonempty (spells_toString a.port)

/-- The reader takes what is written in one of the two ways. -/
theorem parse_eq_ok_iff : parse text = .ok a ↔ Writes text a := by
  constructor
  · intro parsed
    rcases colon_cases text with plain | ⟨host, port, rfl, plain⟩
    · rw [parse_of_no_colon plain] at parsed
      split at parsed
      · cases parsed
      · next nonempty =>
        cases parsed
        exact .bare nonempty plain
    · rw [parse_of_colon plain] at parsed
      split at parsed
      · cases parsed
      · next nonempty =>
        cases found : port? port.toList with
        | none =>
          rw [found] at parsed
          cases parsed
        | some p =>
          rw [found] at parsed
          cases parsed
          exact .ported nonempty (port?_eq_some_iff.mp found)
  · intro writes
    cases writes with
    | bare nonempty plain => rw [parse_of_no_colon plain, if_neg nonempty]
    | ported nonempty spells =>
      rw [parse_of_colon spells.no_colon, if_neg nonempty, port?_eq_some_iff.mpr spells]
      rfl

/-- The reader fails with no other fault than one of configuration. -/
theorem parse_cases (text : String) : (∃ a, parse text = .ok a) ∨
    ∃ message, parse text = .error (.plain .configuration message) := by
  rcases colon_cases text with plain | ⟨host, port, rfl, plain⟩
  · rw [parse_of_no_colon plain]
    split
    · exact .inr ⟨_, rfl⟩
    · exact .inl ⟨_, rfl⟩
  · rw [parse_of_colon plain]
    split
    · exact .inr ⟨_, rfl⟩
    · cases port? port.toList with
      | none => exact .inr ⟨_, rfl⟩
      | some p => exact .inl ⟨_, rfl⟩

/-- **Addresses in writing.**  An address with any host but the empty one and any port is read back
    from its own text.  Of every text an address is read exactly if the text writes that address in
    one of the two ways, and then the address has a host and is read back as well; any other text is
    refused as a fault of configuration. -/
theorem addresses_round_trip :
    (∀ a : ServerAddress, a.host ≠ "" → parse a.text = .ok a) ∧
    (∀ text a, parse text = .ok a ↔ Writes text a) ∧
    (∀ text a, parse text = .ok a → a.host ≠ "" ∧ parse a.text = .ok a) ∧
    ∀ text, (∀ a, ¬ Writes text a) →
      ∃ message, parse text = .error (.plain .configuration message) := by
  refine ⟨?_, fun text a => parse_eq_ok_iff, ?_, ?_⟩
  · intro a nonempty
    exact parse_eq_ok_iff.mpr (writes_text nonempty)
  · intro text a parsed
    have nonempty := (parse_eq_ok_iff.mp parsed).host_ne
    exact ⟨nonempty, parse_eq_ok_iff.mpr (writes_text nonempty)⟩
  · intro text unwritten
    rcases parse_cases text with ⟨a, parsed⟩ | refused
    · exact absurd (parse_eq_ok_iff.mp parsed) (unwritten a)
    · exact refused

/-- A host with a colon, with its port in decimal, with a longer numeral of it, and with one of no
    port. -/
theorem colon_round_trip : parse (⟨"a:b", 80⟩ : ServerAddress).text = .ok ⟨"a:b", 80⟩ ∧
    parse "a:b:+0080" = .ok ⟨"a:b", 80⟩ ∧
    ∃ message, parse "a:b:65536" = .error (.plain .configuration message) := by
  obtain ⟨written, reads, -, refuses⟩ := addresses_round_trip
  refine ⟨written ⟨"a:b", 80⟩ (by decide), (reads "a:b:+0080" ⟨"a:b", 80⟩).mpr ?_,
    refuses "a:b:65536" ?_⟩
  · have decimal : IsDecimal ['0', '0', '8', '0'] 80 :=
      ⟨by decide, List.all_eq_true.mp rfl, rfl⟩
    exact @Writes.ported "a:b" "+0080" 80 (by decide) ⟨_, decimal, .inr rfl⟩
  · intro a writes
    have unread : parse "a:b:65536" = .error (.invalidPort "65536") := rfl
    rw [← reads, unread] at writes
    cases writes

end GraphSession.ServerAddress
