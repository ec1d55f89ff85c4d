import Mathlib.Data.List.TakeWhile
import GraphSession.Decimal.Layout
import GraphSession.Proofs.Documents
import GraphSession.Proofs.Doubles

/-!
  Numerals.

  What is written of a whole number of sixty-four bits is read as that number: its digits have no
  zero in front, and taken up one by one they never leave sixty-four bits.  What is written of a
  finite double is a numeral too, though which double it is read as is another matter.  Whatever is
  read, it is a whole number of sixty-four bits or a finite double.
-/

namespace GraphSession.Json

/-- The number that a text is, if it is one. -/
def number? (cs : List Char) : Option Json := (Numeral.ofChars? cs).bind Numeral.toJson?

/-! ## Integers -/

namespace Numeral

variable {ds : List Char} {n : Nat}

theorem digits?_digits (digits : ∀ d ∈ ds, d.isDigit = true) (some' : ds ≠ []) :
    digits? ds = some (ds, []) := by
  rw [digits?, List.takeWhile_eq_self_iff.mpr digits, List.dropWhile_eq_nil_iff.mpr digits]
  cases ds with
  | nil => exact absurd rfl some'
  | cons d ds => rfl

theorem accumulate_ofDigitChars {init : Nat}
    (fits : Nat.ofDigitChars 10 ds init < significandLimit) :
    accumulate init ds = (Nat.ofDigitChars 10 ds init, []) := by
  induction ds generalizing init with
  | nil => rw [accumulate, Nat.ofDigitChars_nil]
  | cons d ds ih =>
    rw [Nat.ofDigitChars_cons, Nat.mul_comm] at fits ⊢
    have : init * 10 + digitValue d ≤ Nat.ofDigitChars 10 ds (init * 10 + digitValue d) := by
      rw [Nat.ofDigitChars_eq_ofDigitChars_zero]
      have := Nat.le_mul_of_pos_left (init * 10 + digitValue d)
        (Nat.pow_pos (n := ds.length) (by decide : 0 < 10))
      omega
    rw [accumulate, if_pos (Nat.lt_of_le_of_lt this fits)]
    exact ih fits

theorem accumulate_toDigits (fits : n < Nat.pow 2 64) :
    accumulate 0 (Nat.toDigits 10 n) = (n, []) := by
  rw [accumulate_ofDigitChars, Nat.ofDigitChars_ten_toDigits]
  rwa [Nat.ofDigitChars_ten_toDigits]

theorem isDigit_of_mem_toDigits {d : Char} (mem : d ∈ Nat.toDigits 10 n) : d.isDigit = true :=
  Nat.isDigit_of_mem_toDigits (by decide) (by decide) mem

theorem head?_toDigits (n : Nat) (positive : n ≠ 0) : (Nat.toDigits 10 n).head? ≠ some '0' := by
  induction n using Nat.strongRecOn with
  | ind n ih =>
    by_cases small : n < 10
    · have digit : ∀ n < 10, n ≠ 0 → some n.digitChar ≠ some '0' := by decide
      rw [Nat.toDigits_of_lt_base small, List.head?_cons]
      exact digit n small positive
    · have shorter := ih (n / 10) (by omega) (by omega)
      rw [Nat.toDigits_of_base_le (by decide) (by omega)]
      cases digits : Nat.toDigits 10 (n / 10) with
      | nil => exact absurd digits Nat.toDigits_ne_nil
      | cons d ds => rwa [digits] at shorter

/-- A zero stands in front only if there is nothing else. -/
theorem toDigits_proper (n : Nat) :
    ¬ ((Nat.toDigits 10 n).head? = some '0' ∧ (Nat.toDigits 10 n).length ≠ 1) := by
  rintro ⟨zero, long⟩
  by_cases positive : n = 0
  · exact long (positive ▸ rfl)
  · exact head?_toDigits n positive zero

theorem digits?_toDigits (n : Nat) :
    digits? (Nat.toDigits 10 n) = some (Nat.toDigits 10 n, []) :=
  digits?_digits (fun _ mem => isDigit_of_mem_toDigits mem) Nat.toDigits_ne_nil

theorem ofChars?_toDigits (n : Nat) :
    ofChars? (Nat.toDigits 10 n) = some ⟨false, Nat.toDigits 10 n, none, none⟩ := by
  unfold ofChars?
  split
  next minus ds sign =>
  split at sign
  · next ds' same =>
    have digit : '-'.isDigit = true := isDigit_of_mem_toDigits (same ▸ List.mem_cons_self)
    cases digit
  · cases sign
    simp [digits?_toDigits, toDigits_proper]

theorem ofChars?_neg_toDigits (n : Nat) :
    ofChars? ('-' :: Nat.toDigits 10 n) = some ⟨true, Nat.toDigits 10 n, none, none⟩ := by
  simp [ofChars?, digits?_toDigits, toDigits_proper]

end Numeral

theorem number?_nat {n : Nat} (fits : n < Nat.pow 2 64) :
    number? (toString n).toList = some (.integer n) := by
  rw [Nat.toString_eq_ofList_toDigits, String.toList_ofList, number?, Numeral.ofChars?_toDigits,
    Option.bind_some, Numeral.toJson?]
  dsimp only
  rw [Numeral.accumulate_toDigits fits]
  rfl

theorem number?_neg {n : Nat} (positive : n ≠ 0) (fits : n ≤ Nat.pow 2 63) :
    number? ('-' :: (toString n).toList) = some (.integer (-n)) := by
  rw [Nat.toString_eq_ofList_toDigits, String.toList_ofList, number?, Numeral.ofChars?_neg_toDigits,
    Option.bind_some, Numeral.toJson?]
  dsimp only
  have small : n < Nat.pow 2 64 := Nat.lt_of_le_of_lt fits (by decide)
  rw [Numeral.accumulate_toDigits small]
  simp [positive, fits]

theorem toList_negSucc (n : Nat) :
    (toString (Int.negSucc n)).toList = '-' :: (toString (n + 1)).toList := by
  show ("-" ++ toString (n + 1)).toList = _
  rw [String.toList_append]
  rfl

theorem number?_int {i : Int} (low : -2 ^ 63 ≤ i) (high : i < 2 ^ 64) :
    number? (toString i).toList = some (.integer i) := by
  cases i with
  | ofNat n =>
    have fits : n < Nat.pow 2 64 := by
      show n < 2 ^ 64
      exact Int.ofNat_lt.mp high
    exact number?_nat fits
  | negSucc n =>
    have fits : n + 1 ≤ Nat.pow 2 63 := by
      show n + 1 ≤ 2 ^ 63
      omega
    rw [toList_negSucc, number?_neg (Nat.succ_ne_zero n) fits]
    rfl

/-! ## Doubles -/

/-- Characters of numerals, a digit in front. -/
def IsMagnitude (cs : List Char) : Prop :=
  (∃ c, cs.head? = some c ∧ c.isDigit = true) ∧ ∀ c ∈ cs, Scan.isNumeralChar c = true

theorem isNumeralChar_of_isDigit {c : Char} (digit : c.isDigit = true) :
    Scan.isNumeralChar c = true := by
  simp [Scan.isNumeralChar, digit]

theorem IsMagnitude.append {cs ds : List Char} (h : IsMagnitude cs)
    (more : ∀ c ∈ ds, Scan.isNumeralChar c = true) : IsMagnitude (cs ++ ds) := by
  obtain ⟨⟨c, head, digit⟩, all⟩ := h
  refine ⟨⟨c, ?_, digit⟩, fun d mem => (List.mem_append.mp mem).elim (all d) (more d)⟩
  rw [List.head?_append, head]
  rfl

theorem isMagnitude_digits {ds : List Char} (digits : ∀ d ∈ ds, d.isDigit = true)
    (some' : ds ≠ []) : IsMagnitude ds := by
  cases ds with
  | nil => exact absurd rfl some'
  | cons d ds =>
    exact ⟨⟨d, rfl, digits d List.mem_cons_self⟩, fun c mem =>
      isNumeralChar_of_isDigit (digits c mem)⟩

theorem toList_toString_nat (n : Nat) : (toString n).toList = Nat.toDigits 10 n := by
  rw [Nat.toString_eq_ofList_toDigits, String.toList_ofList]

theorem isDigit_of_mem_nat {n : Nat} {c : Char} (mem : c ∈ (toString n).toList) :
    c.isDigit = true := by
  rw [toList_toString_nat] at mem
  exact Numeral.isDigit_of_mem_toDigits mem

theorem toList_nat_ne_nil (n : Nat) : (toString n).toList ≠ [] := by
  rw [toList_toString_nat]
  exact Nat.toDigits_ne_nil

theorem isMagnitude_nat (n : Nat) : IsMagnitude (toString n).toList :=
  isMagnitude_digits (fun _ mem => isDigit_of_mem_nat mem) (toList_nat_ne_nil n)

theorem isNumeralChar_zeros {n : Nat} {c : Char} (mem : c ∈ List.replicate n '0') :
    Scan.isNumeralChar c = true := by
  rw [List.eq_of_mem_replicate mem]
  rfl

theorem isMagnitude_positional (d : Decimal) : IsMagnitude (Decimal.positional d).toList := by
  have digits := fun c (mem : c ∈ (toString d.digits).toList) => isDigit_of_mem_nat mem
  have numeral := fun c mem => isNumeralChar_of_isDigit (digits c mem)
  unfold Decimal.positional
  dsimp only
  split
  · rw [String.toList_ofList]
    exact (isMagnitude_nat d.digits).append fun _ mem => isNumeralChar_zeros mem
  · split
    · next inside =>
      rw [String.toList_ofList]
      refine (isMagnitude_digits (fun c mem => digits c (List.mem_of_mem_take mem)) ?_).append ?_
      · rw [ne_eq, List.take_eq_nil_iff, not_or]
        exact ⟨by omega, toList_nat_ne_nil _⟩
      · refine List.forall_mem_cons.mpr ⟨rfl, fun c mem => numeral c (List.mem_of_mem_drop mem)⟩
    · rw [String.toList_ofList]
      refine IsMagnitude.append ⟨⟨'0', rfl, rfl⟩, ?_⟩ numeral
      exact List.forall_mem_cons.mpr ⟨rfl, List.forall_mem_cons.mpr ⟨rfl, fun _ mem =>
        isNumeralChar_zeros mem⟩⟩

theorem isMagnitude_scientific (d : Decimal) : IsMagnitude (Decimal.scientific d).toList := by
  have digits := fun c (mem : c ∈ (toString d.digits).toList) => isDigit_of_mem_nat mem
  have numeral := fun c mem => isNumeralChar_of_isDigit (digits c mem)
  unfold Decimal.scientific
  dsimp only
  simp only [String.toList_append, String.toList_ofList]
  have first : IsMagnitude ((toString d.digits).toList.take 1) := by
    refine isMagnitude_digits (fun c mem => digits c (List.mem_of_mem_take mem)) ?_
    rw [ne_eq, List.take_eq_nil_iff, not_or]
    exact ⟨by decide, toList_nat_ne_nil _⟩
  refine (((first.append ?_).append ?_).append ?_).append (isMagnitude_nat _).2
  · split
    · exact List.forall_mem_nil _
    · next rest =>
      exact List.forall_mem_cons.mpr ⟨rfl, fun c mem => numeral c (List.mem_of_mem_drop mem)⟩
  · exact List.all_eq_true.mp (by decide)
  · split <;> exact List.all_eq_true.mp (by decide)

/-- Characters of numerals, a digit or a minus in front. -/
def IsNumeral (cs : List Char) : Prop :=
  ∃ c ds, cs = c :: ds ∧ (c.isDigit = true ∨ c = '-') ∧ ∀ d ∈ ds, Scan.isNumeralChar d = true

theorem IsMagnitude.isNumeral {cs : List Char} (h : IsMagnitude cs) : IsNumeral cs := by
  obtain ⟨⟨c, head, digit⟩, all⟩ := h
  obtain ⟨ds, rfl⟩ := List.head?_eq_some_iff.mp head
  exact ⟨c, ds, rfl, .inl digit, fun d mem => all d (List.mem_cons_of_mem c mem)⟩

theorem IsMagnitude.isNumeral_neg {cs : List Char} (h : IsMagnitude cs) : IsNumeral ('-' :: cs) :=
  ⟨'-', cs, rfl, .inr rfl, h.2⟩

theorem isNumeral_int (i : Int) : IsNumeral (toString i).toList := by
  cases i with
  | ofNat n => exact (isMagnitude_nat n).isNumeral
  | negSucc n =>
    rw [toList_negSucc]
    exact (isMagnitude_nat (n + 1)).isNumeral_neg

/-- A finite double is written as a numeral. -/
theorem isNumeral_json? {x : Float} {text : String} (written : Decimal.json? x = some text) :
    IsNumeral text.toList := by
  obtain ⟨d, -, rfl⟩ := Option.map_eq_some_iff.mp written
  have signed {magnitude : String} (h : IsMagnitude magnitude.toList) :
      IsNumeral (Decimal.signed d magnitude).toList := by
    unfold Decimal.signed
    split
    · rw [String.toList_append]
      exact h.isNumeral_neg
    · exact h.isNumeral
  refine signed ?_
  split
  · exact ⟨⟨'0', rfl, rfl⟩, List.all_eq_true.mp (by decide)⟩
  · dsimp only
    split
    · exact isMagnitude_scientific _
    · split
      · rw [String.toList_append]
        exact (isMagnitude_positional _).append (List.all_eq_true.mp (by decide))
      · exact isMagnitude_positional _

/-! ## What is read -/

/-- A scalar as texts hold them: a number is an integer that fits in sixty-four bits with or without
    a sign, or a finite double. -/
def Sound : Json → Prop
  | integer i => -2 ^ 63 ≤ i ∧ i < 2 ^ 64
  | float x => x.isFinite = true
  | list _ | map _ => False
  | _ => True

theorem Sound.isScalar {j : Json} (h : j.Sound) : j.IsScalar := by
  cases j <;> trivial

theorem sound_toJson? {n : Numeral} {j : Json} (read : n.toJson? = some j) : Sound j := by
  have double (read : n.float?.map .float = some j) : Sound j := by
    obtain ⟨x, finite, rfl⟩ := Option.map_eq_some_iff.mp read
    exact Double.isFinite_float? finite
  obtain ⟨negative, whole, fraction, exponent⟩ := n
  have small : (Numeral.accumulate 0 whole).1 < Numeral.significandLimit :=
    Double.accumulate_lt (by decide)
  unfold Numeral.toJson? at read
  dsimp only at read
  split at read
  · split at read
    · next magnitude whole' =>
      rw [whole'] at small
      have small : magnitude < 2 ^ 64 := small
      split at read
      · cases read
        exact ⟨by omega, by omega⟩
      · split at read
        · cases read
          exact Double.isFinite_neg (Double.isFinite_ofNat small)
        · next inRange =>
          cases read
          simp only [Bool.or_eq_true, decide_eq_true_eq, not_or, not_lt] at inRange
          have : magnitude ≤ 2 ^ 63 := inRange.2
          exact ⟨by omega, by omega⟩
    · exact double read
  · exact double read


theorem sound_number? {cs : List Char} {j : Json} (read : number? cs = some j) : j.Sound := by
  obtain ⟨n, -, read⟩ := Option.bind_eq_some_iff.mp read
  exact sound_toJson? read

end GraphSession.Json
