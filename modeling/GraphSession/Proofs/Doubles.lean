import Mathlib
import GraphSession.Decimal.Layout
import GraphSession.Json.Numeral

/-!
  Doubles that numerals are read as.

  A numeral is read by scaling, and no double that comes of it is infinite.  Only sizes matter for
  that, so a double is taken as its mantissa and its exponent of two.  Rounding shifts a mantissa
  twice: to fifty-three digits, and once more if that carried.  From this follow two bounds.  A
  number that is small enough fits (`fits_round`); and a number with enough digits keeps fifty-three
  of them, with an exponent that is known up to one (`normal_round`).  The second gives the naturals
  and the powers of ten.  With these a quotient fits because every power of ten but the first is at
  least eight, which leaves room for both carries, and a product is looked at before it is taken.
-/

namespace GraphSession.Double

open Float.Model Float.Model.UnpackedFloat

/-! ## Rounding -/

theorem shift_mantissa (em : ExtendedMantissa) (k : Nat) :
    (em >>> k).mantissa = em.mantissa / 2 ^ k := by
  show (k.repeat ExtendedMantissa.shiftRightOne em).mantissa = _
  induction k with
  | zero => rw [Nat.repeat, Nat.pow_zero, Nat.div_one]
  | succ k ih =>
    rw [Nat.repeat, ExtendedMantissa.shiftRightOne, ih, Nat.div_div_eq_div_mul, Nat.pow_succ]

theorem roundedMantissa_bounds (em : ExtendedMantissa) :
    em.mantissa ≤ em.roundedMantissa ∧ em.roundedMantissa ≤ em.mantissa + 1 := by
  obtain ⟨m, round, sticky⟩ := em
  cases round <;> cases sticky <;>
    simp only [ExtendedMantissa.roundedMantissa, ExtendedMantissa.accuracy,
      Accuracy.roundToNearestEven] <;> omega

/-- The exponent that the format wants for `m * 2 ^ e`. -/
def target (m : Nat) (e : Int) : Int := max ((m.log2 : Int) + e - 52) (-1074)

theorem target_eq (m : Nat) (e : Int) :
    Format.binary64.targetExponent (totalExponent m e) = target m e := by
  simp only [target, Format.targetExponent, totalExponent, Format.mantissaBits, Format.minExponent]
  omega

theorem shift_snd (m : Nat) (e : Int) (a : Accuracy) :
    (shiftToTargetExponent Format.binary64 m e a).2 = max e (target m e) := by
  rw [shiftToTargetExponent, target_eq, shiftToExponent]
  dsimp only
  omega

theorem shift_fst (m : Nat) (e : Int) (a : Accuracy) :
    (shiftToTargetExponent Format.binary64 m e a).1.mantissa = m / 2 ^ (target m e - e).toNat := by
  rw [shiftToTargetExponent, target_eq, shiftToExponent]
  dsimp only
  rw [shift_mantissa]
  cases a with
  | exact => rfl
  | inexact o => cases o <;> rfl

/-- The mantissa after the first shift and rounding. -/
def rounded (m : Nat) (e : Int) (a : Accuracy) : Nat :=
  (shiftToTargetExponent Format.binary64 m e a).1.roundedMantissa

/-- Rounding gives zero, or a mantissa and an exponent after two shifts. -/
theorem roundWithAccuracy_eq (s : Sign) (m : Nat) (e : Int) (a : Accuracy) {r m' : Nat} {e' : Int}
    (hr : rounded m e a = r) (he : max e (target m e) = e')
    (hm : r / 2 ^ (target r e' - e').toNat = m') :
    if h : m' = 0 then roundWithAccuracy Format.binary64 s m e a = .zero s
    else roundWithAccuracy Format.binary64 s m e a =
      .finite s m' (max e' (target r e')) (Nat.pos_of_ne_zero h) := by
  have fst := shift_fst r e' .exact
  have snd := shift_snd r e' .exact
  have whole : roundWithAccuracy Format.binary64 s m e a =
      let last := shiftToTargetExponent Format.binary64 (rounded m e a)
        (shiftToTargetExponent Format.binary64 m e a).2 .exact
      if h : last.1.mantissa = 0 then .zero s
      else .finite s last.1.mantissa last.2 (Nat.pos_of_ne_zero h) := rfl
  rw [shift_snd, hr, he] at whole
  dsimp only at whole
  rw [hm] at fst
  simp only [fst, snd] at whole
  split
  · next zero => rwa [dif_pos zero] at whole
  · next positive => rwa [dif_neg positive] at whole

theorem rounded_bounds (m : Nat) (e : Int) (a : Accuracy) :
    m / 2 ^ (target m e - e).toNat ≤ rounded m e a ∧
      rounded m e a ≤ m / 2 ^ (target m e - e).toNat + 1 := by
  rw [← shift_fst m e a]
  exact roundedMantissa_bounds _

theorem shifted_lt (m : Nat) (e : Int) : m / 2 ^ (target m e - e).toNat < 2 ^ 53 := by
  refine (Nat.div_lt_iff_lt_mul (Nat.two_pow_pos _)).mpr ?_
  have : m.log2 + 1 ≤ 53 + (target m e - e).toNat := by
    unfold target
    omega
  rw [← Nat.pow_add]
  exact lt_of_lt_of_le Nat.lt_log2_self (Nat.pow_le_pow_right (by decide) this)

theorem rounded_le (m : Nat) (e : Int) (a : Accuracy) : rounded m e a ≤ 2 ^ 53 := by
  have := (rounded_bounds m e a).2
  have := shifted_lt m e
  omega

/-- A result of rounding that is not too large for a double. -/
def Fits : UnpackedFloat → Prop
  | .zero _ => True
  | .finite _ _ e _ => e ≤ 971
  | _ => False

theorem fits_round (s : Sign) {m : Nat} {e : Int} (a : Accuracy) (size : (m.log2 : Int) + e ≤ 1022)
    (low : e ≤ 970) : Fits (roundWithAccuracy Format.binary64 s m e a) := by
  have := roundWithAccuracy_eq s m e a rfl rfl rfl
  split at this
  · rw [this]
    trivial
  · rw [this]
    have log : (rounded m e a).log2 ≤ 53 := by
      by_cases zero : rounded m e a = 0
      · simp [zero]
      · have := (Nat.log2_lt (k := 54) zero).mpr (by have := rounded_le m e a; omega)
        omega
    show max _ _ ≤ (971 : Int)
    unfold target at *
    omega

/-- The second shift leaves fifty-three digits, and shifts by one if rounding carried. -/
theorem second_shift {r : Nat} {e : Int} (lower : 2 ^ 52 ≤ r) (upper : r ≤ 2 ^ 53)
    (small : -1074 ≤ e) : (r / 2 ^ (target r e - e).toNat).log2 = 52 ∧ target r e ≤ e + 1 := by
  by_cases carry : r = 2 ^ 53
  · have shift : target r e = e + 1 := by
      rw [carry, target, Nat.log2_two_pow]
      omega
    rw [shift, carry, show (e + 1 - e).toNat = 1 by omega]
    exact ⟨by decide, le_rfl⟩
  · have log : r.log2 = 52 := (Nat.log2_eq_iff (by omega)).mpr ⟨lower, by omega⟩
    have shift : target r e = e := by
      rw [target, log]
      omega
    rw [shift, Int.sub_self, Int.toNat_zero, Nat.pow_zero, Nat.div_one]
    exact ⟨log, by omega⟩

/-- A number with enough digits that is not too small is rounded to fifty-three digits. -/
theorem normal_round (s : Sign) {m : Nat} {e : Int} (a : Accuracy) (long : 52 ≤ m.log2)
    (large : -1022 ≤ (m.log2 : Int) + e) :
    ∃ m' e' positive, roundWithAccuracy Format.binary64 s m e a = .finite s m' e' positive ∧
      m'.log2 = 52 ∧ (m.log2 : Int) + e - 52 ≤ e' ∧ e' ≤ (m.log2 : Int) + e - 51 := by
  have goal : target m e = (m.log2 : Int) + e - 52 := by
    rw [target]
    omega
  have nonzero : m ≠ 0 := by
    rintro rfl
    simp at long
  have lower : 2 ^ 52 ≤ rounded m e a := by
    refine le_trans ?_ (rounded_bounds m e a).1
    refine (Nat.le_div_iff_mul_le (Nat.two_pow_pos _)).mpr ?_
    rw [← Nat.pow_add, goal, show 52 + ((m.log2 : Int) + e - 52 - e).toNat = m.log2 by omega]
    exact Nat.log2_self_le nonzero
  have first : max e (target m e) = (m.log2 : Int) + e - 52 := by omega
  obtain ⟨log, carry⟩ := second_shift lower (rounded_le m e a)
    (show -1074 ≤ (m.log2 : Int) + e - 52 by omega)
  have whole := roundWithAccuracy_eq s m e a rfl first rfl
  split at whole
  · next zero =>
    rw [zero] at log
    simp at log
  · exact ⟨_, _, _, whole, log, le_max_left _ _, by omega⟩

/-! ## Packing -/

theorem isFinite_unpack (b : BitVec Format.binary64.numBits) :
    (UnpackedFloat.unpack Format.binary64 b).isFinite = true ↔ unpackExponent b ≠ -1#_ := by
  unfold UnpackedFloat.unpack
  dsimp only
  split
  · split <;> simp_all [UnpackedFloat.isFinite]
  · split
    · split <;> simp_all [UnpackedFloat.isFinite]
    · simp_all [UnpackedFloat.isFinite]

/-- The exponent bits of a double that is not too large. -/
theorem exponentBits_ne {biased : Nat} (small : biased < 2047) :
    BitVec.ofNat 11 biased ≠ -1#11 := by
  intro same
  have := congrArg BitVec.toNat same
  rw [BitVec.toNat_ofNat, Nat.mod_eq_of_lt (by omega)] at this
  have : biased = 2047 := this
  omega

theorem pack_finite {s : Sign} {m : Nat} {e : Int} {positive : 0 < m} :
    UnpackedFloat.pack Format.binary64 (.finite s m e positive) =
      if 971 < e then UnpackedFloat.pack Format.binary64 (.infinity s)
      else if m.log2 = 52 then
        packComponents Format.binary64 s (BitVec.ofNat 11 (e + 1075).toNat) (BitVec.ofNat 52 m)
      else packComponents Format.binary64 s 0 (BitVec.ofNat 52 m) := by
  have bias : e + (Format.binary64.exponentBias : Int) + (52 : Nat) = e + 1075 := by
    show e + 1023 + 52 = e + 1075
    omega
  have large : 2 ^ 11 ≤ (e + 1075).toNat + 1 ↔ 971 < e := by omega
  have normal : m.log2 + 1 = Format.binary64.mantissaBits ↔ m.log2 = 52 := by
    show m.log2 + 1 = 53 ↔ _
    omega
  simp only [UnpackedFloat.pack, bias, large, normal]
  rfl

theorem isFinite_pack {f : UnpackedFloat} (fits : Fits f) :
    (Float.Model.pack f).isFinite = true := by
  show (UnpackedFloat.unpack Format.binary64 (UnpackedFloat.pack Format.binary64 f)).isFinite = true
  rw [isFinite_unpack]
  cases f with
  | zero s => cases s <;> decide
  | finite s m e positive =>
    have fits : e ≤ 971 := fits
    rw [pack_finite, if_neg (by omega)]
    split
    · rw [unpackExponent_packComponents]
      exact exponentBits_ne (by omega)
    · rw [unpackExponent_packComponents]
      decide
  | _ => cases fits

/-- What is packed is a number, if it was one. -/
theorem isFinite_of_not_isInf {f : UnpackedFloat} (number : f ≠ .notANumber)
    (bounded : (Float.Model.pack f).isInf = false) : (Float.Model.pack f).isFinite = true := by
  have infinite (s : Sign) : (UnpackedFloat.unpack Format.binary64
      (UnpackedFloat.pack Format.binary64 (.infinity s))).isInf = true := by
    cases s <;> decide
  cases f with
  | zero s => exact isFinite_pack trivial
  | infinity s => exact absurd (infinite s) (Bool.not_eq_true _ ▸ bounded)
  | notANumber => exact absurd rfl number
  | finite s m e positive =>
    refine isFinite_pack (show e ≤ 971 from not_lt.mp fun large => ?_)
    have : (UnpackedFloat.unpack Format.binary64 (UnpackedFloat.pack Format.binary64
      (.finite s m e positive))).isInf = false := bounded
    rw [pack_finite, if_pos large, infinite s] at this
    cases this

/-! ## Doubles of normal size -/

/-- A double with all of its fifty-three digits, whose exponent lies between `lo` and `hi`. -/
def IsNormal (lo hi : Int) (x : Float.Model) : Prop :=
  ∃ s m e positive, x.unpack = .finite s m e positive ∧ m.log2 = 52 ∧ lo ≤ e ∧ e ≤ hi

theorem IsNormal.mono {lo hi lo' hi' : Int} {x : Float.Model} (h : IsNormal lo hi x)
    (low : lo' ≤ lo) (high : hi ≤ hi') : IsNormal lo' hi' x := by
  obtain ⟨s, m, e, positive, unpacked, log, above, below⟩ := h
  exact ⟨s, m, e, positive, unpacked, log, low.trans above, below.trans high⟩

theorem IsNormal.isFinite {lo hi : Int} {x : Float.Model} (h : IsNormal lo hi x) :
    x.isFinite = true := by
  obtain ⟨s, m, e, positive, unpacked, -⟩ := h
  show x.unpack.isFinite = true
  rw [unpacked]
  rfl

theorem log2_implicit (m : BitVec 52) : (1#1 ++ m).toNat.log2 = 52 := by
  have small := m.isLt
  rw [BitVec.toNat_append, ← Nat.shiftLeft_add_eq_or_of_lt small, Nat.shiftLeft_eq]
  have : (1#1).toNat = 1 := rfl
  exact (Nat.log2_eq_iff (by omega)).mpr ⟨by omega, by omega⟩

theorem unpack_normal {b : BitVec Format.binary64.numBits} (inside : unpackExponent b ≠ -1#_)
    (normal : unpackExponent b ≠ 0#_) : ∃ s positive, UnpackedFloat.unpack Format.binary64 b =
      .finite s (1#1 ++ unpackMantissa b).toNat ((unpackExponent b).toNat - 1075 : Int)
        positive := by
  have positive : 0 < (1#1 ++ unpackMantissa b).toNat := by
    refine Nat.pos_of_ne_zero fun zero => ?_
    have := log2_implicit (unpackMantissa b)
    rw [zero, Nat.log2_zero] at this
    omega
  refine ⟨Sign.ofBitVec (unpackSign b), positive, ?_⟩
  unfold UnpackedFloat.unpack
  rw [if_neg inside, if_neg normal]
  rfl

theorem isNormal_pack {s : Sign} {m : Nat} {e lo hi : Int} {positive : 0 < m} (log : m.log2 = 52)
    (above : lo ≤ e) (below : e ≤ hi) (low : -1074 ≤ lo) (high : hi ≤ 971) :
    IsNormal lo hi (.pack (.finite s m e positive)) := by
  have bits : (BitVec.ofNat 11 (e + 1075).toNat).toNat = (e + 1075).toNat := by
    rw [BitVec.toNat_ofNat, Nat.mod_eq_of_lt (by omega)]
  have nonzero : BitVec.ofNat 11 (e + 1075).toNat ≠ 0#11 := by
    intro same
    have := congrArg BitVec.toNat same
    rw [bits] at this
    have : (e + 1075).toNat = 0 := this
    omega
  have packed : UnpackedFloat.pack Format.binary64 (.finite s m e positive) =
      packComponents Format.binary64 s (BitVec.ofNat 11 (e + 1075).toNat) (BitVec.ofNat 52 m) := by
    rw [pack_finite, if_neg (by omega), if_pos log]
  have exponent : unpackExponent (UnpackedFloat.pack Format.binary64 (.finite s m e positive)) =
      BitVec.ofNat 11 (e + 1075).toNat := by
    rw [packed, unpackExponent_packComponents]
  obtain ⟨s', positive', whole⟩ := unpack_normal
    (exponent ▸ exponentBits_ne (by omega)) (exponent ▸ nonzero)
  refine ⟨s', _, _, positive', whole, log2_implicit _, ?_⟩
  rw [exponent, bits]
  omega

/-- A number with enough digits, rounded and packed. -/
theorem isNormal_round (s : Sign) {m : Nat} {e lo hi : Int} (a : Accuracy) (long : 52 ≤ m.log2)
    (above : lo + 52 ≤ (m.log2 : Int) + e) (below : (m.log2 : Int) + e ≤ hi + 51)
    (low : -1074 ≤ lo) (high : hi ≤ 971) :
    IsNormal lo hi (.pack (roundWithAccuracy Format.binary64 s m e a)) := by
  obtain ⟨m', e', positive, rounds, log, lower, upper⟩ :=
    normal_round s a long (show -1022 ≤ (m.log2 : Int) + e by omega)
  rw [rounds]
  exact isNormal_pack log (by omega) (by omega) low high

theorem log2_mul {m n a b : Nat} (hm : m.log2 = a) (hn : n.log2 = b) (positive : m ≠ 0)
    (positive' : n ≠ 0) : a + b ≤ (m * n).log2 ∧ (m * n).log2 ≤ a + b + 1 := by
  obtain ⟨lower, upper⟩ := (Nat.log2_eq_iff positive).mp hm
  obtain ⟨lower', upper'⟩ := (Nat.log2_eq_iff positive').mp hn
  have nonzero := Nat.mul_ne_zero positive positive'
  constructor
  · refine (Nat.le_log2 nonzero).mpr ?_
    rw [Nat.pow_add]
    exact Nat.mul_le_mul lower lower'
  · refine Nat.le_of_lt_succ ((Nat.log2_lt nonzero).mpr ?_)
    calc m * n < 2 ^ (a + 1) * 2 ^ (b + 1) := Nat.mul_lt_mul'' upper upper'
      _ = 2 ^ (a + b + 1 + 1) := by rw [← Nat.pow_add]; congr 1; omega

theorem IsNormal.mul {lo hi lo' hi' : Int} {x y : Float.Model} (hx : IsNormal lo hi x)
    (hy : IsNormal lo' hi' y) (low : -1126 ≤ lo + lo') (high : hi + hi' ≤ 917) :
    IsNormal (lo + lo' + 52) (hi + hi' + 54) (x * y) := by
  obtain ⟨s, m, e, positive, unpacked, log, above, below⟩ := hx
  obtain ⟨s', m', e', positive', unpacked', log', above', below'⟩ := hy
  have size := log2_mul log log' (by omega) (by omega)
  show IsNormal _ _ (.pack (UnpackedFloat.mul Format.binary64 x.unpack y.unpack))
  rw [unpacked, unpacked']
  exact isNormal_round _ _ (by omega) (by omega) (by omega) (by omega) (by omega)

/-! ## Naturals -/

theorem isNormal_one : IsNormal (-52) (-52) (Float.ofBits 0x3FF0000000000000).toModel :=
  ⟨.positive, 2 ^ 52, -52, by decide, by rfl, by decide, by decide, by decide⟩

theorem log2_shift {n k : Nat} (nonzero : n ≠ 0) : (n <<< k).log2 = n.log2 + k := by
  induction k with
  | zero => rw [Nat.shiftLeft_zero, Nat.add_zero]
  | succ k ih =>
    have : n <<< k ≠ 0 := by
      rw [Nat.shiftLeft_eq]
      exact Nat.mul_ne_zero nonzero (Nat.two_pow_pos k).ne'
    rw [Nat.shiftLeft_succ, Nat.log2_two_mul this, ih, Nat.add_assoc]

theorem isNormal_ofUInt64 {n : UInt64} (positive : 0 < n.toNat) (small : n.toNat < 2 ^ 53) :
    IsNormal (-52) 1 (Float.Model.ofUInt64 n) := by
  have log : n.toNat.log2 < 53 := (Nat.log2_lt (by omega)).mpr small
  have sign : compare (n.toNat : Int) 0 = .gt := Int.compare_eq_gt.mpr (by omega)
  show IsNormal _ _ (.pack (UnpackedFloat.normalize Format.binary64 (n.toNat : Int) 0 .positive))
  rw [UnpackedFloat.normalize, sign]
  dsimp only
  rw [Int.toNat_natCast, UnpackedFloat.round, target_eq]
  have goal : target n.toNat 0 = (n.toNat.log2 : Int) - 52 := by
    unfold target
    omega
  rw [goal, decreaseExponent]
  dsimp only
  have shift : (n.toNat <<< (0 - ((n.toNat.log2 : Int) - 52)).toNat).log2 = 52 := by
    rw [log2_shift (by omega)]
    omega
  exact isNormal_round _ _ (by omega) (by omega) (by omega) (by omega) (by omega)

/-- A whole number times a power of ten, if it does not take the short way. -/
theorem isNormal_ofScientific {m k : Nat} {lo hi : Int} (nonzero : m ≠ 0) (small : k ≤ 2048)
    (above : lo + 52 ≤ (m * 10 ^ k).log2) (below : ((m * 10 ^ k).log2 : Int) ≤ hi + 51)
    (low : -53 ≤ lo) (high : hi ≤ 971) :
    IsNormal lo hi (Float.Model.ofScientific m (.ofNat k)) := by
  have size : ((m <<< 53) * 10 ^ k).log2 = (m * 10 ^ k).log2 + 53 := by
    have : (m <<< 53) * 10 ^ k = (m * 10 ^ k) <<< 53 := by
      rw [Nat.shiftLeft_eq, Nat.shiftLeft_eq, Nat.mul_right_comm]
    rw [this, log2_shift (Nat.mul_ne_zero nonzero (Nat.pow_pos (by decide)).ne')]
  show IsNormal lo hi (.pack (UnpackedFloat.ofScientific Format.binary64 m k))
  rw [UnpackedFloat.ofScientific, dif_neg nonzero, if_neg (by show ¬ _ > (2048 : Int); omega),
    if_neg (by show ¬ _ < -((2048 : Int) + _); omega), if_pos (by omega)]
  show IsNormal lo hi (.pack (roundWithAccuracy Format.binary64 _
    ((m <<< 53) * 10 ^ (k : Int).toNat) (-53 + 0) .exact))
  rw [Int.toNat_natCast]
  exact isNormal_round _ _ (by omega) (by omega) (by omega) (by omega) (by omega)

theorem isNormal_ofNat {n : Nat} (positive : n ≠ 0) (small : n < 2 ^ 64) :
    IsNormal (-52) 12 (Float.ofNat n).toModel := by
  show IsNormal _ _ (Float.ofScientific n false 0).toModel
  rw [Float.ofScientific]
  split
  · next short =>
    have whole : n.toUInt64.toNat = n := by
      show n % 2 ^ 64 = n
      exact Nat.mod_eq_of_lt small
    have := isNormal_ofUInt64 (n := n.toUInt64) (by omega) (by omega)
    exact (this.mul isNormal_one (by decide) (by decide)).mono (by decide) (by decide)
  · next long =>
    have lower : 53 ≤ n.log2 := (Nat.le_log2 positive).mpr (by omega)
    have upper : n.log2 < 64 := (Nat.log2_lt positive).mpr small
    exact isNormal_ofScientific positive (by decide) (by rw [Nat.pow_zero, Nat.mul_one]; omega)
      (by rw [Nat.pow_zero, Nat.mul_one]; omega) (by decide) (by decide)

/-! ## Scaling by powers of ten -/

open Json.Numeral

/-- Whether a double has all of its digits and is at least eight. -/
def isLarge (x : Float.Model) : Bool :=
  match x.unpack with
  | .finite _ m e _ => m.log2 = 52 && -49 ≤ e && e ≤ 971
  | _ => false

theorem isNormal_of_isLarge {x : Float.Model} (large : isLarge x = true) :
    IsNormal (-49) 971 x := by
  unfold isLarge at large
  split at large
  · next s m e positive unpacked =>
    simp only [Bool.and_eq_true, decide_eq_true_eq] at large
    exact ⟨s, m, e, positive, unpacked, large.1.1, large.1.2, large.2⟩
  · cases large

/-- A power of ten that is a double is a number, and but for one it is at least eight. -/
theorem isNormal_powerOfTen {k : Nat} (positive : k ≠ 0) (small : k ≤ greatestPower) :
    IsNormal (-49) 971 (powerOfTen k).toModel := by
  have small : k ≤ 308 := small
  by_cases short : k ≤ 22
  · have all : ∀ k ≤ 22, k ≠ 0 → isLarge (powerOfTen k).toModel = true := by decide +kernel
    exact isNormal_of_isLarge (all k short positive)
  by_cases greatest : k = 308
  · subst greatest
    have large : isLarge (powerOfTen 308).toModel = true := by decide +kernel
    exact isNormal_of_isLarge large
  · have lower : 3 ≤ (10 ^ k).log2 := by
      refine (Nat.le_log2 (Nat.pow_pos (by decide)).ne').mpr ?_
      calc 2 ^ 3 ≤ 10 ^ 1 := by decide
        _ ≤ 10 ^ k := Nat.pow_le_pow_right (by decide) (by omega)
    have upper : (10 ^ k).log2 < 1020 := by
      refine (Nat.log2_lt (Nat.pow_pos (by decide)).ne').mpr ?_
      calc 10 ^ k ≤ 10 ^ 307 := Nat.pow_le_pow_right (by decide) (by omega)
        _ < 2 ^ 1020 := by decide +kernel
    show IsNormal _ _ (Float.ofScientific 1 false k).toModel
    rw [Float.ofScientific, dif_neg (by omega)]
    exact isNormal_ofScientific (by decide) (by omega) (by rw [Nat.one_mul]; omega)
      (by rw [Nat.one_mul]; omega) (by decide) (by decide)

theorem isFinite_powerOfTen {k : Nat} (small : k ≤ greatestPower) :
    (powerOfTen k).isFinite = true := by
  by_cases one : k = 0
  · subst one
    decide +kernel
  · exact (isNormal_powerOfTen one small).isFinite

/-- The bits of a double that hold its exponent. -/
abbrev exponentBits (x : Float.Model) : BitVec 11 :=
  @unpackExponent Format.binary64 x.toBits.toBitVec

/-- The bits of a double that hold its mantissa, but for the digit in front. -/
abbrev mantissaBits (x : Float.Model) : BitVec 52 :=
  @unpackMantissa Format.binary64 x.toBits.toBitVec

/-- A double that is finite is a zero, or has at most fifty-three digits and a bounded exponent. -/
theorem finite_of_isFinite {x : Float.Model} (finite : x.isFinite = true) :
    (∃ s, x.unpack = .zero s) ∨ ∃ s m e positive, x.unpack = .finite s m e positive ∧
      m.log2 ≤ 52 ∧ e ≤ 971 := by
  have inside := (isFinite_unpack x.toBits.toBitVec).mp finite
  by_cases normal : exponentBits x = 0#_
  · by_cases zero : mantissaBits x = 0#_
    · left
      show ∃ s, UnpackedFloat.unpack Format.binary64 x.toBits.toBitVec = .zero s
      unfold UnpackedFloat.unpack
      rw [if_neg inside, if_pos normal, dif_pos zero]
      exact ⟨_, rfl⟩
    · right
      show ∃ s m e positive, UnpackedFloat.unpack Format.binary64 x.toBits.toBitVec =
        .finite s m e positive ∧ _
      have small : (mantissaBits x).toNat < 2 ^ 52 := BitVec.isLt _
      have nonzero : (mantissaBits x).toNat ≠ 0 := fun same => zero (BitVec.eq_of_toNat_eq same)
      refine ⟨Sign.ofBitVec (@unpackSign Format.binary64 x.toBits.toBitVec),
        (mantissaBits x).toNat, (exponentBits x).toNat - 1075 + 1, Nat.pos_of_ne_zero nonzero, ?_,
        ((Nat.log2_lt nonzero).mpr small).le, ?_⟩
      · unfold UnpackedFloat.unpack
        rw [if_neg inside, if_pos normal, dif_neg zero]
        rfl
      · rw [normal]
        decide
  · right
    obtain ⟨s, positive, unpacked⟩ := unpack_normal inside normal
    refine ⟨s, _, _, positive, unpacked, (log2_implicit _).le, ?_⟩
    have : (exponentBits x).toNat < 2 ^ 11 := BitVec.isLt _
    have : (exponentBits x).toNat ≠ 2047 := fun same => inside (BitVec.eq_of_toNat_eq same)
    show ((exponentBits x).toNat : Int) - 1075 ≤ 971
    omega

theorem round_ne_notANumber (s : Sign) (m : Nat) (e : Int) (a : Accuracy) :
    roundWithAccuracy Format.binary64 s m e a ≠ .notANumber := by
  have := roundWithAccuracy_eq s m e a rfl rfl rfl
  split at this <;> rw [this] <;> exact UnpackedFloat.noConfusion

theorem isFinite_mul {x y : Float} (hx : x.isFinite = true) (hy : y.isFinite = true)
    (bounded : (x * y).isInf = false) : (x * y).isFinite = true := by
  have number : UnpackedFloat.mul Format.binary64 x.toModel.unpack y.toModel.unpack ≠
      .notANumber := by
    rcases finite_of_isFinite hx with ⟨s, unpacked⟩ | ⟨s, m, e, positive, unpacked, -⟩ <;>
    rcases finite_of_isFinite hy with ⟨s', unpacked'⟩ | ⟨s', m', e', positive', unpacked', -⟩ <;>
    rw [unpacked, unpacked']
    · exact UnpackedFloat.noConfusion
    · exact UnpackedFloat.noConfusion
    · exact UnpackedFloat.noConfusion
    · exact round_ne_notANumber _ _ _ _
  exact isFinite_of_not_isInf number bounded

theorem isFinite_div {x y : Float} (hx : x.isFinite = true) (hy : IsNormal (-49) 971 y.toModel) :
    (x / y).isFinite = true := by
  obtain ⟨s', m', e', positive', unpacked', log', above', -⟩ := hy
  refine isFinite_pack (f := UnpackedFloat.div Format.binary64 x.toModel.unpack y.toModel.unpack) ?_
  rcases finite_of_isFinite hx with ⟨s, unpacked⟩ | ⟨s, m, e, positive, unpacked, log, below⟩
  · rw [unpacked, unpacked']
    trivial
  · rw [unpacked, unpacked']
    show Fits (roundWithAccuracy Format.binary64 _ (divCore Format.binary64 m e m' e').1
      (divCore Format.binary64 m e m' e').2.1 (divCore Format.binary64 m e m' e').2.2)
    rw [divCore]
    dsimp only
    have goal : Format.binary64.targetExponent (totalExponent m e - totalExponent m' e') =
        max ((m.log2 : Int) + e - 52 - e' - 53) (-1074) := by
      simp only [Format.targetExponent, totalExponent, Format.mantissaBits, Format.minExponent,
        log']
      omega
    rw [goal]
    generalize least : min (e - e') (max ((m.log2 : Int) + e - 52 - e' - 53) (-1074)) = t
    generalize shift : (e - e' - t).toNat = k
    have size : (m <<< k / m').log2 + 52 ≤ m.log2 + k ∨ m <<< k / m' = 0 := by
      refine or_iff_not_imp_right.mpr fun nonzero => ?_
      have dividend : m <<< k ≠ 0 := fun zero => nonzero (by rw [zero, Nat.zero_div])
      rw [← log2_shift (n := m) (by omega), Nat.le_log2 dividend, Nat.pow_add]
      calc 2 ^ (m <<< k / m').log2 * 2 ^ 52 ≤ (m <<< k / m') * m' :=
            Nat.mul_le_mul (Nat.log2_self_le nonzero) (log' ▸ Nat.log2_self_le (by omega))
        _ ≤ m <<< k := Nat.div_mul_le_self _ _
    refine fits_round _ _ ?_ (by omega)
    rcases size with size | zero
    · omega
    · rw [zero]
      simp only [Nat.log2_zero]
      omega

theorem isFinite_scaleDown {x : Float} {k : Nat} (finite : x.isFinite = true) (positive : k ≠ 0) :
    (scaleDown x k).isFinite = true := by
  induction x, k using scaleDown.induct with
  | case1 x k small =>
    rw [scaleDown, dif_pos small]
    exact isFinite_div finite (isNormal_powerOfTen positive small)
  | case2 x k large zero =>
    rw [scaleDown, dif_neg large, if_pos zero]
    exact finite
  | case3 x k large nonzero ih =>
    rw [scaleDown, dif_neg large, if_neg nonzero]
    exact ih (isFinite_div finite (isNormal_powerOfTen (by decide) le_rfl)) (by omega)

/-! ## Numerals -/

theorem isFinite_ofNat {n : Nat} (small : n < 2 ^ 64) : (Float.ofNat n).isFinite = true := by
  by_cases zero : n = 0
  · subst zero
    decide +kernel
  · exact (isNormal_ofNat zero small).isFinite

theorem isFinite_neg {x : Float} (finite : x.isFinite = true) : (-x).isFinite = true := by
  show (Float.Model.pack x.toModel.unpack.neg).isFinite = true
  refine isFinite_pack ?_
  rcases finite_of_isFinite finite with ⟨s, unpacked⟩ | ⟨s, m, e, positive, unpacked, -, below⟩
  · rw [unpacked]
    trivial
  · rw [unpacked]
    exact below

theorem isFinite_scale? {n : Nat} {e : Int} {x : Float} (small : n < 2 ^ 64)
    (scaled : scale? n e = some x) : x.isFinite = true := by
  have finite := isFinite_ofNat small
  unfold scale? at scaled
  dsimp only at scaled
  split at scaled
  · cases scaled
    exact isFinite_scaleDown finite (by omega)
  · split at scaled
    · next inRange =>
      split at scaled
      · cases scaled
      · next bounded =>
        cases scaled
        exact isFinite_mul finite (isFinite_powerOfTen inRange) (Bool.not_eq_true _ ▸ bounded)
    · split at scaled
      · cases scaled
        exact finite
      · cases scaled

theorem accumulate_lt {n : Nat} {ds : List Char} (small : n < significandLimit) :
    (accumulate n ds).1 < significandLimit := by
  induction ds generalizing n with
  | nil => exact small
  | cons d ds ih =>
    rw [accumulate]
    split
    · next fits => exact ih fits
    · exact small

/-- The sign in front of a magnitude, if there is one. -/
theorem isFinite_signed {magnitude : Option Float} {negative : Bool} {x : Float}
    (finite : ∀ y, magnitude = some y → y.isFinite = true)
    (read : magnitude.bind (fun y => some (if negative then -y else y)) = some x) :
    x.isFinite = true := by
  obtain ⟨y, found, signed⟩ := Option.bind_eq_some_iff.mp read
  cases signed
  split
  · exact isFinite_neg (finite y found)
  · exact finite y found

/-- A numeral that is read as a double is read as a finite one. -/
theorem isFinite_float? {n : Json.Numeral} {x : Float} (read : n.float? = some x) :
    x.isFinite = true := by
  obtain ⟨negative, whole, fraction, exponent⟩ := n
  have head : (accumulate 0 whole).1 < significandLimit := accumulate_lt (by decide)
  -- an exponent is added up or out of range, whatever the significand is
  have raised {significand power : Nat} {start : Int} {minus : Bool}
      (small : significand < significandLimit)
      (read : (if power < exponentLimit then
          (scale? significand (if minus then start - power else start + power)).bind
            fun y => some (if negative then -y else y)
        else if significand = 0 || minus then
          (some 0).bind fun y => some (if negative then -y else y)
        else none.bind fun y => some (if negative then -y else y)) = some x) :
      x.isFinite = true := by
    split at read
    · exact isFinite_signed (fun y => isFinite_scale? small) read
    · split at read
      · exact isFinite_signed (fun y zero => by cases zero; decide +kernel) read
      · cases read
  unfold float? at read
  cases fraction with
  | none =>
    cases exponent with
    | none => exact isFinite_signed (fun y => isFinite_scale? head) read
    | some power => exact raised head read
  | some digits =>
    have tail : (accumulate (accumulate 0 whole).1 digits).1 < significandLimit :=
      accumulate_lt head
    cases exponent with
    | none => exact isFinite_signed (fun y => isFinite_scale? tail) read
    | some power => exact raised tail read

/-! ## Comparing and printing -/

/-- A finite double is equal to itself. -/
theorem beq_self {x : Float} (finite : x.isFinite = true) : (x == x) = true := by
  refine Float.beq_self_iff.mpr fun notANumber => ?_
  rw [notANumber] at finite
  exact absurd finite (by decide +kernel)

/-- What is no finite number has no digits. -/
theorem ofFloat?_eq_none {x : Float} (infinite : x.isFinite = false) :
    Dyadic.ofFloat? x = none := by
  have ones : exponentBits x.toModel = -1#11 :=
    Decidable.of_not_not fun inside => by
      have finite : x.isFinite = true := (isFinite_unpack _).mpr inside
      rw [infinite] at finite
      cases finite
  have ones := congrArg BitVec.toNat ones
  have shift : (exponentBits x.toModel).toNat = x.toBits.toNat / 2 ^ 52 % 2 ^ 11 := by
    unfold exponentBits unpackExponent
    rw [BitVec.toNat_cast, BitVec.extractLsb_toNat, Nat.shiftRight_eq_div_pow]
    rfl
  have bits : x.toBits.toNat / Nat.pow 2 52 % Nat.pow 2 11 = 2047 := shift.symm.trans ones
  rw [Dyadic.ofFloat?, Dyadic.ofBits?, if_pos bits]

end GraphSession.Double
