import Calculator.Proofs.Double.Kinds

/-!
# Rounding to infinity

Rounding gives an infinity from half a unit past the largest double on, and a finite double below. So integers of 64
bits are finite, and a decimal numeral is if its exact value is below that limit.
-/

namespace Calculator.Double

open Float.Model (UnpackedFloat Format)
open Float.Model.UnpackedFloat

variable {sign : Sign} {m : Nat} {e : Int}

/-! ### Significands -/

/-- Twice a significand, with the round bit. -/
def halves (extended : ExtendedMantissa) : Nat :=
  2 * extended.mantissa + extended.roundBit.toNat

theorem halves_shiftRightOne (extended : ExtendedMantissa) :
    halves extended.shiftRightOne = halves extended / 2 := by
  have bit : extended.roundBit.toNat < 2 := Bool.toNat_lt _
  have parity : (extended.mantissa % 2 != 0).toNat = extended.mantissa % 2 := by
    rcases Nat.mod_two_eq_zero_or_one extended.mantissa with even | odd
    · rw [even]
      rfl
    · rw [odd]
      rfl
  unfold halves ExtendedMantissa.shiftRightOne
  dsimp only
  rw [parity]
  omega

theorem halves_shiftRight (extended : ExtendedMantissa) (n : Nat) :
    halves (extended >>> n) = halves extended / 2 ^ n := by
  show halves (n.repeat ExtendedMantissa.shiftRightOne extended) = halves extended / 2 ^ n
  induction n with
  | zero => rw [Nat.pow_zero, Nat.div_one, Nat.repeat]
  | succ n ih => rw [Nat.repeat, halves_shiftRightOne, ih, Nat.div_div_eq_div_mul, Nat.pow_succ]

theorem mantissa_eq (extended : ExtendedMantissa) : extended.mantissa = halves extended / 2 := by
  have bit : extended.roundBit.toNat < 2 := Bool.toNat_lt _
  unfold halves
  omega

theorem roundedMantissa_odd (extended : ExtendedMantissa) (odd : extended.mantissa % 2 = 1) :
    extended.roundedMantissa = (halves extended + 1) / 2 := by
  rcases extended with ⟨mantissa, _ | _, _ | _⟩ <;>
    simp only [ExtendedMantissa.roundedMantissa, ExtendedMantissa.accuracy, Accuracy.roundToNearestEven, halves,
      Bool.toNat_false, Bool.toNat_true] at odd ⊢ <;> omega

theorem le_roundedMantissa (extended : ExtendedMantissa) : extended.mantissa ≤ extended.roundedMantissa := by
  unfold ExtendedMantissa.roundedMantissa
  rcases extended.accuracy with _ | _ | _ | _
  · exact Nat.le_refl _
  · exact Nat.le_refl _
  · exact Nat.le_add_right _ _
  · exact Nat.le_add_right _ _

theorem roundedMantissa_le (extended : ExtendedMantissa) : extended.roundedMantissa ≤ extended.mantissa + 1 := by
  unfold ExtendedMantissa.roundedMantissa
  cases extended.accuracy with
  | exact => exact Nat.le_succ _
  | inexact side =>
    cases side with
    | lt => exact Nat.le_succ _
    | gt => exact Nat.le_refl _
    | eq =>
      show extended.mantissa + extended.mantissa % 2 ≤ extended.mantissa + 1
      omega

theorem mantissa_ofMantissaAndAccuracy (accuracy : Accuracy) :
    (ExtendedMantissa.ofMantissaAndAccuracy m accuracy).mantissa = m := by
  cases accuracy with
  | exact => rfl
  | inexact side => cases side <;> rfl

theorem ne_zero_of_log2 (long : 0 < m.log2) : m ≠ 0 := by
  rintro rfl
  exact absurd long (by decide)

theorem log2_lt {limit : Nat} (small : m < 2 ^ limit) (positive : 0 < limit) : m.log2 < limit := by
  rcases Nat.eq_zero_or_pos m with rfl | nonzero
  · exact positive
  · exact (Nat.log2_lt (Nat.pos_iff_ne_zero.mp nonzero)).mpr small

/-! ### Exponents -/

/-- The exponent that a double near `m * 2 ^ e` has, which is `e` at least. -/
def level (m : Nat) (e : Int) : Int :=
  max e (max ((m.log2 : Int) + e - 52) (-1074))

theorem shiftToTargetExponent_eq (accuracy : Accuracy) : shiftToTargetExponent Format.binary64 m e accuracy =
    (ExtendedMantissa.ofMantissaAndAccuracy m accuracy >>> (level m e - e).toNat, level m e) := by
  have target : Format.binary64.targetExponent (Float.Model.totalExponent m e) =
      max ((m.log2 : Int) + 1 + e - 53) (-1074) := rfl
  have amount : (max ((m.log2 : Int) + 1 + e - 53) (-1074) - e).toNat = (level m e - e).toNat := by
    unfold level
    omega
  have raised : e + ((level m e - e).toNat : Int) = level m e := by
    unfold level
    omega
  unfold shiftToTargetExponent shiftToExponent
  dsimp only
  rw [target, amount, raised]

/-- The significand that rounding at the exponent of a double leaves. -/
def rounded (m : Nat) (e : Int) (accuracy : Accuracy) : Nat :=
  (ExtendedMantissa.ofMantissaAndAccuracy m accuracy >>> (level m e - e).toNat).roundedMantissa

theorem mantissa_shifted (m : Nat) (accuracy : Accuracy) (n : Nat) :
    (ExtendedMantissa.ofMantissaAndAccuracy m accuracy >>> n).mantissa = m / 2 ^ n := by
  have start : halves (ExtendedMantissa.ofMantissaAndAccuracy m accuracy) / 2 = m := by
    rw [← mantissa_eq, mantissa_ofMantissaAndAccuracy]
  rw [mantissa_eq, halves_shiftRight, Nat.div_div_eq_div_mul, Nat.mul_comm, ← Nat.div_div_eq_div_mul, start]

theorem le_level (m : Nat) (e : Int) : -1074 ≤ level m e := by
  unfold level
  omega

theorem shifted_pos {n : Nat} (nonzero : m ≠ 0) (few : n ≤ m.log2) : 0 < m / 2 ^ n := by
  apply Nat.div_pos _ (Nat.two_pow_pos _)
  exact Nat.le_trans (Nat.pow_le_pow_right Nat.two_pos few) (Nat.log2_self_le nonzero)

theorem shifted_le_rounded (m : Nat) (e : Int) (accuracy : Accuracy) :
    m / 2 ^ (level m e - e).toNat ≤ rounded m e accuracy := by
  have least := le_roundedMantissa (ExtendedMantissa.ofMantissaAndAccuracy m accuracy >>> (level m e - e).toNat)
  rwa [← rounded, mantissa_shifted] at least

/-- A shift to the exponent of a double leaves the first digit of the significand. -/
theorem shifted_eq_zero (low : -1074 ≤ e) : m / 2 ^ (level m e - e).toNat = 0 ↔ m = 0 := by
  constructor
  · intro gone
    apply Decidable.byContradiction
    intro nonzero
    have few : (level m e - e).toNat ≤ m.log2 := by
      unfold level
      omega
    have left := shifted_pos nonzero few
    omega
  · rintro rfl
    exact Nat.zero_div _

theorem fits_roundWithAccuracy_iff (accuracy : Accuracy) :
    Fits (roundWithAccuracy Format.binary64 sign m e accuracy) ↔
    rounded m e accuracy = 0 ∨ level (rounded m e accuracy) (level m e) < 972 := by
  unfold roundWithAccuracy
  dsimp only
  rw [shiftToTargetExponent_eq]
  dsimp only
  rw [shiftToTargetExponent_eq]
  dsimp only
  rw [← rounded, mantissa_shifted]
  have gone := shifted_eq_zero (m := rounded m e accuracy) (le_level m e)
  split
  next zero => exact iff_of_true trivial (.inl (gone.mp zero))
  next filled =>
    constructor
    · exact fun below => .inr below
    · exact fun h => h.resolve_left fun zero => filled (gone.mpr zero)

theorem mantissa_lt (m : Nat) (e : Int) : m / 2 ^ (level m e - e).toNat < 2 ^ 53 := by
  have few : m.log2 + 1 ≤ 53 + (level m e - e).toNat := by
    unfold level
    omega
  rw [Nat.div_lt_iff_lt_mul (Nat.two_pow_pos _), ← Nat.pow_add]
  exact Nat.lt_of_lt_of_le Nat.lt_log2_self (Nat.pow_le_pow_right Nat.two_pos few)

theorem rounded_le (m : Nat) (e : Int) (accuracy : Accuracy) : rounded m e accuracy ≤ 2 ^ 53 := by
  have above := roundedMantissa_le (ExtendedMantissa.ofMantissaAndAccuracy m accuracy >>> (level m e - e).toNat)
  rw [← rounded, mantissa_shifted] at above
  have few := mantissa_lt m e
  omega

theorem mul_pow_add (a b n d : Nat) : a * 2 ^ (b + n) * d = a * 2 ^ b * d * 2 ^ n := by
  rw [Nat.pow_add, ← Nat.mul_assoc, Nat.mul_right_comm]

theorem roundedMantissa_lt {extended : ExtendedMantissa} (small : extended.mantissa < 2 ^ 53) :
    extended.roundedMantissa < 2 ^ 53 ↔ halves extended < 2 ^ 54 - 1 := by
  have half := mantissa_eq extended
  -- The largest significand is odd: a tie goes up, so the sticky bit does not matter.
  rcases Nat.lt_or_ge extended.mantissa (2 ^ 53 - 1) with lower | top
  · have above := roundedMantissa_le extended
    omega
  · have reached := roundedMantissa_odd extended (by omega)
    omega

theorem halves_bounds (accuracy : Accuracy) : 2 * m ≤ halves (ExtendedMantissa.ofMantissaAndAccuracy m accuracy) ∧
    halves (ExtendedMantissa.ofMantissaAndAccuracy m accuracy) < 2 * (m + 1) := by
  have half := mantissa_eq (ExtendedMantissa.ofMantissaAndAccuracy m accuracy)
  rw [mantissa_ofMantissaAndAccuracy] at half
  omega

theorem fits_below (accuracy : Accuracy) (low : e ≤ 970) (small : (m.log2 : Int) + e < 1023) :
    Fits (roundWithAccuracy Format.binary64 sign m e accuracy) := by
  have few := rounded_le m e accuracy
  have digits : (rounded m e accuracy).log2 < 54 := log2_lt (Nat.lt_of_le_of_lt few (by decide)) (by decide)
  apply (fits_roundWithAccuracy_iff accuracy).mpr
  right
  unfold level
  omega

theorem fits_top (accuracy : Accuracy) (low : e ≤ 970) (top : (m.log2 : Int) + e = 1023) :
    Fits (roundWithAccuracy Format.binary64 sign m e accuracy) ↔ rounded m e accuracy < 2 ^ 53 := by
  have few := rounded_le m e accuracy
  have at_top : level m e = 971 := by
    unfold level
    omega
  rw [fits_roundWithAccuracy_iff, at_top]
  rcases Nat.lt_or_ge (rounded m e accuracy) (2 ^ 53) with short | long
  · refine iff_of_true (.inr ?_) short
    have digits : (rounded m e accuracy).log2 < 53 := log2_lt short (by decide)
    unfold level
    omega
  · have full : rounded m e accuracy = 2 ^ 53 := Nat.le_antisymm few long
    rw [full]
    refine iff_of_false ?_ (Nat.lt_irrefl _)
    decide +kernel

theorem not_fits_above (accuracy : Accuracy) (low : e ≤ 970) (large : 1023 < (m.log2 : Int) + e) :
    ¬ Fits (roundWithAccuracy Format.binary64 sign m e accuracy) := by
  have nonzero : m ≠ 0 := ne_zero_of_log2 (by omega)
  have few : (level m e - e).toNat ≤ m.log2 := by
    unfold level
    omega
  have filled : 0 < rounded m e accuracy :=
    Nat.lt_of_lt_of_le (shifted_pos nonzero few) (shifted_le_rounded m e accuracy)
  rw [fits_roundWithAccuracy_iff]
  rintro (zero | fits)
  · omega
  · unfold level at fits
    omega

/-- Rounding is finite below half a unit past the largest double. -/
theorem fits_iff_halves (accuracy : Accuracy) (low : e ≤ 970) :
    Fits (roundWithAccuracy Format.binary64 sign m e accuracy) ↔
      halves (ExtendedMantissa.ofMantissaAndAccuracy m accuracy) < (2 ^ 54 - 1) * 2 ^ (971 - e).toNat := by
  have ⟨above, below⟩ := halves_bounds (m := m) accuracy
  have bound : m < 2 ^ (m.log2 + 1) := Nat.lt_log2_self
  rcases Int.lt_trichotomy (m.log2 + e) 1023 with lower | top | higher
  · apply iff_of_true (fits_below accuracy low lower)
    have room : m.log2 + 2 ≤ 53 + (971 - e).toNat := by omega
    calc halves (ExtendedMantissa.ofMantissaAndAccuracy m accuracy) < 2 * (m + 1) := below
      _ ≤ 2 ^ (m.log2 + 1) * 2 := by omega
      _ = 2 ^ (m.log2 + 2) := rfl
      _ ≤ 2 ^ (53 + (971 - e).toNat) := Nat.pow_le_pow_right Nat.two_pos room
      _ = 2 ^ 53 * 2 ^ (971 - e).toNat := Nat.pow_add 2 53 _
      _ ≤ (2 ^ 54 - 1) * 2 ^ (971 - e).toNat := Nat.mul_le_mul_right _ (by decide)
  · have shift : (level m e - e).toNat = (971 - e).toNat := by
      unfold level
      omega
    have small := mantissa_lt m e
    rw [← mantissa_shifted m accuracy] at small
    rw [fits_top accuracy low top, rounded, roundedMantissa_lt small, halves_shiftRight, shift,
      Nat.div_lt_iff_lt_mul (Nat.two_pow_pos _)]
  · apply iff_of_false (not_fits_above accuracy low higher)
    have room : 54 + (971 - e).toNat ≤ m.log2 + 1 := by omega
    have nonzero : m ≠ 0 := ne_zero_of_log2 (by omega)
    apply Nat.not_lt.mpr
    calc (2 ^ 54 - 1) * 2 ^ (971 - e).toNat ≤ 2 ^ 54 * 2 ^ (971 - e).toNat := Nat.mul_le_mul_right _ (by decide)
      _ = 2 ^ (54 + (971 - e).toNat) := (Nat.pow_add 2 54 _).symm
      _ ≤ 2 ^ (m.log2 + 1) := Nat.pow_le_pow_right Nat.two_pos room
      _ = 2 ^ m.log2 * 2 := rfl
      _ ≤ m * 2 := Nat.mul_le_mul_right 2 (Nat.log2_self_le nonzero)
      _ = 2 * m := Nat.mul_comm m 2
      _ ≤ halves (ExtendedMantissa.ofMantissaAndAccuracy m accuracy) := above

/-! ### The limit -/

/-- Half a unit past the largest double, from where on infinity is the nearest. -/
def overflow : Nat :=
  2 ^ 1024 - 2 ^ 970

theorem overflow_eq : overflow = (2 ^ 54 - 1) * 2 ^ 970 := by
  decide +kernel

theorem overflow_pos : 0 < overflow := by
  decide +kernel

theorem overflow_le {n : Nat} (large : 1024 ≤ n) : overflow ≤ 2 ^ n := by
  obtain ⟨top, same, bound⟩ : ∃ top, top = 1024 ∧ overflow ≤ 2 ^ top := ⟨1024, rfl, by decide +kernel⟩
  exact Nat.le_trans bound (Nat.pow_le_pow_right Nat.two_pos (by omega))

theorem halves_quotient (n : Nat) {d : Nat} (positive : 0 < d) :
    halves (ExtendedMantissa.ofMantissaAndAccuracy (n / d) (accuracyOfFraction (n % d) d)) = 2 * n / d := by
  have rest : n % d < d := Nat.mod_lt n positive
  have double : 2 * n = 2 * (n % d) + d * (2 * (n / d)) := by
    have split : d * (n / d) + n % d = n := Nat.div_add_mod n d
    have twice : d * (2 * (n / d)) = 2 * (d * (n / d)) := Nat.mul_left_comm d 2 _
    omega
  rw [double, Nat.add_mul_div_left _ _ positive, Nat.add_comm]
  generalize n / d = q
  generalize n % d = r at rest ⊢
  unfold accuracyOfFraction
  split
  next exact =>
    subst exact
    rw [Nat.mul_zero, Nat.zero_div]
    rfl
  next =>
    cases order : compare (2 * r) d with
    | lt =>
      rw [Nat.div_eq_of_lt (Nat.compare_eq_lt.mp order)]
      rfl
    | eq =>
      rw [Nat.compare_eq_eq.mp order, Nat.div_self positive]
      rfl
    | gt =>
      have most : 2 * r / d = 1 := by
        have above := Nat.compare_eq_gt.mp order
        apply Nat.div_eq_of_lt_le <;> omega
      rw [most]
      rfl

/-- A quotient is rounded to a finite double if it is below the limit. -/
theorem fits_quotient (n s : Nat) {d : Nat} (positive : 0 < d) :
    Fits (roundWithAccuracy Format.binary64 sign
      (n * 2 ^ s / d) (-(s : Int)) (accuracyOfFraction (n * 2 ^ s % d) d)) ↔
      n < overflow * d := by
  have places : (971 - -(s : Int)).toNat = 970 + (s + 1) := by omega
  have left : 2 * (n * 2 ^ s) = n * 2 ^ (s + 1) := by
    rw [Nat.pow_succ, Nat.mul_comm, Nat.mul_assoc]
  have right : (2 ^ 54 - 1) * 2 ^ (970 + (s + 1)) * d = overflow * d * 2 ^ (s + 1) := by
    rw [overflow_eq, mul_pow_add]
  rw [fits_iff_halves _ (by omega), halves_quotient _ positive, Nat.div_lt_iff_lt_mul positive, places, left, right]
  exact Nat.mul_lt_mul_right (Nat.two_pow_pos _)

theorem fits_scaled (n s : Nat) :
    Fits (roundWithAccuracy Format.binary64 sign (n * 2 ^ s) (-(s : Int)) .exact) ↔ n < overflow := by
  have whole := @fits_quotient sign n s 1 Nat.one_pos
  have exact : accuracyOfFraction 0 1 = .exact := rfl
  rwa [Nat.div_one, Nat.mod_one, exact, Nat.mul_one] at whole

/-! ### Integers -/

theorem fits_round (m : Nat) : Fits (UnpackedFloat.round Format.binary64 sign m 0) ↔ m < overflow := by
  have shifted : UnpackedFloat.round Format.binary64 sign m 0 =
      roundWithAccuracy Format.binary64 sign (m <<< (0 - max ((m.log2 : Int) + 1 + 0 - 53) (-1074)).toNat)
        (0 - ((0 - max ((m.log2 : Int) + 1 + 0 - 53) (-1074)).toNat : Int)) .exact := rfl
  rw [shifted, Nat.shiftLeft_eq]
  generalize (0 - max ((m.log2 : Int) + 1 + 0 - 53) (-1074)).toNat = s
  rw [Int.zero_sub]
  exact fits_scaled m s

theorem isFinite_ofInt (n : Int) : (ofInt n).isFinite = true ↔ n.natAbs < overflow := by
  refine isFinite_ofParts.trans ?_
  unfold UnpackedFloat.ofInt UnpackedFloat.normalize
  split
  next negative =>
    have same : (-n).toNat = n.natAbs := by
      have := Int.compare_eq_lt.mp negative
      omega
    rw [same]
    exact fits_round _
  next zero =>
    have same : n = 0 := Int.compare_eq_eq.mp zero
    subst same
    exact iff_of_true trivial overflow_pos
  next positive =>
    have same : n.toNat = n.natAbs := by
      have := Int.compare_eq_gt.mp positive
      omega
    rw [same]
    exact fits_round _

theorem isFinite_ofInt64 (n : Int64) : (ofInt n.toInt).isFinite = true := by
  have low : -2 ^ 63 ≤ n.toInt := Int64.le_toInt n
  have high : n.toInt < 2 ^ 63 := Int64.toInt_lt n
  have room : 2 ^ 64 ≤ overflow := by decide +kernel
  apply (isFinite_ofInt n.toInt).mpr
  omega

/-! ### Decimals -/

/-- Parts that are neither undefined nor negative. -/
def Positive : UnpackedFloat → Prop
  | .finite sign _ _ _ | .zero sign | .infinity sign => sign = .positive
  | .notANumber => False

theorem positive_roundWithAccuracy (accuracy : Accuracy) :
    Positive (roundWithAccuracy Format.binary64 .positive m e accuracy) := by
  unfold roundWithAccuracy
  dsimp only
  split <;> rfl

theorem positive_ofScientific (m : Nat) (e : Int) : Positive (ofScientific Format.binary64 m e) := by
  unfold ofScientific
  repeat' split
  · rfl
  · rfl
  · rfl
  · exact positive_roundWithAccuracy _
  · exact positive_roundWithAccuracy _

theorem ofDecimal_of_unfit (unfit : ¬ Fits (ofScientific Format.binary64 m e)) : ofDecimal m e = infinity := by
  have positive := positive_ofScientific m e
  show ofParts (ofScientific Format.binary64 m e) = ofParts (.infinity .positive)
  cases h : ofScientific Format.binary64 m e with
  | notANumber =>
    rw [h] at positive
    cases positive
  | infinity sign =>
    rw [h] at positive
    cases positive
    rfl
  | zero =>
    rw [h] at unfit
    exact absurd trivial unfit
  | finite sign m e filled =>
    rw [h] at positive unfit
    cases positive
    have large : 972 ≤ e := Int.not_lt.mp unfit
    exact ofParts_congr (pack_large filled large)

theorem fits_div {d : Nat} (filled : 0 < m) (positive : 0 < d) :
    Fits (div Format.binary64 (.finite .positive m 0 filled) (.finite .positive d 0 positive)) ↔
      m < overflow * d := by
  have divided : div Format.binary64 (.finite .positive m 0 filled) (.finite .positive d 0 positive) =
      roundWithAccuracy Format.binary64 (.positive / .positive) (divCore Format.binary64 m 0 d 0).1
        (divCore Format.binary64 m 0 d 0).2.1 (divCore Format.binary64 m 0 d 0).2.2 := rfl
  rw [divided]
  unfold divCore
  dsimp only
  generalize Format.binary64.targetExponent _ = target
  have places : min ((0 : Int) - 0) target = -((0 - 0 - min ((0 : Int) - 0) target).toNat : Int) := by omega
  rw [Nat.shiftLeft_eq]
  generalize (0 - 0 - min ((0 : Int) - 0) target).toNat = s at places ⊢
  rw [places]
  exact fits_quotient m s positive

theorem fits_ofScientific (m : Nat) (e : Int) :
    Fits (ofScientific Format.binary64 m e) ↔ m * 10 ^ e.toNat < overflow * 10 ^ (-e).toNat := by
  unfold ofScientific
  split
  next zero =>
    subst zero
    refine iff_of_true trivial ?_
    rw [Nat.zero_mul]
    exact Nat.mul_pos overflow_pos (Nat.pow_pos (by decide))
  split
  next nonzero large =>
    have large : 2048 < e := large
    have whole : (-e).toNat = 0 := by omega
    rw [whole, Nat.pow_zero, Nat.mul_one]
    refine iff_of_false id (Nat.not_lt.mpr ?_)
    calc overflow ≤ 2 ^ e.toNat := overflow_le (by omega)
      _ ≤ 10 ^ e.toNat := Nat.pow_le_pow_left (by decide) _
      _ ≤ m * 10 ^ e.toNat := Nat.le_mul_of_pos_left _ (Nat.pos_of_ne_zero nonzero)
  split
  next nonzero small tiny =>
    have tiny : e < -(2048 + (m.log2 : Int)) := tiny
    have fraction : e.toNat = 0 := by omega
    rw [fraction, Nat.pow_zero, Nat.mul_one]
    refine iff_of_true trivial ?_
    calc m < 2 ^ (m.log2 + 1) := Nat.lt_log2_self
      _ ≤ 2 ^ (-e).toNat := Nat.pow_le_pow_right Nat.two_pos (by omega)
      _ ≤ 10 ^ (-e).toNat := Nat.pow_le_pow_left (by decide) _
      _ ≤ overflow * 10 ^ (-e).toNat := Nat.le_mul_of_pos_left _ overflow_pos
  split
  next nonzero small normal whole =>
    have integer : (-e).toNat = 0 := by omega
    rw [integer, Nat.pow_zero, Nat.mul_one]
    show Fits (roundWithAccuracy Format.binary64
      (.positive * .positive) ((m <<< 53) * 10 ^ e.toNat) (-53 + 0) .exact) ↔
      m * 10 ^ e.toNat < overflow
    rw [Nat.shiftLeft_eq, Nat.mul_right_comm]
    exact fits_scaled (m * 10 ^ e.toNat) 53
  next nonzero small normal part =>
    have fraction : e.toNat = 0 := by omega
    rw [fraction, Nat.pow_zero, Nat.mul_one]
    exact fits_div _ _

theorem isFinite_ofDecimal (m : Nat) (e : Int) :
    (ofDecimal m e).isFinite = true ↔ m * 10 ^ e.toNat < overflow * 10 ^ (-e).toNat :=
  isFinite_ofParts.trans (fits_ofScientific m e)

theorem ofDecimal_of_overflow (large : overflow * 10 ^ (-e).toNat ≤ m * 10 ^ e.toNat) : ofDecimal m e = infinity := by
  apply ofDecimal_of_unfit
  rw [fits_ofScientific]
  exact Nat.not_lt.mpr large

end Calculator.Double
