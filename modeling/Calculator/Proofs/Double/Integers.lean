import Calculator.Double.Whole
import Calculator.Proofs.Double.Packing

/-!
# Integers as doubles

An integer is converted to the nearest double, which is the one that its decimal digits are read as, has
no fraction, and is the integer itself if there is such a double.
-/

namespace Calculator.Double

open Float.Model (UnpackedFloat Format)
open Float.Model.UnpackedFloat

variable {sign : Sign} {m : Nat} {e : Int} {n : Int} {x : Float}

/-! ### Exact rounding -/

theorem repeat_succ {α : Type} (f : α → α) (n : Nat) (a : α) : (n + 1).repeat f a = n.repeat f (f a) := by
  induction n with
  | zero => rfl
  | succ n ih => exact congrArg f ih

/-- Zeros that are shifted out leave nothing behind. -/
theorem shiftRight_mul (m a n : Nat) : ExtendedMantissa.ofMantissaAndAccuracy (m * 2 ^ a) .exact >>> (a + n) =
    ExtendedMantissa.ofMantissaAndAccuracy m .exact >>> n := by
  induction a with
  | zero => rw [Nat.pow_zero, Nat.mul_one, Nat.zero_add]
  | succ a ih =>
    have even : (ExtendedMantissa.ofMantissaAndAccuracy (m * 2 ^ (a + 1)) .exact).shiftRightOne =
        ExtendedMantissa.ofMantissaAndAccuracy (m * 2 ^ a) .exact := by
      have double : m * 2 ^ (a + 1) = m * 2 ^ a * 2 := by rw [Nat.pow_succ, Nat.mul_assoc]
      rw [double]
      simp [ExtendedMantissa.ofMantissaAndAccuracy, ExtendedMantissa.shiftRightOne]
    rw [← ih, Nat.add_right_comm]
    show (a + n + 1).repeat ExtendedMantissa.shiftRightOne _ = (a + n).repeat ExtendedMantissa.shiftRightOne _
    rw [repeat_succ, even]

theorem rounded_exact (divides : 2 ^ (level m e - e).toNat ∣ m) :
    rounded m e .exact = m / 2 ^ (level m e - e).toNat := by
  unfold rounded
  generalize (level m e - e).toNat = a at divides
  obtain ⟨n, rfl⟩ := divides
  have shifted := shiftRight_mul n a 0
  rw [Nat.add_zero] at shifted
  rw [Nat.mul_comm, shifted, Nat.mul_div_cancel n (Nat.two_pow_pos a)]
  rfl

/-- A number of which only zeros are shifted out is rounded to itself. -/
theorem roundWithAccuracy_exact (divides : 2 ^ (level m e - e).toNat ∣ m)
    (positive : 0 < m / 2 ^ (level m e - e).toNat) : roundWithAccuracy Format.binary64 sign m e .exact =
      .finite sign (m / 2 ^ (level m e - e).toNat) (level m e) positive := by
  rw [roundWithAccuracy_eq, rounded_exact divides]
  exact carried_of_lt positive (mantissa_lt m e) (le_level m e)

theorem log2_mul_two_pow (nonzero : m ≠ 0) (a : Nat) : (m * 2 ^ a).log2 = m.log2 + a := by
  induction a with
  | zero => rw [Nat.pow_zero, Nat.mul_one, Nat.add_zero]
  | succ a ih =>
    have filled : m * 2 ^ a ≠ 0 := Nat.mul_ne_zero nonzero (Nat.ne_of_gt (Nat.two_pow_pos a))
    have double : m * 2 ^ (a + 1) = 2 * (m * 2 ^ a) := by rw [Nat.pow_succ, ← Nat.mul_assoc, Nat.mul_comm]
    rw [double, Nat.log2_two_mul filled, ih, Nat.add_assoc]

theorem level_mul (nonzero : m ≠ 0) (long : 52 ≤ m.log2) (a : Nat) : level (m * 2 ^ a) (e - a) = level m e := by
  unfold level
  rw [log2_mul_two_pow nonzero]
  omega

/-- Zeros at the end of a long significand do not matter. -/
theorem roundWithAccuracy_mul (nonzero : m ≠ 0) (long : 52 ≤ m.log2) (a : Nat) :
    roundWithAccuracy Format.binary64 sign (m * 2 ^ a) (e - a) .exact =
      roundWithAccuracy Format.binary64 sign m e .exact := by
  have levels := @level_mul m e nonzero long a
  have same : rounded (m * 2 ^ a) (e - a) .exact = rounded m e .exact := by
    have amount : (level m e - (e - a)).toNat = a + (level m e - e).toNat := by
      unfold level
      omega
    rw [rounded, levels, amount, shiftRight_mul, rounded]
  rw [roundWithAccuracy_eq, roundWithAccuracy_eq, levels, same]

/-! ### Rounding integers -/

/-- The zeros that are added to a short integer give it 53 digits. -/
def padded (m : Nat) : Nat :=
  m * 2 ^ (52 - m.log2)

theorem padded_ne_zero (nonzero : m ≠ 0) : padded m ≠ 0 :=
  Nat.mul_ne_zero nonzero (Nat.ne_of_gt (Nat.two_pow_pos _))

theorem log2_padded (nonzero : m ≠ 0) : (padded m).log2 = max 52 m.log2 := by
  rw [padded, log2_mul_two_pow nonzero]
  omega

theorem level_padded (nonzero : m ≠ 0) : level (padded m) (-(52 - m.log2 : Nat)) = (m.log2 : Int) - 52 := by
  unfold level
  rw [log2_padded nonzero]
  omega

theorem round_eq (sign : Sign) (m : Nat) : UnpackedFloat.round Format.binary64 sign m 0 =
    roundWithAccuracy Format.binary64 sign (padded m) (-(52 - m.log2 : Nat)) .exact := by
  have shifted : UnpackedFloat.round Format.binary64 sign m 0 =
      roundWithAccuracy Format.binary64 sign (m <<< (0 - max ((m.log2 : Int) + 1 + 0 - 53) (-1074)).toNat)
        (0 - ((0 - max ((m.log2 : Int) + 1 + 0 - 53) (-1074)).toNat : Int)) .exact := rfl
  have places : (0 - max ((m.log2 : Int) + 1 + 0 - 53) (-1074)).toNat = 52 - m.log2 := by omega
  rw [shifted, places, Nat.shiftLeft_eq, Int.zero_sub, padded]

theorem round_zero (sign : Sign) : UnpackedFloat.round Format.binary64 sign 0 0 = .zero sign := by
  cases sign <;> rfl

theorem neg_round (sign : Sign) : (UnpackedFloat.round Format.binary64 sign m 0).neg =
    UnpackedFloat.round Format.binary64 (-sign) m 0 := by
  rw [round_eq, round_eq, roundWithAccuracy_eq, roundWithAccuracy_eq]
  unfold carried
  split <;> rfl

theorem areParts_round (fits : Fits (UnpackedFloat.round Format.binary64 sign m 0)) :
    AreParts (UnpackedFloat.round Format.binary64 sign m 0) := by
  by_cases zero : m = 0
  · subst zero
    rw [round_zero]
    trivial
  · rw [round_eq] at fits ⊢
    refine areParts_roundWithAccuracy (.inl ?_) fits
    rw [log2_padded zero]
    exact Nat.le_max_left _ _

/-- An integer of 53 digits at most, with zeros behind them, is kept. -/
theorem round_of_digits {k a : Nat} (nonzero : m ≠ 0) (short : k < 2 ^ 53) (size : m = k * 2 ^ a) :
    2 ^ (m.log2 - 52) ∣ padded m ∧ ∃ positive, UnpackedFloat.round Format.binary64 sign m 0 =
      .finite sign (padded m / 2 ^ (m.log2 - 52)) ((m.log2 : Int) - 52) positive := by
  have filled : k ≠ 0 := by
    rintro rfl
    exact nonzero (size.trans (Nat.zero_mul _))
  have zeros : m.log2 - 52 ≤ a := by
    have digits : m.log2 = k.log2 + a := by rw [size, log2_mul_two_pow filled]
    have few : k.log2 < 53 := log2_lt short (by decide)
    omega
  have ends : 2 ^ (m.log2 - 52) ∣ k * 2 ^ a := Nat.dvd_mul_left_of_dvd (Nat.pow_dvd_pow 2 zeros) k
  rw [← size] at ends
  have divides : 2 ^ (m.log2 - 52) ∣ padded m := Nat.dvd_mul_right_of_dvd ends _
  have positive : 0 < padded m / 2 ^ (m.log2 - 52) :=
    Nat.div_pos (Nat.le_of_dvd (Nat.pos_of_ne_zero (padded_ne_zero nonzero)) divides) (Nat.two_pow_pos _)
  refine ⟨divides, positive, ?_⟩
  have shift : (level (padded m) (-(52 - m.log2 : Nat)) - -((52 - m.log2 : Nat) : Int)).toNat = m.log2 - 52 := by
    rw [level_padded nonzero]
    omega
  rw [round_eq, roundWithAccuracy_exact (by rwa [shift]) (by rwa [shift])]
  exact finite_congr (by rw [shift]) (level_padded nonzero)

/-- A longer integer is rounded to one that has no digits after the point. -/
theorem le_exponent_of_long {sign' : Sign} {n : Nat} {positive : 0 < n} (nonzero : m ≠ 0) (long : 52 ≤ m.log2)
    (h : UnpackedFloat.round Format.binary64 sign m 0 = .finite sign' n e positive) : 0 ≤ e := by
  rw [round_eq, roundWithAccuracy_eq, level_padded nonzero] at h
  unfold carried at h
  split at h
  · cases h
  · cases h
    unfold level
    omega

/-! ### Conversion -/

def signOf (n : Int) : Sign :=
  if n < 0 then .negative else .positive

theorem signOf_neg (nonzero : n ≠ 0) : signOf (-n) = -signOf n := by
  unfold signOf
  rcases Int.lt_or_gt_of_ne nonzero with negative | positive
  · rw [if_neg (by omega), if_pos negative]
    rfl
  · rw [if_pos (by omega), if_neg (by omega)]
    rfl

theorem ofInt_eq (n : Int) : ofInt n = nearest (signOf n) n.natAbs 0 := by
  show ofParts (UnpackedFloat.normalize Format.binary64 n 0 .positive) =
    ofParts (UnpackedFloat.round Format.binary64 (signOf n) n.natAbs 0)
  unfold UnpackedFloat.normalize signOf
  split
  next negative =>
    have negative := Int.compare_eq_lt.mp negative
    have same : (-n).toNat = n.natAbs := by omega
    rw [if_pos negative, same]
  next zero =>
    obtain rfl := Int.compare_eq_eq.mp zero
    rfl
  next positive =>
    have positive := Int.compare_eq_gt.mp positive
    have same : n.toNat = n.natAbs := by omega
    rw [if_neg (by omega), same]

theorem parts_ofInt (small : n.natAbs < overflow) :
    parts (ofInt n) = UnpackedFloat.round Format.binary64 (signOf n) n.natAbs 0 := by
  rw [ofInt_eq]
  exact parts_ofParts (areParts_round ((fits_round n.natAbs).mpr small))

theorem neg_ofInt (nonzero : n ≠ 0) (small : n.natAbs < overflow) : -ofInt n = ofInt (-n) := by
  show ofParts (parts (ofInt n)).neg = ofInt (-n)
  rw [parts_ofInt small, neg_round, ← signOf_neg nonzero, ← Int.natAbs_neg, ofInt_eq, nearest]

/-- The digits of an integer are read as the double that it is converted to. -/
theorem ofDecimal_eq_ofInt (m : Nat) : ofDecimal m 0 = ofInt m := by
  rw [ofInt_eq]
  show ofParts (ofScientific Format.binary64 m 0) = ofParts (UnpackedFloat.round Format.binary64 .positive m 0)
  congr 1
  by_cases zero : m = 0
  · subst zero
    rfl
  have normal : ¬ (0 : Int) < -((2 ^ Format.binary64.exponentBits : Int) + m.log2) := by
    show ¬ (0 : Int) < -(2048 + (m.log2 : Int))
    omega
  have product : ofScientific Format.binary64 m 0 =
      roundWithAccuracy Format.binary64 .positive (m * 2 ^ 53) (-53) .exact := by
    unfold ofScientific
    rw [dif_neg zero, if_neg (by decide), if_neg normal, if_pos (Int.le_refl 0)]
    show roundWithAccuracy Format.binary64 .positive ((m <<< 53) * 1) (-53 + 0) .exact = _
    rw [Nat.shiftLeft_eq, Nat.mul_one]
    rfl
  -- Both roundings begin with zeros behind the integer, and with 52 digits or more it does not matter how many.
  have long : 52 ≤ (padded m).log2 := by
    rw [log2_padded zero]
    exact Nat.le_max_left _ _
  obtain ⟨more, zeros⟩ : ∃ more, (52 - m.log2) + more = 53 := ⟨53 - (52 - m.log2), by omega⟩
  have significand : padded m * 2 ^ more = m * 2 ^ 53 := by
    rw [padded, Nat.mul_assoc, ← Nat.pow_add, zeros]
  have exponent : -((52 - m.log2 : Nat) : Int) - more = -53 := by omega
  rw [product, round_eq, ← significand, ← exponent]
  exact roundWithAccuracy_mul (padded_ne_zero zero) long more

/-! ### Fractions -/

theorem wholeBy_ofInt {choose : Sign → Nat → Nat → Nat}
    (exact : ∀ sign m d, 0 < d → choose sign (m * d) d = m)
    (small : n.natAbs < overflow) : wholeBy choose (ofInt n) = ofInt n := by
  have known := parts_ofInt small
  have converted := ofInt_eq n
  unfold wholeBy
  generalize n.natAbs = m at known converted
  generalize signOf n = sign at known converted
  by_cases zero : m = 0
  · subst zero
    rw [known, round_zero]
  rcases Nat.lt_or_ge m.log2 52 with short | long
  · obtain ⟨-, positive, kept⟩ :=
      @round_of_digits sign m m 0 zero ((Nat.log2_lt zero).mp (by omega)) (Nat.mul_one m).symm
    have places : (-((m.log2 : Int) - 52)).toNat = 52 - m.log2 := by omega
    have none : m.log2 - 52 = 0 := by omega
    rw [known, kept]
    dsimp only
    rw [if_neg (by omega), places, none, Nat.pow_zero, Nat.div_one, Nat.one_shiftLeft, padded,
      exact sign m _ (Nat.two_pow_pos _), converted]
  · rw [known]
    split
    next found => rw [if_pos (le_exponent_of_long zero long found)]
    next => rfl

theorem trunc_ofInt (small : n.natAbs < overflow) : trunc (ofInt n) = ofInt n :=
  wholeBy_ofInt (fun _ m _ positive => Nat.mul_div_cancel m positive) small

theorem sub_self (finite : x.isFinite = true) : x - x = ofParts (.zero .positive) := by
  have fits := fits_parts finite
  show ofParts (UnpackedFloat.sub Format.binary64 (parts x) (parts x)) = ofParts (.zero .positive)
  cases same : parts x with
  | notANumber | infinity =>
    rw [same] at fits
    exact fits.elim
  | zero sign => cases sign <;> rfl
  | finite sign m e positive =>
    unfold UnpackedFloat.sub UnpackedFloat.normalize
    dsimp only
    rw [Int.sub_self]
    rfl

theorem hasFraction_ofInt (small : n.natAbs < overflow) : hasFraction (ofInt n) = false := by
  have nothing := sub_self ((isFinite_ofInt n).mpr small)
  unfold hasFraction fract
  rw [trunc_ofInt small, nothing]
  rfl

/-! ### Integers that are doubles -/

def Represents (x : Float) (n : Int) : Prop :=
  match parts x with
  | .zero _ => n = 0
  | .finite sign m e _ => n * 2 ^ (-e).toNat = sign.apply (m * 2 ^ e.toNat : Nat)
  | _ => False

theorem apply_signOf (n : Int) : (signOf n).apply n.natAbs = n := by
  unfold signOf
  split
  · show -(n.natAbs : Int) = n
    omega
  · show (n.natAbs : Int) = n
    omega

theorem apply_mul (sign : Sign) (m d : Nat) : sign.apply (m * d : Nat) = sign.apply m * d := by
  cases sign
  · show -((m * d : Nat) : Int) = -(m : Int) * d
    rw [Int.natCast_mul, Int.neg_mul]
  · exact Int.natCast_mul m d

theorem natAbs_mul_of_eq_apply {d : Nat} (h : n * 2 ^ d = sign.apply m) : n.natAbs * 2 ^ d = m := by
  have sizes := congrArg Int.natAbs h
  rw [Int.natAbs_mul, Int.natAbs_pow] at sizes
  cases sign
  · exact sizes.trans (Int.natAbs_neg m)
  · exact sizes

/-- An integer that is a double has 53 digits at most, with zeros behind them. -/
theorem Represents.digits (h : Represents x n) : ∃ k a, k < 2 ^ 53 ∧ n.natAbs = k * 2 ^ a := by
  have are := areParts_parts x
  unfold Represents at h
  split at h
  next =>
    subst h
    exact ⟨0, 0, by decide, rfl⟩
  next sign m e positive same =>
    rw [same] at are
    have size := natAbs_mul_of_eq_apply h
    rcases Int.le_total 0 e with whole | part
    · have none : (-e).toNat = 0 := by omega
      rw [none, Nat.pow_zero, Nat.mul_one] at size
      exact ⟨m, e.toNat, are.1, size⟩
    · have none : e.toNat = 0 := by omega
      rw [none, Nat.pow_zero, Nat.mul_one] at size
      have below : n.natAbs ≤ n.natAbs * 2 ^ (-e).toNat := Nat.le_mul_of_pos_right _ (Nat.two_pow_pos _)
      rw [size] at below
      exact ⟨n.natAbs, 0, Nat.lt_of_le_of_lt below are.1, (Nat.mul_one _).symm⟩
  next => exact h.elim

theorem represents_of_digits {k a : Nat} (small : n.natAbs < overflow)
    (short : k < 2 ^ 53) (size : n.natAbs = k * 2 ^ a) :
    Represents (ofInt n) n := by
  unfold Represents
  rw [parts_ofInt small]
  by_cases zero : n.natAbs = 0
  · rw [zero, round_zero]
    exact Int.natAbs_eq_zero.mp zero
  obtain ⟨divides, positive, kept⟩ := @round_of_digits (signOf n) n.natAbs k a zero short size
  have up : ((n.natAbs.log2 : Int) - 52).toNat = n.natAbs.log2 - 52 := by omega
  have down : (-((n.natAbs.log2 : Int) - 52)).toNat = 52 - n.natAbs.log2 := by omega
  rw [kept]
  dsimp only
  rw [up, down, Nat.div_mul_cancel divides, padded, apply_mul, apply_signOf, Int.natCast_pow]
  rfl

theorem represents_ofInt (small : n.natAbs < overflow) (exact : ∃ x, Represents x n) : Represents (ofInt n) n := by
  obtain ⟨x, h⟩ := exact
  obtain ⟨k, a, short, size⟩ := h.digits
  exact represents_of_digits small short size

/-- A double that is an integer is converted to it if it has 64 bits. -/
theorem Represents.toInt64?_eq (h : Represents x n) :
    toInt64? x = if -2 ^ 63 ≤ n ∧ n < 2 ^ 63 then some (Int64.ofInt n) else none := by
  have range : (Int64.minValue.toInt ≤ n ∧ n ≤ Int64.maxValue.toInt) ↔ (-2 ^ 63 ≤ n ∧ n < 2 ^ 63) := by
    have limits : Int64.minValue.toInt = -2 ^ 63 ∧ Int64.maxValue.toInt = 2 ^ 63 - 1 := by decide
    omega
  unfold Represents at h
  split at h
  next same =>
    rw [Double.toInt64?, same, h]
    rfl
  next sign m e positive same =>
    have value : sign.apply ((if 0 ≤ e then m <<< e.toNat else m >>> (-e).toNat : Nat) : Int) = n := by
      split
      next whole =>
        have none : (-e).toNat = 0 := by omega
        rw [none, Int.pow_zero, Int.mul_one] at h
        rw [Nat.shiftLeft_eq, h]
      next part =>
        have none : e.toNat = 0 := by omega
        rw [none, Nat.pow_zero, Nat.mul_one] at h
        have size := natAbs_mul_of_eq_apply h
        rw [← size, apply_mul, Int.natCast_pow] at h
        rw [← size, Nat.shiftRight_eq_div_pow, Nat.mul_div_cancel _ (Nat.two_pow_pos _)]
        exact (Int.eq_of_mul_eq_mul_right (Int.pow_ne_zero (by decide)) h).symm
    rw [Double.toInt64?, same]
    dsimp only
    rw [value]
    simp only [range]
  next => exact h.elim

end Calculator.Double
