import Calculator.Proofs.Double.Integers

/-!
# Doubles without a fraction

The difference of two doubles is only zero if they are the same number. So a double from which nothing is cut off is an
integer.
-/

namespace Calculator.Double

open Float.Model (UnpackedFloat Format)
open Float.Model.UnpackedFloat

variable {sign : Sign} {m : Nat} {e : Int} {x y : Float}

theorem beq_zero_iff : (x == 0.0) = true ↔ ∃ sign, parts x = .zero sign := by
  have zero : parts 0.0 = .zero .positive := rfl
  show ((parts x).compare (parts 0.0) == some .eq) = true ↔ _
  rw [zero]
  cases parts x with
  | notANumber => exact iff_of_false nofun nofun
  | zero sign => exact iff_of_true rfl ⟨sign, rfl⟩
  | infinity sign | finite sign => cases sign <;> exact iff_of_false nofun nofun

/-! ### Differences -/

/-- The zeros that rounding adds to a significand with fewer digits than a double. -/
def missing (m : Nat) (e : Int) : Nat :=
  (e - max ((m.log2 : Int) + e - 52) (-1074)).toNat

theorem round_eq_padded (sign : Sign) (m : Nat) (e : Int) : UnpackedFloat.round Format.binary64 sign m e =
    roundWithAccuracy Format.binary64 sign (m * 2 ^ missing m e) (e - missing m e) .exact := by
  have places : (e - max ((m.log2 : Int) + 1 + e - 53) (-1074)).toNat = missing m e := by
    unfold missing
    omega
  have shifted : UnpackedFloat.round Format.binary64 sign m e =
      roundWithAccuracy Format.binary64 sign (m <<< (e - max ((m.log2 : Int) + 1 + e - 53) (-1074)).toNat)
        (e - ((e - max ((m.log2 : Int) + 1 + e - 53) (-1074)).toNat : Int)) .exact := rfl
  rw [shifted, places, Nat.shiftLeft_eq]

/-- A number that is not zero is not rounded to zero, if it is a multiple of the least double. -/
theorem parts_round_ne_zero {other : Sign} (nonzero : m ≠ 0) (low : -1074 ≤ e) :
    parts (ofParts (UnpackedFloat.round Format.binary64 sign m e)) ≠ .zero other := by
  intro zero
  have finite : (ofParts (UnpackedFloat.round Format.binary64 sign m e)).isFinite = true := by
    show (parts _).isFinite = true
    rw [zero]
    rfl
  have fits := isFinite_ofParts.mp finite
  have filled : m * 2 ^ missing m e ≠ 0 := Nat.mul_ne_zero nonzero (Nat.ne_of_gt (Nat.two_pow_pos _))
  have still : -1074 ≤ e - missing m e := by
    unfold missing
    omega
  have enough : 52 ≤ (m * 2 ^ missing m e).log2 ∨ e - missing m e ≤ -1074 := by
    rw [log2_mul_two_pow nonzero]
    unfold missing
    omega
  rw [round_eq_padded] at zero fits
  rw [parts_ofParts (areParts_roundWithAccuracy enough fits), roundWithAccuracy_eq] at zero
  have kept : rounded (m * 2 ^ missing m e) (e - missing m e) .exact ≠ 0 := by
    have left := Nat.pos_of_ne_zero ((shifted_eq_zero still).not.mpr filled)
    exact Nat.ne_of_gt (Nat.lt_of_lt_of_le left (shifted_le_rounded _ _ _))
  unfold carried at zero
  rw [dif_neg ((shifted_eq_zero (le_level _ _)).not.mpr kept)] at zero
  cases zero

theorem decreaseExponent_eq {lower : Int} : (decreaseExponent m e lower).1 = m * 2 ^ (e - lower).toNat :=
  Nat.shiftLeft_eq m _

/-- Two doubles whose difference is zero are the same multiple of a power of two. -/
theorem same_of_sub_eq_zero {n : Nat} {f : Int} {other : Sign} {positive : 0 < m} {positive' : 0 < n}
    (left : parts x = .finite sign m e positive) (right : parts y = .finite other n f positive')
    (zero : (x - y == 0.0) = true) :
    sign.apply (m * 2 ^ (e - min e f).toNat : Nat) = other.apply (n * 2 ^ (f - min e f).toNat : Nat) := by
  obtain ⟨_, zero⟩ := beq_zero_iff.mp zero
  have lowest : -1074 ≤ min e f := by
    have least := areParts_parts x
    have least' := areParts_parts y
    rw [left] at least
    rw [right] at least'
    exact Int.le_min.mpr ⟨least.2.2.1, least'.2.2.1⟩
  have difference : parts (x - y) = parts (ofParts (UnpackedFloat.normalize Format.binary64
      (sign.apply (m * 2 ^ (e - min e f).toNat : Nat) - other.apply (n * 2 ^ (f - min e f).toNat : Nat))
      (min e f) .positive)) := by
    show parts (ofParts (UnpackedFloat.sub Format.binary64 (parts x) (parts y))) = _
    rw [left, right]
    unfold UnpackedFloat.sub
    dsimp only
    rw [decreaseExponent_eq, decreaseExponent_eq]
  rw [difference] at zero
  generalize sign.apply (m * 2 ^ (e - min e f).toNat : Nat) = a at zero ⊢
  generalize other.apply (n * 2 ^ (f - min e f).toNat : Nat) = b at zero ⊢
  unfold UnpackedFloat.normalize at zero
  split at zero
  next below =>
    have below := Int.compare_eq_lt.mp below
    exact absurd zero (parts_round_ne_zero (by omega) lowest)
  next equal =>
    have equal := Int.compare_eq_eq.mp equal
    omega
  next above =>
    have above := Int.compare_eq_gt.mp above
    exact absurd zero (parts_round_ne_zero (by omega) lowest)

/-! ### Whole doubles -/

theorem apply_injective {a b : Nat} (same : sign.apply a = sign.apply b) : a = b := by
  cases sign
  · exact Int.ofNat_inj.mp (Int.neg_inj.mp same)
  · exact Int.ofNat_inj.mp same

/-- A double with digits after the point differs from its whole part, unless they are all zero. -/
theorem whole_of_sub_trunc {positive : 0 < m} (known : parts x = .finite sign m e positive) (fraction : e < 0)
    (zero : (x - trunc x == 0.0) = true) : m = m / 2 ^ (-e).toNat * 2 ^ (-e).toNat := by
  have are := areParts_parts x
  rw [known] at are
  have cut : trunc x = ofParts (UnpackedFloat.round Format.binary64 sign (m / 2 ^ (-e).toNat) 0) := by
    unfold trunc wholeBy
    rw [known]
    dsimp only
    rw [if_neg (by omega), quotientDown, Nat.one_shiftLeft, nearest]
  have short : m / 2 ^ (-e).toNat < 2 ^ 53 := Nat.lt_of_le_of_lt (Nat.div_le_self _ _) are.1
  generalize m / 2 ^ (-e).toNat = q at cut short ⊢
  by_cases none : q = 0
  · -- The whole part is zero, and the difference is the double itself.
    subst none
    rw [round_zero] at cut
    obtain ⟨_, zero⟩ := beq_zero_iff.mp zero
    have unchanged : parts (x - trunc x) = parts x := by
      show parts (ofParts (UnpackedFloat.sub Format.binary64 (parts x) (parts (trunc x)))) = parts x
      have nothing : parts (trunc x) = .zero sign := by
        rw [cut]
        exact parts_ofParts trivial
      rw [known, nothing, UnpackedFloat.sub]
      · exact parts_ofParts are
      all_goals simp
    rw [unchanged, known] at zero
    cases zero
  obtain ⟨-, positive', kept⟩ := @round_of_digits sign q q 0 none short (Nat.mul_one q).symm
  have digits : q.log2 < 53 := log2_lt short (by decide)
  have whole : parts (trunc x) = .finite sign (q * 2 ^ (52 - q.log2)) ((q.log2 : Int) - 52)
      (Nat.mul_pos (Nat.pos_of_ne_zero none) (Nat.two_pow_pos _)) := by
    have fits : Fits (UnpackedFloat.round Format.binary64 sign q 0) := by
      rw [kept]
      show (q.log2 : Int) - 52 < 972
      omega
    rw [cut, parts_ofParts (areParts_round fits), kept]
    refine finite_congr ?_ rfl
    have nothing : q.log2 - 52 = 0 := by omega
    rw [nothing, Nat.pow_zero, Nat.div_one, padded]
  have same := apply_injective (same_of_sub_eq_zero known whole zero)
  have shift : (52 - q.log2) + ((q.log2 : Int) - 52 - min e ((q.log2 : Int) - 52)).toNat =
      (-e).toNat + (e - min e ((q.log2 : Int) - 52)).toNat := by omega
  rw [Nat.mul_assoc, ← Nat.pow_add, shift, Nat.pow_add, ← Nat.mul_assoc] at same
  exact Nat.eq_of_mul_eq_mul_right (Nat.two_pow_pos _) same

/-- The difference of an infinite or undefined value from its whole part is undefined. -/
theorem sub_trunc_undefined (cut : trunc x = x)
    (undefined : UnpackedFloat.sub Format.binary64 (parts x) (parts x) = .notANumber) :
    (x - trunc x == 0.0) = false := by
  apply Bool.eq_false_iff.mpr
  intro zero
  obtain ⟨_, zero⟩ := beq_zero_iff.mp zero
  have difference : parts (x - x) = parts (ofParts (UnpackedFloat.sub Format.binary64 (parts x) (parts x))) := rfl
  rw [cut, difference, undefined] at zero
  cases zero

/-- A double without a fraction is an integer, and neither infinite nor undefined. -/
theorem represents_of_whole (whole : hasFraction x = false) : ∃ n, Represents x n := by
  have zero : (x - trunc x == 0.0) = true := by simpa [hasFraction, fract, bne] using whole
  cases known : parts x with
  | zero => exact ⟨0, by simp [Represents, known]⟩
  | finite sign m e positive =>
    rcases Int.lt_or_le e 0 with fraction | integral
    · refine ⟨sign.apply (m / 2 ^ (-e).toNat : Nat), ?_⟩
      have none : e.toNat = 0 := by omega
      have size := congrArg (fun n : Nat => sign.apply n) (whole_of_sub_trunc known fraction zero)
      simp only [apply_mul] at size
      simp only [Represents, known, none, Nat.pow_zero, Nat.mul_one]
      rw [size, Int.natCast_pow]
      rfl
    · refine ⟨sign.apply (m * 2 ^ e.toNat : Nat), ?_⟩
      have none : (-e).toNat = 0 := by omega
      simp [Represents, known, none]
  | infinity sign =>
    have undefined := sub_trunc_undefined (x := x) (by simp [trunc, wholeBy, known]) (by rw [known]; cases sign <;> rfl)
    simp [undefined] at zero
  | notANumber =>
    have undefined := sub_trunc_undefined (x := x) (by simp [trunc, wholeBy, known]) (by rw [known]; rfl)
    simp [undefined] at zero

end Calculator.Double
