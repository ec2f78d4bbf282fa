import Calculator.Double.Arithmetic
import Calculator.Proofs.Double.Integers

/-!
# Scaling and rounding

A factor or divisor of one changes nothing. A quotient does not overflow if the divisor is one or more, as
a power of ten is, which may be infinite. Rounding a finite double gives an integer, whose whole part is
itself.
-/

namespace Calculator.Double

open Float.Model (UnpackedFloat Format)
open Float.Model.UnpackedFloat

variable {sign : Sign} {m : Nat} {e : Int} {p : UnpackedFloat} {x y : Float}

/-! ### One -/

theorem log2_of_areParts {positive : 0 < m} (are : AreParts (.finite sign m e positive)) :
    m.log2 < 53 ∧ (m.log2 = 52 ∨ e = -1074) := by
  obtain ⟨short, normal, -, -⟩ := are
  have few : m.log2 < 53 := log2_lt short (by decide)
  refine ⟨few, normal.imp_left fun long => ?_⟩
  have := (Nat.le_log2 (Nat.ne_of_gt positive)).mpr long
  omega

/-- The parts of a double are rounded to themselves, also with zeros behind the significand. -/
theorem roundWithAccuracy_parts {positive : 0 < m} (are : AreParts (.finite sign m e positive)) (a : Nat) :
    roundWithAccuracy Format.binary64 sign (m * 2 ^ a) (e - a) .exact = .finite sign m e positive := by
  obtain ⟨few, normal⟩ := log2_of_areParts are
  have low : -1074 ≤ e := are.2.2.1
  have place : level (m * 2 ^ a) (e - a) = e := by
    unfold level
    rw [log2_mul_two_pow (Nat.ne_of_gt positive)]
    omega
  have shift : (level (m * 2 ^ a) (e - a) - (e - a)).toNat = a := by omega
  have significand : m * 2 ^ a / 2 ^ a = m := Nat.mul_div_cancel m (Nat.two_pow_pos a)
  rw [roundWithAccuracy_exact (by rw [shift]; exact Nat.dvd_mul_left _ _) (by rwa [shift, significand])]
  exact finite_congr (by rw [shift, significand]) place

theorem parts_one : parts 1.0 = .finite .positive (2 ^ 52) (-52) (Nat.two_pow_pos 52) := by
  rfl

theorem parts_mul_one (finite : x.isFinite = true) : parts (x * 1.0) = parts x := by
  have fits := fits_parts finite
  have are := areParts_parts x
  show parts (ofParts (UnpackedFloat.mul Format.binary64 (parts x) (parts 1.0))) = parts x
  rw [parts_one]
  cases known : parts x with
  | notANumber | infinity =>
    rw [known] at fits
    exact fits.elim
  | zero sign => cases sign <;> rfl
  | finite sign m e positive =>
    rw [known] at are
    have same : sign * .positive = sign := by cases sign <;> rfl
    unfold UnpackedFloat.mul
    dsimp only
    rw [same, ← Int.sub_eq_add_neg]
    exact (congrArg (fun p => parts (ofParts p)) (roundWithAccuracy_parts are 52)).trans (parts_ofParts are)

/-- The exponent that the quotient of `m * 2 ^ e` and `n * 2 ^ f` has as a double, up to one. -/
theorem targetExponent_quotient (m n : Nat) (e f : Int) : Format.binary64.targetExponent
    (Float.Model.totalExponent m e - Float.Model.totalExponent n f) = max (m.log2 + e - (n.log2 + f) - 53) (-1074) := by
  show max ((m.log2 : Int) + 1 + e - (n.log2 + 1 + f) - 53) (-1074) = _
  omega

/-- The quotient by one has zeros behind the significand. -/
theorem divCore_one {positive : 0 < m} (are : AreParts (.finite sign m e positive)) :
    ∃ a : Nat, divCore Format.binary64 m e (2 ^ 52) (-52) = (m * 2 ^ a, e - a, .exact) := by
  obtain ⟨few, normal⟩ := log2_of_areParts are
  have low : -1074 ≤ e := are.2.2.1
  have digits : Nat.log2 (2 ^ 52) = 52 := Nat.log2_two_pow
  unfold divCore
  dsimp only
  rw [targetExponent_quotient, digits]
  obtain ⟨a, place⟩ : ∃ a : Nat, min (e - -52) (max (m.log2 + e - ((52 : Nat) + -52) - 53) (-1074)) = e - a :=
    ⟨(e - max (m.log2 + e - 53) (-1074)).toNat, by omega⟩
  have shift : (e - -52 - (e - a)).toNat = a + 52 := by omega
  refine ⟨a, ?_⟩
  rw [place, shift, Nat.shiftLeft_eq, Nat.pow_add, ← Nat.mul_assoc, Nat.mul_div_cancel _ (Nat.two_pow_pos 52),
    Nat.mul_mod_left]
  rfl

theorem parts_div_one (finite : x.isFinite = true) : parts (x / 1.0) = parts x := by
  have fits := fits_parts finite
  have are := areParts_parts x
  show parts (ofParts (UnpackedFloat.div Format.binary64 (parts x) (parts 1.0))) = parts x
  rw [parts_one]
  cases known : parts x with
  | notANumber | infinity =>
    rw [known] at fits
    exact fits.elim
  | zero sign => cases sign <;> rfl
  | finite sign m e positive =>
    rw [known] at are
    have same : sign / .positive = sign := by cases sign <;> rfl
    obtain ⟨a, quotient⟩ := divCore_one are
    unfold UnpackedFloat.div
    dsimp only
    rw [same, quotient]
    exact (congrArg (fun p => parts (ofParts p)) (roundWithAccuracy_parts are a)).trans (parts_ofParts are)

/-! ### One and more -/

/-- The parts of a number that is one or more, or of the positive infinity. -/
def OneOrMore : UnpackedFloat → Prop
  | .finite sign m e _ => sign = .positive ∧ 0 ≤ (m.log2 : Int) + e
  | .infinity sign => sign = .positive
  | .zero _ | .notANumber => False

theorem oneOrMore_infinity : OneOrMore (parts infinity) :=
  rfl

theorem oneOrMore_roundWithAccuracy (nonzero : m ≠ 0) (large : 0 ≤ (m.log2 : Int) + e) (accuracy : Accuracy) :
    OneOrMore (roundWithAccuracy Format.binary64 .positive m e accuracy) := by
  have low := le_level m e
  have few : (level m e - e).toNat ≤ m.log2 := by
    unfold level
    omega
  have kept : 2 ^ (m.log2 - (level m e - e).toNat) ≤ rounded m e accuracy :=
    two_pow_le_rounded nonzero (Nat.sub_add_cancel few)
  have above : (m.log2 : Int) + e - 52 ≤ level m e ∧ e ≤ level m e := by
    unfold level
    omega
  have most := rounded_le m e accuracy
  rw [roundWithAccuracy_eq]
  generalize rounded m e accuracy = n at kept most ⊢
  generalize level m e = f at low few kept above ⊢
  have positive : 0 < n := Nat.lt_of_lt_of_le (Nat.two_pow_pos _) kept
  rcases Nat.lt_or_eq_of_le most with short | rfl
  · have digits := (Nat.le_log2 (Nat.ne_of_gt positive)).mpr kept
    rw [carried_of_lt positive short low]
    refine ⟨rfl, ?_⟩
    omega
  · have digits : Nat.log2 (2 ^ 52) = 52 := Nat.log2_two_pow
    rw [carried_full low]
    refine ⟨rfl, ?_⟩
    omega

theorem oneOrMore_ofParts (large : OneOrMore p) (are : Fits p → AreParts p) : OneOrMore (parts (ofParts p)) := by
  by_cases fits : Fits p
  · rwa [parts_ofParts (are fits)]
  · cases p with
    | finite sign m e positive =>
      obtain ⟨rfl, -⟩ := large
      rw [ofParts_congr (q := .infinity .positive) (pack_large positive (Int.not_lt.mp fits))]
      exact oneOrMore_infinity
    | infinity sign =>
      cases large
      exact oneOrMore_infinity
    | zero | notANumber => exact large.elim

theorem log2_of_oneOrMore {positive : 0 < m} (large : OneOrMore (.finite sign m e positive))
    (are : AreParts (.finite sign m e positive)) : m.log2 = 52 := by
  obtain ⟨few, normal⟩ := log2_of_areParts are
  obtain ⟨-, large⟩ := large
  omega

theorem oneOrMore_mul (left : OneOrMore (parts x)) (right : OneOrMore (parts y)) : OneOrMore (parts (x * y)) := by
  have leftAre := areParts_parts x
  have rightAre := areParts_parts y
  show OneOrMore (parts (ofParts (UnpackedFloat.mul Format.binary64 (parts x) (parts y))))
  generalize parts x = p at left leftAre ⊢
  generalize parts y = q at right rightAre ⊢
  cases p with
  | zero | notANumber => exact left.elim
  | infinity s =>
    cases left
    cases q with
    | zero | notANumber => exact right.elim
    | infinity t =>
      cases right
      exact oneOrMore_infinity
    | finite t n f _ =>
      obtain ⟨rfl, -⟩ := right
      exact oneOrMore_infinity
  | finite s m e filled =>
    have long := log2_of_oneOrMore left leftAre
    obtain ⟨rfl, large⟩ := left
    cases q with
    | zero | notANumber => exact right.elim
    | infinity t =>
      cases right
      exact oneOrMore_infinity
    | finite t n f filled' =>
      have long' := log2_of_oneOrMore right rightAre
      obtain ⟨rfl, large'⟩ := right
      have nonzero : m * n ≠ 0 := Nat.mul_ne_zero (Nat.ne_of_gt filled) (Nat.ne_of_gt filled')
      have digits : m.log2 + n.log2 ≤ (m * n).log2 := by
        rw [Nat.le_log2 nonzero, Nat.pow_add]
        exact Nat.mul_le_mul (Nat.log2_self_le (Nat.ne_of_gt filled)) (Nat.log2_self_le (Nat.ne_of_gt filled'))
      have product := oneOrMore_roundWithAccuracy (e := e + f) nonzero (by omega) .exact
      exact oneOrMore_ofParts product (areParts_roundWithAccuracy (.inl (by omega)))

theorem oneOrMore_powBySquaring (acc base : Float) (n : Nat) (start : OneOrMore (parts acc))
    (factor : OneOrMore (parts base)) : OneOrMore (parts (powBySquaring acc base n)) := by
  have next {acc base : Float} {n : Nat} (start : OneOrMore (parts acc)) (factor : OneOrMore (parts base)) :
      OneOrMore (parts (if n % 2 = 1 then acc * base else acc)) := by
    split
    · exact oneOrMore_mul start factor
    · exact start
  induction acc, base, n using powBySquaring.induct with
  | case1 acc base n last =>
    rw [powBySquaring, if_pos last]
    exact next start factor
  | case2 acc base n acc' more ih =>
    rw [powBySquaring, if_neg more]
    exact ih (next start factor) (oneOrMore_mul factor factor)

/-- A power of ten with an exponent of zero or more is one or more, or infinite. -/
theorem oneOrMore_powerOfTen (n : Nat) : OneOrMore (parts (powerOfTen n)) := by
  unfold powerOfTen
  rw [if_neg (by omega)]
  exact oneOrMore_powBySquaring _ _ _ ⟨rfl, by decide⟩ ⟨rfl, by decide⟩

/-- The quotient by one or more is below the limit. -/
theorem fits_div_large {other : Sign} {n : Nat} {f : Int} {positive : 0 < m} {positive' : 0 < n}
    (are : AreParts (.finite sign m e positive)) (large : 0 ≤ (n.log2 : Int) + f) :
    Fits (UnpackedFloat.div Format.binary64 (.finite sign m e positive) (.finite other n f positive')) := by
  have few := (log2_of_areParts are).1
  obtain ⟨short, -, -, high⟩ := are
  unfold UnpackedFloat.div divCore
  dsimp only
  rw [targetExponent_quotient]
  generalize place : min (e - f) (max (m.log2 + e - (n.log2 + f) - 53) (-1074)) = t
  rw [fits_iff_halves _ (by omega), halves_quotient _ positive', Nat.div_lt_iff_lt_mul positive', Nat.shiftLeft_eq]
  have shift : (e - f - t).toNat ≤ (971 - t).toNat + n.log2 := by omega
  calc 2 * (m * 2 ^ (e - f - t).toNat) = 2 * m * 2 ^ (e - f - t).toNat := (Nat.mul_assoc _ _ _).symm
    _ < (2 ^ 54 - 1) * 2 ^ (e - f - t).toNat := Nat.mul_lt_mul_of_pos_right (by omega) (Nat.two_pow_pos _)
    _ ≤ (2 ^ 54 - 1) * 2 ^ ((971 - t).toNat + n.log2) :=
      Nat.mul_le_mul_left _ (Nat.pow_le_pow_right Nat.two_pos shift)
    _ = (2 ^ 54 - 1) * 2 ^ (971 - t).toNat * 2 ^ n.log2 := by rw [Nat.pow_add, Nat.mul_assoc]
    _ ≤ (2 ^ 54 - 1) * 2 ^ (971 - t).toNat * n := Nat.mul_le_mul_left _ (Nat.log2_self_le (Nat.ne_of_gt positive'))

/-- Dividing a finite double by one or more does not overflow. -/
theorem isFinite_div (finite : x.isFinite = true) (large : OneOrMore (parts y)) : (x / y).isFinite = true := by
  have fits := fits_parts finite
  have are := areParts_parts x
  apply isFinite_ofParts.mpr
  show Fits (UnpackedFloat.div Format.binary64 (parts x) (parts y))
  generalize parts x = p at fits are ⊢
  generalize parts y = q at large ⊢
  cases q with
  | zero | notANumber => exact large.elim
  | infinity =>
    cases p with
    | infinity | notANumber => exact fits.elim
    | zero | finite => trivial
  | finite t n f filled =>
    cases p with
    | infinity | notANumber => exact fits.elim
    | zero => trivial
    | finite => exact fits_div_large are large.2

/-! ### Rounding to an integer -/

/-- A double without digits after the point is rounded to itself, and any other to an integer of 53 digits. -/
theorem round_cases (finite : x.isFinite = true) :
    (∀ choose, wholeBy choose x = x) ∨ ∃ sign k, k < 2 ^ 53 ∧ round x = nearest sign k 0 := by
  have fits := fits_parts finite
  have are := areParts_parts x
  unfold round wholeBy
  cases known : parts x with
  | notANumber | infinity =>
    rw [known] at fits
    exact fits.elim
  | zero => exact .inl fun _ => rfl
  | finite sign m e positive =>
    rw [known] at are
    dsimp only
    by_cases whole : 0 ≤ e
    · exact .inl fun _ => if_pos whole
    · refine .inr ⟨sign, _, ?_, if_neg whole⟩
      obtain ⟨n, places⟩ : ∃ n, (-e).toNat = n + 1 := ⟨(-e).toNat - 1, by omega⟩
      have divisor : 1 <<< (-e).toNat = 2 * 2 ^ n := by rw [Nat.one_shiftLeft, places, Nat.pow_succ, Nat.mul_comm]
      have one : 1 ≤ 2 ^ n := Nat.two_pow_pos n
      have short := are.1
      rw [divisor, Nat.div_lt_iff_lt_mul (by omega)]
      generalize 2 ^ n = d at one ⊢
      omega

theorem two_pow_le_overflow : 2 ^ 53 ≤ overflow := by
  decide +kernel

theorem isFinite_round (finite : x.isFinite = true) : (round x).isFinite = true := by
  rcases round_cases finite with same | ⟨sign, k, short, same⟩
  · rw [round, same]
    exact finite
  · rw [same]
    exact isFinite_ofParts.mpr ((fits_round k).mpr (Nat.lt_of_lt_of_le short two_pow_le_overflow))

theorem nearest_eq_ofInt (nonzero : m ≠ 0) : nearest sign m 0 = ofInt (sign.apply m) := by
  rw [ofInt_eq]
  cases sign with
  | positive =>
    have same : signOf (m : Int) = .positive := if_neg (by omega)
    exact (congrArg (fun s => nearest s m 0) same).symm
  | negative =>
    have same : signOf (-(m : Int)) = .negative := if_pos (by omega)
    have size : (-(m : Int)).natAbs = m := by omega
    show _ = nearest (signOf (-(m : Int))) (-(m : Int)).natAbs 0
    rw [same, size]

theorem floor_ofInt {n : Int} (small : n.natAbs < overflow) : floor (ofInt n) = ofInt n := by
  refine wholeBy_ofInt (fun sign m d positive => ?_) small
  cases sign with
  | positive => exact Nat.mul_div_cancel m positive
  | negative =>
    have rest : m * d + d - 1 = d - 1 + m * d := by omega
    show (m * d + d - 1) / d = m
    rw [rest, Nat.add_mul_div_right _ _ positive, Nat.div_eq_of_lt (by omega), Nat.zero_add]

/-- A rounded double is its own whole part. -/
theorem floor_round (finite : x.isFinite = true) : floor (round x) = round x := by
  rcases round_cases finite with same | ⟨sign, k, short, same⟩
  · rw [round, same, floor, same]
  · rw [same]
    by_cases zero : k = 0
    · have nothing : parts (nearest sign 0 0) = .zero sign := by
        rw [nearest, round_zero]
        exact parts_ofParts trivial
      rw [zero, floor, wholeBy, nothing]
    · have size : (sign.apply k).natAbs = k := by
        cases sign
        · exact Int.natAbs_neg k
        · rfl
      have small : (sign.apply k).natAbs < overflow := by
        rw [size]
        exact Nat.lt_of_lt_of_le short two_pow_le_overflow
      rw [nearest_eq_ofInt zero, floor_ofInt small]

theorem parts_wholeBy_congr {choose : Sign → Nat → Nat → Nat} (same : parts x = parts y) :
    parts (wholeBy choose x) = parts (wholeBy choose y) := by
  unfold wholeBy
  rw [same]
  split
  · split
    · exact same
    · rfl
  · exact same

/-- A double with the parts of a rounded one has nothing after the point. -/
theorem sub_floor_of_parts (finite : x.isFinite = true) (same : parts y = parts (round x)) :
    y - floor y = ofParts (.zero .positive) := by
  have whole : parts (floor y) = parts (round x) :=
    (parts_wholeBy_congr same).trans (congrArg parts (floor_round finite))
  show ofParts (UnpackedFloat.sub Format.binary64 (parts y) (parts (floor y))) = _
  rw [whole, same]
  exact sub_self (isFinite_round finite)

end Calculator.Double
