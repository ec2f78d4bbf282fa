import Calculator.Proofs.Double.Overflow

/-!
# Taking doubles apart

A double that is put together from the parts of some double is taken apart into them again. Rounding gives such parts
unless it overflows.
-/

namespace Calculator.Double

open Float.Model (UnpackedFloat Format)
open Float.Model.UnpackedFloat

variable {sign : Sign} {m : Nat} {e : Int} {p : UnpackedFloat} {accuracy : Accuracy}

/-! ### Packing and unpacking -/

/-- The parts of some double: the significand has 53 digits, or fewer at the least exponent. -/
def AreParts : UnpackedFloat → Prop
  | .finite _ m e _ => m < 2 ^ 53 ∧ (2 ^ 52 ≤ m ∨ e = -1074) ∧ -1074 ≤ e ∧ e < 972
  | _ => True

theorem finite_congr {n : Nat} {f : Int} {positive : 0 < m}
    {positive' : 0 < n} (mantissas : m = n) (exponents : e = f) :
    UnpackedFloat.finite sign m e positive = .finite sign n f positive' := by
  subst mantissas exponents
  rfl

theorem toNat_mantissa (m : Nat) : (BitVec.ofNat Format.binary64.mantissaBitsWithoutImplicit m).toNat = m % 2 ^ 52 :=
  BitVec.toNat_ofNat m _

theorem toNat_exponent (n : Nat) : (BitVec.ofNat Format.binary64.exponentBits n).toNat = n % 2048 :=
  BitVec.toNat_ofNat n _

theorem toNat_implicit (mantissa : BitVec Format.binary64.mantissaBitsWithoutImplicit) :
    (1#1 ++ mantissa).toNat = 2 ^ 52 + mantissa.toNat := by
  rw [BitVec.toNat_append, ← Nat.shiftLeft_add_eq_or_of_lt mantissa.isLt]
  rfl

theorem unpack_normal {exponent : BitVec Format.binary64.exponentBits}
    {mantissa : BitVec Format.binary64.mantissaBitsWithoutImplicit} (positive : 0 < m) (low : exponent ≠ 0#_)
    (high : exponent ≠ -1#_) (significand : 2 ^ 52 + mantissa.toNat = m) (place : (exponent.toNat : Int) - 1075 = e) :
    unpack Format.binary64 (packComponents Format.binary64 sign exponent mantissa) = .finite sign m e positive := by
  unfold unpack
  simp only [unpackMantissa_packComponents, unpackExponent_packComponents,
    unpackSign_packComponents, Sign.ofBitVec_toBitVec,
    if_neg low, if_neg high]
  exact finite_congr ((toNat_implicit mantissa).trans significand) place

theorem unpack_subnormal {mantissa : BitVec Format.binary64.mantissaBitsWithoutImplicit} (positive : 0 < m)
    (significand : mantissa.toNat = m) :
    unpack Format.binary64 (packComponents Format.binary64 sign 0#_ mantissa) = .finite sign m (-1074) positive := by
  have below : (0#_ : BitVec Format.binary64.exponentBits) ≠ -1#_ := by decide
  have nonzero : mantissa ≠ 0#_ := by
    rintro rfl
    exact Nat.ne_of_gt positive significand.symm
  unfold unpack
  simp only [unpackMantissa_packComponents, unpackExponent_packComponents,
    unpackSign_packComponents, Sign.ofBitVec_toBitVec,
    if_neg below, dif_neg nonzero, if_true]
  exact finite_congr significand rfl

theorem unpack_pack_finite (positive : 0 < m) (are : AreParts (.finite sign m e positive)) :
    unpack Format.binary64 (pack Format.binary64 (.finite sign m e positive)) = .finite sign m e positive := by
  obtain ⟨short, normal, low, high⟩ := are
  have nonzero : m ≠ 0 := Nat.ne_of_gt positive
  have room : ¬ 2 ^ Format.binary64.exponentBits ≤
      (e + Format.binary64.exponentBias + Format.binary64.mantissaBitsWithoutImplicit).toNat + 1 := by
    show ¬ 2048 ≤ (e + 1023 + 52).toNat + 1
    omega
  rw [pack]
  dsimp only
  rw [if_neg room]
  -- The leading digit is not packed, and only the exponent tells whether there is one.
  by_cases long : 2 ^ 52 ≤ m
  · have full : m.log2 + 1 = Format.binary64.mantissaBits := by
      have := (Nat.le_log2 nonzero).mpr long
      have := (Nat.log2_lt nonzero).mpr short
      show m.log2 + 1 = 53
      omega
    have exponent := toNat_exponent (e + 1023 + 52).toNat
    have mantissa := toNat_mantissa m
    rw [if_pos full]
    show unpack Format.binary64 (packComponents Format.binary64 sign
      (BitVec.ofNat Format.binary64.exponentBits (e + 1023 + 52).toNat) (BitVec.ofNat _ m)) = _
    refine unpack_normal positive ?_ (ne_top.mpr (by omega)) (by omega) (by omega)
    intro zero
    rw [zero, BitVec.toNat_zero] at exponent
    omega
  · have subnormal : ¬ m.log2 + 1 = Format.binary64.mantissaBits := by
      have := (Nat.log2_lt nonzero).mpr (Nat.not_le.mp long)
      show ¬ m.log2 + 1 = 53
      omega
    have least := normal.resolve_left long
    have mantissa := toNat_mantissa m
    subst least
    rw [if_neg subnormal]
    exact unpack_subnormal positive (mantissa.trans (Nat.mod_eq_of_lt (Nat.not_le.mp long)))

theorem parts_ofParts (are : AreParts p) : parts (ofParts p) = p := by
  show unpack Format.binary64 (pack Format.binary64 p) = p
  cases p with
  | notANumber => rfl
  | infinity sign => cases sign <;> rfl
  | zero sign => cases sign <;> rfl
  | finite sign m e positive => exact unpack_pack_finite positive are

theorem areParts_unpack (b : BitVec Format.binary64.numBits) : AreParts (unpack Format.binary64 b) := by
  have bound : (unpackMantissa b).toNat < 2 ^ 52 := (unpackMantissa b).isLt
  unfold unpack
  dsimp only
  split
  next => split <;> trivial
  next below =>
    have top : (unpackExponent b).toNat < 2047 := ne_top.mp below
    split
    next bottom =>
      split
      · trivial
      · rw [bottom]
        refine ⟨?_, .inr rfl, ?_, ?_⟩
        · omega
        · decide
        · decide
    next filled =>
      have bottom : 0 < (unpackExponent b).toNat :=
        Nat.pos_of_ne_zero fun zero => filled (BitVec.eq_of_toNat_eq zero)
      show (1#1 ++ unpackMantissa b).toNat < 2 ^ 53 ∧ (2 ^ 52 ≤ (1#1 ++ unpackMantissa b).toNat ∨ _) ∧
        -1074 ≤ ((unpackExponent b).toNat : Int) - (1023 + 52) ∧
          ((unpackExponent b).toNat : Int) - (1023 + 52) < 972
      rw [toNat_implicit]
      generalize (unpackMantissa b).toNat = m at bound ⊢
      generalize (unpackExponent b).toNat = e at top bottom ⊢
      refine ⟨?_, .inl ?_, ?_, ?_⟩ <;> omega

theorem areParts_parts (x : Float) : AreParts (parts x) :=
  areParts_unpack x.toModel.toBits.toBitVec

/-! ### Rounding -/

/-- The parts of `± m * 2 ^ e` for a rounded significand, which may have one digit too many. -/
def carried (sign : Sign) (m : Nat) (e : Int) : UnpackedFloat :=
  if gone : m / 2 ^ (level m e - e).toNat = 0 then .zero sign
  else .finite sign (m / 2 ^ (level m e - e).toNat) (level m e) (Nat.pos_of_ne_zero gone)

theorem roundWithAccuracy_eq : roundWithAccuracy Format.binary64 sign m e accuracy =
    carried sign (rounded m e accuracy) (level m e) := by
  unfold roundWithAccuracy
  dsimp only
  rw [shiftToTargetExponent_eq]
  dsimp only
  rw [shiftToTargetExponent_eq]
  dsimp only
  rw [← rounded]
  unfold carried
  congr 1
  all_goals rw [mantissa_shifted]

theorem level_of_lt (short : m < 2 ^ 53) (low : -1074 ≤ e) : level m e = e := by
  have digits : m.log2 < 53 := log2_lt short (by decide)
  unfold level
  omega

theorem carried_zero : carried sign 0 e = .zero sign :=
  dif_pos (Nat.zero_div _)

theorem carried_of_lt (positive : 0 < m) (short : m < 2 ^ 53) (low : -1074 ≤ e) :
    carried sign m e = .finite sign m e positive := by
  have stays := level_of_lt short low
  have significand : m / 2 ^ (level m e - e).toNat = m := by
    rw [stays, Int.sub_self]
    exact Nat.div_one m
  unfold carried
  rw [dif_neg (by omega)]
  exact finite_congr significand stays

theorem carried_full (low : -1074 ≤ e) :
    carried sign (2 ^ 53) e = .finite sign (2 ^ 52) (e + 1) (Nat.two_pow_pos 52) := by
  have digits : Nat.log2 (2 ^ 53) = 53 := Nat.log2_two_pow
  have next : level (2 ^ 53) e = e + 1 := by
    unfold level
    omega
  have one : (level (2 ^ 53) e - e).toNat = 1 := by omega
  have significand : 2 ^ 53 / 2 ^ (level (2 ^ 53) e - e).toNat = 2 ^ 52 :=
    (congrArg (2 ^ 53 / 2 ^ ·) one).trans (by decide)
  unfold carried
  rw [dif_neg (by omega)]
  exact finite_congr significand next

/-- Rounding leaves the digits in front of those that are shifted out. -/
theorem two_pow_le_rounded {n : Nat} (nonzero : m ≠ 0) (digits : n + (level m e - e).toNat = m.log2) :
    2 ^ n ≤ rounded m e accuracy := by
  refine Nat.le_trans ?_ (shifted_le_rounded m e accuracy)
  rw [Nat.le_div_iff_mul_le (Nat.two_pow_pos _), ← Nat.pow_add, digits]
  exact Nat.log2_self_le nonzero

/-- A rounded significand has 53 digits, or fewer at the least exponent, if it had enough of them before. -/
theorem rounded_normal (accuracy : Accuracy) (enough : 52 ≤ m.log2 ∨ e ≤ -1074) :
    2 ^ 52 ≤ rounded m e accuracy ∨ level m e = -1074 := by
  by_cases least : level m e = -1074
  · exact .inr least
  · left
    have long : 52 ≤ m.log2 := by
      unfold level at least
      omega
    refine two_pow_le_rounded (ne_zero_of_log2 (by omega)) ?_
    unfold level at least ⊢
    omega

theorem areParts_roundWithAccuracy (enough : 52 ≤ m.log2 ∨ e ≤ -1074)
    (fits : Fits (roundWithAccuracy Format.binary64 sign m e accuracy)) :
    AreParts (roundWithAccuracy Format.binary64 sign m e accuracy) := by
  have low := le_level m e
  have normal := rounded_normal accuracy enough
  have few := rounded_le m e accuracy
  rw [roundWithAccuracy_eq] at fits ⊢
  generalize rounded m e accuracy = n at normal few fits ⊢
  generalize level m e = f at low normal fits ⊢
  rcases Nat.eq_zero_or_pos n with rfl | positive
  · rw [carried_zero]
    trivial
  -- A significand that was rounded up to 54 digits is a power of two, and is shifted once more.
  rcases Nat.lt_or_eq_of_le few with short | rfl
  · rw [carried_of_lt positive short low] at fits ⊢
    exact ⟨short, normal, low, fits⟩
  · rw [carried_full low] at fits ⊢
    exact ⟨by decide, .inl (Nat.le_refl _), by omega, fits⟩

end Calculator.Double
