import Mathlib
import Calculator.Double.Parts

/-!
# Finite, infinite and undefined doubles

Which kind of double given parts are. A double is finite unless its exponent is too large, and a change of sign does
not change the kind.
-/

namespace Calculator.Double

open Float.Model (UnpackedFloat Format)
open Float.Model.UnpackedFloat

variable {x : Float} {sign : Sign} {m : Nat} {e : Int} {p : UnpackedFloat}

theorem isFinite_eq (x : Float) : x.isFinite = (!x.isNaN && !x.isInf) := by
  show (parts x).isFinite = (!(parts x).isNaN && !(parts x).isInf)
  cases parts x <;> rfl

/-! ### Packing -/

theorem ne_top {exponent : BitVec Format.binary64.exponentBits} : exponent ≠ (-1#_) ↔ exponent.toNat < 2047 := by
  constructor
  · intro ne
    have bound : exponent.toNat < 2048 := exponent.isLt
    have other : exponent.toNat ≠ 2047 := fun same => ne (BitVec.eq_of_toNat_eq same)
    omega
  · rintro lt rfl
    exact absurd lt (by decide)

theorem isNaN_unpack (b : BitVec Format.binary64.numBits) :
    (unpack Format.binary64 b).isNaN = true ↔ unpackExponent b = (-1#_) ∧ unpackMantissa b ≠ 0#_ := by
  unfold unpack
  dsimp only
  split
  next top =>
    split
    next zero => exact iff_of_false Bool.false_ne_true fun h => h.2 zero
    next filled => exact iff_of_true rfl ⟨top, filled⟩
  next below =>
    have none : ¬ (unpackExponent b = (-1#_) ∧ unpackMantissa b ≠ 0#_) := fun h => below h.1
    split
    · split <;> exact iff_of_false Bool.false_ne_true none
    · exact iff_of_false Bool.false_ne_true none

theorem isFinite_unpack (b : BitVec Format.binary64.numBits) :
    (unpack Format.binary64 b).isFinite = true ↔ unpackExponent b ≠ (-1#_) := by
  unfold unpack
  dsimp only
  split
  next top => split <;> exact iff_of_false Bool.false_ne_true fun h => h top
  next below =>
    split
    · split <;> exact iff_of_true rfl below
    · exact iff_of_true rfl below

/-- Finite parts whose exponent is one of a double. -/
def Fits : UnpackedFloat → Prop
  | .finite _ _ e _ => e < 972
  | .zero _ => True
  | .infinity _ | .notANumber => False

theorem pack_large (positive : 0 < m) (large : 972 ≤ e) :
    pack Format.binary64 (.finite sign m e positive) = packedInfinity Format.binary64 sign := by
  have top : 2 ^ Format.binary64.exponentBits ≤
      (e + Format.binary64.exponentBias + Format.binary64.mantissaBitsWithoutImplicit).toNat + 1 := by
    show 2048 ≤ (e + 1023 + 52).toNat + 1
    omega
  rw [pack]
  exact if_pos top

theorem unpackExponent_pack_small (positive : 0 < m) (small : e < 972) :
    unpackExponent (pack Format.binary64 (.finite sign m e positive)) ≠ (-1#_) := by
  have below : (e + 1023 + 52).toNat < 2047 := by omega
  have room : ¬ 2 ^ Format.binary64.exponentBits ≤
      (e + Format.binary64.exponentBias + Format.binary64.mantissaBitsWithoutImplicit).toNat + 1 := by
    show ¬ 2048 ≤ (e + 1023 + 52).toNat + 1
    omega
  rw [pack]
  dsimp only
  rw [if_neg room]
  split
  · rw [unpackExponent_packComponents, ne_top, BitVec.toNat_ofNat]
    show (e + 1023 + 52).toNat % 2048 < 2047
    omega
  · rw [unpackExponent_packComponents]
    decide

theorem isNaN_ofParts (p : UnpackedFloat) : (ofParts p).isNaN = p.isNaN := by
  show (unpack Format.binary64 (pack Format.binary64 p)).isNaN = p.isNaN
  apply Bool.eq_iff_iff.mpr
  rw [isNaN_unpack]
  have infinite (sign : Sign) : ¬ (unpackExponent (packedInfinity Format.binary64 sign) = (-1#_) ∧
      unpackMantissa (packedInfinity Format.binary64 sign) ≠ 0#_) := by
    rintro ⟨-, filled⟩
    rw [packedInfinity, unpackMantissa_packComponents] at filled
    exact filled rfl
  cases p with
  | notANumber =>
    rw [pack, packedNaN, unpackExponent_packComponents, unpackMantissa_packComponents]
    exact iff_of_true ⟨rfl, by decide⟩ rfl
  | infinity sign => exact iff_of_false (infinite sign) Bool.false_ne_true
  | zero sign =>
    rw [pack, packedZero, unpackExponent_packComponents]
    exact iff_of_false (fun h => absurd h.1 (by decide)) Bool.false_ne_true
  | finite sign m e positive =>
    refine iff_of_false ?_ Bool.false_ne_true
    rcases Int.lt_or_le e 972 with small | large
    · exact fun h => unpackExponent_pack_small positive small h.1
    · rw [pack_large positive large]
      exact infinite sign

theorem isFinite_ofParts : (ofParts p).isFinite = true ↔ Fits p := by
  show (unpack Format.binary64 (pack Format.binary64 p)).isFinite = true ↔ Fits p
  rw [isFinite_unpack]
  cases p with
  | notANumber =>
    rw [pack, packedNaN, unpackExponent_packComponents]
    exact iff_of_false (fun below => below rfl) id
  | infinity sign =>
    rw [pack, packedInfinity, unpackExponent_packComponents]
    exact iff_of_false (fun below => below rfl) id
  | zero sign =>
    rw [pack, packedZero, unpackExponent_packComponents]
    exact iff_of_true (by decide) trivial
  | finite sign m e positive =>
    rcases Int.lt_or_le e 972 with small | large
    · exact iff_of_true (unpackExponent_pack_small positive small) small
    · rw [pack_large positive large, packedInfinity, unpackExponent_packComponents]
      exact iff_of_false (fun below => below rfl) (Int.not_lt.mpr large)

theorem ofParts_congr {p q : UnpackedFloat} (same : pack Format.binary64 p = pack Format.binary64 q) :
    ofParts p = ofParts q := by
  unfold ofParts Float.Model.pack
  simp only [same]

theorem fits_unpack {b : BitVec Format.binary64.numBits} (finite : (unpack Format.binary64 b).isFinite = true) :
    Fits (unpack Format.binary64 b) := by
  have below := (isFinite_unpack b).mp finite
  have bound : (unpackExponent b).toNat < 2047 := ne_top.mp below
  unfold unpack
  dsimp only
  rw [if_neg below]
  split
  next bottom =>
    split
    · trivial
    · rw [bottom]
      show (0 : Int) - (1023 + 52) + 1 < 972
      omega
  next =>
    show ((unpackExponent b).toNat : Int) - (1023 + 52) < 972
    generalize (unpackExponent b).toNat = exponent at bound ⊢
    omega

theorem fits_parts (finite : x.isFinite = true) : Fits (parts x) :=
  fits_unpack finite

theorem isNaN_neg (x : Float) : (-x).isNaN = x.isNaN := by
  show (ofParts (parts x).neg).isNaN = (parts x).isNaN
  rw [isNaN_ofParts]
  cases parts x <;> rfl

theorem isFinite_neg (finite : x.isFinite = true) : (-x).isFinite = true := by
  show (ofParts (parts x).neg).isFinite = true
  apply isFinite_ofParts.mpr
  have fits := fits_parts finite
  cases same : parts x with
  | _ =>
    rw [same] at fits
    exact fits

end Calculator.Double
