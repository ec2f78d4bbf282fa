import Calculator.Mode.Basic
import Calculator.Proofs.Decimal.Places
import Calculator.Proofs.Integer

/-!
# The characters of shown values

Values are written with digits, letters, points and minus signs. So what is shown fits on one line.
-/

namespace Calculator

/-- Whether the character can occur in a value that is shown. -/
def isShown (c : Char) : Bool :=
  c.isAlphanum || c = '.' || c = '-'

/-- All the characters can occur in a value that is shown. -/
def AllShown (text : List Char) : Prop :=
  ∀ c ∈ text, isShown c = true

variable {text more : List Char} {c : Char} {x : Float}

instance : Decidable (AllShown text) := decidable_of_iff (text.all isShown = true) List.all_eq_true

theorem allShown_cons : AllShown (c :: text) ↔ isShown c = true ∧ AllShown text :=
  List.forall_mem_cons

theorem allShown_append : AllShown (text ++ more) ↔ AllShown text ∧ AllShown more :=
  List.forall_mem_append

theorem AllShown.of_subset (h : AllShown text) (inside : more ⊆ text) : AllShown more :=
  fun c member => h c (inside member)

theorem isShown_of_isDigit (digit : c.isDigit = true) : isShown c = true := by
  simp [isShown, Char.isAlphanum, digit]

theorem allShown_replicate (n : Nat) (shown : isShown c = true) : AllShown (List.replicate n c) := by
  intro d member
  rwa [List.eq_of_mem_replicate member]

/-! ### Decimal text -/

namespace Decimal

theorem allShown_digitsOf (n : Nat) : AllShown (digitsOf n) :=
  fun _ member => isShown_of_isDigit (Nat.isDigit_of_mem_toDigits (by decide) (by decide) member)

theorem allShown_insertPoint {digits : List Char} (h : AllShown digits) (places : Nat) :
    AllShown (insertPoint digits places) := by
  by_cases integer : places = 0
  · rw [insertPoint, if_pos integer]
    exact h
  · obtain ⟨whole, fraction, pointed, padded, -⟩ := insertPoint_split digits integer
    have all : AllShown (whole ++ fraction) := by
      rw [padded]
      exact allShown_append.mpr ⟨allShown_replicate _ rfl, h⟩
    obtain ⟨front, behind⟩ := allShown_append.mp all
    rw [pointed]
    exact allShown_append.mpr ⟨front, allShown_cons.mpr ⟨rfl, behind⟩⟩

theorem allShown_scaled (s : Scaled) : AllShown s.plain := by
  unfold Scaled.plain
  split
  · exact allShown_append.mpr ⟨allShown_digitsOf _, allShown_replicate _ rfl⟩
  · exact allShown_insertPoint ((allShown_digitsOf _).of_subset (List.take_subset _ _)) _

theorem allShown_signed (sign : Float.Model.UnpackedFloat.Sign) (h : AllShown text) :
    AllShown (signed sign text).toList := by
  cases sign with
  | positive => simpa [signed] using h
  | negative => simpa [signed] using allShown_cons.mpr ⟨rfl, h⟩

theorem allShown_textBy {zero : List Char} {finite : Nat → Int → List Char} (isZero : AllShown zero)
    (isFinite : ∀ m e, AllShown (finite m e)) : AllShown (textBy zero finite x).toList := by
  unfold textBy
  split
  · decide
  · exact allShown_signed _ (by decide)
  · exact allShown_signed _ isZero
  · exact allShown_signed _ (isFinite _ _)

theorem allShown_plain (x : Float) : AllShown (plain x).toList :=
  allShown_textBy (allShown_replicate 1 rfl) fun _ _ => allShown_scaled _

theorem allShown_fixed (places : Nat) (x : Float) : AllShown (fixed places x).toList :=
  allShown_textBy (allShown_insertPoint (allShown_replicate 1 rfl) places) fun _ _ =>
    allShown_insertPoint (allShown_digitsOf _) _

end Decimal

/-! ### Rounded values -/

namespace Display

theorem allShown_unsignedZero {text : String} (h : AllShown text.toList) : AllShown (unsignedZero text).toList := by
  unfold unsignedZero
  split
  · exact allShown_replicate 1 rfl
  · exact h

theorem dropEnd_subset (c : Char) (text : List Char) : dropEnd c text ⊆ text := by
  intro d member
  have kept := List.mem_reverse.mp member
  exact List.mem_reverse.mp (List.dropWhile_subset _ kept)

theorem allShown_formatValue (value : Float) (places : Nat) : AllShown (formatValue value places).toList := by
  unfold formatValue
  dsimp only
  split
  · exact Decimal.allShown_plain value
  · split
    · exact allShown_unsignedZero (Decimal.allShown_fixed 0 _)
    · apply allShown_unsignedZero
      rw [String.toList_ofList]
      exact (Decimal.allShown_fixed places _).of_subset fun c member =>
        dropEnd_subset '0' _ (dropEnd_subset '.' _ member)

end Display

/-! ### Integers -/

namespace Integer

theorem isShown_of_value {radix : Nat} (digit : (Digit.value? radix c).isSome = true) : isShown c = true := by
  obtain ⟨d, value⟩ := Option.isSome_iff_exists.mp digit
  obtain ⟨ordinal, -⟩ := Option.filter_eq_some_iff.mp value
  unfold Digit.ordinal? at ordinal
  unfold isShown Char.isAlphanum Char.isAlpha
  split at ordinal
  next digit => simp [digit]
  next =>
    split at ordinal
    next upper => simp [upper]
    next =>
      split at ordinal
      next lower => simp [lower]
      next => cases ordinal

theorem allShown_display (value : Int64) (base : NumberBase) : AllShown (display value base).toList := by
  obtain ⟨low, high⟩ := base.radix_bounds
  have sign : AllShown (signOf value).toList := by
    unfold signOf
    split <;> decide
  have mark : AllShown base.mark.toList := by
    cases base <;> decide
  have digits : AllShown (magnitudeText base.radix value).toList := by
    rw [magnitudeText, String.toList_ofList]
    exact fun c member => isShown_of_value (Digit.allIn_write low high _ c member)
  rw [display, String.toList_append, String.toList_append]
  exact allShown_append.mpr ⟨allShown_append.mpr ⟨sign, mark⟩, digits⟩

end Integer

namespace Mode

/-- What a mode shows has no other characters. -/
theorem allShown_formatValue {mode : Mode} {value : Float} {shown : String} (h : mode.formatValue value = .ok shown) :
    AllShown shown.toList := by
  unfold formatValue at h
  split at h
  · cases h
    exact Display.allShown_formatValue value _
  · obtain ⟨value, -, h⟩ := bind_eq_ok.mp h
    split at h <;> cases h
    exact Integer.allShown_display _ _

end Mode

end Calculator
