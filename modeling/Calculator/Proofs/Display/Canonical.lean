import Calculator.Display
import Calculator.Proofs.Decimal.Places
import Calculator.Proofs.Double.Scaling

/-!
# The canonical form of shown values

A finite value is shown without a zero in front of its digits, without a zero or a point behind them, and
without a sign if it is zero. With no places the rounded value is an integer. So zeros are only cut off
behind a point, and those of the integer stay, whether or not the scaled value overflows.
-/

namespace Calculator

open Float.Model.UnpackedFloat (Sign)

/-! ### Signs, points and digits -/

structure Written where
  negative : Bool
  whole : List Char
  fraction : List Char

namespace Written

variable {number : Written} {places zeros : Nat} {c : Char} {front digits : List Char}

def sign (number : Written) : List Char :=
  if number.negative then ['-'] else []

/-- The text of the number. No point is written if there are no digits behind it. -/
def text (number : Written) : List Char :=
  number.sign ++ number.whole ++ if number.fraction = [] then [] else '.' :: number.fraction

def padded (number : Written) (zeros : Nat) : Written :=
  { number with fraction := number.fraction ++ List.replicate zeros '0' }

/-- There are no more than the given places, and no zeros in front of the digits or at the end of the places. -/
structure Trimmed (number : Written) (places : Nat) : Prop where
  whole : Decimal.IsWhole number.whole
  digits : ∀ c ∈ number.fraction, c.isDigit = true
  short : number.fraction.length ≤ places
  noZero : number.fraction.getLast? ≠ some '0'

/-- Besides, the text is not that of a negative zero, and does not end with a point. -/
structure Canonical (number : Written) (places : Nat) : Prop extends number.Trimmed places where
  unsigned : number.text ≠ ['-', '0']
  noPoint : number.text.getLast? ≠ some '.'

theorem text_of_fraction (filled : number.fraction ≠ []) :
    number.text = number.sign ++ number.whole ++ '.' :: number.fraction := by
  rw [text, if_neg filled]

theorem text_of_whole (integer : number.fraction = []) : number.text = number.sign ++ number.whole := by
  rw [text, if_pos integer, List.append_nil]

theorem text_padded_zero (number : Written) : number.text = (number.padded 0).text := by
  rw [padded, List.replicate_zero, List.append_nil]

theorem getLast?_ne_of_digits (all : ∀ d ∈ digits, d.isDigit = true)
    (filled : digits ≠ []) (other : c.isDigit = false) :
    (front ++ digits).getLast? ≠ some c := by
  rw [List.getLast?_append_of_ne_nil _ filled]
  intro last
  have digit := all c (List.mem_of_getLast? last)
  rw [other] at digit
  cases digit

theorem exists_signed (s : Sign) :
    ∃ negative : Bool, ∀ text, (Decimal.signed s text).toList = (if negative then ['-'] else []) ++ text := by
  cases s with
  | negative => exact ⟨true, fun text => String.toList_ofList⟩
  | positive => exact ⟨false, fun text => String.toList_ofList⟩

theorem Trimmed.noPoint (trimmed : number.Trimmed places) : number.text.getLast? ≠ some '.' := by
  by_cases integer : number.fraction = []
  · rw [text_of_whole integer]
    exact getLast?_ne_of_digits trimmed.whole.all trimmed.whole.filled rfl
  · rw [text_of_fraction integer, List.append_cons]
    exact getLast?_ne_of_digits trimmed.digits integer rfl

end Written

/-! ### Trimming -/

namespace Display

variable {value : Float} {places zeros : Nat} {number : Written} {c : Char} {text : List Char}

theorem dropEnd_eq_self (other : text.getLast? ≠ some c) : dropEnd c text = text := by
  refine List.rdropWhile_eq_self_iff.mpr fun filled last => other ?_
  rw [List.getLast?_eq_some_getLast filled, of_decide_eq_true last]

theorem dropEnd_append_replicate (c : Char) (text : List Char) (n : Nat) :
    dropEnd c (text ++ List.replicate n c) = dropEnd c text := by
  induction n with
  | zero => rw [List.replicate_zero, List.append_nil]
  | succ n ih =>
    rw [List.replicate_succ', ← List.append_assoc, ← ih]
    exact List.rdropWhile_concat_pos _ _ _ (decide_eq_true rfl)

/-- Any text is what trimming leaves, with the character repeated behind it. -/
theorem exists_trimmed (c : Char) (text : List Char) :
    ∃ kept n, text = kept ++ List.replicate n c ∧ kept.getLast? ≠ some c := by
  induction text using List.reverseRecOn with
  | nil => exact ⟨[], 0, rfl, by simp⟩
  | append_singleton text d ih =>
    by_cases same : d = c
    · obtain ⟨kept, n, rfl, last⟩ := ih
      exact ⟨kept, n + 1, by rw [same, List.append_assoc, List.replicate_succ'], last⟩
    · refine ⟨text ++ [d], 0, (List.append_nil _).symm, ?_⟩
      rw [List.getLast?_concat]
      exact fun last => same (Option.some.inj last)

/-- The zeros behind the fraction are cut off, and the point if there are no other digits. -/
theorem dropEnd_padded (trimmed : number.Trimmed places) (fractional : (number.padded zeros).fraction ≠ []) :
    dropEnd '.' (dropEnd '0' (number.padded zeros).text) = number.text := by
  have pointed : (number.padded zeros).text =
      number.sign ++ number.whole ++ '.' :: number.fraction ++ List.replicate zeros '0' := by
    rw [Written.text_of_fraction fractional, List.append_assoc _ ('.' :: _)]
    rfl
  have stops : (number.sign ++ number.whole ++ '.' :: number.fraction).getLast? ≠ some '0' := by
    rw [List.getLast?_append_of_ne_nil _ (List.cons_ne_nil _ _), List.getLast?_cons]
    cases last : number.fraction.getLast? with
    | none => simp
    | some d =>
      rw [Option.getD_some, ← last]
      exact trimmed.noZero
  rw [pointed, dropEnd_append_replicate, dropEnd_eq_self stops]
  by_cases integer : number.fraction = []
  · rw [Written.text_of_whole integer, integer]
    refine (dropEnd_append_replicate '.' _ 1).trans (dropEnd_eq_self ?_)
    exact Written.getLast?_ne_of_digits trimmed.whole.all trimmed.whole.filled rfl
  · rw [← Written.text_of_fraction integer]
    exact dropEnd_eq_self trimmed.noPoint

/-- Without its sign a zero is in canonical form, and any other number is as it stands. -/
theorem unsignedZero_text (trimmed : number.Trimmed places) : ∃ negative,
    ({ number with negative } : Written).Canonical places ∧
      (unsignedZero (String.ofList number.text)).toList = ({ number with negative } : Written).text := by
  by_cases zero : number.text = ['-', '0']
  · have negative : number.negative = true := by
      apply Decidable.byContradiction
      intro unsigned
      obtain ⟨d, rest, whole⟩ := List.exists_cons_of_ne_nil trimmed.whole.filled
      have digit := trimmed.whole.all d (by simp [whole])
      rw [Written.text, Written.sign, if_neg unsigned, whole] at zero
      rw [(List.cons.inj zero).1] at digit
      cases digit
    have shown : ({ number with negative := false } : Written).text = ['0'] := by
      rw [Written.text, Written.sign, if_pos negative] at zero
      exact (List.cons.inj zero).2
    have trimmed : ({ number with negative := false } : Written).Trimmed places :=
      ⟨trimmed.whole, trimmed.digits, trimmed.short, trimmed.noZero⟩
    refine ⟨false, ⟨trimmed, ?_, trimmed.noPoint⟩, ?_⟩
    · rw [shown]
      decide
    · rw [shown, zero]
      rfl
  · refine ⟨number.negative, ⟨trimmed, zero, trimmed.noPoint⟩, ?_⟩
    have other : String.ofList number.text ≠ "-0" := by
      intro same
      apply zero
      rw [← String.toList_ofList (l := number.text), same]
      rfl
    rw [unsignedZero, if_neg other, String.toList_ofList]

/-! ### Rounded values -/

/-- Without places the text is an integer. -/
theorem fixed_integer (places : Nat) (finite : value.isFinite = true) :
    ∃ number : Written, number.Trimmed places ∧ (Decimal.fixed 0 value).toList = number.text := by
  obtain ⟨sign, digits, whole, same⟩ := Decimal.fixed_eq 0 finite
  obtain ⟨negative, signed⟩ := Written.exists_signed sign
  refine ⟨⟨negative, digits, []⟩, ⟨whole, by simp, Nat.zero_le _, by simp⟩, ?_⟩
  rw [same, signed, Written.text_of_whole rfl]
  rfl

/-- With places the text has a fraction, of which zeros may be at the end. -/
theorem fixed_fraction (fractional : places ≠ 0) (finite : value.isFinite = true) :
    ∃ (number : Written) (zeros : Nat),
    number.Trimmed places ∧ (number.padded zeros).fraction ≠ [] ∧
      (Decimal.fixed places value).toList = (number.padded zeros).text := by
  obtain ⟨sign, digits, number, same⟩ := Decimal.fixed_eq places finite
  obtain ⟨negative, signed⟩ := Written.exists_signed sign
  obtain ⟨whole, fraction, pointed, number, all, length⟩ := Decimal.insertPoint_eq number fractional
  obtain ⟨kept, zeros, rfl, noZero⟩ := exists_trimmed '0' fraction
  have filled : kept ++ List.replicate zeros '0' ≠ [] := List.ne_nil_of_length_pos (by omega)
  have short : kept.length ≤ places := by
    rw [List.length_append] at length
    omega
  refine ⟨⟨negative, whole, kept⟩, zeros, ?_, filled, ?_⟩
  · exact ⟨number, fun c member => all c (List.mem_append_left _ member), short, noZero⟩
  · rw [same, signed, pointed, Written.text_of_fraction filled, ← List.append_assoc]
    rfl

theorem isFinite_roundPlaces (places : Nat) (finite : value.isFinite = true) :
    (roundPlaces places value).isFinite = true := by
  unfold roundPlaces
  dsimp only
  split
  next fits => exact Double.isFinite_div (Double.isFinite_round fits) (Double.oneOrMore_powerOfTen _)
  next => exact finite

/-- With no places the value is rounded to an integer. -/
theorem showsInteger_of_no_places (finite : value.isFinite = true) : showsInteger 0 (roundPlaces 0 value) = true := by
  have one : Double.powerOfTen (scaleExponent 0) = 1.0 := by
    show Double.powBySquaring 1.0 10.0 0 = 1.0
    rw [Double.powBySquaring]
    rfl
  have scaled : (value * 1.0).isFinite = true := by
    show (Double.parts (value * 1.0)).isFinite = true
    rw [Double.parts_mul_one finite]
    exact finite
  have same : Double.parts (roundPlaces 0 value) = Double.parts (Double.round (value * 1.0)) := by
    unfold roundPlaces
    dsimp only
    rw [one, if_pos scaled]
    exact Double.parts_div_one (Double.isFinite_round scaled)
  unfold showsInteger
  rw [Double.sub_floor_of_parts scaled same]
  decide +kernel

/-! ### Shown values -/

/-- The rounded value before it is trimmed: an integer without places, or with all the places. -/
def untrimmed (value : Float) (places : Nat) : String :=
  let rounded := roundPlaces places value
  Decimal.fixed (if showsInteger places rounded then 0 else places) rounded

/-- The exponents of ten that are computed for a value with `places` decimal places. -/
def exponents (places : Nat) : List Int :=
  [scaleExponent places, scaleExponent places + 1, -(scaleExponent places + 1)]

/-- A finite value is shown as its rounded text without the zeros behind it, and without the sign of a zero. -/
theorem formatValue_eq (places : Nat) (finite : value.isFinite = true) : ∃ (number : Written) (zeros : Nat),
    number.Trimmed places ∧ (untrimmed value places).toList = (number.padded zeros).text ∧
      formatValue value places = unsignedZero (String.ofList number.text) := by
  have rounded := isFinite_roundPlaces places finite
  have defined : ¬ (!value.isFinite) = true := by simp [finite]
  unfold untrimmed formatValue
  dsimp only
  rw [if_neg defined]
  by_cases integer : showsInteger places (roundPlaces places value) = true
  · rw [if_pos integer, if_pos integer]
    obtain ⟨number, trimmed, text⟩ := fixed_integer places rounded
    exact ⟨number, 0, trimmed, text.trans number.text_padded_zero, by rw [← text, String.ofList_toList]⟩
  · rw [if_neg integer, if_neg integer]
    -- Without places there would be no point, and trimming would cut into the integer.
    have fractional : places ≠ 0 := by
      rintro rfl
      exact integer (showsInteger_of_no_places finite)
    obtain ⟨number, zeros, trimmed, filled, text⟩ := fixed_fraction fractional rounded
    exact ⟨number, zeros, trimmed, text, by rw [text, dropEnd_padded trimmed filled]⟩

/-- A finite value is shown in canonical form. Only zeros of the fraction are cut off behind it, and the
exponents that this takes are integers of 32 bits. -/
theorem formatValue_canonical (value : Float) (places : Nat) (finite : value.isFinite = true) :
    (∃ number : Written, number.Canonical places ∧ (formatValue value places).toList = number.text ∧
      ∃ negative zeros, (untrimmed value places).toList =
        (({ number with negative } : Written).padded zeros).text) ∧
    ∀ n ∈ exponents places, Int32.minValue.toInt ≤ n ∧ n ≤ Int32.maxValue.toInt := by
  constructor
  · obtain ⟨number, zeros, trimmed, before, same⟩ := formatValue_eq places finite
    obtain ⟨negative, canonical, shown⟩ := unsignedZero_text trimmed
    exact ⟨_, canonical, (congrArg String.toList same).trans shown, number.negative, zeros, before⟩
  · have limits : Int32.minValue.toInt = -2 ^ 31 ∧ Int32.maxValue.toInt = 2 ^ 31 - 1 := by decide
    have most : scaleExponent places ≤ 0x7FFFFFFE := Nat.min_le_right _ _
    intro n member
    simp only [exponents, List.mem_cons, List.not_mem_nil, or_false] at member
    omega

/-- Two places of minus two and a half. -/
theorem formatValue_canonical_half : ∃ number : Written, number.Canonical 2 ∧ "-2.5".toList = number.text ∧
    ∃ negative zeros, "-2.50".toList = (({ number with negative } : Written).padded zeros).text := by
  have finite : (-2.5 : Float).isFinite = true := by decide +kernel
  have before : untrimmed (-2.5) 2 = "-2.50" := by decide +kernel
  have after : formatValue (-2.5) 2 = "-2.5" := by decide +kernel
  rw [← before, ← after]
  exact (formatValue_canonical (-2.5) 2 finite).1

end Display

end Calculator
