import Mathlib.Data.List.Basic
import Calculator.Decimal.Text

/-!
# Digits before and after the point

The digits before the point are those of a natural number: a zero, or digits of which the first is not zero. Behind the
point stand as many digits as there are places.
-/

namespace Calculator.Decimal

open Float.Model.UnpackedFloat (Sign)

variable {digits : List Char} {places : Nat} {x : Float}

/-- The digits of a natural number. The first is only zero if it is the only one. -/
structure IsWhole (digits : List Char) : Prop where
  all : ∀ c ∈ digits, c.isDigit = true
  filled : digits ≠ []
  unpadded : digits.head? = some '0' → digits = ['0']

theorem isWhole_zero : IsWhole ['0'] :=
  ⟨List.forall_mem_singleton.mpr rfl, List.cons_ne_nil _ _, fun _ => rfl⟩

theorem head?_digitsOf_ne_zero {n : Nat} (nonzero : n ≠ 0) : (digitsOf n).head? ≠ some '0' := by
  induction n using Nat.strongRecOn with
  | ind n ih =>
    unfold digitsOf
    rcases Nat.lt_or_ge n 10 with single | several
    · rw [Nat.toDigits_of_lt_base single]
      simpa using nonzero
    · -- The first digit is that of the number without its last digit.
      rw [Nat.toDigits_of_base_le (by decide) several, List.head?_append_of_ne_nil _ Nat.toDigits_ne_nil]
      exact ih (n / 10) (by omega) (by omega)

theorem isWhole_digitsOf (n : Nat) : IsWhole (digitsOf n) where
  all _ member := Nat.isDigit_of_mem_toDigits (by decide) (by decide) member
  filled := Nat.toDigits_ne_nil
  unpadded zero := by
    by_cases none : n = 0
    · rw [none, digitsOf, Nat.toDigits_zero]
    · exact absurd zero (head?_digitsOf_ne_zero none)

theorem isDigit_padded (all : ∀ c ∈ digits, c.isDigit = true) (n : Nat) :
    ∀ c ∈ List.replicate n '0' ++ digits, c.isDigit = true := by
  intro c member
  rcases List.mem_append.mp member with member | member
  · rw [List.eq_of_mem_replicate member]
    rfl
  · exact all c member

/-- A point is inserted between digits, with zeros in front of them if there are too few. -/
theorem insertPoint_split (digits : List Char) (fractional : places ≠ 0) :
    ∃ whole fraction, insertPoint digits places = whole ++ '.' :: fraction ∧
      whole ++ fraction = List.replicate (places + 1 - digits.length) '0' ++ digits ∧ whole ≠ [] ∧
        fraction.length = places := by
  unfold insertPoint
  rw [if_neg fractional]
  generalize padded : List.replicate (places + 1 - digits.length) '0' ++ digits = text
  have long : places < text.length := by
    rw [← padded, List.length_append, List.length_replicate]
    omega
  refine ⟨_, _, rfl, List.take_append_drop _ _, List.ne_nil_of_length_pos ?_, ?_⟩
  · rw [List.length_take]
    omega
  · rw [List.length_drop]
    omega

/-- Inserting a point leaves the digits of a natural number in front of it. -/
theorem insertPoint_eq (number : IsWhole digits) (fractional : places ≠ 0) :
    ∃ whole fraction, insertPoint digits places = whole ++ '.' :: fraction ∧ IsWhole whole ∧
      (∀ c ∈ fraction, c.isDigit = true) ∧ fraction.length = places := by
  obtain ⟨whole, fraction, pointed, padded, filled, length⟩ := insertPoint_split digits fractional
  have all : ∀ c ∈ whole ++ fraction, c.isDigit = true := by
    rw [padded]
    exact isDigit_padded number.all _
  have size := congrArg List.length padded
  rw [List.length_append, List.length_append, List.length_replicate, length] at size
  refine ⟨whole, fraction, pointed,
    ⟨fun c member => all c (List.mem_append_left _ member), filled, fun zero => ?_⟩,
    fun c member => all c (List.mem_append_right _ member), length⟩
  rcases Nat.lt_or_ge places digits.length with long | short
  · -- The first digit is that of the number, of which all digits would stand behind the point.
    have none : places + 1 - digits.length = 0 := by omega
    rw [← List.head?_append_of_ne_nil _ filled, padded, none, List.replicate_zero, List.nil_append] at zero
    have single := congrArg List.length (number.unpadded zero)
    rw [List.length_singleton] at single
    omega
  · obtain ⟨d, rfl⟩ := List.length_eq_one_iff.mp (show whole.length = 1 by omega)
    rw [Option.some.inj zero]

/-- A finite double with a set number of places is written with the digits of a natural number, and a point in them. -/
theorem fixed_eq (places : Nat) (finite : x.isFinite = true) :
    ∃ sign digits, IsWhole digits ∧ fixed places x = signed sign (insertPoint digits places) := by
  have kind : (Double.parts x).isFinite = true := finite
  unfold fixed textBy
  cases known : Double.parts x with
  | notANumber | infinity =>
    rw [known] at kind
    cases kind
  | zero sign => exact ⟨sign, ['0'], isWhole_zero, rfl⟩
  | finite sign m e _ => exact ⟨sign, _, isWhole_digitsOf _, rfl⟩

end Calculator.Decimal
