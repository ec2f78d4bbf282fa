import Calculator.Integer
import Calculator.Proofs.Digit
import Calculator.Proofs.Failure

/-!
# Reading integers

Digits of a radix denote a number. They are read as that number if it fits in 64 bits, and refused as too wide if not.
-/

namespace Calculator

theorem NumberBase.radix_bounds (base : NumberBase) : 2 ≤ base.radix ∧ base.radix ≤ 36 := by
  cases base <;> decide

namespace Integer

variable {radix : Nat} {digits : List Char}

theorem readMagnitude_eq (positive : 0 < radix) (all : Digit.AllIn radix digits) (text : String) (n : Nat)
    (fits : n < UInt64.size) : readMagnitude radix text n digits =
      if Digit.appendTo radix n digits < UInt64.size then .ok (Digit.appendTo radix n digits)
      else failAt 0 (.tooWide text) := by
  induction digits generalizing n with
  | nil => exact (if_pos fits).symm
  | cons c digits ih =>
    obtain ⟨d, value⟩ := Option.isSome_iff_exists.mp (all c List.mem_cons_self)
    rw [Digit.appendTo_cons value, readMagnitude, value]
    dsimp only
    split
    next fits => exact ih (fun c member => all c (List.mem_cons_of_mem _ member)) _ fits
    next wide =>
      have more := Digit.le_appendTo positive (n * radix + d) digits
      exact (if_neg fun fits => wide (Nat.lt_of_le_of_lt more fits)).symm

def signText (negative : Bool) : List Char :=
  if negative then ['-'] else []

theorem signOf_eq (value : Int64) : signOf value = String.ofList (signText (value < 0)) := by
  by_cases negative : value < 0 <;> simp [signOf, signText, negative]

theorem ne_minus {c : Char} (all : Digit.AllIn radix (c :: digits)) : c ≠ '-' := by
  rintro rfl
  cases all '-' List.mem_cons_self

theorem splitMinus_eq (negative : Bool) (all : Digit.AllIn radix digits) :
    splitMinus (signText negative ++ digits) = (negative, digits) := by
  cases negative with
  | true => rfl
  | false =>
    cases digits with
    | nil => rfl
    | cons c digits =>
      show splitMinus (c :: digits) = (false, c :: digits)
      unfold splitMinus
      split
      next same => exact absurd (List.cons.inj same).1 (ne_minus all)
      next => rfl

/-- Digits are read as the number that they denote, if that fits in 64 bits. -/
theorem read_eq (low : 2 ≤ radix) (high : radix ≤ 36) (negative : Bool) (filled : digits ≠ [])
    (all : Digit.AllIn radix digits) :
    read (String.ofList (signText negative ++ digits)) radix =
      if Digit.number radix digits ≤ limit negative then
        .ok (Int64.ofInt (if negative then -Digit.number radix digits else Digit.number radix digits))
      else failAt 0 (.tooWide (String.ofList (signText negative ++ digits))) := by
  have known : checkRadix radix = .ok () := if_pos ⟨low, high⟩
  have magnitude := readMagnitude_eq (by omega) all (String.ofList (signText negative ++ digits)) 0 (by decide)
  rw [← Digit.number] at magnitude
  have narrow : limit negative < UInt64.size := by cases negative <;> decide
  unfold read
  rw [known, ok_bind, String.toList_ofList, splitMinus_eq negative all]
  dsimp only
  rw [if_neg (by simpa using filled), magnitude]
  generalize Digit.number radix digits = n
  rcases Nat.lt_or_ge (limit negative) n with wide | fits
  · rw [if_neg (Nat.not_le.mpr wide)]
    split
    · rw [ok_bind, if_pos wide]
      rfl
    · rfl
  · rw [if_pos fits, if_pos (Nat.lt_of_le_of_lt fits narrow), ok_bind, if_neg (Nat.not_lt.mpr fits)]
    rfl

end Integer

end Calculator
