import Mathlib
import Calculator.Proofs.Integer

/-!
# Which integers are read

A text denotes an integer if it is digits with or without a minus sign in front. Exactly such texts are read, as the
integers that they denote, if these have 64 bits.
-/

namespace Calculator.Integer

variable {radix : Nat} {text : String} {n : Int} {value : Int64}

theorem limit_eq (negative : Bool) : limit negative = if negative then 2 ^ 63 else 2 ^ 63 - 1 := by
  cases negative <;> rfl

/-- The text is digits of the radix, with or without a minus sign in front, and denotes the integer. -/
inductive Denotes (radix : Nat) : List Char → Int → Prop
  | signed (negative : Bool) {digits : List Char} (filled : digits ≠ []) (all : Digit.AllIn radix digits) :
      Denotes radix (signText negative ++ digits)
        (if negative then -Digit.number radix digits else Digit.number radix digits)

def Fits (n : Int) : Prop :=
  -2 ^ 63 ≤ n ∧ n ≤ 2 ^ 63 - 1

theorem fits_toInt (value : Int64) : Fits value.toInt :=
  ⟨value.le_toInt, Int.le_sub_one_of_lt value.toInt_lt⟩

/-- A numeral is read as the integer that it denotes, or refused as too wide. -/
theorem Denotes.read (low : 2 ≤ radix) (high : radix ≤ 36) (denotes : Denotes radix text.toList n) :
    (Fits n → Integer.read text radix = .ok (Int64.ofInt n)) ∧
      (¬ Fits n → Integer.read text radix = failAt 0 (.tooWide text)) := by
  generalize spelled : text.toList = chars at denotes
  obtain ⟨negative, filled, all⟩ := denotes
  have read := read_eq low high negative filled all
  rw [← spelled, String.ofList_toList] at read
  rw [read]
  generalize Digit.number radix _ = m
  have range : m ≤ limit negative ↔ Fits (if negative then -(m : Int) else m) := by
    unfold Fits
    cases negative <;> simp only [limit_eq, Bool.false_eq_true, if_true, if_false] <;> omega
  exact ⟨fun fits => if_pos (range.mpr fits), fun wide => if_neg fun small => wide (range.mp small)⟩

theorem signText_splitMinus (chars : List Char) : signText (splitMinus chars).1 ++ (splitMinus chars).2 = chars := by
  unfold splitMinus
  split <;> rfl

/-- The failure refuses a text for its form or for its width. -/
def Refused (failure : Failure) : Prop :=
  failure.category = .invalidBase ∨ failure.category = .numericOverflow

/-- Whatever the digits so far, a foreign one is never skipped. It may be too late for it to be noticed. -/
theorem readMagnitude_ends (radix : Nat) (text : String) (n : Nat) (digits : List Char) :
    Ends (fun _ => Digit.AllIn radix digits) Refused (readMagnitude radix text n digits) := by
  induction digits generalizing n with
  | nil => exact List.forall_mem_nil _
  | cons c digits ih =>
    unfold readMagnitude
    split
    next => exact .inl rfl
    next d value =>
      dsimp only
      split
      next =>
        apply (ih _).mono _ fun _ => id
        exact fun _ all => List.forall_mem_cons.mpr ⟨Option.isSome_iff_exists.mpr ⟨d, value⟩, all⟩
      next => exact .inr rfl

/-- Only a numeral is read, and whatever is not read is refused for its form or its width. -/
theorem read_ends (low : 2 ≤ radix) (high : radix ≤ 36) (text : String) :
    Ends (fun _ => ∃ n, Denotes radix text.toList n) Refused (Integer.read text radix) := by
  have known : checkRadix radix = .ok () := if_pos ⟨low, high⟩
  have whole := signText_splitMinus text.toList
  unfold Integer.read
  rw [known, ok_bind]
  generalize splitMinus text.toList = parts at whole
  obtain ⟨negative, digits⟩ := parts
  dsimp only at whole ⊢
  split
  next => exact .inl rfl
  next filled =>
    apply ends_bind (readMagnitude_ends radix text 0 digits)
    intro magnitude all
    split
    next => exact .inr rfl
    next =>
      rw [← whole]
      exact ⟨_, .signed negative (fun empty => filled (List.isEmpty_iff.mpr empty)) all⟩

/-- What is read is denoted. -/
theorem denotes_of_read (low : 2 ≤ radix) (high : radix ≤ 36) (h : Integer.read text radix = .ok value) :
    Denotes radix text.toList value.toInt := by
  have denotes := read_ends low high text
  rw [h] at denotes
  obtain ⟨n, denotes⟩ := denotes
  -- The integer is the one that was read, since a numeral is read in one way only.
  have read := denotes.read low high
  by_cases fits : Fits n
  · have same : Int64.ofInt n = value := Except.ok.inj ((read.1 fits).symm.trans h)
    rwa [← same, Int64.toInt_ofInt_of_le fits.1 (Int.lt_of_le_sub_one fits.2)]
  · rw [read.2 fits] at h
    cases h

theorem isNumeral_iff (text : String) (base : NumberBase) :
    isNumeral text base = true ↔ ∃ n, Denotes base.radix text.toList n := by
  have form : isNumeral text base = true ↔
      (splitMinus text.toList).2 ≠ [] ∧ Digit.AllIn base.radix (splitMinus text.toList).2 := by
    simp [isNumeral, Digit.AllIn, NumberBase.isDigit]
  rw [form]
  constructor
  · rintro ⟨filled, all⟩
    rw [← signText_splitMinus text.toList]
    exact ⟨_, .signed _ filled all⟩
  · rintro ⟨n, denotes⟩
    generalize text.toList = chars at denotes ⊢
    obtain ⟨negative, filled, all⟩ := denotes
    rw [splitMinus_eq negative all]
    exact ⟨filled, all⟩

/-- Exactly the numerals whose integers have 64 bits are read, as those integers. Wider numerals are
refused as such, and other texts are refused for their form or for the width of what stands in front. In
the bases of literals, a text is judged a numeral if it is one, read or too wide. -/
theorem reads_fitting_numerals :
    (∀ radix text, 2 ≤ radix → radix ≤ 36 →
      (∀ n, (∃ value, Integer.read text radix = .ok value ∧ value.toInt = n) ↔
        Denotes radix text.toList n ∧ Fits n) ∧
        (∀ n, Denotes radix text.toList n → ¬ Fits n →
          ∃ failure, Integer.read text radix = .error failure ∧ failure.category = .numericOverflow) ∧
        ((¬ ∃ n, Denotes radix text.toList n) → ∃ failure, Integer.read text radix = .error failure ∧
          (failure.category = .invalidBase ∨ failure.category = .numericOverflow))) ∧
      ∀ text base, (isNumeral text base = true ↔ ∃ n, Denotes base.radix text.toList n) ∧
        (isNumeral text base = true ↔ (∃ value, Integer.read text base.radix = .ok value) ∨
          ∃ n, Denotes base.radix text.toList n ∧ ¬ Fits n) := by
  refine ⟨fun radix text low high => ⟨fun n => ⟨?_, ?_⟩, fun n denotes wide => ?_, fun other => ?_⟩,
    fun text base => ?_⟩
  · rintro ⟨value, read, rfl⟩
    exact ⟨denotes_of_read low high read, fits_toInt value⟩
  · rintro ⟨denotes, fits⟩
    exact ⟨_, (denotes.read low high).1 fits, Int64.toInt_ofInt_of_le fits.1 (Int.lt_of_le_sub_one fits.2)⟩
  · exact ⟨_, (denotes.read low high).2 wide, rfl⟩
  · have ends := read_ends low high text
    cases read : Integer.read text radix with
    | ok value =>
      rw [read] at ends
      exact absurd ends other
    | error failure => exact ⟨failure, rfl, ends.error read⟩
  · have numeral := isNumeral_iff text base
    obtain ⟨low, high⟩ := base.radix_bounds
    refine ⟨numeral, numeral.trans ⟨?_, ?_⟩⟩
    · rintro ⟨n, denotes⟩
      by_cases fits : Fits n
      · exact .inl ⟨_, (denotes.read low high).1 fits⟩
      · exact .inr ⟨n, denotes, fits⟩
    · rintro (⟨value, read⟩ | ⟨n, denotes, -⟩)
      · exact ⟨_, denotes_of_read low high read⟩
      · exact ⟨n, denotes⟩

/-- In base sixteen the least integer is read, its magnitude is too wide, and `G` is no digit. -/
theorem reads_fitting_numerals_hexadecimal :
    2 ≤ 16 ∧ 16 ≤ 36 ∧
      (∃ value, Integer.read "-8000000000000000" 16 = .ok value ∧ value.toInt = -2 ^ 63) ∧
      (Denotes 16 "8000000000000000".toList (2 ^ 63) ∧ ¬ Fits (2 ^ 63) ∧
        ∃ failure, Integer.read "8000000000000000" 16 = .error failure ∧ failure.category = .numericOverflow) ∧
      (¬ (∃ n, Denotes 16 "8G".toList n)) ∧ (∃ failure, Integer.read "8G" 16 = .error failure ∧
        (failure.category = .invalidBase ∨ failure.category = .numericOverflow)) ∧
      isNumeral "8000000000000000" .hexadecimal = true := by
  have all : Digit.AllIn 16 ('8' :: List.replicate 15 '0') := by
    intro c member
    have digit : c = '8' ∨ c = '0' := by simpa using member
    rcases digit with rfl | rfl <;> rfl
  have least : Denotes 16 "-8000000000000000".toList (-2 ^ 63) := .signed true (List.cons_ne_nil _ _) all
  have wide : Denotes 16 "8000000000000000".toList (2 ^ 63) := .signed false (List.cons_ne_nil _ _) all
  have foreign : ¬ ∃ n, Denotes 16 "8G".toList n :=
    (not_congr (isNumeral_iff "8G" .hexadecimal)).mp (by decide)
  have above : ¬ Fits (2 ^ 63) := fun fits => absurd fits.2 (by decide)
  obtain ⟨reads, judges⟩ := reads_fitting_numerals
  refine ⟨by decide, by decide, ?_, ⟨wide, above, ?_⟩, foreign, ?_, ?_⟩
  · exact ((reads 16 _ (by decide) (by decide)).1 _).mpr ⟨least, by decide, by decide⟩
  · exact (reads 16 _ (by decide) (by decide)).2.1 _ wide above
  · exact (reads 16 _ (by decide) (by decide)).2.2 foreign
  · exact (judges _ .hexadecimal).1.mpr ⟨_, wide⟩

end Calculator.Integer
