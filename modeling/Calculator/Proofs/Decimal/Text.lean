import Calculator.Decimal.Reading
import Calculator.Proofs.Decimal.Places
import Calculator.Proofs.Token.Lexer

/-!
# The form of decimal text

The text of a finite value without a sign is a numeral that the scanner reads.
-/

namespace Calculator.Decimal

open Token (IsNumeral)

/-- The value is finite, and its sign bit is clear. -/
def IsUnsigned (x : Float) : Prop :=
  match Double.parts x with
  | .zero .positive | .finite .positive _ _ _ => True
  | _ => False

/-- Reading the text of the value gives it back. -/
def ReadsBack (x : Float) : Prop :=
  read? (plain x).toList = some x

theorem isNumeral_of_digits {digits : List Char} (all : ∀ c ∈ digits, c.isDigit = true) (filled : digits ≠ []) :
    IsNumeral digits :=
  ⟨digits, [], (List.append_nil _).symm, filled, all, .inl rfl⟩

theorem isNumeral_insertPoint {digits : List Char} (all : ∀ c ∈ digits, c.isDigit = true) {places : Nat}
    (filled : insertPoint digits places ≠ []) : IsNumeral (insertPoint digits places) := by
  by_cases integer : places = 0
  · rw [insertPoint, if_pos integer] at filled ⊢
    exact isNumeral_of_digits all filled
  · obtain ⟨whole, fraction, pointed, padded, front, length⟩ := insertPoint_split digits integer
    have all : ∀ c ∈ whole ++ fraction, c.isDigit = true := by
      rw [padded]
      exact isDigit_padded all _
    refine ⟨_, _, pointed, front, fun c member => all c (List.mem_append_left _ member), .inr ⟨_, rfl, ?_, ?_⟩⟩
    · exact List.ne_nil_of_length_pos (by omega)
    · exact fun c member => all c (List.mem_append_right _ member)

theorem isNumeral_scaled {s : Scaled} (filled : s.plain ≠ []) : IsNumeral s.plain := by
  have all : ∀ c ∈ digitsOf s.digits, c.isDigit = true := fun c member =>
    Nat.isDigit_of_mem_toDigits (by decide) (by decide) member
  unfold Scaled.plain at filled ⊢
  split at filled
  · rw [if_pos ‹_›]
    refine isNumeral_of_digits (fun c member => ?_) filled
    rcases List.mem_append.mp member with member | member
    · exact all c member
    · rw [List.eq_of_mem_replicate member]
      rfl
  · rw [if_neg ‹_›]
    exact isNumeral_insertPoint (fun c member => all c (List.mem_of_mem_take member)) filled

/-- A finite value without a sign is written with digits and at most a point. -/
theorem isNumeral_plain {x : Float} (h : IsUnsigned x) (reads : ReadsBack x) : IsNumeral (plain x).toList := by
  have filled : (plain x).toList ≠ [] := by
    intro empty
    rw [ReadsBack, empty] at reads
    cases reads
  unfold IsUnsigned at h
  unfold plain textBy at filled ⊢
  split at h
  · rename_i zero
    rw [zero]
    exact isNumeral_of_digits (by simp [signed]) (by simp [signed])
  · rename_i m e _ parts
    rw [parts] at filled ⊢
    simp only [signed, String.toList_ofList] at filled ⊢
    exact isNumeral_scaled filled
  · exact h.elim

end Calculator.Decimal
