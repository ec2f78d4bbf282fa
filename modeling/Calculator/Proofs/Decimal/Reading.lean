import Mathlib.Data.List.TakeDrop
import Calculator.Decimal.Reading
import Calculator.Proofs.Token.Lexer

/-!
# What decimal text denotes

A numeral without a sign denotes a number `m * 10 ^ e`, and is read as the nearest double.
-/

namespace Calculator.Decimal

def IsDigits (text : List Char) : Prop :=
  text ≠ [] ∧ ∀ c ∈ text, c.isDigit = true

/-- The text is empty, or an exponent that denotes `k`. -/
inductive IsExponent : List Char → Int → Prop
  | none : IsExponent [] 0
  | some {mark : Char} {sign digits : List Char}
      (marks : mark = 'e' ∨ mark = 'E') (signs : sign ∈ [[], ['+'], ['-']])
      (all : IsDigits digits) :
      IsExponent (mark :: (sign ++ digits)) (if sign = ['-'] then -ofDigits digits else ofDigits digits)

/-- The text is digits, with or without a point and an exponent, and denotes `m * 10 ^ e`. -/
inductive Denotes : List Char → Nat → Int → Prop
  | whole {whole exponent : List Char} {k : Int} (all : IsDigits whole) (ends : IsExponent exponent k) :
      Denotes (whole ++ exponent) (ofDigits whole) k
  | point {whole places exponent : List Char} {k : Int}
      (all : ∀ c ∈ whole, c.isDigit = true) (more : IsDigits places)
      (ends : IsExponent exponent k) :
      Denotes (whole ++ '.' :: (places ++ exponent)) (ofDigits (whole ++ places)) (k - places.length)

variable {text digits rest : List Char} {m : Nat} {e k : Int}

theorem IsExponent.head (h : IsExponent text k) : ∀ c ∈ text.head?, c = 'e' ∨ c = 'E' := by
  cases h with
  | none => nofun
  | some marks =>
    rintro _ ⟨⟩
    exact marks

theorem IsExponent.ends (h : IsExponent text k) : ∀ c ∈ text.head?, c.isDigit = false := by
  intro c head
  rcases h.head c head with rfl | rfl <;> rfl

theorem spanDigits_append (all : ∀ c ∈ digits, c.isDigit = true) (stop : ∀ c ∈ rest.head?, c.isDigit = false) :
    spanDigits (digits ++ rest) = (digits, rest) := by
  have front := takeWhile_append_stop all stop
  have back : digits ++ (digits ++ rest).dropWhile Char.isDigit = digits ++ rest := by
    conv => lhs; lhs; rw [← front]
    exact List.takeWhile_append_dropWhile
  rw [spanDigits, List.span_eq_takeWhile_dropWhile, front, List.append_cancel_left back]

theorem ne_of_isDigit {c d : Char} (digit : c.isDigit = true) (other : d.isDigit = false) : c ≠ d := by
  rintro rfl
  rw [digit] at other
  cases other

theorem splitSign_cons {c : Char} (minus : c ≠ '-') (plus : c ≠ '+') :
    splitSign (c :: text) = (false, c :: text) := by
  unfold splitSign
  split
  next same => exact absurd (List.cons.inj same).1 minus
  next same => exact absurd (List.cons.inj same).1 plus
  next => rfl

theorem splitSign_append {sign : List Char} (signs : sign ∈ [[], ['+'], ['-']]) (all : IsDigits digits) :
    splitSign (sign ++ digits) = (decide (sign = ['-']), digits) := by
  simp only [List.mem_cons, List.not_mem_nil, or_false] at signs
  rcases signs with rfl | rfl | rfl
  · obtain ⟨filled, all⟩ := all
    cases digits with
    | nil => exact absurd rfl filled
    | cons c digits =>
      have digit := all c List.mem_cons_self
      exact splitSign_cons (ne_of_isDigit digit rfl) (ne_of_isDigit digit rfl)
  · rfl
  · rfl

theorem IsExponent.read (h : IsExponent text k) : readExponent? text = .some k := by
  cases h with
  | none => rfl
  | @some mark sign digits marks signs all =>
    have valid : ¬ (digits.isEmpty = true ∨ ¬ digits.all Char.isDigit = true) := by
      rintro (empty | foreign)
      · exact all.1 (List.isEmpty_iff.mp empty)
      · exact foreign (List.all_eq_true.mpr all.2)
    have split := splitSign_append signs all
    unfold readExponent?
    dsimp only
    rw [if_pos marks, split]
    dsimp only
    rw [if_neg valid]
    by_cases negative : sign = ['-']
    · rw [if_pos negative, if_pos (decide_eq_true negative)]
    · rw [if_neg negative, if_neg (by simpa using negative)]

theorem Denotes.head (h : Denotes text m e) : ∃ c rest, text = c :: rest ∧ (c.isDigit = true ∨ c = '.') := by
  have digits {whole rest : List Char} (all : IsDigits whole) :
      ∃ c more, whole ++ rest = c :: more ∧ (c.isDigit = true ∨ c = '.') := by
    obtain ⟨filled, all⟩ := all
    cases whole with
    | nil => exact absurd rfl filled
    | cons c whole => exact ⟨c, whole ++ rest, rfl, .inl (all c List.mem_cons_self)⟩
  cases h with
  | whole all => exact digits all
  | @point whole _ _ _ all =>
    cases whole with
    | nil => exact ⟨'.', _, rfl, .inr rfl⟩
    | cons c whole => exact digits ⟨nofun, all⟩

theorem IsExponent.char (h : IsExponent text k) : ∀ c ∈ text, c.isDigit = true ∨ c ∈ ['e', 'E', '+', '-'] := by
  cases h with
  | none => nofun
  | some marks signs all =>
    intro c member
    rcases List.mem_cons.mp member with rfl | member
    · rcases marks with rfl | rfl <;> decide
    rcases List.mem_append.mp member with member | member
    · simp only [List.mem_cons, List.not_mem_nil, or_false] at signs
      rcases signs with rfl | rfl | rfl <;> simp_all
    · exact .inl (all.2 c member)

theorem Denotes.char (h : Denotes text m e) : ∀ c ∈ text, c.isDigit = true ∨ c ∈ ['.', 'e', 'E', '+', '-'] := by
  have ofExponent {exponent k c} (h : IsExponent exponent k) (member : c ∈ exponent) :
      c.isDigit = true ∨ c ∈ ['.', 'e', 'E', '+', '-'] :=
    (h.char c member).imp_right (List.mem_cons_of_mem '.')
  cases h with
  | whole digits exponentEnds =>
    intro c member
    rcases List.mem_append.mp member with member | member
    · exact .inl (digits.2 c member)
    · exact ofExponent exponentEnds member
  | point digits more exponentEnds =>
    intro c member
    rcases List.mem_append.mp member with member | member
    · exact .inl (digits c member)
    rcases List.mem_cons.mp member with rfl | member
    · exact .inr List.mem_cons_self
    rcases List.mem_append.mp member with member | member
    · exact .inl (more.2 c member)
    · exact ofExponent exponentEnds member

theorem toLower_of_head {c : Char} (head : c.isDigit = true ∨ c = '.') : c.toLower = c := by
  rcases head with digit | rfl
  · have bounds := Text.toNat_of_isDigit digit
    have small : ¬ (c.val ≥ 'A'.val ∧ c.val ≤ 'Z'.val) := by
      rintro ⟨above, -⟩
      have above : 65 ≤ c.toNat := above
      omega
    exact dif_neg small
  · rfl

theorem readSpecial?_of_head {c : Char} (head : c.isDigit = true ∨ c = '.') : readSpecial? (c :: text) = none := by
  have other {name : String} {d : Char} (letter : d.isDigit = false ∧ d ≠ '.')
      (first : name.toList.head? = some d) :
      String.ofList ((c :: text).map Char.toLower) ≠ name := by
    rintro rfl
    rw [String.toList_ofList, List.map_cons, toLower_of_head head] at first
    cases first
    rcases head with digit | point
    · rw [digit] at letter
      cases letter.1
    · exact letter.2 point
  unfold readSpecial?
  split
  next same => exact absurd same (other ⟨rfl, by decide⟩ (d := 'i') rfl)
  next same => exact absurd same (other ⟨rfl, by decide⟩ (d := 'i') rfl)
  next same => exact absurd same (other ⟨rfl, by decide⟩ (d := 'n') rfl)
  next => rfl

theorem Denotes.readMagnitude (h : Denotes text m e) : readMagnitude? text = some (Double.ofDecimal m e) := by
  cases h with
  | @whole whole exponent _ all ends =>
    have spanned := spanDigits_append all.2 ends.ends
    have value := ends.read
    have filled : whole.isEmpty = false := List.isEmpty_eq_false_iff.mpr all.1
    -- An exponent does not begin with a point.
    cases ends with
    | none =>
      simp only [readMagnitude?, spanned]
      simp [value, filled]
    | some marks =>
      rcases marks with rfl | rfl <;> simp [readMagnitude?, spanned, value, filled]
  | @point whole places exponent k all more ends =>
    have stop : ∀ c ∈ ('.' :: (places ++ exponent)).head?, c.isDigit = false := by
      rintro _ ⟨⟩
      rfl
    have filled : places.isEmpty = false := List.isEmpty_eq_false_iff.mpr more.1
    simp [readMagnitude?, spanDigits_append all stop, spanDigits_append more.2 ends.ends, ends.read, filled]

theorem Denotes.read (h : Denotes text m e) : read? text = some (Double.ofDecimal m e) := by
  obtain ⟨c, rest, same, head⟩ := h.head
  have magnitude := h.readMagnitude
  subst same
  have unsigned : splitSign (c :: rest) = (false, c :: rest) := by
    rcases head with digit | rfl
    · exact splitSign_cons (ne_of_isDigit digit rfl) (ne_of_isDigit digit rfl)
    · rfl
  unfold read?
  rw [unsigned]
  dsimp only
  rw [readSpecial?_of_head head, magnitude]
  rfl

end Calculator.Decimal
