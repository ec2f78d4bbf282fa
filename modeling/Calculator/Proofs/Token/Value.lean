import Mathlib
import Calculator.Proofs.Decimal.Reading
import Calculator.Proofs.Integer

/-!
# Number tokens of a text

A number that the scanner reads is a decimal numeral, which always has a value, or digits after the mark of a base,
which have one if it fits in 64 bits.
-/

namespace Calculator

open Decimal (IsDigits IsExponent Denotes)

namespace Lexeme

variable {start : Nat} {c : Char} {text rest whole found : List Char} {lexeme : Lexeme}

theorem isDigits_takeWhile (filled : (text.takeWhile Char.isDigit).isEmpty = false) :
    IsDigits (text.takeWhile Char.isDigit) :=
  ⟨List.isEmpty_eq_false_iff.mp filled, fun c member => List.all_eq_true.mp List.all_takeWhile c member⟩

theorem readFraction_eq_ok (h : readFraction start whole text = .ok found) :
    (found = [] ∧ text.head? ≠ some '.') ∨ ∃ places, IsDigits places ∧ found = '.' :: places := by
  unfold readFraction at h
  split at h
  next rest =>
    dsimp only at h
    split at h
    · cases h
    next filled =>
      split at h
      · cases h
      · cases h
        exact .inr ⟨_, isDigits_takeWhile (Bool.eq_false_iff.mpr filled), rfl⟩
  next pointless =>
    cases h
    refine .inl ⟨rfl, fun point => ?_⟩
    obtain ⟨rest, same⟩ := List.head?_eq_some_iff.mp point
    exact pointless rest same

theorem sign_mem (text : List Char) :
    (text.take 1).filter (fun c => decide (c = '+' ∨ c = '-')) ∈ [[], ['+'], ['-']] := by
  rcases text with _ | ⟨c, text⟩
  · exact List.mem_cons_self
  · by_cases sign : c = '+' ∨ c = '-'
    · rcases sign with rfl | rfl <;> simp
    · simp [sign]

theorem readExponent_eq_ok (h : readExponent start text = .ok found) : ∃ k, IsExponent found k := by
  cases text with
  | nil =>
    cases h
    exact ⟨0, .none⟩
  | cons mark rest =>
    unfold readExponent at h
    dsimp only at h
    split at h
    next marks =>
      split at h
      · cases h
      next filled =>
        cases h
        rw [List.cons_append]
        exact ⟨_, .some marks (sign_mem rest) (isDigits_takeWhile (Bool.eq_false_iff.mpr filled))⟩
    next =>
      cases h
      exact ⟨0, .none⟩

/-- A number without a mark is a decimal numeral. -/
theorem readDecimal_eq_ok (head : c.isDigit = true ∨ c = '.') (h : readDecimal start (c :: rest) = .ok found) :
    ∃ m e, Denotes found m e := by
  unfold readDecimal at h
  obtain ⟨fraction, point, h⟩ := bind_eq_ok.mp h
  obtain ⟨exponent, marked, h⟩ := bind_eq_ok.mp h
  cases h
  obtain ⟨k, ends⟩ := readExponent_eq_ok marked
  have digits : ∀ d ∈ (c :: rest).takeWhile Char.isDigit, d.isDigit = true := fun d member =>
    List.all_eq_true.mp List.all_takeWhile d member
  rcases readFraction_eq_ok point with ⟨rfl, pointless⟩ | ⟨places, more, rfl⟩
  · rw [List.append_nil]
    refine ⟨_, k, .whole ⟨?_, digits⟩ ends⟩
    rcases head with digit | rfl
    · simp [digit]
    · exact absurd rfl pointless
  · rw [List.append_assoc, List.cons_append]
    exact ⟨_, _, .point digits more ends⟩

/-- The characters of a number in the base: a decimal numeral, or digits of another base after its mark. -/
inductive IsNumber : NumberBase → List Char → Prop
  | decimal {text : List Char} {m : Nat} {e : Int} (denotes : Denotes text m e) : IsNumber .decimal text
  | marked {base : NumberBase} {mark : Char} {digits : List Char} (marks : NumberBase.ofMark? mark = some base)
      (filled : digits ≠ []) (all : Digit.AllIn base.radix digits) : IsNumber base ('0' :: mark :: digits)

theorem readMarked_eq_ok {base : NumberBase} {mark : Char} (marks : NumberBase.ofMark? mark = some base)
    (h : readMarked start base ['0', mark] text = .ok found) : IsNumber base found := by
  unfold readMarked at h
  dsimp only at h
  split at h
  · cases h
  next filled =>
    cases h
    refine .marked marks (fun empty => filled (List.isEmpty_iff.mpr empty)) ?_
    exact fun c member => List.all_eq_true.mp List.all_takeWhile c member

theorem readNumber_eq_ok (head : c.isDigit = true ∨ c = '.') (h : readNumber start (c :: rest) = .ok lexeme) :
    IsNumber lexeme.base lexeme.text := by
  unfold readNumber at h
  dsimp only at h
  split at h
  next base mark digits found =>
    obtain ⟨text, read, rfl⟩ := map_eq_ok.mp h
    split at found
    · obtain ⟨base, marks, same⟩ := Option.map_eq_some_iff.mp found
      cases same
      exact readMarked_eq_ok marks read
    · cases found
  next =>
    obtain ⟨text, read, rfl⟩ := map_eq_ok.mp h
    obtain ⟨m, e, denotes⟩ := readDecimal_eq_ok head read
    exact .decimal denotes

theorem read_number (h : read start c rest = .ok lexeme) (kind : lexeme.kind = .number) :
    IsNumber lexeme.base lexeme.text := by
  unfold read at h
  split at h
  next starts =>
    refine readNumber_eq_ok ?_ h
    rcases Bool.or_eq_true_iff.mp starts with digit | point
    · exact .inl digit
    · exact .inr (of_decide_eq_true (Bool.and_eq_true_iff.mp point).1)
  next =>
    split at h
    · cases h
      cases kind
    · split at h <;> cases h
      · cases kind
      · exact absurd kind (kindOfSingle_ne (by decide))

end Lexeme

namespace Token

variable {position : Nat} {before tokens : List Token} {text : List Char} {token : Token}

theorem scanFrom_forall {good : Token → Prop} (stops : ∀ position, good (stop position))
    (lexemes : ∀ position c rest lexeme, Lexeme.read position c rest = .ok lexeme → good (lexeme.toToken position))
    (earlier : ∀ token ∈ before, good token) (h : scanFrom position before text = .ok tokens) :
    ∀ token ∈ tokens, good token := by
  fun_induction scanFrom position before text with
  | case1 =>
    cases h
    intro token member
    rcases List.mem_cons.mp (List.mem_reverse.mp member) with rfl | member
    · exact stops _
    · exact earlier token member
  | case2 _ _ _ _ _ ih => exact ih earlier h
  | case3 => cases h
  | case4 position before c rest _ lexeme read ih =>
    apply ih _ h
    exact List.forall_mem_cons.mpr ⟨lexemes position c rest lexeme read, earlier⟩

theorem isNumber_of_scan {text : String} (h : scan text = .ok tokens) (member : token ∈ tokens)
    (number : token.isNumber = true) : Lexeme.IsNumber token.base token.text.toList := by
  have lexemes position c rest lexeme (read : Lexeme.read position c rest = .ok lexeme)
      (kind : (lexeme.toToken position).kind = .number) :
      Lexeme.IsNumber (lexeme.toToken position).base (lexeme.toToken position).text.toList := by
    rw [Lexeme.toToken, String.toList_ofList]
    exact Lexeme.read_number read kind
  have stops position (kind : (stop position).kind = .number) :
      Lexeme.IsNumber (stop position).base (stop position).text.toList := by
    cases kind
  have all := @scanFrom_forall 0 [] tokens text.toList
    (fun token => token.kind = .number → Lexeme.IsNumber token.base token.text.toList) stops lexemes
    (List.forall_mem_nil _) h
  exact all token member (of_decide_eq_true number)

/-- What the value of a number token is. -/
inductive Means (token : Token) : Except Failure Float → Prop
  | decimal {m : Nat} {e : Int} (base : token.base = .decimal) (denotes : Denotes token.text.toList m e) :
      Means token (.ok (Double.ofDecimal m e))
  | integer {mark : Char} {digits : List Char} (marks : NumberBase.ofMark? mark = some token.base)
      (spelled : token.text.toList = '0' :: mark :: digits) (fits : Digit.number token.base.radix digits < 2 ^ 63) :
      Means token (.ok (Double.ofInt (Digit.number token.base.radix digits)))
  | tooWide {mark : Char} {digits : List Char} (marks : NumberBase.ofMark? mark = some token.base)
      (spelled : token.text.toList = '0' :: mark :: digits) (wide : 2 ^ 63 ≤ Digit.number token.base.radix digits) :
      Means token (failAt token.position (.unreadableLiteral token.text (.tooWide (String.ofList digits))))

theorem dropBytes_mark {mark : Char} {base : NumberBase} (marks : NumberBase.ofMark? mark = some base)
    (digits : List Char) : dropBytes 2 ('0' :: mark :: digits) = digits := by
  have size : mark.utf8Size = 1 := by
    unfold NumberBase.ofMark? at marks
    split at marks
    next letter => rcases letter with rfl | rfl <;> rfl
    split at marks
    next letter => rcases letter with rfl | rfl <;> rfl
    split at marks
    next letter => rcases letter with rfl | rfl <;> rfl
    cases marks
  have zero : ('0' : Char).utf8Size = 1 := rfl
  simp [dropBytes, size, zero]

/-- A token in another base than decimal is read as an integer in that base. -/
theorem numericValue_integer (number : token.isNumber = true) (base : token.base ≠ .decimal) : token.numericValue =
    match Integer.read (String.ofList (dropBytes 2 token.text.toList)) token.base.radix with
    | .ok value => .ok (Double.ofInt value.toInt)
    | .error failure => failAt token.position (.unreadableLiteral token.text failure.cause) := by
  unfold numericValue
  rw [number, if_neg (by decide)]
  split
  next decimal => exact absurd decimal base
  next => rfl

theorem ne_decimal_of_mark {mark : Char} {base : NumberBase} (marks : NumberBase.ofMark? mark = some base) :
    base ≠ .decimal := by
  rintro rfl
  unfold NumberBase.ofMark? at marks
  repeat' split at marks
  all_goals cases marks

/-- Digits after a mark are read as an integer of 64 bits, or refused as too wide. -/
theorem numericValue_marked {mark : Char} {digits : List Char} (number : token.isNumber = true)
    (marks : NumberBase.ofMark? mark = some token.base) (filled : digits ≠ [])
    (all : Digit.AllIn token.base.radix digits) (spelled : token.text.toList = '0' :: mark :: digits) :
    token.numericValue =
      if Digit.number token.base.radix digits < 2 ^ 63 then .ok (Double.ofInt (Digit.number token.base.radix digits))
      else failAt token.position (.unreadableLiteral token.text (.tooWide (String.ofList digits))) := by
  have low : 2 ≤ token.base.radix := by cases token.base <;> decide
  have high : token.base.radix ≤ 36 := by cases token.base <;> decide
  have read : Integer.read (String.ofList digits) token.base.radix = _ := Integer.read_eq low high false filled all
  rw [numericValue_integer number (ne_decimal_of_mark marks), spelled, dropBytes_mark marks, read]
  generalize Digit.number token.base.radix digits = n
  have limit : Integer.limit false = 2 ^ 63 - 1 := rfl
  by_cases fits : n < 2 ^ 63
  · have same : (Int64.ofInt n).toInt = n := Int64.toInt_ofInt_of_le (by omega) (by omega)
    rw [if_pos (by omega), if_pos fits]
    dsimp only
    rw [if_neg Bool.false_ne_true, same]
  · rw [if_neg (by omega), if_neg fits]
    rfl

/-- A decimal numeral is read as the double that it denotes. -/
theorem numericValue_decimal {m : Nat} {e : Int} (number : token.isNumber = true) (base : token.base = .decimal)
    (denotes : Denotes token.text.toList m e) : token.numericValue = .ok (Double.ofDecimal m e) := by
  unfold numericValue
  simp only [number, base, denotes.read]
  rfl

theorem spelled_of_scan {text : String} (h : scan text = .ok tokens) (member : token ∈ tokens)
    (number : token.isNumber = true) :
    (token.base = .decimal ∧ ∃ m e, Denotes token.text.toList m e) ∨
      ∃ mark digits, NumberBase.ofMark? mark = some token.base ∧ token.text.toList = '0' :: mark :: digits ∧
        digits ≠ [] ∧ Digit.AllIn token.base.radix digits := by
  have spelled := isNumber_of_scan h member number
  generalize token.base = base at spelled ⊢
  generalize token.text.toList = text at spelled ⊢
  cases spelled with
  | decimal denotes => exact .inl ⟨rfl, _, _, denotes⟩
  | marked marks filled all => exact .inr ⟨_, _, marks, rfl, filled, all⟩

theorem numericValue_means {text : String} (h : scan text = .ok tokens) (member : token ∈ tokens)
    (number : token.isNumber = true) : token.Means token.numericValue := by
  rcases spelled_of_scan h member number with
    ⟨base, m, e, denotes⟩ | ⟨mark, digits, marks, spelled, filled, all⟩
  · rw [numericValue_decimal number base denotes]
    exact .decimal base denotes
  · rw [numericValue_marked number marks filled all spelled]
    split
    next fits => exact .integer marks spelled fits
    next wide => exact .tooWide marks spelled (Nat.not_lt.mp wide)

/-- A number of a scanned text is a decimal numeral and has the value that it denotes, or it is digits of
another base after a mark and has the value of its digits. It has none only if these need more than 63
bits, which is reported as an overflow at its position. -/
theorem scanned_numbers_valued (text : String) (tokens : List Token) (scanned : scan text = .ok tokens) (token : Token)
    (member : token ∈ tokens) (number : token.isNumber = true) :
    (token.base = .decimal →
      ∃ m e, Denotes token.text.toList m e ∧ token.numericValue = .ok (Double.ofDecimal m e)) ∧
      (token.base ≠ .decimal → ∃ mark digits, token.text.toList = '0' :: mark :: digits ∧
        NumberBase.ofMark? mark = some token.base ∧ digits ≠ [] ∧ Digit.AllIn token.base.radix digits ∧
        (Digit.number token.base.radix digits ≤ 2 ^ 63 - 1 →
          token.numericValue = .ok (Double.ofInt (Digit.number token.base.radix digits))) ∧
        (2 ^ 63 - 1 < Digit.number token.base.radix digits → ∃ failure, token.numericValue = .error failure ∧
          failure.category = .numericOverflow ∧ failure.position = token.position)) ∧
      ∀ failure, token.numericValue = .error failure →
        failure.category ≠ .invalidSyntax ∧ failure.category ≠ .unexpectedToken := by
  rcases spelled_of_scan scanned member number with
    ⟨base, m, e, denotes⟩ | ⟨mark, digits, marks, spelled, filled, all⟩
  · have value := numericValue_decimal number base denotes
    refine ⟨fun _ => ⟨m, e, denotes, value⟩, fun other => absurd base other, fun failure fails => ?_⟩
    rw [value] at fails
    cases fails
  · have value := numericValue_marked number marks filled all spelled
    refine ⟨fun base => absurd base (ne_decimal_of_mark marks),
      fun _ => ⟨mark, digits, spelled, marks, filled, all, ?_, ?_⟩, ?_⟩
    · intro fits
      rw [value, if_pos (by omega)]
    · intro wide
      rw [value, if_neg (by omega)]
      exact ⟨_, rfl, rfl, rfl⟩
    · intro failure fails
      rw [value] at fails
      split at fails <;> cases fails
      exact ⟨nofun, nofun⟩

/-- A fraction, an integer in upper case, and one of 64 bits. -/
theorem scanned_numbers_valued_wide :
    let half : Token := { kind := .number, text := ".5e1", position := 0 }
    let marked : Token := { kind := .number, text := "0X1f", position := 5, base := .hexadecimal }
    let wide : Token := { kind := .number, text := "0x8000000000000000", position := 10, base := .hexadecimal }
    scan ".5e1 0X1f 0x8000000000000000" = .ok [half, marked, wide, stop 28] ∧
      (∃ m e, Denotes ".5e1".toList m e ∧ half.numericValue = .ok (Double.ofDecimal m e)) ∧
      marked.numericValue = .ok (Double.ofInt 31) ∧
      ∃ failure, wide.numericValue = .error failure ∧
        failure.category = .numericOverflow ∧ failure.position = 10 := by
  intro half marked wide
  have scanned : scan ".5e1 0X1f 0x8000000000000000" = .ok [half, marked, wide, stop 28] := by cbv
  have valued := scanned_numbers_valued _ _ scanned
  obtain ⟨_, _, spelled, -, -, -, fits, -⟩ := (valued marked (by simp) rfl).2.1 (by decide)
  obtain ⟨_, _, spelledWide, -, -, -, -, overflows⟩ := (valued wide (by simp) rfl).2.1 (by decide)
  have chars : marked.text.toList = ['0', 'X', '1', 'f'] := String.toList_ofList
  have charsWide : wide.text.toList = '0' :: 'x' :: '8' :: List.replicate 15 '0' := String.toList_ofList
  cases chars.symm.trans spelled
  cases charsWide.symm.trans spelledWide
  exact ⟨scanned, (valued half (by simp) rfl).1 rfl, fits (by decide), overflows (by decide)⟩

end Token

end Calculator
