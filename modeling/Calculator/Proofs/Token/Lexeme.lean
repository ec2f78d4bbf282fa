import Mathlib.Data.String.Basic
import Calculator.Proofs.Token.Value

/-!
# Where lexemes begin and end

A lexeme is the beginning of the text that it is read from, and a failure to read one is at a character of that text.
-/

namespace Calculator

open String (utf8Len)

theorem utf8Length_eq (text : List Char) : utf8Length text = utf8Len text := by
  have from_ (start : Nat) : text.foldl (fun length c => length + c.utf8Size) start = start + utf8Len text := by
    induction text generalizing start with
    | nil => rfl
    | cons c text ih => rw [List.foldl_cons, ih, String.utf8Len_cons, Nat.add_assoc, Nat.add_comm c.utf8Size]
  rw [utf8Length, from_, Nat.zero_add]

theorem utf8Size_of_isDigit {c : Char} (digit : c.isDigit = true) : c.utf8Size = 1 := by
  have := (Text.toNat_of_isDigit digit).2
  rw [Char.utf8Size, if_pos]
  exact UInt32.le_iff_toNat_le.mpr (Nat.le_trans this (by decide))

theorem utf8Len_of_digits {text : List Char} (all : ∀ c ∈ text, c.isDigit = true) : utf8Len text = text.length := by
  induction text with
  | nil => rfl
  | cons c text ih =>
    rw [String.utf8Len_cons, List.length_cons, utf8Size_of_isDigit (all c List.mem_cons_self),
      ih fun d member => all d (List.mem_cons_of_mem c member)]

theorem isDigit_of_mem_takeWhile {c : Char} {text : List Char} (member : c ∈ text.takeWhile Char.isDigit) :
    c.isDigit = true :=
  List.all_eq_true.mp List.all_takeWhile c member

/-- The failure is one of syntax, at a character of the text, which begins at byte `start`. -/
def FailsWithin (start : Nat) (text : List Char) (failure : Failure) : Prop :=
  failure.category = .invalidSyntax ∧
    ∃ front c back, text = front ++ c :: back ∧ failure.position = start + utf8Len front

theorem FailsWithin.append {start next : Nat} {text : List Char} {failure : Failure}
    (h : FailsWithin next text failure) (front : List Char) (place : next = start + utf8Len front) :
    FailsWithin start (front ++ text) failure := by
  obtain ⟨category, more, c, back, rfl, same⟩ := h
  refine ⟨category, front ++ more, c, back, (List.append_assoc _ _ _).symm, ?_⟩
  rw [same, place, String.utf8Len_append, Nat.add_assoc]

theorem failsWithin_start {start : Nat} {c : Char} {text : List Char} {cause : Cause}
    (category : cause.category = .invalidSyntax) : FailsWithin start (c :: text) { cause, position := start } :=
  ⟨category, [], c, text, rfl, rfl⟩

namespace Lexeme

variable {start : Nat} {c mark : Char} {text rest whole : List Char} {lexeme : Lexeme}

/-- What is read is the beginning of the text, which begins at byte `start`, and every failure is within it. -/
abbrev ReadsFront (start : Nat) (text : List Char) (outcome : Except Failure (List Char)) : Prop :=
  Ends (· <+: text) (FailsWithin start text) outcome

theorem readMarked_front (start : Nat) (base : NumberBase) (mark digits : List Char) (filled : mark ≠ []) :
    ReadsFront start (mark ++ digits) (readMarked start base mark digits) := by
  obtain ⟨c, mark, rfl⟩ := List.exists_cons_of_ne_nil filled
  unfold readMarked
  dsimp only
  split
  · exact failsWithin_start rfl
  · exact (List.prefix_append_right_inj _).mpr (List.takeWhile_prefix _)

/-- A fraction follows `whole`, at which the number begins. Its characters take one byte each. -/
theorem readFraction_front (start : Nat) (rest : List Char) (digits : ∀ c ∈ whole, c.isDigit = true) :
    Ends (fun fraction => fraction <+: rest ∧ utf8Len fraction = fraction.length) (FailsWithin start (whole ++ rest))
      (readFraction start whole rest) := by
  unfold readFraction
  split
  next rest =>
    have places := utf8Len_of_digits fun c => @isDigit_of_mem_takeWhile c rest
    have front : rest.takeWhile Char.isDigit <+: rest := List.takeWhile_prefix _
    dsimp only
    split
    · cases whole with
      | nil => exact failsWithin_start rfl
      | cons c whole => exact failsWithin_start rfl
    next filled =>
      split
      next second =>
        obtain ⟨back, point⟩ := List.head?_eq_some_iff.mp second
        refine ⟨rfl, whole ++ '.' :: rest.takeWhile Char.isDigit, '.', back, ?_, ?_⟩
        · rw [List.append_assoc, List.cons_append, ← point, List.prefix_iff_eq_append.mp front]
        · rw [String.utf8Len_append, String.utf8Len_cons, utf8Len_of_digits digits, places, Nat.add_assoc,
            Nat.add_assoc, Nat.add_comm 1]
          rfl
      next => exact ⟨List.cons_prefix_cons.mpr ⟨rfl, front⟩, congrArg (· + 1) places⟩
  next => exact ⟨List.nil_prefix, rfl⟩

theorem sign_front (text : List Char) : (text.take 1).filter (fun c => decide (c = '+' ∨ c = '-')) <+: text := by
  cases text with
  | nil => exact List.nil_prefix
  | cons c text =>
    by_cases sign : c = '+' ∨ c = '-' <;> simp [sign]

theorem readExponent_front (start : Nat) (text : List Char) : ReadsFront start text (readExponent start text) := by
  unfold readExponent
  split
  · exact List.nil_prefix
  next mark rest =>
    split
    next =>
      dsimp only
      split
      · exact failsWithin_start rfl
      · rw [List.cons_append]
        refine List.cons_prefix_cons.mpr ⟨rfl, ?_⟩
        conv => rhs; rw [← List.prefix_iff_eq_append.mp (sign_front rest)]
        exact (List.prefix_append_right_inj _).mpr (List.takeWhile_prefix _)
    next => exact List.nil_prefix

theorem readDecimal_front (start : Nat) (text : List Char) : ReadsFront start text (readDecimal start text) := by
  have digits c (member : c ∈ text.takeWhile Char.isDigit) := isDigit_of_mem_takeWhile member
  have split := List.prefix_iff_eq_append.mp (List.takeWhile_prefix (p := Char.isDigit) (l := text))
  unfold readDecimal
  dsimp only
  generalize text.takeWhile Char.isDigit = whole at digits split
  have fraction := readFraction_front start (text.drop whole.length) digits
  rw [split] at fraction
  refine ends_bind fraction ?_
  rintro fraction ⟨front, size⟩
  have number : whole ++ fraction <+: text := by
    rw [← split]
    exact (List.prefix_append_right_inj _).mpr front
  have split := List.prefix_iff_eq_append.mp number
  have size : utf8Len (whole ++ fraction) = (whole ++ fraction).length := by
    rw [String.utf8Len_append, List.length_append, size, utf8Len_of_digits digits]
  generalize whole ++ fraction = number at split size
  have fails failure (h : FailsWithin (start + number.length) (text.drop number.length) failure) :
      FailsWithin start text failure := by
    rw [← split]
    exact h.append number (by rw [size])
  refine ends_bind ((readExponent_front _ _).mono (fun _ => id) fails) ?_
  intro exponent front
  show number ++ exponent <+: text
  rw [← split]
  exact (List.prefix_append_right_inj _).mpr front

theorem readNumber_front (start : Nat) (text : List Char) :
    Ends (fun lexeme => lexeme.text <+: text) (FailsWithin start text) (readNumber start text) := by
  unfold readNumber
  dsimp only
  split
  next base mark digits found =>
    split at found
    next mark digits =>
      obtain ⟨base, -, same⟩ := Option.map_eq_some_iff.mp found
      cases same
      exact ends_map (readMarked_front start base ['0', mark] digits (List.cons_ne_nil _ _)) fun _ => id
    next => cases found
  next => exact ends_map (readDecimal_front start text) fun _ => id

theorem read_front (start : Nat) (c : Char) (rest : List Char) :
    Ends (fun lexeme => lexeme.text <+: c :: rest) (FailsWithin start (c :: rest)) (read start c rest) := by
  unfold read
  split
  · exact readNumber_front start (c :: rest)
  split
  · exact List.cons_prefix_cons.mpr ⟨rfl, List.takeWhile_prefix _⟩
  split
  next =>
    show (if _ then _ else _) <+: _
    split
    next doubled =>
      obtain ⟨back, rfl⟩ := List.head?_eq_some_iff.mp (of_decide_eq_true (Bool.and_eq_true_iff.mp doubled).2)
      exact List.prefix_append [c, c] back
    next => exact List.prefix_append [c] rest
  · exact List.prefix_append [c] rest

/-! ### How lexemes are spelled -/

/-- The kind, the base and the characters of a lexeme go together. -/
inductive Spelled : Lexeme → Prop
  | number {base : NumberBase} {text : List Char} (number : IsNumber base text) :
      Spelled { kind := .number, base, text }
  | name {c : Char} {more : List Char} (digit : c.isDigit = false) (letter : Text.isLetter c = true)
      (all : ∀ d ∈ more, continuesIdentifier d = true) : Spelled { kind := .identifier, text := c :: more }
  | symbol {c : Char} (member : c ∈ operatorCharacters) : Spelled { kind := .operator, text := [c] }
  | shift {c : Char} (angle : c = '<' ∨ c = '>') : Spelled { kind := .operator, text := [c, c] }
  | single {c : Char} (digit : c.isDigit = false)
      (letter : Text.isLetter c = false) (other : c ∉ operatorCharacters) :
      Spelled { kind := kindOfSingle c, text := [c] }

theorem read_spelled (h : read start c rest = .ok lexeme) : Spelled lexeme := by
  have number := read_number h
  unfold read at h
  split at h
  next =>
    have kind := kind_of_readNumber h
    obtain ⟨_, base, text⟩ := lexeme
    cases kind
    exact .number (number rfl)
  next starts =>
    have digit : c.isDigit = false := by
      cases digit : c.isDigit with
      | false => rfl
      | true => simp [digit] at starts
    split at h
    next letter =>
      cases h
      exact .name digit letter fun d => List.all_eq_true.mp List.all_takeWhile d
    next letter =>
      split at h
      next symbol =>
        cases h
        split
        next doubled => exact .shift (by simpa using (Bool.and_eq_true_iff.mp doubled).1)
        next => exact .symbol (List.contains_iff_mem.mp symbol)
      next other =>
        cases h
        exact .single digit (Bool.eq_false_iff.mpr letter) fun member => other (List.contains_iff_mem.mpr member)

theorem Spelled.kind_ne (h : Spelled lexeme) : lexeme.kind ≠ .endOfInput := by
  cases h with
  | single => exact kindOfSingle_ne (by decide)
  | _ => nofun

theorem IsNumber.ne_nil {base : NumberBase} (h : IsNumber base text) : text ≠ [] := by
  cases h with
  | decimal denotes =>
    obtain ⟨c, rest, rfl, -⟩ := denotes.head
    exact List.cons_ne_nil c rest
  | marked => exact List.cons_ne_nil _ _

theorem Spelled.ne_nil (h : Spelled lexeme) : lexeme.text ≠ [] := by
  cases h with
  | number number => exact number.ne_nil
  | _ => exact List.cons_ne_nil _ _

theorem read_text (h : read start c rest = .ok lexeme) :
    ∃ more after, lexeme.text = c :: more ∧ rest = more ++ after := by
  have front := read_front start c rest
  rw [h] at front
  obtain ⟨first, more, same⟩ := List.exists_cons_of_ne_nil (read_spelled h).ne_nil
  obtain ⟨after, whole⟩ := front
  rw [same, List.cons_append] at whole
  obtain ⟨rfl, rfl⟩ := List.cons.inj whole
  exact ⟨more, after, same, rfl⟩

end Lexeme

/-! ### Reading lexemes again -/

section Again

open Decimal (IsDigits IsExponent Denotes)
open Token (EndsOperand)

variable {position m : Nat} {e k : Int} {c : Char} {text more rest whole places exponent : List Char}

namespace Token.EndsOperand

theorem not_marks (ends : EndsOperand rest) : ∀ c ∈ rest.head?, c ≠ '.' ∧ c ≠ 'e' ∧ c ≠ 'E' ∧
    NumberBase.ofMark? c = none := by
  intro c head
  rcases ends c head with rfl | rfl | rfl <;> decide

theorem not_isDigit_of_base (ends : EndsOperand rest) (base : NumberBase) :
    ∀ c ∈ rest.head?, base.isDigit c = false := by
  intro c head
  rcases ends c head with rfl | rfl | rfl <;> rfl

theorem not_continues (ends : EndsOperand rest) : ∀ c ∈ rest.head?, Lexeme.continuesIdentifier c = false := by
  intro c head
  rcases ends c head with rfl | rfl | rfl <;> decide

end Token.EndsOperand

namespace Lexeme

theorem readFraction_none (stop : ∀ c ∈ rest.head?, c ≠ '.') : readFraction position whole rest = .ok [] := by
  unfold readFraction
  split
  next => exact absurd rfl (stop '.' rfl)
  next => rfl

theorem readFraction_places (digits : IsDigits places) (stop : ∀ c ∈ rest.head?, c.isDigit = false ∧ c ≠ '.') :
    readFraction position whole ('.' :: (places ++ rest)) = .ok ('.' :: places) := by
  have point : rest.head? ≠ some '.' := fun head => (stop '.' head).2 rfl
  have front := takeWhile_append_stop digits.2 fun c head => (stop c head).1
  simp [readFraction, front, digits.1, point]

theorem readExponent_none (ends : EndsOperand rest) : readExponent position rest = .ok [] := by
  cases rest with
  | nil => rfl
  | cons c rest =>
    have other := ends.not_marks c rfl
    simp [readExponent, other.2.1, other.2.2.1]

theorem readExponent_again (h : IsExponent exponent k) (ends : EndsOperand rest) :
    readExponent position (exponent ++ rest) = .ok exponent := by
  cases h with
  | none => exact readExponent_none ends
  | @some mark sign digits marks signs all =>
    have digitsRead := takeWhile_append_stop all.2 ends.not_isDigit
    have signRead : ((sign ++ (digits ++ rest)).take 1).filter (fun c => decide (c = '+' ∨ c = '-')) = sign := by
      obtain ⟨d, digits, rfl⟩ := List.exists_cons_of_ne_nil all.1
      have digit := all.2 d List.mem_cons_self
      have plus : d ≠ '+' := Decimal.ne_of_isDigit digit rfl
      have minus : d ≠ '-' := Decimal.ne_of_isDigit digit rfl
      simp only [List.mem_cons, List.not_mem_nil, or_false] at signs
      rcases signs with rfl | rfl | rfl <;> simp [plus, minus]
    have filled : ¬ digits.isEmpty = true := fun empty => all.1 (List.isEmpty_iff.mp empty)
    rw [List.cons_append, List.append_assoc]
    simp only [readExponent, if_pos marks, signRead, List.drop_left, digitsRead, if_neg filled, List.cons_append]

theorem exponent_stops (h : IsExponent exponent k) (ends : EndsOperand rest) :
    ∀ c ∈ (exponent ++ rest).head?, c.isDigit = false ∧ c ≠ '.' := by
  cases h with
  | none => exact fun c head => ⟨ends.not_isDigit c head, (ends.not_marks c head).1⟩
  | some marks =>
    rintro _ ⟨⟩
    rcases marks with rfl | rfl <;> decide

theorem readDecimal_parts (fraction : List Char)
    (digits : (whole ++ (fraction ++ (exponent ++ rest))).takeWhile Char.isDigit = whole)
    (point : readFraction position whole (fraction ++ (exponent ++ rest)) = .ok fraction) (h : IsExponent exponent k)
    (ends : EndsOperand rest) :
    readDecimal position (whole ++ (fraction ++ (exponent ++ rest))) = .ok (whole ++ (fraction ++ exponent)) := by
  rw [readDecimal]
  simp only [digits, List.drop_left, point, ok_bind]
  rw [← List.append_assoc, List.drop_left, readExponent_again h ends, ok_bind, List.append_assoc]
  rfl

theorem readDecimal_again (h : Denotes text m e) (ends : EndsOperand rest) :
    readDecimal position (text ++ rest) = .ok text := by
  cases h with
  | @whole whole exponent _ digits exponentEnds =>
    have stop := exponent_stops exponentEnds ends
    have front := takeWhile_append_stop digits.2 fun c head => (stop c head).1
    rw [List.append_assoc]
    exact readDecimal_parts [] front (readFraction_none fun c head => (stop c head).2) exponentEnds ends
  | @point whole places exponent _ digits more exponentEnds =>
    have stop := exponent_stops exponentEnds ends
    have front : (whole ++ ('.' :: places ++ (exponent ++ rest))).takeWhile Char.isDigit = whole := by
      refine takeWhile_append_stop digits ?_
      rintro _ ⟨⟩
      rfl
    have fraction : readFraction position whole ('.' :: (places ++ (exponent ++ rest))) = .ok ('.' :: places) :=
      readFraction_places more stop
    have read := readDecimal_parts ('.' :: places) front fraction exponentEnds ends
    simpa using read

theorem not_mark_of_isDigit {c : Char} (digit : c.isDigit = true) : NumberBase.ofMark? c = none := by
  have other (mark : Char) (letter : mark.isDigit = false) : c ≠ mark := Decimal.ne_of_isDigit digit letter
  simp [NumberBase.ofMark?, other 'b' rfl, other 'B' rfl, other 'o' rfl, other 'O' rfl, other 'x' rfl, other 'X' rfl]

theorem not_mark_of_denotes (h : Denotes text m e) : ∀ c ∈ text, NumberBase.ofMark? c = none := by
  intro c member
  rcases h.char c member with digit | other
  · exact not_mark_of_isDigit digit
  · simp only [List.mem_cons, List.not_mem_nil, or_false] at other
    rcases other with rfl | rfl | rfl | rfl | rfl <;> rfl

theorem readNumber_unmarked (h : ∀ c ∈ text.tail.head?, NumberBase.ofMark? c = none) :
    readNumber position text = (readDecimal position text).map fun text => { kind := .number, text } := by
  rcases text with _ | ⟨first, _ | ⟨second, text⟩⟩
  · rfl
  · simp [readNumber]
  · by_cases zero : first = '0'
    · subst zero
      simp [readNumber, h second rfl]
    · simp [readNumber, zero]

theorem readNumber_again {base : NumberBase} (h : IsNumber base text) (ends : EndsOperand rest) :
    readNumber position (text ++ rest) = .ok { kind := .number, base, text } := by
  cases h with
  | decimal denotes =>
    rw [readNumber_unmarked, readDecimal_again denotes ends]
    · rfl
    obtain ⟨first, more, rfl, -⟩ := denotes.head
    intro c head
    rw [List.cons_append, List.tail_cons, List.head?_append] at head
    rcases Option.or_eq_some_iff.mp head with head | ⟨-, head⟩
    · exact not_mark_of_denotes denotes c (List.mem_cons_of_mem _ (List.mem_of_mem_head? head))
    · exact (ends.not_marks c head).2.2.2
  | @marked base mark digits marks filled all =>
    have front : (digits ++ rest).takeWhile base.isDigit = digits :=
      takeWhile_append_stop all (ends.not_isDigit_of_base base)
    have filled : ¬ digits.isEmpty = true := fun empty => filled (List.isEmpty_iff.mp empty)
    simp only [List.cons_append, readNumber, marks, Option.map_some, readMarked, front, if_neg filled]
    rfl

/-- A number begins with a digit, or with a point that a digit follows. -/
theorem starts_of_isNumber {base : NumberBase} (h : IsNumber base (c :: more)) (rest : List Char) :
    (c.isDigit || (c = '.' && (more ++ rest).head?.any Char.isDigit)) = true := by
  generalize same : c :: more = text at h
  cases h with
  | marked =>
    cases same
    rfl
  | decimal denotes =>
    cases denotes with
    | @whole whole _ _ digits =>
      obtain ⟨d, whole, rfl⟩ := List.exists_cons_of_ne_nil digits.1
      cases same
      simp [digits.2 c List.mem_cons_self]
    | @point whole places _ _ digits more =>
      cases whole with
      | nil =>
        obtain ⟨d, places, rfl⟩ := List.exists_cons_of_ne_nil more.1
        cases same
        simp [more.2 d List.mem_cons_self]
      | cons d whole =>
        cases same
        simp [digits c List.mem_cons_self]

theorem Spelled.read_again {lexeme : Lexeme} (h : Spelled lexeme) (same : lexeme.text = c :: more)
    (ends : EndsOperand rest) : read position c (more ++ rest) = .ok lexeme := by
  -- `all` because a decision of `∀ c ∈ …` may run through all characters.
  have checked : operatorCharacters.all fun c => c.isDigit = false ∧
      c ≠ '.' ∧ Text.isLetter c = false := by decide
  have symbols c (member : c ∈ operatorCharacters) : c.isDigit = false ∧ c ≠ '.' ∧ Text.isLetter c = false :=
    of_decide_eq_true (List.all_eq_true.mp checked c member)
  cases h with
  | @number base text number =>
    obtain rfl : text = c :: more := same
    rw [read, if_pos (starts_of_isNumber number rest)]
    exact readNumber_again number ends
  | name digit letter all =>
    cases same
    exact read_name digit letter all ends.not_continues
  | @symbol c member =>
    cases same
    obtain ⟨digit, point, letter⟩ := symbols c member
    have alone : rest.head? ≠ some c := by
      intro head
      rcases ends c head with rfl | rfl | rfl <;> revert member <;> decide
    simp [read, digit, point, letter, member, alone]
  | shift angle =>
    cases same
    rcases angle with rfl | rfl <;> rfl
  | @single c digit letter other =>
    cases same
    have fraction : rest.head?.any Char.isDigit = false := by
      cases head : rest.head? with
      | none => rfl
      | some d => exact ends.not_isDigit d head
    simp [read, digit, letter, other, fraction]

end Lexeme

namespace Token

/-- A spelled text that begins with no blank is read as its lexeme, whatever it stood beside before. -/
theorem scans_spelled {lexeme : Lexeme} (h : lexeme.Spelled)
    (visible : ∀ c ∈ lexeme.text.head?, Text.isBlank c = false)
    (position : Nat) (ends : EndsOperand rest) :
    Scans position (lexeme.text ++ rest) [lexeme.toToken position] (position + utf8Length lexeme.text) rest := by
  obtain ⟨c, more, same⟩ := List.exists_cons_of_ne_nil h.ne_nil
  have visible := visible c (by simp [same])
  have read : Lexeme.read position c (more ++ rest) = .ok lexeme := h.read_again same ends
  have scans := scans_lexeme more visible read same
  rwa [← same] at scans

theorem IsNumeral.denotes (h : IsNumeral text) : ∃ m e, Denotes text m e := by
  obtain ⟨whole, fraction, rfl, filled, digits, rfl | ⟨places, rfl, more⟩⟩ := h
  · exact ⟨_, _, .whole ⟨filled, digits⟩ .none⟩
  · have denotes := Denotes.point digits more .none
    rw [List.append_nil] at denotes
    exact ⟨_, _, denotes⟩

theorem scans_numeral (h : IsNumeral text) (position : Nat) (ends : EndsOperand rest) :
    ∃ token next, token.kind = .number ∧ token.base = .decimal ∧ token.text = String.ofList text ∧
      Scans position (text ++ rest) [token] next rest := by
  obtain ⟨m, e, denotes⟩ := h.denotes
  have spelled := Lexeme.Spelled.number (.decimal denotes)
  have visible : ∀ c ∈ text.head?, Text.isBlank c = false := by
    intro c head
    obtain ⟨d, more, rfl, start⟩ := denotes.head
    obtain rfl : d = c := by simpa using head
    rcases start with digit | rfl
    · exact Text.isBlank_of_isDigit digit
    · exact Text.isBlank_of_visible (by decide) (by decide)
  exact ⟨_, _, rfl, rfl, rfl, scans_spelled spelled visible position ends⟩

end Token

end Again

end Calculator
