import Calculator.Proofs.Failure
import Calculator.Token.Lexer

/-!
# What the scanner reads

`Scans` follows the scanner from one place in a text to another. Parentheses, commas, symbols, names and decimal
numerals are read one at a time, each up to what may follow it.
-/

namespace Calculator

theorem takeWhile_append_stop {p : Char → Bool} {front rest : List Char} (all : ∀ c ∈ front, p c = true)
    (stop : ∀ c ∈ rest.head?, p c = false) : (front ++ rest).takeWhile p = front := by
  rw [List.takeWhile_append_of_pos all]
  cases rest with
  | nil => simp
  | cons c rest => simp [stop c rfl]

namespace Text

theorem isBlank_eq (c : Char) :
    isBlank c = blankRanges.toList.any fun range => range.1 ≤ c.toNat && c.toNat ≤ range.2 := by
  rw [isBlank, inRanges, Array.any_toList]

theorem isBlank_of_visible {c : Char} (low : 0x21 ≤ c.toNat) (high : c.toNat ≤ 0x7E) : isBlank c = false := by
  rw [isBlank_eq]
  simp only [blankRanges, List.any_cons, List.any_nil, Bool.or_eq_false_iff, Bool.and_eq_false_iff,
    decide_eq_false_iff_not, and_true]
  omega

theorem isBlank_space : isBlank ' ' = true := by
  rw [isBlank_eq]
  decide

theorem toNat_of_isDigit {c : Char} (h : c.isDigit = true) : 0x30 ≤ c.toNat ∧ c.toNat ≤ 0x39 := by
  simpa [Char.isDigit, UInt32.le_iff_toNat_le] using h

theorem isBlank_of_isDigit {c : Char} (h : c.isDigit = true) : isBlank c = false := by
  have := toNat_of_isDigit h
  exact isBlank_of_visible (by omega) (by omega)

end Text

namespace Lexeme

variable {position : Nat} {c : Char} {text rest : List Char} {lexeme : Lexeme}

theorem kind_of_readNumber (h : readNumber position text = .ok lexeme) : lexeme.kind = .number := by
  unfold readNumber at h
  extract_lets marked at h
  cases found : marked with
  | none =>
    rw [found] at h
    obtain ⟨_, _, rfl⟩ := map_eq_ok.mp h
    rfl
  | some mark =>
    rw [found] at h
    obtain ⟨_, _, rfl⟩ := map_eq_ok.mp h
    rfl

theorem kindOfSingle_ne {kind : Token.Kind} (h : kind ∉ [.opening, .closing, .comma, .unknown]) :
    kindOfSingle c ≠ kind := by
  rintro rfl
  unfold kindOfSingle at h
  repeat' split at h
  all_goals exact h (by decide)

theorem read_kind_ne (h : read position c rest = .ok lexeme) : lexeme.kind ≠ .endOfInput := by
  unfold read at h
  split at h
  · simp [kind_of_readNumber h]
  split at h
  · cases h
    nofun
  split at h <;> cases h
  · nofun
  · exact kindOfSingle_ne (by decide)

theorem read_identifier (h : read position c rest = .ok lexeme) (kind : lexeme.kind = .identifier) :
    c.isDigit = false ∧ Text.isLetter c = true ∧ lexeme.text = c :: rest.takeWhile continuesIdentifier := by
  unfold read at h
  split at h
  · simp [kind_of_readNumber h] at kind
  · rename_i other
    split at h
    · rename_i letter
      cases h
      refine ⟨?_, letter, rfl⟩
      cases digit : c.isDigit with
      | false => rfl
      | true => simp [digit] at other
    · split at h <;> cases h
      · cases kind
      · exact absurd kind (kindOfSingle_ne (by decide))

theorem read_name (digit : c.isDigit = false) (letter : Text.isLetter c = true)
    (all : ∀ d ∈ text, continuesIdentifier d = true) (stop : ∀ d ∈ rest.head?, continuesIdentifier d = false) :
    read position c (text ++ rest) = .ok { kind := .identifier, text := c :: text } := by
  have point : c ≠ '.' := by
    rintro rfl
    cases letter
  simp [read, digit, point, letter, takeWhile_append_stop all stop]

end Lexeme

namespace Token

variable {position : Nat} {before tokens : List Token} {text : List Char}

/-- After the tokens that were there come others that are no stop tokens, none of them before `position`, and
in the end a stop token. There are no more of them than characters. -/
theorem scanFrom_eq_ok (h : scanFrom position before text = .ok tokens) :
    ∃ more last, tokens = before.reverse ++ more ++ [stop last] ∧
      more.length ≤ text.length ∧ ∀ token ∈ more, token.kind ≠ .endOfInput ∧
        position ≤ token.position := by
  induction size : text.length using Nat.strongRecOn generalizing position before text with
  | _ size ih =>
    subst size
    cases text with
    | nil =>
      unfold scanFrom at h
      cases h
      exact ⟨[], position, by simp, Nat.le_refl _, by simp⟩
    | cons c rest =>
      unfold scanFrom at h
      split at h
      · obtain ⟨more, last, rfl, few, known⟩ := ih rest.length (Nat.lt_succ_self _) h rfl
        refine ⟨more, last, rfl, Nat.le_succ_of_le few, fun token member => ⟨(known token member).1, ?_⟩⟩
        exact Nat.le_trans (Nat.le_add_right _ _) (known token member).2
      · split at h
        · cases h
        · rename_i lexeme found
          obtain ⟨more, last, rfl, few, known⟩ := ih _ (by rw [List.length_drop, List.length_cons]; omega) h rfl
          rw [List.length_drop] at few
          refine ⟨lexeme.toToken position :: more, last, by simp, by simp only [List.length_cons]; omega, ?_⟩
          rintro token (_ | ⟨_, member⟩)
          · exact ⟨Lexeme.read_kind_ne found, Nat.le_refl _⟩
          · exact ⟨(known token member).1, Nat.le_trans (Nat.le_add_right _ _) (known token member).2⟩

/-! ### From place to place -/

/-- From `text` at byte `position`, the scanner reads the tokens and comes to `rest` at byte `next`. -/
def Scans (position : Nat) (text : List Char) (tokens : List Token) (next : Nat) (rest : List Char) : Prop :=
  ∀ before, scanFrom position before text = scanFrom next (tokens.reverse ++ before) rest

variable {next last : Nat} {rest others : List Char} {more : List Token} {c : Char} {lexeme : Lexeme}

theorem Scans.trans (h : Scans position text tokens next rest) (h' : Scans next rest more last others) :
    Scans position text (tokens ++ more) last others := by
  intro before
  rw [h before, h' (tokens.reverse ++ before), List.reverse_append, List.append_assoc]

theorem scans_blank (blank : Text.isBlank c = true) : Scans position (c :: rest) [] (position + c.utf8Size) rest := by
  intro before
  rw [scanFrom, if_pos blank]
  rfl

theorem scans_lexeme (text : List Char) (visible : Text.isBlank c = false)
    (h : Lexeme.read position c (text ++ rest) = .ok lexeme) (same : lexeme.text = c :: text) :
    Scans position (c :: text ++ rest) [lexeme.toToken position] (position + utf8Length lexeme.text) rest := by
  intro before
  rw [List.cons_append, scanFrom, visible, h]
  simp [same]

theorem scan_of_scans {text : String} (h : Scans 0 text.toList tokens last []) :
    scan text = .ok (tokens ++ [stop last]) := by
  rw [scan, h []]
  simp [scanFrom]

theorem scan_lexeme (visible : Text.isBlank c = false) (h : Lexeme.read 0 c text = .ok lexeme)
    (same : lexeme.text = c :: text) :
    scan (String.ofList (c :: text)) = .ok [lexeme.toToken 0, stop (0 + utf8Length lexeme.text)] := by
  rw [← List.append_nil text] at h
  have scans := scans_lexeme text visible h same
  rw [List.append_nil, ← String.toList_ofList (l := c :: text)] at scans
  exact scan_of_scans scans

theorem scans_single {kind : Kind} (visible : Text.isBlank c = false)
    (h : Lexeme.read position c rest = .ok { kind, text := [c] }) :
    ∃ token next, token.kind = kind ∧ Scans position (c :: rest) [token] next rest :=
  ⟨_, _, rfl, scans_lexeme [] visible h rfl⟩

theorem scans_opening (position : Nat) (rest : List Char) :
    ∃ token next, token.kind = .opening ∧ Scans position ('(' :: rest) [token] next rest :=
  scans_single (Text.isBlank_of_visible (by decide) (by decide)) rfl

theorem scans_closing (position : Nat) (rest : List Char) :
    ∃ token next, token.kind = .closing ∧ Scans position (')' :: rest) [token] next rest :=
  scans_single (Text.isBlank_of_visible (by decide) (by decide)) rfl

theorem scans_comma (position : Nat) (rest : List Char) :
    ∃ token next, token.kind = .comma ∧ Scans position (',' :: rest) [token] next rest :=
  scans_single (Text.isBlank_of_visible (by decide) (by decide)) rfl

/-! ### Symbols -/

/-- The symbol is read as an operator, whatever follows it. -/
def IsSymbol (symbol : String) : Prop :=
  ∃ c text, symbol.toList = c :: text ∧ Text.isBlank c = false ∧ ∀ position rest,
    Lexeme.read position c (text ++ rest) = .ok { kind := .operator, text := c :: text }

theorem isSymbol_binary (operator : BinaryOperator) : IsSymbol operator.symbol := by
  cases operator <;> exact ⟨_, _, rfl, Text.isBlank_of_visible (by decide) (by decide), fun _ _ => rfl⟩

theorem isSymbol_unary (operator : UnaryOperator) : IsSymbol operator.symbol := by
  cases operator <;> exact ⟨_, _, rfl, Text.isBlank_of_visible (by decide) (by decide), fun _ _ => rfl⟩

theorem scans_symbol {symbol : String} (h : IsSymbol symbol) (position : Nat) (rest : List Char) :
    ∃ token next, token.kind = .operator ∧ token.text = symbol ∧
      Scans position (symbol.toList ++ rest) [token] next rest := by
  obtain ⟨c, text, same, visible, read⟩ := h
  rw [same]
  refine ⟨_, _, rfl, ?_, scans_lexeme text visible (read position rest) rfl⟩
  rw [Lexeme.toToken, ← same, String.ofList_toList]

/-! ### Names -/

/-- The whole text is read as one identifier. -/
def IsName (name : String) : Prop :=
  ∃ last, scan name = .ok [{ kind := .identifier, text := name, position := 0 }, stop last]

theorem read_of_isName {name : String} (h : IsName name) :
    ∃ c text, name.toList = c :: text ∧ Text.isBlank c = false ∧
      Lexeme.read 0 c text = .ok { kind := .identifier, text := c :: text } := by
  obtain ⟨last, h⟩ := h
  unfold scan at h
  cases chars : name.toList with
  | nil => simp [chars, scanFrom] at h
  | cons c text =>
    refine ⟨c, text, rfl, ?_⟩
    rw [chars, scanFrom] at h
    split at h
    · -- A blank is skipped, and so no token begins with the text.
      obtain ⟨more, end', same, -, known⟩ := scanFrom_eq_ok h
      have only : more = [{ kind := .identifier, text := name, position := 0 }] := by
        have := congrArg List.dropLast same
        simpa using this.symm
      have := (known _ (only ▸ List.mem_singleton.mpr rfl)).2
      have := c.utf8Size_pos
      simp only at *
      omega
    · rename_i visible
      split at h
      · cases h
      · rename_i lexeme read
        obtain ⟨more, end', same, -, -⟩ := scanFrom_eq_ok h
        have first : lexeme.toToken (0 + 0) = { kind := .identifier, text := name, position := 0 } := by
          simpa using (congrArg List.head? same).symm
        obtain ⟨kind, base, letters⟩ := lexeme
        simp only [Lexeme.toToken, Token.mk.injEq] at first
        obtain ⟨rfl, whole, -, rfl, -⟩ := first
        rw [← whole, String.toList_ofList] at chars
        exact ⟨Bool.eq_false_iff.mpr visible, by rw [read, chars]⟩

theorem scans_name {name : String} (h : IsName name) (position : Nat) (rest : List Char) :
    ∃ token next, token.kind = .identifier ∧ token.text = name ∧
      Scans position (name.toList ++ '(' :: rest) [token] next ('(' :: rest) := by
  obtain ⟨c, text, same, visible, read⟩ := read_of_isName h
  obtain ⟨digit, letter, whole⟩ := Lexeme.read_identifier read rfl
  have all : ∀ d ∈ text, Lexeme.continuesIdentifier d = true := by
    rw [(List.cons.inj whole).2]
    exact fun d member => (List.all_eq_true.mp List.all_takeWhile) d member
  have stop : ∀ d ∈ ('(' :: rest).head?, Lexeme.continuesIdentifier d = false := by
    rintro _ ⟨⟩
    decide
  rw [same]
  refine ⟨_, _, rfl, ?_, scans_lexeme text visible (Lexeme.read_name digit letter all stop) rfl⟩
  rw [Lexeme.toToken, ← same, String.ofList_toList]

theorem isName_of_letter (visible : Text.isBlank c = false)
    (digit : c.isDigit = false) (letter : Text.isLetter c = true)
    (all : ∀ d ∈ text, Lexeme.continuesIdentifier d = true) : IsName (String.ofList (c :: text)) := by
  have read := @Lexeme.read_name 0 c text [] digit letter all (by simp)
  rw [List.append_nil] at read
  exact ⟨_, scan_lexeme visible read rfl⟩

/-! ### Decimal numerals -/

/-- What may follow an operand in the text of an expression. -/
def EndsOperand (rest : List Char) : Prop :=
  ∀ c ∈ rest.head?, c = ' ' ∨ c = ')' ∨ c = ','

/-- Digits with an optional fraction. -/
def IsNumeral (text : List Char) : Prop :=
  ∃ whole fraction, text = whole ++ fraction ∧ whole ≠ [] ∧ (∀ c ∈ whole, c.isDigit = true) ∧
    (fraction = [] ∨ ∃ places, fraction = '.' :: places ∧ places ≠ [] ∧ ∀ c ∈ places, c.isDigit = true)

theorem endsOperand_closing : EndsOperand (')' :: rest) := by
  rintro _ ⟨⟩
  simp

theorem endsOperand_space : EndsOperand (' ' :: rest) := by
  rintro _ ⟨⟩
  simp

theorem endsOperand_comma : EndsOperand (',' :: rest) := by
  rintro _ ⟨⟩
  simp

theorem EndsOperand.not_isDigit (h : EndsOperand rest) : ∀ c ∈ rest.head?, c.isDigit = false := by
  intro c head
  rcases h c head with rfl | rfl | rfl <;> rfl

end Token

end Calculator
