import Calculator.Proofs.Decimal.Text
import Calculator.Proofs.Expr.Rendering
import Calculator.Proofs.Operator.Table
import Calculator.Proofs.Parser
import Calculator.Proofs.Token.Lexeme
import Calculator.Proofs.Token.Nesting

/-!
# Reading what has been written

The infix text of an expression is read back as the expression, apart from the places of its tokens. Every
operation is written in parentheses, and so its tokens derive it as a primary.
-/

namespace Calculator

open Adjacency (Passes)
open Token (Scans EndsOperand endsOperand_closing endsOperand_space endsOperand_comma)

variable {table : OperatorTable} {e : Expr} {list : List Expr}

/-- Wherever the text of the expression may stand, its tokens derive it and pass the check of neighbours. -/
def Reads (table : OperatorTable) (e : Expr) : Prop :=
  ∀ position rest, EndsOperand rest → ∃ tokens next e', Scans position (e.rendering ++ rest) tokens next rest ∧
    Derives table .primary tokens e' ∧ Passes table tokens ∧ e'.bare = e.bare

/-- The same for the text of arguments. -/
def ReadsAll (table : OperatorTable) (list : List Expr) : Prop :=
  ∀ position rest, EndsOperand rest →
    ∃ tokens next list', Scans position (Expr.renderingAll list ++ rest) tokens next rest ∧
    DerivesAll table tokens list' ∧ Passes table tokens ∧ Expr.bareAll list' = Expr.bareAll list

theorem reads_literal {value : Float} (unsigned : Decimal.IsUnsigned value) (back : Decimal.ReadsBack value) :
    Reads table (.literal value) := by
  intro position rest ends
  obtain ⟨token, next, kind, base, text, scans⟩ :=
    Token.scans_numeral (Decimal.isNumeral_plain unsigned back) position ends
  have reads : token.numericValue = .ok value := by
    have back : Decimal.read? token.text.toList = some value := by
      rw [text, String.ofList_toList]
      exact back
    simp [Token.numericValue, Token.isNumber, kind, base, back]
  exact ⟨[token], next, _, scans, .number kind reads,
    Adjacency.passes_operand (by simp [Token.endsOperand, kind]), rfl⟩

theorem reads_binary {operator : BinaryOperator} {token : Token} {left right : Expr}
    (means : table.binary? operator.symbol = some operator) (l : Reads table left) (r : Reads table right) :
    Reads table (.binary operator token left right) := by
  intro position rest ends
  obtain ⟨opening, p₁, opens, s₁⟩ := Token.scans_opening position
    (left.rendering ++ ' ' :: (operator.symbol.toList ++ ' ' :: (right.rendering ++ ')' :: rest)))
  obtain ⟨before, p₂, left', s₂, derivedLeft, passesLeft, sameLeft⟩ := l p₁ _ endsOperand_space
  obtain ⟨symbol, p₃, kind, text, s₃⟩ :=
    Token.scans_symbol (Token.isSymbol_binary operator) (p₂ + ' '.utf8Size)
      (' ' :: (right.rendering ++ ')' :: rest))
  obtain ⟨after, p₄, right', s₄, derivedRight, passesRight, sameRight⟩ :=
    r (p₃ + ' '.utf8Size) _ endsOperand_closing
  obtain ⟨closing, p₅, closes, s₅⟩ := Token.scans_closing p₄ rest
  have means : table.IsBinary symbol operator := ⟨kind, by rw [text]; exact means⟩
  have scans := s₁.trans (s₂.trans ((Token.scans_blank Text.isBlank_space).trans (s₃.trans
    ((Token.scans_blank Text.isBlank_space).trans (s₄.trans s₅)))))
  refine ⟨opening :: (before ++ symbol :: (after ++ [closing])),
    p₅, .binary operator symbol left' right', ?_, ?_, ?_, ?_⟩
  · simpa [Expr.rendering] using scans
  · simpa using Derives.parenthesized opens closes (.ofPrimaries means derivedLeft derivedRight)
  · exact Adjacency.passes_binary opens closes means derivedRight.head_opens passesLeft passesRight
  · rw [Expr.bare, sameLeft, sameRight, Expr.bare]

theorem reads_unary {operator : UnaryOperator} {token : Token} (means : table.unary? operator.symbol = some operator)
    (h : Reads table e) : Reads table (.unary operator token e) := by
  intro position rest ends
  obtain ⟨opening, p₁, opens, s₁⟩ := Token.scans_opening position
    (operator.symbol.toList ++ (e.rendering ++ ')' :: rest))
  obtain ⟨symbol, p₂, kind, text, s₂⟩ := Token.scans_symbol (Token.isSymbol_unary operator) p₁
    (e.rendering ++ ')' :: rest)
  obtain ⟨tokens, p₃, e', s₃, derived, passes, same⟩ := h p₂ _ endsOperand_closing
  obtain ⟨closing, p₄, closes, s₄⟩ := Token.scans_closing p₃ rest
  have means : table.IsUnary symbol operator := ⟨kind, by rw [text]; exact means⟩
  have scans := s₁.trans (s₂.trans (s₃.trans s₄))
  refine ⟨opening :: symbol :: (tokens ++ [closing]), p₄, .unary operator symbol e', ?_, ?_, ?_, ?_⟩
  · simpa [Expr.rendering] using scans
  · have operation := Derives.unary means (derived.expression (by decide) (Nat.le_refl _))
    exact .parenthesized opens closes (operation.loosen (Nat.le_refl _) (by decide) (Nat.le_refl _))
  · exact Adjacency.passes_unary opens closes means derived.head_opens passes
  · rw [Expr.bare, same, Expr.bare]

theorem reads_emptyCall {name : String} {position : Nat} (isName : Token.IsName name) :
    Reads table (.call name position []) := by
  intro start rest ends
  obtain ⟨token, p₁, kind, text, s₁⟩ := Token.scans_name isName start (')' :: rest)
  obtain ⟨opening, p₂, opens, s₂⟩ := Token.scans_opening p₁ (')' :: rest)
  obtain ⟨closing, p₃, closes, s₃⟩ := Token.scans_closing p₂ rest
  have scans := s₁.trans (s₂.trans s₃)
  refine ⟨[token, opening, closing], p₃, .call token.text token.position [], ?_, ?_, ?_, ?_⟩
  · simpa [Expr.rendering, Expr.renderingAll] using scans
  · exact .emptyCall kind opens closes
  · exact Adjacency.passes_emptyCall kind opens closes
  · rw [Expr.bare, text, Expr.bare]

theorem reads_call {name : String} {position : Nat} (isName : Token.IsName name) (h : ReadsAll table list) :
    Reads table (.call name position list) := by
  intro start rest ends
  obtain ⟨token, p₁, kind, text, s₁⟩ := Token.scans_name isName start (Expr.renderingAll list ++ ')' :: rest)
  obtain ⟨opening, p₂, opens, s₂⟩ := Token.scans_opening p₁ (Expr.renderingAll list ++ ')' :: rest)
  obtain ⟨tokens, p₃, list', s₃, derived, passes, same⟩ := h p₂ _ endsOperand_closing
  obtain ⟨closing, p₄, closes, s₄⟩ := Token.scans_closing p₃ rest
  have scans := s₁.trans (s₂.trans (s₃.trans s₄))
  refine ⟨token :: opening :: (tokens ++ [closing]), p₄, .call token.text token.position list', ?_, ?_, ?_, ?_⟩
  · simpa [Expr.rendering] using scans
  · exact .call kind opens closes derived
  · exact Adjacency.passes_call kind opens closes passes
  · rw [Expr.bare, text, same, Expr.bare]

theorem readsAll_one (h : Reads table e) : ReadsAll table [e] := by
  intro position rest ends
  obtain ⟨tokens, next, e', scans, derived, passes, same⟩ := h position rest ends
  refine ⟨tokens, next, [e'], ?_, .one (derived.expression (Nat.le_refl _) (by decide)), passes, ?_⟩
  · rw [Expr.renderingAll]
    exact scans
  · simp [Expr.bareAll, same]

theorem readsAll_more (h : Reads table e) (hs : ReadsAll table list) (filled : list ≠ []) :
    ReadsAll table (e :: list) := by
  intro position rest ends
  obtain ⟨tokens, p₁, e', s₁, derived, passes, same⟩ := h position _ endsOperand_comma
  obtain ⟨comma, p₂, kind, s₂⟩ := Token.scans_comma p₁ (' ' :: (Expr.renderingAll list ++ rest))
  obtain ⟨others, p₃, list', s₃, derivedAll, passesAll, sameAll⟩ := hs (p₂ + ' '.utf8Size) rest ends
  have scans := s₁.trans (s₂.trans ((Token.scans_blank Text.isBlank_space).trans s₃))
  refine ⟨tokens ++ comma :: others, p₃, e' :: list', ?_, ?_, ?_, ?_⟩
  · rw [Expr.renderingAll]
    · simpa using scans
    · exact filled
  · exact .more (derived.expression (Nat.le_refl _) (by decide)) kind derivedAll
  · exact Adjacency.passes_more kind passes passesAll
  · rw [Expr.bareAll, same, sameAll, Expr.bareAll]

/-! ### Whole expressions -/

namespace Expr

mutual

/-- The literals of the expression are finite, unsigned and read back from their texts, its names are
identifiers, and its operators are in the table. -/
def Printable (table : OperatorTable) : Expr → Prop
  | literal value => Decimal.IsUnsigned value ∧ Decimal.ReadsBack value
  | binary operator _ left right =>
    (∃ symbol, table.binary? symbol = some operator) ∧ Printable table left ∧ Printable table right
  | unary operator _ operand => (∃ symbol, table.unary? symbol = some operator) ∧ Printable table operand
  | call name _ arguments => Token.IsName name ∧ PrintableAll table arguments

def PrintableAll (table : OperatorTable) : List Expr → Prop
  | [] => True
  | e :: rest => Printable table e ∧ PrintableAll table rest

end

end Expr

mutual

theorem reads_printable (uses : table.UsesSymbols) : ∀ e : Expr, e.Printable table → Reads table e
  | .literal _, ⟨unsigned, back⟩ => reads_literal unsigned back
  | .binary _ _ left right, ⟨⟨_, means⟩, l, r⟩ =>
    reads_binary (uses.binary_symbol means) (reads_printable uses left l) (reads_printable uses right r)
  | .unary _ _ operand, ⟨⟨_, means⟩, h⟩ =>
      reads_unary (uses.unary_symbol means) (reads_printable uses operand h)
  | .call _ _ [], ⟨isName, _⟩ => reads_emptyCall isName
  | .call _ _ (e :: rest), ⟨isName, all⟩ =>
      reads_call isName (readsAll_printable uses (e :: rest) all (List.cons_ne_nil _ _))

theorem readsAll_printable (uses : table.UsesSymbols) :
    ∀ list : List Expr, Expr.PrintableAll table list → list ≠ [] → ReadsAll table list
  | [], _, filled => absurd rfl filled
  | [e], ⟨h, _⟩, _ => readsAll_one (reads_printable uses e h)
  | e :: other :: rest, ⟨h, all⟩, _ =>
    readsAll_more (reads_printable uses e h) (readsAll_printable uses (other :: rest) all (List.cons_ne_nil _ _))
      (List.cons_ne_nil _ _)

end

theorem scan_text (h : Reads table e) : ∃ tokens last e', Token.scan e.text = .ok (tokens ++ [.stop last]) ∧
    Derives table .primary tokens e' ∧ Passes table tokens ∧ e'.bare = e.bare := by
  obtain ⟨tokens, last, e', scans, derived, passes, same⟩ := h 0 [] (by simp [EndsOperand])
  refine ⟨tokens, last, e', ?_, derived, passes, same⟩
  rw [List.append_nil, ← Expr.toList_text] at scans
  exact Token.scan_of_scans scans

theorem check_of_short_text {text : String} (short : text.toList.length < maxNesting) :
    ∀ tokens, Token.scan text = .ok tokens → Nesting.check table tokens = .ok () := by
  intro tokens scanned
  obtain ⟨more, last, rfl, few, -⟩ := Token.scanFrom_eq_ok scanned
  apply Nesting.check_of_short
  simp only [List.reverse_nil, List.nil_append, List.length_append, List.length_singleton]
  omega

/-- What is read from the text of a printable expression is the expression, apart from the texts and places of its
tokens. -/
theorem convert_text (kind : ParserKind) (table : OperatorTable) (known : table = .arithmetic ∨ table = .bitwise)
    (e : Expr) (printable : e.Printable table)
    (nests : ∀ tokens, Token.scan e.text = .ok tokens → Nesting.check table tokens = .ok ()) :
    ∃ e', kind.convert table e.text = .ok e' ∧ e'.bare = e.bare := by
  have uses : table.UsesSymbols := by
    rcases known with rfl | rfl
    · exact OperatorTable.usesSymbols_arithmetic
    · exact OperatorTable.usesSymbols_bitwise
  obtain ⟨tokens, last, e', scanned, derived, passes, same⟩ := scan_text (reads_printable uses e printable)
  have filled : (tokens ++ [Token.stop last]).all Token.isStop = false := by
    obtain ⟨token, head, opens⟩ := (Option.any_eq_true ..).mp derived.head_opens
    have other : token.isStop = false := by
      cases kind : token.kind <;> simp_all [Token.isStop, Adjacency.opensOperand]
    exact List.all_eq_false.mpr ⟨token, List.mem_append_left _ (List.mem_of_mem_head? head), by simp [other]⟩
  have adjacency : Adjacency.check table (tokens ++ [.stop last]) = .ok () := by
    refine passes none none [.stop last] fun _ _ _ => (Adjacency.checkFrom_other ?_ ?_).mpr rfl
    all_goals simp [Token.stop]
  have parsed : kind.parse table (tokens ++ [.stop last]) = .ok e' := by
    refine (ParserKind.parse_eq_ok kind (ParserKind.stopsLast_of_scan scanned)).mpr ⟨nests _ scanned, adjacency, ?_⟩
    rw [ParserKind.body_of_scan scanned]
    exact derived.expression (Nat.le_refl _) (by decide)
  refine ⟨e', ?_, same⟩
  rw [ParserKind.convert, scanned, ok_bind, filled]
  exact parsed

/-- `(1.5 + (-x()))` -/
theorem convert_text_sum :
    let plus : Token := { kind := .operator, text := "+", position := 5 }
    let minus : Token := { kind := .operator, text := "-", position := 8 }
    let e : Expr := .binary .add plus (.literal 1.5) (.unary .negate minus (.call "x" 9 []))
    e.Printable .arithmetic ∧
      ∃ e', ParserKind.shuntingYard.convert .arithmetic e.text = .ok e' ∧ e'.bare = e.bare := by
  intro plus minus e
  have isName : Token.IsName "x" :=
    Token.isName_of_letter (Text.isBlank_of_visible (by decide) (by decide)) (by decide) (by decide) (by simp)
  have unsigned : Decimal.IsUnsigned 1.5 := trivial
  have printable : e.Printable .arithmetic := ⟨⟨"+", rfl⟩, ⟨unsigned, rfl⟩, ⟨"-", rfl⟩, isName, trivial⟩
  have short : e.text.toList.length < maxNesting := by
    rw [Expr.toList_text]
    decide
  exact ⟨printable, convert_text .shuntingYard .arithmetic (.inl rfl) e printable (check_of_short_text short)⟩

end Calculator
