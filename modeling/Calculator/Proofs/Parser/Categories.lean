import Calculator.Proofs.Parser.Failures

/-!
# The categories of both parsers

Both parsers refuse the same texts, but not always for the same reason. Where the categories differ, a text has two
defects that the parsers meet in different orders, or an operand too many, which only one of them files as such.
-/

namespace Calculator

/-- The failure is one of form, or reports a number among the tokens that does not fit in 64 bits. -/
def FiledAmong (tokens : List Token) (failure : Failure) : Prop :=
  failure.category = .invalidSyntax ∨
    failure.category = .numericOverflow ∧ ∃ token ∈ tokens, token.kind = .number ∧ token.IsTooWide

namespace ParserKind

variable {table : OperatorTable} {text : String} {tokens : List Token} {yard descent : Failure}

theorem category_of_balance {failure : Failure} (unbalanced : Balance.check tokens = .error failure) :
    failure.category = .invalidSyntax :=
  (Balance.check_reports (fun _ h => h.category) fun _ => id).error unbalanced

/-- Why the shunting yard and the descent file a text under different categories. -/
inductive Reclassified (table : OperatorTable) (text : String) (yard descent : Failure) : Prop
  /-- An operator has no meaning, and the parentheses, which only the yard counts before that, do not match. -/
  | unsupported {tokens : List Token} (scanned : Token.scan text = .ok tokens)
      (unbalanced : Balance.check tokens = .error yard) (refused : Adjacency.check table tokens = .error descent)
      (category : descent.category = .unexpectedToken)
  /-- Operands follow each other. The yard is left with more than one tree, the descent does not expect the second. -/
  | surplus {tokens : List Token} (scanned : Token.scan text = .ok tokens) (balanced : Balance.check tokens = .ok ())
      (checked : Adjacency.check table tokens = .ok ()) (left : yard = { cause := .tooManyOperands })
      (category : descent.category = .invalidSyntax)
  /-- A number does not fit, and only one of the parsers has read it when it meets what is wrong with the form. -/
  | number {tokens : List Token} {token : Token} (scanned : Token.scan text = .ok tokens) (member : token ∈ tokens)
      (kind : token.kind = .number) (wide : token.IsTooWide)
      (categories : yard.category = .numericOverflow ∧ descent.category = .invalidSyntax ∨
        yard.category = .invalidSyntax ∧ descent.category = .numericOverflow)

theorem Reclassified.categories (h : Reclassified table text yard descent) : yard.category ≠ descent.category := by
  cases h with
  | unsupported _ unbalanced _ category =>
    rw [category_of_balance unbalanced, category]
    decide
  | surplus _ _ _ left category =>
    rw [left, category]
    decide
  | number _ _ _ _ categories =>
    rcases categories with ⟨first, second⟩ | ⟨first, second⟩ <;> rw [first, second] <;> decide

/-! ### Each parser -/

theorem numericValue_filed (scanned : Token.scan text = .ok tokens) :
    ∀ token ∈ tokens, token.kind = .number → Reports (FiledAmong tokens) token.numericValue := by
  intro token member kind
  rcases Token.value_of_scan scanned member (decide_eq_true kind) with
    ⟨-, value⟩ | ⟨wide, failure, value, category, -⟩ |
    ⟨-, -, x, value, -⟩
  · rw [value]
    trivial
  · rw [value]
    exact .inr ⟨category, token, member, kind, wide⟩
  · rw [value]
    trivial

theorem descent_filed (scanned : Token.scan text = .ok tokens) :
    Reports (FiledAmong tokens) (Descent.parse table tokens) :=
  Descent.parse_reports (fun _ h => .inl h.category)
    (numericValue_filed scanned) table (fun _ => id) (Token.stopOf_mem scanned)

theorem numbersRead_of_body (stops : Token.StopsLast tokens) (h : NumbersRead (Descent.body tokens)) :
    NumbersRead tokens := by
  obtain ⟨rest, same, stop⟩ := Descent.body_append_of_stopsLast stops
  rw [same]
  exact numbersRead_append.mpr ⟨h, fun token member kind => by simp [stop token member] at kind⟩

/-- What the yard is left with, the descent refuses for its form. -/
theorem yard_filed (scanned : Token.scan text = .ok tokens) (checked : Adjacency.check table tokens = .ok ()) :
    Reports (fun failure => FiledAmong tokens failure ∨ failure = { cause := .tooManyOperands } ∧
      Reports (fun failure => failure.category = .invalidSyntax) (Descent.parse table tokens))
        (Postfix.ofTokens table tokens >>= Postfix.toExpr) := by
  refine Postfix.ofTokens_bind_toExpr_reports (fun _ h => .inl (.inl h.category)) checked ?_ fun read =>
    .inr ⟨rfl, ?_⟩
  · exact fun token member kind => (numericValue_filed scanned token member kind).mono (fun _ => id) fun _ => .inl
  · refine Descent.parse_reports (fun _ h => h.category) ?_ table (fun _ => id) (Token.stopOf_mem scanned)
    intro token member kind
    obtain ⟨value, reads⟩ := numbersRead_of_body (stopsLast_of_scan scanned) read token member kind
    rw [reads]
    trivial

/-! ### Both parsers -/

theorem category_of_unbalanced (scanned : Token.scan text = .ok tokens)
    (unbalanced : Balance.check tokens = .error yard)
    (fails : (Adjacency.check table tokens >>= fun _ => Descent.parse table tokens) = .error descent) :
    yard.category = descent.category ∨ Reclassified table text yard descent := by
  have malformed : yard.category = .invalidSyntax := category_of_balance unbalanced
  cases adjacency : Adjacency.check table tokens with
  | error failure =>
    rw [adjacency] at fails
    cases fails
    have refused : RefusedAmong tokens descent :=
      (Adjacency.checkFrom_reports (fun _ => id) table none none fun _ => id).error adjacency
    rcases refused.category with category | category
    · exact .inl (malformed.trans category.symm)
    · exact .inr (.unsupported scanned unbalanced adjacency category)
  | ok _ =>
    rw [adjacency, ok_bind] at fails
    rcases (descent_filed scanned).error fails with category | ⟨category, token, member, kind, wide⟩
    · exact .inl (malformed.trans category.symm)
    · exact .inr (.number scanned member kind wide (.inr ⟨malformed, category⟩))

theorem category_of_checked (scanned : Token.scan text = .ok tokens) (balanced : Balance.check tokens = .ok ())
    (checked : Adjacency.check table tokens = .ok ())
    (yardFails : Postfix.ofTokens table tokens >>= Postfix.toExpr = .error yard)
    (descentFails : Descent.parse table tokens = .error descent) :
    yard.category = descent.category ∨ Reclassified table text yard descent := by
  have filed := (descent_filed scanned).error descentFails
  rcases (yard_filed scanned checked).error yardFails with
    (first | ⟨first, token, member, kind, wide⟩) | ⟨left, malformed⟩
  · rcases filed with second | ⟨second, token, member, kind, wide⟩
    · exact .inl (first.trans second.symm)
    · exact .inr (.number scanned member kind wide (.inr ⟨first, second⟩))
  · rcases filed with second | ⟨second, -⟩
    · exact .inr (.number scanned member kind wide (.inl ⟨first, second⟩))
    · exact .inl (first.trans second.symm)
  · exact .inr (.surplus scanned balanced checked left (malformed.error descentFails))

theorem category_of_parse (scanned : Token.scan text = .ok tokens)
    (yardFails : shuntingYard.parse table tokens = .error yard)
    (descentFails : recursiveDescent.parse table tokens = .error descent) :
    yard.category = descent.category ∨ Reclassified table text yard descent := by
  unfold parse at yardFails descentFails
  cases nesting : Nesting.check table tokens with
  | error failure =>
    rw [nesting] at yardFails descentFails
    cases yardFails
    cases descentFails
    exact .inl rfl
  | ok _ =>
    rw [nesting, ok_bind] at yardFails descentFails
    cases balance : Balance.check tokens with
    | error failure =>
      rw [balance] at yardFails
      cases yardFails
      exact category_of_unbalanced scanned balance descentFails
    | ok _ =>
      rw [balance, ok_bind] at yardFails
      cases adjacency : Adjacency.check table tokens with
      | error failure =>
        rw [adjacency] at yardFails descentFails
        cases yardFails
        cases descentFails
        exact .inl rfl
      | ok _ =>
        rw [adjacency, ok_bind] at yardFails descentFails
        exact category_of_checked scanned balance adjacency yardFails descentFails

/-! ### Texts -/

theorem parse_refuses {kind : ParserKind} {failure : Failure} (stops : Token.StopsLast tokens)
    (refused : kind.parse table tokens = .error failure) (other : ParserKind) :
    ∃ failure, other.parse table tokens = .error failure := by
  cases parsed : other.parse table tokens with
  | error failure => exact ⟨failure, rfl⟩
  | ok e =>
    rw [(parse_eq_ok kind stops).mpr ((parse_eq_ok other stops).mp parsed)] at refused
    cases refused

theorem category_of_convert {kind : ParserKind}
    {failure : Failure} (refused : kind.convert table text = .error failure) :
    ∃ yard descent, shuntingYard.convert table text = .error yard ∧
      recursiveDescent.convert table text = .error descent ∧
      (yard.category = descent.category ∨ Reclassified table text yard descent) := by
  cases scanned : Token.scan text with
  | error failure =>
      exact ⟨failure, failure, by rw [convert, scanned]; rfl, by rw [convert, scanned]; rfl, .inl rfl⟩
  | ok tokens =>
    by_cases blank : tokens.all Token.isStop = true
    · have same (kind : ParserKind) : kind.convert table text = .error { cause := .blankText } := by
        rw [convert, scanned, ok_bind, if_pos blank]
        rfl
      exact ⟨_, _, same _, same _, .inl rfl⟩
    · have same (kind : ParserKind) : kind.convert table text = kind.parse table tokens := by
        rw [convert, scanned, ok_bind, if_neg blank]
      rw [same] at refused
      obtain ⟨yard, first⟩ := parse_refuses (stopsLast_of_scan scanned) refused shuntingYard
      obtain ⟨descent, second⟩ := parse_refuses (stopsLast_of_scan scanned) refused recursiveDescent
      exact ⟨yard, descent, (same _).trans first, (same _).trans second, category_of_parse scanned first second⟩

theorem convert_two_names : shuntingYard.convert .arithmetic "x y" = .error { cause := .tooManyOperands } ∧
    recursiveDescent.convert .arithmetic "x y" = .error { cause := .trailingToken "y", position := 2 } := by
  constructor <;> cbv

/-- A text that one parser refuses, both refuse. They file it under the same category, unless it has an
operator without a meaning beside unmatched parentheses, operands that follow each other, or a number that
does not fit beside another defect. -/
theorem same_category_unless_reclassified (kind : ParserKind)
    (table : OperatorTable) (text : String) (failure : Failure)
    (refused : kind.convert table text = .error failure) :
    ∃ yard descent, shuntingYard.convert table text = .error yard ∧
      recursiveDescent.convert table text = .error descent ∧
      (yard.category ≠ descent.category ↔ Reclassified table text yard descent) := by
  obtain ⟨yard, descent, first, second, same | reclassified⟩ := category_of_convert refused
  · exact ⟨yard, descent, first, second, fun differ => absurd same differ, Reclassified.categories⟩
  · exact ⟨yard, descent, first, second, fun _ => reclassified, fun _ => reclassified.categories⟩

example : shuntingYard.convert .arithmetic "(x & y" = .error { cause := .missingClosing, position := 6 } ∧
    recursiveDescent.convert .arithmetic "(x & y" = .error { cause := .unsupportedOperator "&", position := 3 } := by
  constructor <;> cbv

/-- The yard is left with two trees where the descent finds a token too many. -/
theorem same_category_unless_reclassified_surplus :
    shuntingYard.convert .arithmetic "x y" = .error { cause := .tooManyOperands } ∧
      Reclassified .arithmetic "x y" { cause := .tooManyOperands } { cause := .trailingToken "y", position := 2 } := by
  obtain ⟨first, second⟩ := convert_two_names
  obtain ⟨yard, descent, same, same', differ⟩ := same_category_unless_reclassified _ _ _ _ first
  rw [first] at same
  rw [second] at same'
  cases same
  cases same'
  exact ⟨first, differ.mp (by decide)⟩

/-- The parsers can file a text under different categories. -/
theorem categories_differ :
    ¬ ∀ (table : OperatorTable) (text : String) (kind other : ParserKind) (failure failure' : Failure),
    kind.convert table text = .error failure → other.convert table text = .error failure' →
      failure.category = failure'.category := by
  intro agree
  obtain ⟨first, second⟩ := convert_two_names
  have same := agree _ _ _ _ _ _ first second
  cases same

end ParserKind

end Calculator
