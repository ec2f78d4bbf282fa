import Calculator.Proofs.Parser
import Calculator.Proofs.Token.Nesting

/-!
# Numbers with a sign

What the parsers make of a number alone or behind an operator: a tree, if the number has a value, and else the failure
to read it.
-/

namespace Calculator

variable {table : OperatorTable} {operator : UnaryOperator}
  {sign number : Token} {tokens given : List Token} {last : Nat}
variable {outcome : Except Failure Expr}

namespace Descent

variable {setting : Setting} {parser : Parser Expr}

/-- Where an operand is all there is, no chain of operators begins. -/
theorem expression_of_alone (alone : ∀ parsed, parser given = .ok parsed → parsed.rest = []) :
    expression setting parser given = parser given := by
  unfold expression
  generalize [1, 2, 3, 4, 5, 6] = precedences
  induction precedences with
  | nil => rfl
  | cons precedence rest ih =>
    rw [List.foldr_cons, chain, ih]
    cases outcome : parser given with
    | error failure => rfl
    | ok parsed =>
      obtain ⟨result, rest, shorter⟩ := parsed
      obtain rfl : rest = [] := alone _ outcome
      rw [ok_bind, chainFrom]

/-- The outcome of a parser that takes all tokens. -/
def whole (filled : given ≠ []) (outcome : Except Failure Expr) : Except Failure (Parsed Expr given) :=
  outcome.map fun e => ⟨e, [], List.length_pos_iff.mpr filled⟩

theorem parse_of_operand {filled : given ≠ []} (same : body tokens = given)
    (taken : operand ⟨table, stopOf tokens⟩ tokens.length given = whole filled outcome) :
    parse table tokens = outcome := by
  subst same
  have alone : ∀ parsed, operand ⟨table, stopOf tokens⟩ tokens.length (body tokens) = .ok parsed →
      parsed.rest = [] := by
    intro parsed h
    rw [taken] at h
    obtain ⟨e, -, rfl⟩ := map_eq_ok.mp h
    rfl
  have nonempty : ¬ (body tokens).isEmpty = true := fun empty => filled (List.isEmpty_iff.mp empty)
  unfold parse parseWithin
  dsimp only
  rw [if_neg nonempty, expression_of_alone alone, taken]
  cases outcome <;> rfl

theorem operandOver_number (deeper : Option (Parser Expr)) (known : number.kind = .number) :
    operandOver setting deeper [number] = whole (List.cons_ne_nil _ _) (number.numericValue.map .literal) := by
  simp only [operandOver, Setting.unaryAt?, Token.isOperator, known, power, primary, whole]
  cases number.numericValue <;> rfl

theorem operand_number (levels : Nat) (known : number.kind = .number) :
    operand setting levels [number] = whole (List.cons_ne_nil _ _) (number.numericValue.map .literal) := by
  cases levels <;> exact operandOver_number _ known

theorem operand_unary (levels : Nat) (means : setting.table.IsUnary sign operator) (known : number.kind = .number) :
    operand setting (levels + 1) [sign, number] =
      whole (List.cons_ne_nil _ _) (number.numericValue.map fun value => .unary operator sign (.literal value)) := by
  have unary : setting.unaryAt? sign = some operator := by
    simp [Setting.unaryAt?, Token.isOperator, means.1, means.2]
  simp only [operand, operandOver, unary, enter, ok_bind, operand_number levels known, whole]
  cases number.numericValue <;> rfl

end Descent

namespace ParserKind

/-- After the checks each parser goes its own way. -/
theorem parse_of_checks (kind : ParserKind) (nests : Nesting.check table tokens = .ok ())
    (balanced : Balance.check tokens = .ok ()) (placed : Adjacency.check table tokens = .ok ())
    (yard : (Postfix.ofTokens table tokens >>= Postfix.toExpr) = outcome)
    (descent : Descent.parse table tokens = outcome) :
    kind.parse table tokens = outcome := by
  cases kind with
  | shuntingYard =>
    rw [← yard, parse, nests, ok_bind]
    show (Balance.check tokens >>= fun _ => Adjacency.check table tokens >>= fun _ => _) = _
    rw [balanced, ok_bind, placed, ok_bind]
  | recursiveDescent =>
    rw [← descent, parse, nests, ok_bind]
    show (Adjacency.check table tokens >>= fun _ => _) = _
    rw [placed, ok_bind]

theorem parse_number (kind : ParserKind) (known : number.kind = .number) :
    kind.parse table [number, .stop last] = number.numericValue.map .literal := by
  have body : Descent.body [number, .stop last] = [number] := by simp [Descent.body, Token.isStop, Token.stop, known]
  have ordered : Postfix.ofTokens table [number, .stop last] = .ok [.number number] := by
    simp [Postfix.ofTokens, Yard.run, Yard.step, Yard.write, Yard.finish, Yard.moveAll, Yard.moveWhile, Yard.start,
      Token.isStop, Token.stop, known, Except.bind]
  refine parse_of_checks kind (Nesting.check_of_short (Nat.le_of_ble_eq_true rfl)) ?_ ?_ ?_ ?_
  · simp [Balance.check, Balance.checkFrom, known, Token.stop]
  · simp [Adjacency.check, Adjacency.checkFrom, known, Token.isOperator, Token.stop]
  · rw [ordered, ok_bind, Postfix.toExpr, List.foldlM_cons, Postfix.build]
    cases number.numericValue <;> rfl
  · exact Descent.parse_of_operand body (Descent.operand_number _ known)

theorem parse_unary (kind : ParserKind) (means : table.IsUnary sign operator) (known : number.kind = .number) :
    kind.parse table [sign, number, .stop last] =
      number.numericValue.map fun value => .unary operator sign (.literal value) := by
  have body : Descent.body [sign, number, .stop last] = [sign, number] := by
    simp [Descent.body, Token.isStop, Token.stop, known, means.1]
  have ordered : Postfix.ofTokens table [sign, number, .stop last] = .ok [.number number, .unary operator sign] := by
    simp [Postfix.ofTokens, Yard.run, Yard.step, Yard.operator, Yard.push, Yard.write, Yard.finish, Yard.moveAll,
      Yard.moveWhile, Yard.start, Pending.entry?, Token.isStop, Token.stop, Token.opensOperand, known, means.1, means.2,
      Except.bind]
  refine parse_of_checks kind (Nesting.check_of_short (Nat.le_of_ble_eq_true rfl)) ?_ ?_ ?_ ?_
  · simp [Balance.check, Balance.checkFrom, known, means.1, Token.stop]
  · simp [Adjacency.check, Adjacency.checkFrom, Adjacency.checkOperator, Adjacency.opensOperand, Token.opensOperand,
      Token.isOperator, Token.stop, known, means.1, means.2]
  · rw [ordered, ok_bind, Postfix.toExpr, List.foldlM_cons, Postfix.build]
    cases number.numericValue <;> rfl
  · exact Descent.parse_of_operand body (Descent.operand_unary _ means known)

theorem convert_of_scan {text : String} (kind : ParserKind) (scanned : Token.scan text = .ok tokens)
    (filled : ¬ tokens.all Token.isStop = true) : kind.convert table text = kind.parse table tokens := by
  rw [convert, scanned, ok_bind, if_neg filled]

end ParserKind

end Calculator
