import Calculator.Mode.Basic
import Calculator.Proofs.Descent.Depth
import Calculator.Proofs.Evaluation.Invariant
import Calculator.Proofs.Operator.Table
import Calculator.Proofs.Parser.Failures

/-!
# How deep an evaluation goes

The levels that a list of tokens may nest over bound the depth at which the parts of its tree are evaluated. With the
operators of any mode the bound is below the deepest nesting that is evaluated.
-/

namespace Calculator

/-! ### Precedences of tables -/

namespace OperatorTable

theorem within_all (table : OperatorTable) : table.Within [1, 2, 3, 4, 5, 6, 7] := by
  intro symbol operator _
  cases operator <;> decide

theorem within_arithmetic : arithmetic.Within [5, 6, 7] := by
  intro symbol operator means
  have known := usesSymbols_arithmetic.binary_symbol means
  cases operator with
  | add | subtract | multiply | divide | modulo | exponentiate => decide
  | bitwiseAnd | bitwiseOr | bitwiseXor | shiftLeft | shiftRight => cases known

theorem within_bitwise : bitwise.Within [1, 2, 3, 4, 5, 6] := by
  intro symbol operator means
  have known := usesSymbols_bitwise.binary_symbol means
  cases operator with
  | exponentiate => cases known
  | _ => decide

end OperatorTable

theorem Flavour.table_eq (flavour : Flavour) :
    flavour.context.table = .arithmetic ∨ flavour.context.table = .bitwise := by
  cases flavour with
  | standard => exact .inl rfl
  | programmer => exact .inr rfl
  | scientific =>
    unfold Flavour.context Context.addAlias?
    dsimp only
    cases Context.function? _ "log" with
    | none => exact .inl rfl
    | some f => exact .inl rfl

namespace Evaluation

/-- Evaluating an expression at a depth enters an expression at another one: itself, and one level deeper whatever the
operand of a unary operation, an argument of a call, or the leftmost or a right operand of a chain enters. -/
inductive Enters : Expr → Nat → Expr → Nat → Prop where
  | root (e : Expr) (depth : Nat) : Enters e depth e depth
  | operand {operator : UnaryOperator} {token : Token} {operand e : Expr} {depth reached : Nat}
      (h : Enters operand (depth + 1) e reached) : Enters (.unary operator token operand) depth e reached
  | argument {name : String} {position : Nat} {arguments : List Expr} {argument e : Expr} {depth reached : Nat}
      (member : argument ∈ arguments) (h : Enters argument (depth + 1) e reached) :
      Enters (.call name position arguments) depth e reached
  | leftmost {operator : BinaryOperator} {token : Token} {left right e : Expr} {depth reached : Nat}
      (h : Enters (Expr.binary operator token left right).spine.1 (depth + 1) e reached) :
      Enters (.binary operator token left right) depth e reached
  | right {operator : BinaryOperator} {token : Token} {left right e : Expr} {step : Expr.Step} {depth reached : Nat}
      (member : step ∈ (Expr.binary operator token left right).spine.2)
      (h : Enters step.operand (depth + 1) e reached) :
      Enters (.binary operator token left right) depth e reached

/-- What is entered has used up the levels above it. -/
theorem Enters.depth_le {e entered : Expr} {depth reached : Nat} (h : Enters e depth entered reached) :
    reached + entered.nesting ≤ depth + e.nesting := by
  induction h with
  | root => exact Nat.le_refl _
  | operand _ ih =>
    rw [Expr.nesting]
    omega
  | @argument _ _ arguments _ _ _ _ member _ ih =>
    have inside := Expr.levelsAbove_lt.mp (Nat.lt_succ_self (Expr.levelsAbove arguments)) _ member
    rw [Expr.nesting]
    omega
  | @leftmost operator token left right _ _ _ _ ih =>
    have inside := (Expr.nesting_binary.mp (Nat.lt_succ_self (Expr.binary operator token left right).nesting)).1
    omega
  | @right operator token left right _ _ _ _ member _ ih =>
    have inside :=
      (Expr.nesting_binary.mp (Nat.lt_succ_self (Expr.binary operator token left right).nesting)).2 _ member
    omega

variable {kind : ParserKind} {table : OperatorTable} {tokens : List Token} {e : Expr} {limit : Nat}

theorem depth_le_of_nesting (le : e.nesting ≤ limit) :
    (∀ entered depth, Enters e 0 entered depth → depth ≤ limit) ∧
      ∀ context, evaluateWithin context (limit + 1) e = plain context e := by
  constructor
  · intro entered depth h
    have := h.depth_le
    omega
  · intro context
    exact evaluateWithin_eq_plain (Nat.lt_succ_of_le le)

theorem nesting_le_of_parse (h : kind.parse table tokens = .ok e) : e.nesting ≤ 8 * maxNesting + 6 :=
  ParserKind.nesting_le table.within_all h

theorem nesting_le_of_modes (mode : table = .arithmetic ∨ table = .bitwise) (h : kind.parse table tokens = .ok e) :
    e.nesting ≤ maxDepth := by
  rcases mode with rfl | rfl
  · have bound : e.nesting ≤ 2 + 4 * maxNesting := ParserKind.nesting_le OperatorTable.within_arithmetic h
    exact Nat.le_trans bound (by decide)
  · have bound : e.nesting ≤ 6 + 7 * maxNesting := ParserKind.nesting_le OperatorTable.within_bitwise h
    exact Nat.le_trans bound (by decide)

/-- With the operators of a mode, no text is refused for the depth of its evaluation. -/
theorem calculate_reports {context : Context} (mode : context.table = .arithmetic ∨ context.table = .bitwise)
    (kind : ParserKind) (text : String) :
    Reports (fun failure => failure.cause ≠ .evaluatedTooDeeply) (calculate context kind text) := by
  have converted : Ends (fun e => e.nesting ≤ maxDepth) (fun failure => failure.cause ≠ .evaluatedTooDeeply)
      (kind.convert context.table text) := by
    apply ends_of_forall
    · intro e h
      obtain ⟨tokens, -, parsed⟩ := ParserKind.parse_of_convert h
      exact nesting_le_of_modes mode parsed
    · intro failure h deep
      have category := kind.convert_category context.table text
      rw [h] at category
      simp [Ends, Failure.category, deep, Cause.category, Category.isSyntaxStage] at category
  apply ends_bind converted
  intro e le
  rw [evaluate, evaluateWithin_eq_plain (Nat.lt_succ_of_le le)]
  apply (plain_reports context e).mono (fun _ _ => trivial)
  intro failure ofValue deep
  simp [OfValue, deep, Cause.isOfValue] at ofValue

/-- Evaluating what a parser accepts goes no deeper than 8 levels for each level that tokens may nest over, and 6 more.
With the operators of a mode it goes no deeper than is allowed, so that no new mode refuses a text for its depth. -/
theorem parsed_depth_bounded :
    (∀ (kind : ParserKind) table tokens e, kind.parse table tokens = .ok e →
      (∀ entered depth, Enters e 0 entered depth → depth ≤ 8 * 128 + 6) ∧
        ∀ context, evaluateWithin context 1031 e = plain context e) ∧
      (∀ (kind : ParserKind) table tokens e, table = .arithmetic ∨ table = .bitwise →
        kind.parse table tokens = .ok e →
        (∀ entered depth, Enters e 0 entered depth → depth ≤ maxDepth) ∧
          ∀ context, evaluate context e = plain context e) ∧
        ∀ flavour kind text failure, ((Mode.ofFlavour flavour).setParser kind).evaluate text = .error failure →
          failure.cause ≠ .evaluatedTooDeeply := by
  refine ⟨fun kind table tokens e h => depth_le_of_nesting (nesting_le_of_parse h),
    fun kind table tokens e mode h => depth_le_of_nesting (nesting_le_of_modes mode h), ?_⟩
  intro flavour kind text failure h
  have evaluated : Reports (fun failure => failure.cause ≠ .evaluatedTooDeeply)
      (((Mode.ofFlavour flavour).setParser kind).evaluate text) := by
    apply reports_bind (calculate_reports flavour.table_eq kind text)
    intro value
    unfold Mode.checkValue
    split
    · simp [failAt, Ends]
    · trivial
  rw [h] at evaluated
  exact evaluated

/-- In `x^-y` the exponent's operand is entered two levels below the power, and a new mode refuses an empty text for
being empty. -/
theorem parsed_depth_of_power :
    let x : Token := { kind := .identifier, text := "x", position := 0 }
    let power : Token := { kind := .operator, text := "^", position := 1 }
    let sign : Token := { kind := .operator, text := "-", position := 2 }
    let y : Token := { kind := .identifier, text := "y", position := 3 }
    let e : Expr := .binary .exponentiate power (.call "x" 0 []) (.unary .negate sign (.call "y" 3 []))
    let mode := (Mode.ofFlavour .standard).setParser .recursiveDescent
    ParserKind.shuntingYard.parse .arithmetic [x, power, sign, y, .stop 4] = .ok e ∧
      Enters e 0 (.call "y" 3 []) 2 ∧ 2 ≤ 8 * 128 + 6 ∧ 2 ≤ maxDepth ∧
      (∀ context, evaluate context e = plain context e) ∧
      mode.evaluate "" = .error { cause := .blankText } ∧ Cause.blankText ≠ .evaluatedTooDeeply := by
  intro x power sign y e mode
  have parsed : ParserKind.shuntingYard.parse .arithmetic [x, power, sign, y, .stop 4] = .ok e := rfl
  have entered : Enters e 0 (.call "y" 3 []) 2 :=
    .right (List.mem_singleton_self _) (.operand (.root _ _))
  have refused : mode.evaluate "" = .error { cause := .blankText } := by
    have scanned : Token.scan "" = .ok [.stop 0] := by simp [Token.scan, Token.scanFrom]
    simp [Mode.evaluate, calculate, ParserKind.convert, scanned, Token.isStop, Token.stop, failAt]
  obtain ⟨any, modes, new⟩ := parsed_depth_bounded
  exact ⟨parsed, entered, (any _ _ _ _ parsed).1 _ _ entered, (modes _ _ _ _ (.inl rfl) parsed).1 _ _ entered,
    (modes _ _ _ _ (.inl rfl) parsed).2, refused, new .standard .recursiveDescent "" _ refused⟩

end Evaluation

end Calculator
