import Calculator.Decimal.Text
import Calculator.Expr.Basic

/-!
# Infix text of expressions

`Expr.text` writes an expression with parentheses around every operation, so that it can be read without
knowing how tightly operators bind. A chain is written along its spine, however long it is.
-/

namespace Calculator.Expr

/-- A chain opens a parenthesis for each of its steps, writes its leftmost operand, and then for each step the
operator, the operand and the parenthesis that closes it. -/
def text : Expr → String
  | literal value => Decimal.plain value
  | binary operator token left right =>
    let chain := (binary operator token left right).spine
    let opened := String.ofList (List.replicate chain.2.length '(')
    chain.2.attach.foldl (fun written ⟨step, _⟩ => s!"{written} {step.operator.symbol} {step.operand.text})")
      (opened ++ chain.1.text)
  | unary operator _ operand => s!"({operator.symbol}{operand.text})"
  | call name _ arguments => name ++ "(" ++ ", ".intercalate (arguments.attach.map fun ⟨e, _⟩ => e.text) ++ ")"
termination_by e => e.size
decreasing_by
  · rename_i member
    exact size_lt_of_mem_spine member
  · exact size_leftmost_lt operator token left right
  · exact Nat.lt_succ_self _
  · rename_i member
    exact Nat.lt_succ_of_le (size_le_of_mem member)

end Calculator.Expr
