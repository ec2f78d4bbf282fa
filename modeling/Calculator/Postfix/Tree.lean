import Calculator.Expr.Basic
import Calculator.Postfix.Basic
import Calculator.Token.Value

/-!
# From postfix order to a tree

`Postfix.toExpr` reads entries with a stack of operands. An operation takes its operands from the top and
leaves its tree there; in the end one tree has to be left.
-/

namespace Calculator.Postfix

/-- Takes `count` operands from the top of the stack and puts them in front of `taken`, in the order in
which they were pushed. -/
def take? : Nat → List Expr → List Expr → Option (List Expr × List Expr)
  | 0, taken, stack => some (taken, stack)
  | _ + 1, _, [] => none
  | count + 1, taken, top :: stack => take? count (top :: taken) stack

def build (stack : List Expr) : PostfixEntry → Except Failure (List Expr)
  | .number token => token.numericValue.map fun value => .literal value :: stack
  | .constant token => .ok (.call token.text token.position [] :: stack)
  | .unary operator token =>
    match stack with
    | operand :: stack => .ok (.unary operator token operand :: stack)
    | [] => failAt token.position (.unaryWithoutOperand token.text)
  | .binary operator token =>
    match stack with
    | right :: left :: stack => .ok (.binary operator token left right :: stack)
    | _ => failAt token.position (.tooFewOperands token.text)
  | .call token =>
    match take? token.argumentCount [] stack with
    | some (arguments, stack) => .ok (.call token.text token.position arguments :: stack)
    | none => failAt token.position (.tooFewArguments token.text)

/-- The tree that is left after all entries. -/
def root : List Expr → Except Failure Expr
  | [e] => .ok e
  | [] => failAt 0 .emptyExpression
  | _ => failAt 0 .tooManyOperands

def toExpr (entries : List PostfixEntry) : Except Failure Expr := do
  root (← entries.foldlM build [])

end Calculator.Postfix
