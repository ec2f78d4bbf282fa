import Calculator.Expr.Printer

/-!
# Outlines of expressions

`Expr.drawing` shows the tree of an expression with one node on each line. `Expr.outline` is the drawing of an
expression or, if its tree is too high to be drawn, its infix text.
-/

namespace Calculator.Expr

def maxOutlineHeight : Nat := 256

def label : Expr → String
  | literal value => Decimal.plain value
  | binary operator _ _ _ => s!"{operator.symbol} ({operator.name})"
  | unary operator _ _ => s!"{operator.symbol} ({operator.name})"
  | call name _ [] => name
  | call name _ _ => s!"{name}()"

/-- The line of a node that is or is not the last one below its parent. -/
def outlineLine (indent : String) (last : Bool) (e : Expr) : String :=
  indent ++ (if last then "└─ " else "├─ ") ++ e.label ++ "\n"

/-- What stands in front of the lines below such a node. -/
def outlineIndent (indent : String) (last : Bool) : String :=
  indent ++ if last then "   " else "│  "

mutual

/-- Draws a node and what is below it after `text`. -/
def outlineFrom (text indent : String) (last : Bool) : Expr → String
  | literal value => text ++ outlineLine indent last (literal value)
  | binary operator token left right =>
    let text := text ++ outlineLine indent last (binary operator token left right)
    let indent := outlineIndent indent last
    outlineFrom (outlineFrom text indent false left) indent true right
  | unary operator token operand =>
    let text := text ++ outlineLine indent last (unary operator token operand)
    outlineFrom text (outlineIndent indent last) true operand
  | call name position arguments =>
    let text := text ++ outlineLine indent last (call name position arguments)
    outlineAll text (outlineIndent indent last) arguments

def outlineAll (text indent : String) : List Expr → String
  | [] => text
  | e :: rest => outlineAll (outlineFrom text indent rest.isEmpty e) indent rest

end

def drawing (e : Expr) : String :=
  outlineFrom "expression\n" "" true e

/-- The expression as `draw` shows it, or its infix text if it is too high. -/
def outlineBy (draw : Expr → String) (e : Expr) : String :=
  if maxOutlineHeight < e.shape.2 then e.text else draw e

def outline (e : Expr) : String :=
  e.outlineBy drawing

end Calculator.Expr
