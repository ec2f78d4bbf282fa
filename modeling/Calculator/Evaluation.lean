import Calculator.Context
import Calculator.Double.Arithmetic
import Calculator.Expr.Basic
import Calculator.Parser

/-!
# Evaluation

The value of an expression in a context, or the first failure in the order in which operands are
evaluated: from left to right, and an operation after its operands.
-/

namespace Calculator.Evaluation

/-! ### Operations on values -/

/-- The integer part of a value, for an operation on bits. -/
def toInteger (value : Float) (position : Nat) : Except Failure Int64 :=
  match Double.toInt64? value with
  | some n => .ok n
  | none => failAt position .overflow

def shiftAmount (amount : Int64) (position : Nat) : Except Failure Int64 :=
  if 0 ≤ amount ∧ amount < 64 then .ok amount else failAt position (.shiftOutOfRange amount)

def applyUnary (operator : UnaryOperator) (x : Float) (position : Nat) : Except Failure Float :=
  match operator with
  | .plus => .ok x
  | .negate => .ok (-x)
  | .bitwiseNot => (toInteger x position).map fun n => Double.ofInt (~~~n).toInt

/-- Applies an operator to the bits of the integer parts. A right shift keeps the sign. -/
def applyBitwise (operator : BinaryOperator) (x y : Float) (position : Nat) : Except Failure Float := do
  let a ← toInteger x position
  let b ← toInteger y position
  let result ← match operator with
    | .bitwiseAnd => pure (a &&& b)
    | .bitwiseOr => pure (a ||| b)
    | .bitwiseXor => pure (a ^^^ b)
    | .shiftLeft => (shiftAmount b position).map (a <<< ·)
    | .shiftRight => (shiftAmount b position).map (a >>> ·)
    | operator => failAt position (.unknownBitwise operator)
  return Double.ofInt result.toInt

/-- Whether an operator scales values, so that a result of zero can be too small a number. -/
def scales : BinaryOperator → Bool
  | .multiply | .divide | .exponentiate => true
  | _ => false

/-- Refuses a result that is undefined, or that finite operands make too large or too small. -/
def checkResult (operator : BinaryOperator) (x y result : Float) (position : Nat) :
    Except Failure Float :=
  let areFinite := x.isFinite && y.isFinite
  if result.isNaN then failAt position .notANumber
  else if result.isInf && areFinite then failAt position .overflow
  else if scales operator && result == 0.0 && x != 0.0 && y != 0.0 && areFinite then
    failAt position .underflow
  else .ok result

def applyArithmetic (operator : BinaryOperator) (x y : Float) (position : Nat) :
    Except Failure Float := do
  let result ← match operator with
    | .add => pure (x + y)
    | .subtract => pure (x - y)
    | .multiply => pure (x * y)
    | .divide => if y == 0.0 then failAt position .divisionByZero else pure (x / y)
    | .modulo => if y == 0.0 then failAt position .divisionByZero else pure (Double.remainder x y)
    | .exponentiate =>
      if x < 0.0 && y.isFinite && Double.hasFraction y then failAt position .fractionalPower
      else pure (x.pow y)
    | operator => failAt position (.unknownArithmetic operator)
  checkResult operator x y result position

def applyBinary (operator : BinaryOperator) (x y : Float) (position : Nat) : Except Failure Float :=
  if operator.isBitwise then applyBitwise operator x y position
  else applyArithmetic operator x y position

/-- Calls a name. Without arguments a constant comes before a function. -/
def call (context : Context) (name : String) (arguments : List Float) (position : Nat) :
    Except Failure Float :=
  match (if arguments.isEmpty then context.constant? name else none), context.function? name with
  | some value, _ => .ok value
  | none, some f => f.call arguments position
  | none, none =>
    failAt position (if arguments.isEmpty then .unknownName name else .unknownFunction name)

/-! ### Expressions -/

/-- The deepest nesting that is evaluated. A chain of left operands counts as one level. -/
def maxDepth : Nat := 1024

/-- The value of an expression that may be nested over fewer than `levels` levels. A chain of binary
operations is evaluated from its leftmost operand on. -/
def evaluateWithin (context : Context) : (levels : Nat) → Expr → Except Failure Float
  | 0, e => failAt e.position .evaluatedTooDeeply
  | levels + 1, e =>
    match e with
    | .literal value => .ok value
    | .unary operator token operand => do
      applyUnary operator (← evaluateWithin context levels operand) token.position
    | .call name position arguments => do
      call context name (← arguments.mapM (evaluateWithin context levels)) position
    | .binary .. => do
      let (leftmost, steps) := e.spine
      steps.foldlM
        (fun value step => do
          let right ← evaluateWithin context levels step.operand
          applyBinary step.operator value right step.token.position)
        (← evaluateWithin context levels leftmost)

def evaluate (context : Context) (e : Expr) : Except Failure Float :=
  evaluateWithin context (maxDepth + 1) e

def calculate (context : Context) (kind : ParserKind) (text : String) : Except Failure Float := do
  evaluate context (← kind.convert context.table text)

end Calculator.Evaluation
