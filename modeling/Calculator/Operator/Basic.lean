/-!
# Operators

The binary and unary operations, how tightly they bind, and the symbols they usually have.
-/

namespace Calculator

/-- An operation on two operands. -/
inductive BinaryOperator where
  | add
  | subtract
  | multiply
  | divide
  | modulo
  | exponentiate
  | bitwiseAnd
  | bitwiseOr
  | bitwiseXor
  | shiftLeft
  | shiftRight
deriving DecidableEq

/-- An operation on the operand that follows it. -/
inductive UnaryOperator where
  | plus
  | negate
  | bitwiseNot
deriving DecidableEq

/-- The level of exponentiation and of unary operators, the tightest of all. -/
def tightest : Nat := 7

namespace BinaryOperator

def symbol : BinaryOperator → String
  | add => "+"
  | subtract => "-"
  | multiply => "*"
  | divide => "/"
  | modulo => "%"
  | exponentiate | bitwiseXor => "^"
  | bitwiseAnd => "&"
  | bitwiseOr => "|"
  | shiftLeft => "<<"
  | shiftRight => ">>"

def name : BinaryOperator → String
  | add => "Add"
  | subtract => "Subtract"
  | multiply => "Multiply"
  | divide => "Divide"
  | modulo => "Modulo"
  | exponentiate => "Exponentiate"
  | bitwiseAnd => "BitwiseAnd"
  | bitwiseOr => "BitwiseOr"
  | bitwiseXor => "BitwiseXor"
  | shiftLeft => "ShiftLeft"
  | shiftRight => "ShiftRight"

/-- How tightly the operation binds, from 1 to 7. -/
def precedence : BinaryOperator → Nat
  | bitwiseOr => 1
  | bitwiseXor => 2
  | bitwiseAnd => 3
  | shiftLeft | shiftRight => 4
  | add | subtract => 5
  | multiply | divide | modulo => 6
  | exponentiate => tightest

/-- Whether a chain of the operation groups from the right. -/
def isRightAssociative : BinaryOperator → Bool
  | exponentiate => true
  | _ => false

def isBitwise : BinaryOperator → Bool
  | bitwiseAnd | bitwiseOr | bitwiseXor | shiftLeft | shiftRight => true
  | _ => false

def bindsTighter (a b : BinaryOperator) : Bool :=
  b.precedence < a.precedence

def bindsEqually (a b : BinaryOperator) : Bool :=
  a.precedence == b.precedence

end BinaryOperator

namespace UnaryOperator

def symbol : UnaryOperator → String
  | plus => "+"
  | negate => "-"
  | bitwiseNot => "~"

def name : UnaryOperator → String
  | plus => "Plus"
  | negate => "Negate"
  | bitwiseNot => "BitwiseNot"

def precedence (_ : UnaryOperator) : Nat := tightest

end UnaryOperator

end Calculator
