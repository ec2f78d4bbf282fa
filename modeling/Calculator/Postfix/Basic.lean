import Calculator.Operator.Basic
import Calculator.Token.Basic

/-!
# Postfix order

An expression in postfix order is a list of entries in which each operation stands after its operands.
-/

namespace Calculator

inductive PostfixEntry where
  | number (token : Token)
  /-- An identifier without arguments. -/
  | constant (token : Token)
  | binary (operator : BinaryOperator) (token : Token)
  | unary (operator : UnaryOperator) (token : Token)
  /-- A function applied to as many arguments as the token tells. -/
  | call (token : Token)
deriving DecidableEq

end Calculator
