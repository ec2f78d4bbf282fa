import Calculator.Operator.Basic

/-!
# Operator tables

A table gives each symbol its meaning between two operands and in front of one. The same symbol can mean
different operations in different tables, and a symbol without a meaning is an error.
-/

namespace Calculator

structure OperatorTable where
  binary? : String → Option BinaryOperator
  /-- The unary meanings, kept also while unary operators are disabled. -/
  unaryMeaning? : String → Option UnaryOperator
  unaryEnabled : Bool

namespace OperatorTable

def empty : OperatorTable where
  binary? _ := none
  unaryMeaning? _ := none
  unaryEnabled := true

/-- Gives `symbol` a meaning between two operands. -/
def setBinary (table : OperatorTable) (symbol : String) (operator : BinaryOperator) : OperatorTable :=
  { table with binary? := fun s => if s = symbol then some operator else table.binary? s }

/-- Gives `symbol` a meaning in front of an operand. -/
def setUnary (table : OperatorTable) (symbol : String) (operator : UnaryOperator) : OperatorTable :=
  { table with unaryMeaning? := fun s => if s = symbol then some operator else table.unaryMeaning? s }

def remove (table : OperatorTable) (symbol : String) : OperatorTable :=
  { table with
    binary? := fun s => if s = symbol then none else table.binary? s
    unaryMeaning? := fun s => if s = symbol then none else table.unaryMeaning? s }

def enableUnary (table : OperatorTable) (enabled : Bool) : OperatorTable :=
  { table with unaryEnabled := enabled }

/-- The meaning of `symbol` in front of an operand, none while unary operators are disabled. -/
def unary? (table : OperatorTable) (symbol : String) : Option UnaryOperator :=
  if table.unaryEnabled then table.unaryMeaning? symbol else none

/-- Whether `symbol` has any meaning, be it a disabled one. -/
def knows (table : OperatorTable) (symbol : String) : Bool :=
  (table.binary? symbol).isSome || (table.unaryMeaning? symbol).isSome

/-- Gives each operator its usual symbol. -/
def withUsual (table : OperatorTable) (binary : List BinaryOperator) (unary : List UnaryOperator) :
    OperatorTable :=
  let table := binary.foldl (fun table operator => table.setBinary operator.symbol operator) table
  unary.foldl (fun table operator => table.setUnary operator.symbol operator) table

/-- `+ - * / % ^` with `^` for powers, and the signs `+` and `-`. -/
def arithmetic : OperatorTable :=
  empty.withUsual [.add, .subtract, .multiply, .divide, .modulo, .exponentiate] [.plus, .negate]

/-- Arithmetic with the bitwise operators, `^` being exclusive or. -/
def bitwise : OperatorTable :=
  arithmetic.withUsual [.bitwiseAnd, .bitwiseOr, .bitwiseXor, .shiftLeft, .shiftRight] [.bitwiseNot]

end OperatorTable

inductive OperatorTable.Change where
  | binary (symbol : String) (operator : BinaryOperator)
  | unary (symbol : String) (operator : UnaryOperator)
  | remove (symbol : String)
  | enableUnary (enabled : Bool)

def OperatorTable.apply (table : OperatorTable) : OperatorTable.Change → OperatorTable
  | .binary symbol operator => table.setBinary symbol operator
  | .unary symbol operator => table.setUnary symbol operator
  | .remove symbol => table.remove symbol
  | .enableUnary enabled => table.enableUnary enabled

end Calculator
