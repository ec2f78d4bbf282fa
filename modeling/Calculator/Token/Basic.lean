import Calculator.NumberBase

/-!
# Tokens

The parts that an expression is read into.
-/

namespace Calculator

inductive Token.Kind where
  | number
  | operator
  | identifier
  | opening
  | closing
  | comma
  | endOfInput
  | unknown
deriving DecidableEq

def Token.Kind.name : Token.Kind → String
  | number => "NUMBER"
  | operator => "OPERATOR"
  | identifier => "FUNCTION"
  | opening => "LPAREN"
  | closing => "RPAREN"
  | comma => "COMMA"
  | endOfInput => "EOF"
  | unknown => "UNKNOWN"

structure Token where
  kind : Token.Kind
  text : String
  position : Nat
  base : NumberBase := .decimal
  /-- How many arguments a call has, once that is known. -/
  argumentCount : Nat := 0
deriving DecidableEq

namespace Token

/-- The token that ends a text of `position` bytes. -/
def stop (position : Nat) : Token where
  kind := .endOfInput
  text := ""
  position := position

def isOperator (token : Token) : Bool := token.kind = .operator

def isNumber (token : Token) : Bool := token.kind = .number

def isIdentifier (token : Token) : Bool := token.kind = .identifier

def isStop (token : Token) : Bool := token.kind = .endOfInput

def isSymbol (token : Token) (symbol : String) : Bool :=
  token.isOperator && token.text = symbol

/-- Whether an operand can end with this token. -/
def endsOperand (token : Token) : Bool :=
  match token.kind with
  | .number | .identifier | .closing => true
  | _ => false

/-- The token as it is named in messages. -/
def shown (token : Token) : String :=
  if token.isStop then "end of input" else token.text

/-- Whether an operator after `previous` stands in front of its operand: no operand has just ended. -/
def opensOperand (previous : Option Token) : Bool :=
  !previous.any endsOperand

end Token

end Calculator
