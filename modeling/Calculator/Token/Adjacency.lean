import Calculator.Failure
import Calculator.Operator.Table

/-!
# Neighbours of operators

What may stand beside an operator. Where no operand has ended, the operator needs a unary meaning, and
else a binary one; and an operand or another operator has to follow. A plus sign may not follow a binary
operator, although `1 + (+2)` means something.
-/

namespace Calculator.Adjacency

/-- Whether an operand can begin with `token`, or with the operator that it is. -/
def opensOperand (token : Token) : Bool :=
  match token.kind with
  | .number | .identifier | .opening | .operator => true
  | _ => false

/-- Why an operator without a unary meaning cannot begin an operand. -/
def unaryRefusal (table : OperatorTable) (previous : Option Token) (token : Token) : Cause :=
  if previous.any Token.isOperator then .consecutiveOperators
  else if (table.binary? token.text).isSome then .noOperandBefore token.text
  else .unsupportedOperator token.text

/-- Why an operator without a binary meaning cannot follow an operand. -/
def binaryRefusal (table : OperatorTable) (token : Token) : Cause :=
  if table.knows token.text then .afterOperand token.text else .unsupportedOperator token.text

/-- Checks an operator after `previous`, with `earlier` before that. -/
def checkOperator (table : OperatorTable) (earlier previous next : Option Token) (token : Token) :
    Except Failure Unit := do
  if Token.opensOperand previous then
    if (table.unary? token.text).isNone then failAt token.position (unaryRefusal table previous token)
    let afterBinary := previous.any Token.isOperator && earlier.any Token.endsOperand
    if token.text = "+" && afterBinary then failAt token.position .consecutiveOperators
  else if (table.binary? token.text).isNone then
    failAt token.position (binaryRefusal table token)
  if !next.any opensOperand then failAt token.position (.noOperandAfter token.text)

/-- Checks the tokens after `earlier` and `previous`. -/
def checkFrom (table : OperatorTable) (earlier previous : Option Token) :
    List Token → Except Failure Unit
  | [] => .ok ()
  | token :: rest => do
    if token.kind = .unknown then failAt token.position (.unknownCharacter token.text)
    if token.isOperator then checkOperator table earlier previous rest.head? token
    checkFrom table previous (some token) rest

/-- Refuses unknown characters, and operators that stand beside a wrong neighbour. -/
def check (table : OperatorTable) (tokens : List Token) : Except Failure Unit :=
  checkFrom table none none tokens

end Calculator.Adjacency
