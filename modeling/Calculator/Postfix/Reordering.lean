import Calculator.Failure
import Calculator.Operator.Table
import Calculator.Postfix.Basic

/-!
# From infix to postfix order

`Postfix.ofTokens` puts tokens into postfix order in one pass. Operators wait on a stack until one that
binds less tightly, a comma, a closing parenthesis or the end comes.
-/

namespace Calculator

inductive Pending where
  | binary (operator : BinaryOperator) (token : Token)
  | unary (operator : UnaryOperator) (token : Token)
  | call (token : Token)
  /-- An open parenthesis, whether it holds arguments, and the commas directly inside it. -/
  | parenthesis (token : Token) (holdsArguments : Bool) (commas : Nat)
deriving DecidableEq

namespace Pending

def precedence? : Pending → Option Nat
  | binary operator _ => some operator.precedence
  | unary operator _ => some operator.precedence
  | call _ | parenthesis _ _ _ => none

/-- The entry that leaves the stack. A parenthesis never does. -/
def entry? : Pending → Option PostfixEntry
  | binary operator token => some (.binary operator token)
  | unary operator token => some (.unary operator token)
  | call token => some (.call token)
  | parenthesis _ _ _ => none

/-- Whether the operator on the stack is applied before `operator`, which comes after it. -/
def precedes (operator : BinaryOperator) (pending : Pending) : Bool :=
  pending.precedence?.any fun precedence =>
    operator.precedence < precedence ||
      (precedence == operator.precedence && !operator.isRightAssociative)

end Pending

/-- The stack, its top first, and the entries written so far, the last first. -/
structure Yard where
  stack : List Pending
  output : List PostfixEntry

namespace Yard

def start : Yard := ⟨[], []⟩

def write (yard : Yard) (entry : PostfixEntry) : Yard :=
  { yard with output := entry :: yard.output }

def push (yard : Yard) (pending : Pending) : Yard :=
  { yard with stack := pending :: yard.stack }

/-- Moves what waits to `output` while `leaves` holds, at most down to a parenthesis. -/
def moveWhile (leaves : Pending → Bool) : List Pending → List PostfixEntry → Yard
  | [], output => ⟨[], output⟩
  | top :: stack, output =>
    match top.entry? with
    | some entry =>
      if leaves top then moveWhile leaves stack (entry :: output) else ⟨top :: stack, output⟩
    | none => ⟨top :: stack, output⟩

/-- Moves everything above the innermost parenthesis to the output. -/
def moveAll (yard : Yard) : Yard :=
  moveWhile (fun _ => true) yard.stack yard.output

/-- An operator between operands waits, after those that are applied before it have left. -/
def binary (yard : Yard) (operator : BinaryOperator) (token : Token) : Yard :=
  (moveWhile (Pending.precedes operator) yard.stack yard.output).push (.binary operator token)

/-- An operator means what the table says for its place. -/
def operator (table : OperatorTable) (previous : Option Token) (token : Token) (yard : Yard) :
    Except Failure Yard :=
  if Token.opensOperand previous then
    match table.unary? token.text with
    | some meaning => .ok (yard.push (.unary meaning token))
    | none => failAt token.position (.unsupportedOperator token.text)
  else
    match table.binary? token.text with
    | some meaning => .ok (yard.binary meaning token)
    | none => failAt token.position (.unsupportedOperator token.text)

/-- Whether no argument has ended before a comma. -/
def opensArgument (previous : Option Token) : Bool :=
  match previous with
  | none => true
  | some token => token.kind = .comma || token.kind = .opening || token.kind = .operator

/-- Whether no argument begins after a comma. -/
def closesArgument (next : Option Token) : Bool :=
  match next with
  | none => true
  | some token => token.kind = .comma || token.kind = .closing || token.kind = .endOfInput

def comma (previous next : Option Token) (token : Token) (yard : Yard) : Except Failure Yard :=
  if opensArgument previous || closesArgument next then failAt token.position .missingArgument
  else
    let yard := yard.moveAll
    match yard.stack with
    | .parenthesis opening true commas :: stack =>
      .ok { yard with stack := .parenthesis opening true (commas + 1) :: stack }
    | _ => failAt token.position .misplacedComma

/-- A closing parenthesis ends what it surrounds. Only the parentheses of a call may be empty. -/
def closing (previous : Option Token) (token : Token) (yard : Yard) : Except Failure Yard :=
  let yard := yard.moveAll
  let isEmpty := previous.any fun token => token.kind = .opening
  match yard.stack with
  | .parenthesis _ false _ :: stack =>
    if isEmpty then failAt token.position .emptyParentheses else .ok { yard with stack }
  | .parenthesis _ true commas :: .call name :: stack =>
    let count := if isEmpty then 0 else commas + 1
    .ok ({ yard with stack }.write (.call { name with argumentCount := count }))
  | .parenthesis _ true _ :: _ => failAt token.position .argumentsWithoutFunction
  | _ => failAt token.position .missingOpening

/-- Reads a token between `previous` and `next`. -/
def step (table : OperatorTable) (previous next : Option Token) (token : Token) (yard : Yard) :
    Except Failure Yard :=
  match token.kind with
  | .number => .ok (yard.write (.number token))
  | .identifier =>
    if next.any fun token => token.kind = .opening then .ok (yard.push (.call token))
    else .ok (yard.write (.constant token))
  | .operator => yard.operator table previous token
  | .opening => .ok (yard.push (.parenthesis token (previous.any Token.isIdentifier) 0))
  | .comma => yard.comma previous next token
  | .closing => yard.closing previous token
  | .unknown => failAt token.position (.unknownCharacter token.text)
  | .endOfInput => .ok yard

/-- Reads the tokens after `previous`, up to a stop token. -/
def run (table : OperatorTable) (previous : Option Token) (yard : Yard) :
    List Token → Except Failure Yard
  | [] => .ok yard
  | token :: rest =>
    if token.isStop then .ok yard
    else
      match yard.step table previous rest.head? token with
      | .ok yard => run table (some token) yard rest
      | .error failure => .error failure

/-- The entries, once everything that waits has left the stack. -/
def finish (yard : Yard) : Except Failure (List PostfixEntry) :=
  let yard := yard.moveAll
  match yard.stack with
  | .parenthesis token _ _ :: _ => failAt token.position .missingClosing
  | _ => .ok yard.output.reverse

end Yard

namespace Postfix

/-- The tokens in postfix order. A stop token ends them, if there is one. -/
def ofTokens (table : OperatorTable) (tokens : List Token) : Except Failure (List PostfixEntry) :=
  (Yard.run table none .start tokens).bind Yard.finish

end Postfix

end Calculator
