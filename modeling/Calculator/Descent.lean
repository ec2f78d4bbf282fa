import Calculator.Expr.Basic
import Calculator.Operator.Table
import Calculator.Token.Value

/-!
# Parsing by descent

A parser for each level of precedence, from the loosest down to single operands, that looks one token
ahead. An operand opens a level where its own parser is entered again: by a unary operator, on the right
of an operator of the tightest precedence, and by a parenthesis. `operand` is told how many levels it may
open, and its recursion is on that number alone.
-/

namespace Calculator.Descent

/-- What a parser makes of the `given` tokens: a result, and fewer tokens than were given. -/
structure Parsed (α : Type) (given : List Token) where
  result : α
  rest : List Token
  shorter : rest.length < given.length

/-- A parser that reads at least one token, or fails. -/
abbrev Parser (α : Type) := (given : List Token) → Except Failure (Parsed α given)

/-- What all parsers share: the meanings of operators, and the token that ends the text. -/
structure Setting where
  table : OperatorTable
  stop : Token

namespace Setting

def peek (setting : Setting) (tokens : List Token) : Token :=
  tokens.head?.getD setting.stop

/-- Fails at the next token, for a reason that names it. -/
def refuse (setting : Setting) (cause : Token → Cause) (tokens : List Token) : Except Failure α :=
  failAt (setting.peek tokens).position (cause (setting.peek tokens))

def binaryAt? (setting : Setting) (precedence : Nat) (token : Token) : Option BinaryOperator :=
  if token.isOperator then
    (setting.table.binary? token.text).filter fun operator => operator.precedence = precedence
  else none

def unaryAt? (setting : Setting) (token : Token) : Option UnaryOperator :=
  if token.isOperator then setting.table.unary? token.text else none

end Setting

variable (setting : Setting)

/-! ### Chains of left associative operators -/

/-- Reads operators of one precedence and their right operands as long as there are any. -/
def chainFrom (precedence : Nat) (operand : Parser Expr) {given : List Token} (left : Expr)
    (tokens : List Token) (shorter : tokens.length < given.length) :
    Except Failure (Parsed Expr given) :=
  match tokens with
  | [] => .ok ⟨left, [], shorter⟩
  | token :: rest =>
    match setting.binaryAt? precedence token with
    | none => .ok ⟨left, token :: rest, shorter⟩
    | some operator => do
      let right ← operand rest
      chainFrom precedence operand (.binary operator token left right.result) right.rest
        (by have := right.shorter; simp at shorter; omega)
termination_by tokens.length
decreasing_by have := right.shorter; simp; omega

/-- An operand, and operators of one precedence with more operands. -/
def chain (precedence : Nat) (operand : Parser Expr) : Parser Expr := fun given => do
  let left ← operand given
  chainFrom setting precedence operand left.result left.rest left.shorter

/-- An expression made of operands: a chain of each precedence below the tightest, loosest outermost. -/
def expression (operand : Parser Expr) : Parser Expr :=
  [1, 2, 3, 4, 5, 6].foldr (chain setting) operand

/-! ### Calls and parentheses -/

/-- Reads a closing parenthesis after `result`. -/
def closing (cause : Token → Cause) {given : List Token} (result : α) (tokens : List Token)
    (shorter : tokens.length < given.length) : Except Failure (Parsed α given) :=
  match tokens with
  | [] => setting.refuse cause []
  | token :: rest =>
    if token.kind = .closing then .ok ⟨result, rest, by simp at shorter; omega⟩
    else setting.refuse cause (token :: rest)

/-- Reads commas and arguments as long as there are any, and the parenthesis after them. The arguments
read so far come last first. -/
def argumentsFrom (argument : Parser Expr) {given : List Token} (before : List Expr)
    (tokens : List Token) (shorter : tokens.length < given.length) :
    Except Failure (Parsed (List Expr) given) :=
  match tokens with
  | [] => setting.refuse .unclosedArguments []
  | token :: rest =>
    if token.kind = .comma then do
      let next ← argument rest
      argumentsFrom argument (next.result :: before) next.rest
        (by have := next.shorter; simp at shorter; omega)
    else closing setting .unclosedArguments before.reverse (token :: rest) shorter
termination_by tokens.length
decreasing_by have := next.shorter; simp; omega

def someArguments (argument : Parser Expr) : Parser (List Expr) := fun given => do
  let first ← argument given
  argumentsFrom setting argument [first.result] first.rest first.shorter

def arguments (argument : Parser Expr) : Parser (List Expr)
  | [] => someArguments setting argument []
  | token :: rest =>
    if token.kind = .closing then .ok ⟨[], rest, by simp⟩
    else someArguments setting argument (token :: rest)

def parenthesized (inner : Parser Expr) (opening : Token) : Parser Expr := fun given => do
  if (setting.peek given).kind = .closing then setting.refuse (fun _ => .emptyParentheses) given
  let e ← inner given
  (closing setting .unclosedExpression e.result e.rest e.shorter).mapError
    (·.withPosition opening.position)

/-! ### Operands -/

/-- The parser for operands one level deeper, if a level may be opened at `token`. -/
def enter (deeper : Option (Parser Expr)) (token : Token) : Except Failure (Parser Expr) :=
  match deeper with
  | some operand => .ok operand
  | none => failAt token.position .nestedTooDeeply

/-- A number, a constant, a call or an expression in parentheses. -/
def primary (deeper : Option (Parser Expr)) : Parser Expr
  | [] => setting.refuse .noOperand []
  | token :: rest =>
    match token.kind, rest with
    | .number, rest => do
      let value ← token.numericValue
      return ⟨.literal value, rest, by simp⟩
    | .identifier, [] => .ok ⟨.call token.text token.position [], [], by simp⟩
    | .identifier, next :: rest =>
      if next.kind = .opening then do
        let operand ← enter deeper next
        let list ← arguments setting (expression setting operand) rest
        return ⟨.call token.text token.position list.result, list.rest,
          by have := list.shorter; simp; omega⟩
      else .ok ⟨.call token.text token.position [], next :: rest, by simp⟩
    | .opening, rest => do
      let operand ← enter deeper token
      let e ← parenthesized setting (expression setting operand) token rest
      return ⟨e.result, e.rest, by have := e.shorter; simp; omega⟩
    | _, rest => setting.refuse .noOperand (token :: rest)

/-- A primary, or one raised to an operand by an operator of the tightest precedence. -/
def power (deeper : Option (Parser Expr)) : Parser Expr := fun given => do
  let base ← primary setting deeper given
  match h : base.rest with
  | [] => return base
  | token :: rest =>
    match setting.binaryAt? tightest token with
    | none => return base
    | some operator =>
      let operand ← enter deeper token
      let exponent ← operand rest
      return ⟨.binary operator token base.result exponent.result, exponent.rest,
        by have := base.shorter; have := exponent.shorter; simp [h] at *; omega⟩

/-- A unary operator with its operand, or a power. Deeper levels are read by `deeper`. -/
def operandOver (deeper : Option (Parser Expr)) : Parser Expr
  | [] => power setting deeper []
  | token :: rest =>
    match setting.unaryAt? token with
    | none => power setting deeper (token :: rest)
    | some operator => do
      let operand ← enter deeper token
      let e ← operand rest
      return ⟨.unary operator token e.result, e.rest, by have := e.shorter; simp; omega⟩

/-- An operand that opens at most `levels` levels. -/
def operand (levels : Nat) : Parser Expr :=
  match levels with
  | 0 => operandOver setting none
  | levels + 1 => operandOver setting (some (operand levels))

/-! ### Whole texts -/

/-- The tokens before the first stop token. -/
def body (tokens : List Token) : List Token :=
  tokens.takeWhile fun token => !token.isStop

/-- The first stop token, or one after the last token. -/
def stopOf (tokens : List Token) : Token :=
  (tokens.find? Token.isStop).getD
    (Token.stop (tokens.getLast?.elim 0 fun token => token.position + token.text.utf8ByteSize))

/-- The tree of the tokens before the first stop token, with at most `levels` levels open at once. -/
def parseWithin (levels : Nat) (table : OperatorTable) (tokens : List Token) : Except Failure Expr := do
  let setting : Setting := ⟨table, stopOf tokens⟩
  let given := body tokens
  if given.isEmpty then failAt 0 .emptyExpression
  let e ← expression setting (operand setting levels) given
  match e.rest with
  | [] => return e.result
  | token :: _ => failAt token.position (.trailingToken token.text)

/-- The tree of the tokens before the first stop token. Each level takes a token, so there are enough. -/
def parse (table : OperatorTable) (tokens : List Token) : Except Failure Expr :=
  parseWithin tokens.length table tokens

end Calculator.Descent
