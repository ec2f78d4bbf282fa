import Calculator.Arity
import Calculator.Decimal.Text
import Calculator.Operator.Basic
import Calculator.Token.Basic

/-!
# Failures

Why an expression has no value, and where. A `Cause` says what is wrong, `Cause.category` files it under
one of eleven categories, and `Cause.message` words it.
-/

namespace Calculator

inductive Category where
  | invalidSyntax
  | unexpectedToken
  | divisionByZero
  | invalidFunction
  | domainError
  | numericOverflow
  | numericUnderflow
  | invalidBase
  | parseError
  | evaluationError
  | unknownError
deriving DecidableEq

namespace Category

def title : Category → String
  | invalidSyntax => "Invalid Syntax"
  | unexpectedToken => "Unexpected Token"
  | divisionByZero => "Division by Zero"
  | invalidFunction => "Invalid Function"
  | domainError => "Domain Error"
  | numericOverflow => "Overflow"
  | numericUnderflow => "Underflow"
  | invalidBase => "Invalid Base"
  | parseError => "Parse Error"
  | evaluationError => "Evaluation Error"
  | unknownError => "Unknown Error"

/-- Whether such failures arise before anything is evaluated. -/
def isSyntaxStage : Category → Bool
  | invalidSyntax | unexpectedToken | parseError => true
  | _ => false

end Category

inductive Cause where
  -- Number literals
  | pointWithoutDigits
  | secondPoint
  | exponentWithoutDigits
  | markWithoutDigits (mark : String)
  | notNumeric (kind : Token.Kind) (text : String)
  | unreadableNumber (text : String)
  | unreadableLiteral (text : String) (reason : Cause)
  -- Integers in a base
  | radixOutOfRange (radix : Nat)
  | unsupportedRadix (radix : Nat)
  | noDigits
  | foreignDigit (radix : Nat) (digit : Char)
  | tooWide (text : String)
  -- The order of tokens
  | unknownCharacter (text : String)
  | unsupportedOperator (symbol : String)
  | consecutiveOperators
  | noOperandBefore (symbol : String)
  | noOperandAfter (symbol : String)
  | afterOperand (symbol : String)
  | nestedTooDeeply
  | surplusClosing
  | missingClosing
  | missingOpening
  | missingArgument
  | misplacedComma
  | emptyParentheses
  | argumentsWithoutFunction
  | blankText
  | emptyExpression
  | unclosedArguments (found : Token)
  | unclosedExpression (found : Token)
  | noOperand (found : Token)
  | trailingToken (text : String)
  -- Postfix entries
  | unaryWithoutOperand (symbol : String)
  | tooFewOperands (symbol : String)
  | tooFewArguments (name : String)
  | tooManyOperands
  -- Values
  | divisionByZero
  | overflow
  | underflow
  | notANumber
  | fractionalPower
  | shiftOutOfRange (amount : Int64)
  | unknownArithmetic (operator : BinaryOperator)
  | unknownBitwise (operator : BinaryOperator)
  | evaluatedTooDeeply
  -- Calls
  | unknownName (name : String)
  | unknownFunction (name : String)
  | wrongArity (name : String) (arity : Arity)
  | outsideDomain (violation : String)
  | undefinedFor (name : String) (arguments : List Float)
  -- Choices
  | unknownParser (name : String)
  | decimalOnly (mode : String)
  | fractionInBase (value : Float) (radix : Nat)
  /-- A failure found elsewhere. -/
  | reported (category : Category) (message : String)
deriving DecidableEq

namespace Cause

/-- The category of a cause. An unreadable literal is an overflow if its digits are one. -/
def category : Cause → Category
  | pointWithoutDigits | secondPoint | exponentWithoutDigits | markWithoutDigits _
  | unreadableNumber _ => .invalidSyntax
  | unreadableLiteral _ reason =>
    if reason.category = .numericOverflow then .numericOverflow else .invalidSyntax
  | notNumeric _ _ => .unexpectedToken
  | radixOutOfRange _ | unsupportedRadix _ | noDigits | foreignDigit _ _ | decimalOnly _ => .invalidBase
  | tooWide _ | overflow => .numericOverflow
  | unsupportedOperator _ => .unexpectedToken
  | unknownCharacter _ | consecutiveOperators | noOperandBefore _ | noOperandAfter _ | afterOperand _
  | nestedTooDeeply | surplusClosing | missingClosing | missingOpening | missingArgument
  | misplacedComma | emptyParentheses | argumentsWithoutFunction | emptyExpression
  | unclosedArguments _ | unclosedExpression _ | noOperand _ | trailingToken _ => .invalidSyntax
  | blankText | unknownParser _ => .parseError
  | unaryWithoutOperand _ | tooFewOperands _ | tooFewArguments _ | tooManyOperands => .unexpectedToken
  | divisionByZero => .divisionByZero
  | underflow => .numericUnderflow
  | notANumber | fractionalPower | shiftOutOfRange _ | outsideDomain _ | undefinedFor _ _
  | fractionInBase _ _ => .domainError
  | unknownArithmetic _ | unknownBitwise _ | evaluatedTooDeeply | wrongArity _ _ => .evaluationError
  | unknownName _ | unknownFunction _ => .invalidFunction
  | reported category _ => category

def message : Cause → String
  | pointWithoutDigits => "Invalid number format: decimal point without digits"
  | secondPoint => "Invalid number format: multiple decimal points"
  | exponentWithoutDigits => "Invalid number format: exponent without digits"
  | markWithoutDigits mark => s!"Invalid number format: '{mark}' prefix without digits"
  | notNumeric kind text => s!"Expected a number, found {kind.name} '{text}'"
  | unreadableNumber text => s!"Invalid number: {text}"
  | unreadableLiteral text reason => s!"Invalid number {text}: {reason.message}"
  | radixOutOfRange radix => s!"Base must be between 2 and 36, got {radix}"
  | unsupportedRadix radix => s!"Invalid base: {radix}. Must be 2, 8, 10, or 16"
  | noDigits => "Cannot convert empty string"
  | foreignDigit radix digit => s!"Invalid digit for base {radix}: '{digit}'"
  | tooWide text => s!"Value {text} does not fit in 64 bits"
  | unknownCharacter text => s!"Unexpected character '{text}'"
  | unsupportedOperator symbol => s!"Operator '{symbol}' is not supported in this mode"
  | consecutiveOperators => "Consecutive operators are not allowed"
  | noOperandBefore symbol => s!"Missing operand before operator '{symbol}'"
  | noOperandAfter symbol => s!"Missing operand after operator '{symbol}'"
  | afterOperand symbol => s!"Operator '{symbol}' cannot follow an operand"
  | nestedTooDeeply => "Expression is nested too deeply"
  | surplusClosing => "Unbalanced parentheses: too many closing ')'"
  | missingClosing => "Unbalanced parentheses: missing closing ')'"
  | missingOpening => "Unbalanced parentheses: missing opening '('"
  | missingArgument => "Missing function argument"
  | misplacedComma => "Misplaced comma in function arguments"
  | emptyParentheses => "Empty parentheses"
  | argumentsWithoutFunction => "Argument list without a function"
  | blankText | emptyExpression => "Empty expression"
  | unclosedArguments found =>
    s!"Expected ')' after function arguments, found: {found.shown} ({found.kind.name})"
  | unclosedExpression found =>
    s!"Expected ')' after expression, found: {found.shown} ({found.kind.name})"
  | noOperand found => s!"Expected number, '(', or function, found: {found.shown}"
  | trailingToken text => s!"Unexpected token at end of expression: {text}"
  | unaryWithoutOperand symbol => s!"Missing operand for unary operator '{symbol}'"
  | tooFewOperands symbol => s!"Not enough operands for operator '{symbol}'"
  | tooFewArguments name => s!"Not enough arguments for function: {name}"
  | tooManyOperands => "Too many operands in expression"
  | divisionByZero => "Division by zero"
  | overflow => "Numeric overflow"
  | underflow => "Numeric underflow"
  | notANumber => "Result is not a number"
  | fractionalPower => "Fractional power of a negative number"
  | shiftOutOfRange amount => s!"Shift amount must be between 0 and 63, got {amount.toInt}"
  | unknownArithmetic operator => s!"Unknown binary operator: {operator.symbol}"
  | unknownBitwise operator => s!"Unknown bitwise operator: {operator.symbol}"
  | evaluatedTooDeeply => "Expression is nested too deeply to evaluate"
  | unknownName name => s!"Unknown function or constant: {name}"
  | unknownFunction name => s!"Unknown function: {name}"
  | wrongArity name arity => s!"{name} requires {arity.text}"
  | outsideDomain violation => violation
  | undefinedFor name arguments =>
    let list := String.intercalate ", " (arguments.map Decimal.plain)
    s!"{name} is undefined for {list}"
  | unknownParser name => s!"Unknown parser: {name}"
  | decimalOnly mode => s!"The {mode} mode only displays decimal results"
  | fractionInBase value radix => s!"Result {Decimal.plain value} cannot be displayed in base {radix}"
  | reported _ message => message

end Cause

/-- A cause and the byte offset that it belongs to, 0 if it belongs to none. -/
structure Failure where
  cause : Cause
  position : Nat := 0
deriving DecidableEq

namespace Failure

def category (failure : Failure) : Category := failure.cause.category

def message (failure : Failure) : String := failure.cause.message

/-- The failure with a position filled in, if it has none. -/
def withPosition (failure : Failure) (position : Nat) : Failure :=
  if failure.position = 0 then { failure with position } else failure

def text (failure : Failure) : String :=
  let place := if 0 < failure.position then s!" (position {failure.position})" else ""
  s!"[{failure.category.title}] {failure.message}{place}"

end Failure

def failAt (position : Nat) (cause : Cause) : Except Failure α :=
  .error { cause, position }

end Calculator
