import Calculator.Builtin
import Calculator.Display
import Calculator.Evaluation
import Calculator.Outcome

/-!
# Modes

A mode is a calculator: a flavour, a context, a way to parse, and the base in which results are shown.
Only the programmer's flavour shows results in other bases than ten, and then only integers.
-/

namespace Calculator

inductive Flavour where
  | standard
  | scientific
  | programmer
deriving DecidableEq

namespace Flavour

/-- The name by which a mode of the flavour is chosen. -/
def name : Flavour → String
  | standard => "standard"
  | scientific => "scientific"
  | programmer => "programmer"

def description : Flavour → String
  | standard => "Standard calculator mode: +, -, *, /, ^ with parentheses"
  | scientific =>
    "Scientific mode: all arithmetic operations + math functions (sin/cos/tan, log/exp/sqrt, etc.)"
  | programmer => "Programmer mode with base conversions and bitwise operations"

/-- The context of a new mode. The scientific one has constants, and natural logarithms by a second
name. -/
def context : Flavour → Context
  | standard => Builtin.addFunctions (.ofTable .arithmetic)
  | scientific =>
    let context := Builtin.addConstants (Builtin.addFunctions (.ofTable .arithmetic))
    (context.addAlias? "ln" "log").getD context
  | programmer => Builtin.addFunctions (.ofTable .bitwise)

end Flavour

structure Mode where
  flavour : Flavour
  context : Context
  parser : ParserKind
  displayBase : NumberBase

namespace Mode

def ofFlavour (flavour : Flavour) : Mode where
  flavour := flavour
  context := flavour.context
  parser := .shuntingYard
  displayBase := .decimal

def name (mode : Mode) : String := mode.flavour.name

def setPrecision (mode : Mode) (precision : Nat) : Mode :=
  { mode with context := { mode.context with precision } }

def setParser (mode : Mode) (parser : ParserKind) : Mode :=
  { mode with parser }

def changeTable (mode : Mode) (change : OperatorTable.Change) : Mode :=
  { mode with context := { mode.context with table := mode.context.table.apply change } }

def setDisplayBase (mode : Mode) (radix : Nat) : Except Failure Mode :=
  match mode.flavour with
  | .programmer => (NumberBase.ofRadix radix).map fun displayBase => { mode with displayBase }
  | _ => if radix = NumberBase.decimal.radix then .ok mode else failAt 0 (.decimalOnly mode.name)

/-- Refuses a value that the mode cannot show: one with a fraction, unless in base ten. -/
def checkValue (mode : Mode) (value : Float) : Except Failure Float :=
  if mode.displayBase ≠ .decimal && Double.hasFraction value then
    failAt 0 (.fractionInBase value mode.displayBase.radix)
  else .ok value

/-- The value of a text, if the mode can show it. -/
def evaluate (mode : Mode) (text : String) : Outcome := do
  mode.checkValue (← Evaluation.calculate mode.context mode.parser text)

def formatInteger (mode : Mode) (value : Int64) : String :=
  Integer.display value mode.displayBase

def formatValue (mode : Mode) (value : Float) : Except Failure String :=
  if mode.displayBase = .decimal then .ok (Display.formatValue value mode.context.precision)
  else do
    let value ← mode.checkValue value
    match Double.toInt64? value with
    | some n => return mode.formatInteger n
    | none => failAt 0 .overflow

/-- The radices in which the programmer's flavour shows results. -/
def supportedRadices : List Nat := [2, 8, 10, 16]

end Mode

end Calculator
