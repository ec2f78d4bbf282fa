import Calculator.Context
import Calculator.Double.Arithmetic

/-!
# Builtin functions and constants

The functions that every mode knows, with the domains of those that are not defined everywhere.
-/

namespace Calculator.Builtin

def ofOne (f : Float → Float) : List Float → Float
  | [x] => f x
  | _ => Double.nan

def ofTwo (f : Float → Float → Float) : List Float → Float
  | [x, y] => f x y
  | _ => Double.nan

/-! ### Domains -/

/-- The first argument lies in `[-1, 1]`. -/
def unitInterval (name : String) : List Float → Option String
  | x :: _ => if -1.0 ≤ x ∧ x ≤ 1.0 then none else some s!"{name} argument must be in [-1, 1]"
  | [] => none

/-- The first argument is not zero or less. -/
def positive (name : String) : List Float → Option String
  | x :: _ => if x ≤ 0.0 then some s!"{name} argument must be positive" else none
  | [] => none

def nonNegative (name : String) : List Float → Option String
  | x :: _ => if x < 0.0 then some s!"{name} argument must be non-negative" else none
  | [] => none

def nonZeroDivisor (name : String) : List Float → Option String
  | _ :: y :: _ => if y == 0.0 then some s!"{name} divisor cannot be zero" else none
  | _ => none

/-- A negative base has an integer exponent. -/
def realPower (name : String) : List Float → Option String
  | x :: y :: _ =>
    if x < 0.0 && Double.hasFraction y then
      some s!"{name} of a negative base requires an integer exponent"
    else none
  | _ => none

/-! ### Functions and constants -/

/-- A function of one argument that is defined everywhere. -/
def one (name : String) (f : Float → Float) : Function where
  name := name
  arity := .exactly 1
  body := ofOne f

/-- A function of two arguments that is defined everywhere. -/
def two (name : String) (f : Float → Float → Float) : Function where
  name := name
  arity := .exactly 2
  body := ofTwo f

/-- A function of one argument or more that combines them from the left. -/
def many (name : String) (start : Float) (f : Float → Float → Float) : Function where
  name := name
  arity := .atLeast 1
  body := fun arguments => arguments.foldl f start

def functions : List Function := [
  one "sin" Float.sin,
  one "cos" Float.cos,
  one "tan" Float.tan,
  { one "asin" Float.asin with violation? := unitInterval },
  { one "acos" Float.acos with violation? := unitInterval },
  one "atan" Float.atan,
  one "sinh" Float.sinh,
  one "cosh" Float.cosh,
  one "tanh" Float.tanh,
  { one "log" Float.log with violation? := positive },
  { one "log10" Float.log10 with violation? := positive },
  one "exp" Float.exp,
  { one "sqrt" Float.sqrt with violation? := nonNegative },
  one "cbrt" Float.cbrt,
  { two "pow" Float.pow with violation? := realPower },
  one "abs" Float.abs,
  one "floor" Double.floor,
  one "ceil" Double.ceil,
  one "round" Double.round,
  one "trunc" Double.trunc,
  { two "fmod" Double.remainder with violation? := nonZeroDivisor },
  { two "remainder" Double.nearestRemainder with violation? := nonZeroDivisor },
  many "max" (-Double.infinity) Double.larger,
  many "min" Double.infinity Double.smaller,
  two "hypot" Double.hypotenuse]

/-- The circle constant and the base of natural logarithms, each by two names. -/
def constants : List (String × Float) :=
  let circle := 3.141592653589793
  let growth := 2.718281828459045
  [("PI", circle), ("pi", circle), ("E", growth), ("e", growth)]

def addFunctions (context : Context) : Context :=
  functions.foldl Context.addFunction context

def addConstants (context : Context) : Context :=
  constants.foldl (fun context constant => context.addConstant constant.1 constant.2) context

end Calculator.Builtin
