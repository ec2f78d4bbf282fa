import Std.Data.TreeMap.Basic
import Calculator.Function
import Calculator.Operator.Table

/-!
# Contexts

What an expression is evaluated against: the functions and constants by their names, and the meanings of
operators. A context also tells how many digits of a result are shown.
-/

namespace Calculator

/-- The names and operators that an expression may use. -/
structure Context where
  functions : Std.TreeMap String Function
  constants : Std.TreeMap String Float
  table : OperatorTable
  precision : Nat

namespace Context

def ofTable (table : OperatorTable) : Context where
  functions := ∅
  constants := ∅
  table := table
  precision := 6

def function? (context : Context) (name : String) : Option Function :=
  context.functions[name]?

def constant? (context : Context) (name : String) : Option Float :=
  context.constants[name]?

/-- Adds a function under its own name, in place of an earlier one. -/
def addFunction (context : Context) (f : Function) : Context :=
  { context with functions := context.functions.insert f.name f }

def addConstant (context : Context) (name : String) (value : Float) : Context :=
  { context with constants := context.constants.insert name value }

/-- Adds the function called `name` under the name `other` too, if there is such a function. -/
def addAlias? (context : Context) (other name : String) : Option Context :=
  (context.function? name).map fun f => context.addFunction (f.renamed other)

def functionNames (context : Context) : List String :=
  context.functions.keys

def constantNames (context : Context) : List String :=
  context.constants.keys

end Context

end Calculator
