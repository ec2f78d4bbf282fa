import Calculator.Failure

/-!
# Functions

What an expression can call: a name, an arity, a body on doubles, and a check of the arguments.
-/

namespace Calculator

structure Function where
  name : String
  arity : Arity
  body : List Float → Float
  /-- What is wrong with arguments outside the domain, in words that may use the name. -/
  violation? : String → List Float → Option String := fun _ _ => none

namespace Function

def renamed (f : Function) (name : String) : Function :=
  { f with name }

/-- Applies the function. A result that is undefined, or infinite for finite arguments, is a failure. -/
def call (f : Function) (arguments : List Float) (position : Nat) : Except Failure Float :=
  if !f.arity.accepts arguments.length then failAt position (.wrongArity f.name f.arity)
  else
    match f.violation? f.name arguments with
    | some violation => failAt position (.outsideDomain violation)
    | none =>
      let result := f.body arguments
      if result.isNaN then failAt position (.undefinedFor f.name arguments)
      else if result.isInf && arguments.all Float.isFinite then failAt position .overflow
      else .ok result

end Function

end Calculator
