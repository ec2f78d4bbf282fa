/-!
# Arities

How many arguments a function takes.
-/

namespace Calculator

/-- The number of arguments that a function accepts. -/
inductive Arity where
  | exactly (count : Nat)
  | atLeast (count : Nat)
deriving DecidableEq

namespace Arity

def accepts : Arity → Nat → Bool
  | exactly expected, count => count == expected
  | atLeast least, count => least ≤ count

def text : Arity → String
  | exactly count => s!"exactly {arguments count}"
  | atLeast count => s!"at least {arguments count}"
where
  arguments (count : Nat) : String :=
    if count = 1 then s!"{count} argument" else s!"{count} arguments"

end Arity

end Calculator
