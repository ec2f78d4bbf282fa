import Calculator.Failure

/-!
# Outcomes

The outcome of an evaluation is a value or a failure, never both. The accessors of one have no answer for
the other: asking for it is a `Misuse`.
-/

namespace Calculator

/-- A value, or why there is none. -/
abbrev Outcome := Except Failure Float

namespace Outcome

def text : Outcome → String
  | .ok value => Decimal.plain value
  | .error failure => failure.text

def isSuccess (outcome : Outcome) : Bool :=
  outcome.isOk

end Outcome

/-- An accessor that was asked of the wrong kind of outcome. -/
structure Misuse where
  accessor : String
  outcome : Outcome

def Misuse.message (misuse : Misuse) : String :=
  let kind := if misuse.outcome.isSuccess then "a successful result" else "an error result"
  s!"{misuse.accessor}() called on {kind}: {misuse.outcome.text}"

namespace Outcome

def value (outcome : Outcome) : Except Misuse Float :=
  match outcome with
  | .ok value => .ok value
  | .error _ => .error ⟨"value", outcome⟩

/-- The failure, for the accessor with the given name. -/
def failureFor (accessor : String) (outcome : Outcome) : Except Misuse Failure :=
  match outcome with
  | .error failure => .ok failure
  | .ok _ => .error ⟨accessor, outcome⟩

def category (outcome : Outcome) : Except Misuse Category :=
  (outcome.failureFor "error_code").map Failure.category

def message (outcome : Outcome) : Except Misuse String :=
  (outcome.failureFor "error_message").map Failure.message

def position (outcome : Outcome) : Except Misuse Nat :=
  (outcome.failureFor "error_position").map Failure.position

end Outcome

end Calculator
