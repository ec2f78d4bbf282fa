import Calculator.Double.Parts

/-!
# Whole parts

Rounding to an integer in the four usual ways. Infinities and undefined values stay as they are, and a
result of zero keeps the sign of the argument.
-/

namespace Calculator.Double

open Float.Model.UnpackedFloat (Sign)

/-- Rounds `± m / d` to the integer that `choose` picks for its magnitude. -/
def wholeBy (choose : Sign → Nat → Nat → Nat) (x : Float) : Float :=
  match parts x with
  | .finite sign m e _ => if 0 ≤ e then x else nearest sign (choose sign m (1 <<< (-e).toNat)) 0
  | _ => x

def quotientDown (m d : Nat) : Nat := m / d

def quotientUp (m d : Nat) : Nat := (m + d - 1) / d

def trunc : Float → Float :=
  wholeBy fun _ => quotientDown

def floor : Float → Float :=
  wholeBy fun
    | .positive => quotientDown
    | .negative => quotientUp

def ceil : Float → Float :=
  wholeBy fun
    | .positive => quotientUp
    | .negative => quotientDown

/-- Rounds to the nearest integer, a half away from zero. -/
def round : Float → Float :=
  wholeBy fun _ m d => (2 * m + d) / (2 * d)

/-- What `trunc` cuts off. An infinity has no fraction: the result is undefined. -/
def fract (x : Float) : Float :=
  x - trunc x

/-- Whether `fract x` differs from zero, which it also does where it is undefined. -/
def hasFraction (x : Float) : Bool :=
  fract x != 0.0

/-- One with the sign of `x`, or undefined. -/
def signum (x : Float) : Float :=
  match parts x with
  | .notANumber => nan
  | .infinity sign | .zero sign | .finite sign _ _ _ => nearest sign 1 0

/-- The integer part as a signed 64-bit integer, if it fits. -/
def toInt64? (x : Float) : Option Int64 :=
  match parts x with
  | .zero _ => some 0
  | .finite sign m e _ =>
    let magnitude := if 0 ≤ e then m <<< e.toNat else m >>> (-e).toNat
    let value := sign.apply magnitude
    if Int64.minValue.toInt ≤ value ∧ value ≤ Int64.maxValue.toInt then some (Int64.ofInt value)
    else none
  | _ => none

end Calculator.Double
