/-!
# Decimal grids

Placing `m * 2 ^ e` among the multiples of a power of ten, in exact arithmetic on natural numbers.
-/

namespace Calculator.Decimal

def tenTo (n : Nat) : Nat :=
  Nat.pow 10 n

/-- Numerator and denominator of `2 ^ e / 10 ^ p`. -/
def ratio (e p : Int) : Nat × Nat :=
  (tenTo (-p).toNat <<< e.toNat, tenTo p.toNat <<< (-e).toNat)

/-- The quotient of natural numbers rounded to the nearest one, a half to the even one. -/
def roundDiv (n d : Nat) : Nat :=
  let down := n / d
  match compare (2 * (n % d)) d with
  | .lt => down
  | .gt => down + 1
  | .eq => down + down % 2

/-- Whether `10 ^ p ≤ m * 2 ^ e`. -/
def reaches (m : Nat) (e p : Int) : Bool :=
  let (a, b) := ratio e p
  b ≤ m * a

/-- The place of the leading digit: the `p` with `10 ^ p ≤ m * 2 ^ e < 10 ^ (p + 1)`. The binary
logarithm gives it up to one. -/
def leadingPlace (m : Nat) (e : Int) : Int :=
  let guess := (m.log2 + e) * 30103 / 100000
  if !reaches m e guess then guess - 1
  else if reaches m e (guess + 1) then guess + 1
  else guess

/-- The multiple of `10 ^ p` nearest to `m * 2 ^ e`, counted in units of `10 ^ p`. -/
def nearestPoint (m : Nat) (e p : Int) : Nat :=
  let (a, b) := ratio e p
  roundDiv (m * a) b

end Calculator.Decimal
