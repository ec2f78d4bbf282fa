import Calculator.Double.Whole

/-!
# Exact remainder, hypotenuse, powers and extremes

`remainder` is exact, and `hypotenuse` is rounded once.
-/

namespace Calculator.Double

/-- `x - q * y` for the integer `q` of `x / y` rounded toward zero. It has the sign of `x`. -/
def remainder (x y : Float) : Float :=
  match parts x, parts y with
  | .finite sign m e _, .finite _ n f _ =>
    let common := min e f
    nearest sign ((m <<< (e - common).toNat) % (n <<< (f - common).toNat)) common
  | .notANumber, _ | _, .notANumber | .infinity _, _ | _, .zero _ => nan
  | .zero _, _ | .finite .., .infinity _ => x

/-- The square root of the sum of the squares. An infinite side makes it infinite, whatever the other. -/
def hypotenuse (x y : Float) : Float :=
  match parts x, parts y with
  | .infinity _, _ | _, .infinity _ => infinity
  | .notANumber, _ | _, .notANumber => nan
  | .zero _, _ => y.abs
  | _, .zero _ => x.abs
  | .finite _ m e hm, .finite _ n f _ =>
    let common := min e f
    let a := m <<< (e - common).toNat
    let b := n <<< (f - common).toNat
    have : 0 < a * a + b * b := by
      have : 0 < a := by
        simp only [a, Nat.shiftLeft_eq]
        exact Nat.mul_pos hm (Nat.two_pow_pos _)
      have := Nat.mul_pos this this
      omega
    ofParts (.sqrt .binary64 (.finite .positive (a * a + b * b) (2 * common) this))

/-- `base ^ n` by squaring: `acc` times the powers of `base` at the binary digits of `n`. -/
def powBySquaring (acc base : Float) (n : Nat) : Float :=
  let acc := if n % 2 = 1 then acc * base else acc
  if n / 2 = 0 then acc else powBySquaring acc (base * base) (n / 2)

/-- Ten to an integer power; a negative power is the reciprocal of the positive one. -/
def powerOfTen (n : Int) : Float :=
  let power := powBySquaring 1.0 10.0 n.natAbs
  if n < 0 then 1.0 / power else power

/-- The larger of two values. An undefined one gives way, and of equal ones the first is kept. -/
def larger (x y : Float) : Float :=
  if x < y || x.isNaN then y else x

/-- The smaller of two values. An undefined one gives way, and of equal ones the first is kept. -/
def smaller (x y : Float) : Float :=
  if y < x || x.isNaN then y else x

/-- `x - n * y` for the integer `n` nearest to `x / y`, a half going to the even neighbour. -/
def nearestRemainder (x y : Float) : Float :=
  let quotient := x / y
  let rounded := round quotient
  let isHalf := (quotient - trunc quotient).abs == 0.5
  let n := if isHalf && remainder rounded 2.0 != 0.0 then rounded - signum quotient else rounded
  x - n * y

end Calculator.Double
