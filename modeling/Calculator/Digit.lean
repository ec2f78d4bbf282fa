/-!
# Digits

The digits of the radices from 2 to 36: `0` to `9`, then the letters in order. Letters are read in either
case and written in upper case.
-/

namespace Calculator.Digit

/-- The value of a digit or letter, whatever the radix. -/
def ordinal? (c : Char) : Option Nat :=
  if c.isDigit then some (c.toNat - '0'.toNat)
  else if c.isUpper then some (c.toNat - 'A'.toNat + 10)
  else if c.isLower then some (c.toNat - 'a'.toNat + 10)
  else none

/-- The value of `c` as a digit in `radix`. -/
def value? (radix : Nat) (c : Char) : Option Nat :=
  (ordinal? c).filter (· < radix)

def ofValue (d : Nat) : Char :=
  Char.ofNat (if d < 10 then '0'.toNat + d else 'A'.toNat + (d - 10))

/-- Puts the digits of `n` in `radix` in front of `tail`. -/
def writeOnto (radix : Nat) (tail : List Char) (n : Nat) : List Char :=
  if radix < 2 ∨ n < radix then ofValue n :: tail
  else writeOnto radix (ofValue (n % radix) :: tail) (n / radix)
termination_by n
decreasing_by exact Nat.div_lt_self (by omega) (by omega)

/-- The digits of `n` in a radix of at least 2, most significant first. -/
def write (radix n : Nat) : List Char :=
  writeOnto radix [] n

end Calculator.Digit
