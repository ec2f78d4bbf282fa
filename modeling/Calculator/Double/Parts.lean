/-!
# Doubles as exact numbers

A finite double is `± m * 2 ^ e`. `parts` takes a double apart, `nearest` rounds such a number to the
nearest double, ties to the even significand; `ofInt` and `ofDecimal` do so for integers and for
`m * 10 ^ e`.
-/

namespace Calculator.Double

open Float.Model (UnpackedFloat Format)
open Float.Model.UnpackedFloat (Sign)

/-- The sign, significand and exponent of a double, or the special value that it is. -/
def parts (x : Float) : UnpackedFloat :=
  x.toModel.unpack

/-- The double with the given parts, which must be those of a double. -/
def ofParts (parts : UnpackedFloat) : Float :=
  .ofModel (.pack parts)

/-- The double nearest to `± m * 2 ^ e`; a zero keeps the sign. -/
def nearest (sign : Sign) (m : Nat) (e : Int) : Float :=
  ofParts (UnpackedFloat.round Format.binary64 sign m e)

def ofInt (n : Int) : Float :=
  .ofModel (.ofInt n)

def ofDecimal (m : Nat) (e : Int) : Float :=
  .ofModel (.ofScientific m e)

def nan : Float := ofParts .notANumber

def infinity : Float := ofParts (.infinity .positive)

end Calculator.Double
