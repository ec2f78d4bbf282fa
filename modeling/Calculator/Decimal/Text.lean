import Calculator.Double.Parts
import Calculator.Decimal.Shortest

/-!
# Decimal text of doubles

Two notations, neither with an exponent: `plain` writes the shortest digits that read back; `fixed` writes
a set number of places, and rounds the exact value to them, a half to the even digit.
-/

namespace Calculator.Decimal

open Float.Model.UnpackedFloat (Sign)

def digitsOf (n : Nat) : List Char :=
  Nat.toDigits 10 n

/-- Digits with the point before the last `places` of them, filled up with zeros on the left. -/
def insertPoint (digits : List Char) (places : Nat) : List Char :=
  if places = 0 then digits
  else
    let padded := List.replicate (places + 1 - digits.length) '0' ++ digits
    let whole := padded.length - places
    padded.take whole ++ '.' :: padded.drop whole

/-- A scaled number in positional notation, without zeros at the end of a fraction. -/
def Scaled.plain (s : Scaled) : List Char :=
  if 0 ≤ s.place then digitsOf s.digits ++ List.replicate s.place.toNat '0'
  else
    let digits := digitsOf s.digits
    let zeros := min (digits.reverse.takeWhile (· = '0')).length (-s.place).toNat
    insertPoint (digits.take (digits.length - zeros)) ((-s.place).toNat - zeros)

def signed : Sign → List Char → String
  | .negative, text => String.ofList ('-' :: text)
  | .positive, text => String.ofList text

/-- A double written with `zero` for a zero and `finite` for the magnitude of another finite value. -/
def textBy (zero : List Char) (finite : Nat → Int → List Char) (x : Float) : String :=
  match Double.parts x with
  | .notANumber => "NaN"
  | .infinity sign => signed sign ['i', 'n', 'f']
  | .zero sign => signed sign zero
  | .finite sign m e _ => signed sign (finite m e)

/-- The fewest digits that read back as `x`, in positional notation. -/
def plain (x : Float) : String :=
  textBy ['0'] (fun m e => (shortest m e).plain) x

/-- Exactly `places` digits after the point, and no point if there are none. -/
def fixed (places : Nat) (x : Float) : String :=
  textBy (insertPoint ['0'] places)
    (fun m e => insertPoint (digitsOf (nearestPoint m e (-places))) places) x

end Calculator.Decimal
