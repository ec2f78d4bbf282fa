import Calculator.Decimal.Text
import Calculator.Double.Arithmetic

/-!
# Showing values

A value is rounded to a number of decimal places and written without zeros at the end of the fraction.
What is left after the point is ignored if it is smaller than a tenth of the last place.
-/

namespace Calculator.Display

def maxScale : Nat := 0x7FFFFFFE

/-- The power of ten by which a value is scaled to have `places` decimal places in front of the point. -/
def scaleExponent (places : Nat) : Nat :=
  min places maxScale

/-- The value rounded to `places` decimal places, a half away from zero, unless scaling it overflows. -/
def roundPlaces (places : Nat) (value : Float) : Float :=
  let factor := Double.powerOfTen (scaleExponent places)
  let scaled := value * factor
  if scaled.isFinite then Double.round scaled / factor else value

def showsInteger (places : Nat) (value : Float) : Bool :=
  (value - Double.floor value).abs < Double.powerOfTen (-(scaleExponent places + 1))

def dropEnd (c : Char) (text : List Char) : List Char :=
  (text.reverse.dropWhile (· = c)).reverse

/-- Text in which a negative zero has lost its sign. -/
def unsignedZero (text : String) : String :=
  if text = "-0" then "0" else text

def formatValue (value : Float) (places : Nat) : String :=
  if !value.isFinite then Decimal.plain value
  else
    let rounded := roundPlaces places value
    if showsInteger places rounded then unsignedZero (Decimal.fixed 0 rounded)
    else
      unsignedZero (String.ofList (dropEnd '.' (dropEnd '0' (Decimal.fixed places rounded).toList)))

end Calculator.Display
