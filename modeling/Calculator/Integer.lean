import Calculator.Failure

/-!
# Integers in a base

Signed 64-bit integers written in and read from the radices 2 to 36.
-/

namespace Calculator

def NumberBase.ofRadix (radix : Nat) : Except Failure NumberBase :=
  match NumberBase.ofRadix? radix with
  | some base => .ok base
  | none => failAt 0 (.unsupportedRadix radix)

namespace Integer

def checkRadix (radix : Nat) : Except Failure Unit :=
  if 2 ≤ radix ∧ radix ≤ 36 then .ok () else failAt 0 (.radixOutOfRange radix)

def signOf (value : Int64) : String :=
  if value < 0 then "-" else ""

def magnitudeText (radix : Nat) (value : Int64) : String :=
  String.ofList (Digit.write radix value.toInt.natAbs)

/-- `value` in `radix`, in upper case, with a minus sign if it is negative. -/
def write (value : Int64) (radix : Nat) : Except Failure String := do
  checkRadix radix
  return signOf value ++ magnitudeText radix value

/-- `value` in `base`, with the mark of the base between sign and digits. -/
def display (value : Int64) (base : NumberBase) : String :=
  signOf value ++ base.mark ++ magnitudeText base.radix value

def splitMinus : List Char → Bool × List Char
  | '-' :: digits => (true, digits)
  | digits => (false, digits)

/-- The number that `digits` denote after a beginning that denotes `magnitude`. It has to fit
in 64 bits at each digit; `text` is the whole numeral, for the message. -/
def readMagnitude (radix : Nat) (text : String) (magnitude : Nat) : List Char → Except Failure Nat
  | [] => .ok magnitude
  | c :: digits =>
    match Digit.value? radix c with
    | none => failAt 0 (.foreignDigit radix c)
    | some d =>
      let magnitude := magnitude * radix + d
      if magnitude < UInt64.size then readMagnitude radix text magnitude digits
      else failAt 0 (.tooWide text)

/-- The largest magnitude of a value with or without a minus sign. -/
def limit (negative : Bool) : Nat :=
  if negative then UInt64.size / 2 else UInt64.size / 2 - 1

/-- Reads an integer in `radix`, with a minus sign in front if it is negative. -/
def read (text : String) (radix : Nat) : Except Failure Int64 := do
  checkRadix radix
  let (negative, digits) := splitMinus text.toList
  if digits.isEmpty then failAt 0 .noDigits
  let magnitude ← readMagnitude radix text 0 digits
  if limit negative < magnitude then failAt 0 (.tooWide text)
  return Int64.ofInt (if negative then -magnitude else magnitude)

/-- Whether `text` is a numeral in `base`, however large. -/
def isNumeral (text : String) (base : NumberBase) : Bool :=
  let digits := (splitMinus text.toList).2
  !digits.isEmpty && digits.all base.isDigit

end Integer

end Calculator
