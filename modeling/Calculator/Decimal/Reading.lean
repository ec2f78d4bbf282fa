import Calculator.Double.Parts

/-!
# Reading decimal text

A numeral is an optional sign followed by the name of a special value, or by digits with an optional
point and an optional exponent. At least one digit stands before or after the point.
-/

namespace Calculator.Decimal

def ofDigits (digits : List Char) : Nat :=
  digits.foldl (fun n c => 10 * n + (c.toNat - '0'.toNat)) 0

def spanDigits (text : List Char) : List Char × List Char :=
  text.span Char.isDigit

def splitSign : List Char → Bool × List Char
  | '-' :: rest => (true, rest)
  | '+' :: rest => (false, rest)
  | text => (false, text)

/-- The exponent that ends a numeral: nothing, or a mark, an optional sign and digits. -/
def readExponent? : List Char → Option Int
  | [] => some 0
  | mark :: rest =>
    if mark = 'e' ∨ mark = 'E' then
      let (negative, digits) := splitSign rest
      if digits.isEmpty ∨ ¬ digits.all Char.isDigit then none
      else if negative then some (-ofDigits digits) else some (ofDigits digits)
    else none

/-- Reads digits with an optional point and exponent. -/
def readMagnitude? (text : List Char) : Option Float :=
  let (whole, rest) := spanDigits text
  let (fraction, rest) := match rest with
    | '.' :: rest => spanDigits rest
    | rest => ([], rest)
  if whole.isEmpty && fraction.isEmpty then none
  else (readExponent? rest).map fun exponent =>
    Double.ofDecimal (ofDigits (whole ++ fraction)) (exponent - fraction.length)

/-- Reads the name of a special value, in upper or lower case. -/
def readSpecial? (text : List Char) : Option Float :=
  match String.ofList (text.map Char.toLower) with
  | "inf" | "infinity" => some Double.infinity
  | "nan" => some Double.nan
  | _ => none

/-- The double nearest to the number that `text` denotes, or `none` if it is no numeral. -/
def read? (text : List Char) : Option Float :=
  let (negative, rest) := splitSign text
  let magnitude := (readSpecial? rest).orElse fun _ => readMagnitude? rest
  if negative then magnitude.map fun x => -x else magnitude

end Calculator.Decimal
