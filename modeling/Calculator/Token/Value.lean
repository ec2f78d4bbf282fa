import Calculator.Decimal.Reading
import Calculator.Integer

/-!
# Values of number tokens

A decimal token denotes the nearest double. A token in another base holds a mark of two bytes and digits,
and denotes an integer of 64 bits.
-/

namespace Calculator

/-- The bytes that `text` takes in UTF-8. -/
def utf8Length (text : List Char) : Nat :=
  text.foldl (fun length c => length + c.utf8Size) 0

/-- What is left of `text` after its first `bytes` bytes, or nothing if they do not end at a character. -/
def dropBytes : Nat → List Char → List Char
  | 0, text => text
  | _, [] => []
  | bytes, c :: text => if bytes < c.utf8Size then [] else dropBytes (bytes - c.utf8Size) text

def Token.numericValue (token : Token) : Except Failure Float :=
  if !token.isNumber then failAt token.position (.notNumeric token.kind token.text)
  else match token.base with
    | .decimal =>
      match Decimal.read? token.text.toList with
      | some value => .ok value
      | none => failAt token.position (.unreadableNumber token.text)
    | base =>
      match Integer.read (String.ofList (dropBytes 2 token.text.toList)) base.radix with
      | .ok value => .ok (Double.ofInt value.toInt)
      | .error failure => failAt token.position (.unreadableLiteral token.text failure.cause)

end Calculator
