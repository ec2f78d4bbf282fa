import Calculator.Text.Blank
import Calculator.Text.Letter
import Calculator.Text.Numeral
import Calculator.Token.Value

/-!
# Reading tokens

`Token.scan` splits a text into lexemes and skips the blanks between them. A lexeme is as long as it can
be; a character that begins none becomes a token of its own.
-/

namespace Calculator

def operatorCharacters : List Char := ['+', '-', '*', '/', '^', '%', '&', '|', '~', '<', '>']

/-- A token without its place: the kind, the base of a number, and the characters. -/
structure Lexeme where
  kind : Token.Kind
  base : NumberBase := .decimal
  text : List Char

namespace Lexeme

def readMarked (start : Nat) (base : NumberBase) (mark digits : List Char) : Except Failure (List Char) :=
  let digits := digits.takeWhile base.isDigit
  if digits.isEmpty then failAt start (.markWithoutDigits (String.ofList mark)) else .ok (mark ++ digits)

/-- Reads a point and digits, if there is a point. A second point may not follow. -/
def readFraction (start : Nat) (whole : List Char) : List Char → Except Failure (List Char)
  | '.' :: rest =>
    let digits := rest.takeWhile Char.isDigit
    if digits.isEmpty then failAt start .pointWithoutDigits
    else if (rest.drop digits.length).head? = some '.' then
      failAt (start + whole.length + 1 + digits.length) .secondPoint
    else .ok ('.' :: digits)
  | _ => .ok []

/-- Reads an exponent: a mark, an optional sign and digits. -/
def readExponent (start : Nat) : List Char → Except Failure (List Char)
  | [] => .ok []
  | mark :: rest =>
    if mark = 'e' ∨ mark = 'E' then
      let sign := (rest.take 1).filter fun c => c = '+' ∨ c = '-'
      let digits := (rest.drop sign.length).takeWhile Char.isDigit
      if digits.isEmpty then failAt start .exponentWithoutDigits else .ok (mark :: sign ++ digits)
    else .ok []

def readDecimal (start : Nat) (text : List Char) : Except Failure (List Char) := do
  let whole := text.takeWhile Char.isDigit
  let fraction ← readFraction start whole (text.drop whole.length)
  let number := whole ++ fraction
  let exponent ← readExponent (start + number.length) (text.drop number.length)
  return number ++ exponent

/-- Reads a number, which has a base mark if it begins with a zero and the character of a mark. -/
def readNumber (start : Nat) (text : List Char) : Except Failure Lexeme :=
  let marked := match text with
    | '0' :: c :: rest => (NumberBase.ofMark? c).map fun base => (base, ['0', c], rest)
    | _ => none
  match marked with
  | some (base, mark, rest) =>
    (readMarked start base mark rest).map fun text => { kind := .number, base, text }
  | none => (readDecimal start text).map fun text => { kind := .number, text }

/-- Whether `c` can stand in an identifier after its first letter. -/
def continuesIdentifier (c : Char) : Bool :=
  Text.isLetter c || Text.isNumeral c || c = '_'

/-- The kind of a character that is a token by itself. -/
def kindOfSingle (c : Char) : Token.Kind :=
  if c = '(' then .opening
  else if c = ')' then .closing
  else if c = ',' then .comma
  else .unknown

/-- Reads the lexeme that begins with `c`, at byte `start`. Its text begins with `c`. -/
def read (start : Nat) (c : Char) (rest : List Char) : Except Failure Lexeme :=
  if c.isDigit || (c = '.' && rest.head?.any Char.isDigit) then readNumber start (c :: rest)
  else if Text.isLetter c then
    .ok { kind := .identifier, text := c :: rest.takeWhile continuesIdentifier }
  else if operatorCharacters.contains c then
    let doubled := (c = '<' || c = '>') && rest.head? = some c
    .ok { kind := .operator, text := if doubled then [c, c] else [c] }
  else .ok { kind := kindOfSingle c, text := [c] }

def toToken (lexeme : Lexeme) (position : Nat) : Token where
  kind := lexeme.kind
  text := String.ofList lexeme.text
  position := position
  base := lexeme.base

end Lexeme

namespace Token

/-- Reads the tokens of a text that begins at byte `position`, with `before` already read, last first. -/
def scanFrom (position : Nat) (before : List Token) : List Char → Except Failure (List Token)
  | [] => .ok (stop position :: before).reverse
  | c :: rest =>
    if Text.isBlank c then scanFrom (position + c.utf8Size) before rest
    else
      match Lexeme.read position c rest with
      | .error failure => .error failure
      | .ok lexeme =>
        scanFrom (position + utf8Length lexeme.text) (lexeme.toToken position :: before)
          (rest.drop (lexeme.text.length - 1))
termination_by text => text.length
decreasing_by all_goals simp only [List.length_cons, List.length_drop]; omega

/-- The tokens of `text`, ended by a stop token at its length in bytes. -/
def scan (text : String) : Except Failure (List Token) :=
  scanFrom 0 [] text.toList

end Token

end Calculator
