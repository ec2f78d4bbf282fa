import Calculator.Digit

/-!
# Number bases

The four bases that literals are written in and results are shown in.
-/

namespace Calculator

/-- A base of literals and results. -/
inductive NumberBase where
  | decimal
  | binary
  | octal
  | hexadecimal
deriving DecidableEq

namespace NumberBase

def radix : NumberBase → Nat
  | decimal => 10
  | binary => 2
  | octal => 8
  | hexadecimal => 16

/-- What is written in front of the digits. Decimal numbers have no mark. -/
def mark : NumberBase → String
  | decimal => ""
  | binary => "0b"
  | octal => "0o"
  | hexadecimal => "0x"

def name : NumberBase → String
  | decimal => "DECIMAL"
  | binary => "BINARY"
  | octal => "OCTAL"
  | hexadecimal => "HEX"

def ofRadix? : Nat → Option NumberBase
  | 2 => some binary
  | 8 => some octal
  | 10 => some decimal
  | 16 => some hexadecimal
  | _ => none

/-- The base that a character after a leading zero selects. -/
def ofMark? (c : Char) : Option NumberBase :=
  if c = 'b' ∨ c = 'B' then some binary
  else if c = 'o' ∨ c = 'O' then some octal
  else if c = 'x' ∨ c = 'X' then some hexadecimal
  else none

def isDigit (base : NumberBase) (c : Char) : Bool :=
  (Digit.value? base.radix c).isSome

end NumberBase

end Calculator
