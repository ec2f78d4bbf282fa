import Calculator.Text.Ranges

/-!
# Blanks

The characters with the Unicode property White_Space, which separate tokens and are otherwise ignored.
-/

namespace Calculator.Text

/-- The code points of white space, as ascending closed ranges. -/
def blankRanges : Array (Nat × Nat) := #[
  (0x9, 0xD), (0x20, 0x20), (0x85, 0x85), (0xA0, 0xA0), (0x1680, 0x1680), (0x2000, 0x200A),
  (0x2028, 0x2029), (0x202F, 0x202F), (0x205F, 0x205F), (0x3000, 0x3000)]

def isBlank (c : Char) : Bool :=
  inRanges blankRanges c

end Calculator.Text
