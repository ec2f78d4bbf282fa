/-!
# Ranges of code points

A character class is a table of closed ranges; `inRanges` looks a character up.
-/

namespace Calculator.Text

/-- Whether the code point of `c` lies in one of the closed ranges. -/
def inRanges (ranges : Array (Nat × Nat)) (c : Char) : Bool :=
  ranges.any fun range => range.1 ≤ c.toNat && c.toNat ≤ range.2

end Calculator.Text
