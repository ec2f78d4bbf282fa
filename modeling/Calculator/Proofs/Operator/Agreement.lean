import Calculator.Operator.Table

/-!
# Tables that agree

Two tables agree on symbols that mean the same in both. The tables of arithmetic and of bitwise operators agree on all
symbols but those of the bitwise operators.
-/

namespace Calculator.OperatorTable

/-- Symbols with the property have the same meanings in both tables. -/
structure AgreeOn (p : String → Prop) (table other : OperatorTable) : Prop where
  binary : ∀ symbol, p symbol → table.binary? symbol = other.binary? symbol
  unaryMeaning : ∀ symbol, p symbol → table.unaryMeaning? symbol = other.unaryMeaning? symbol
  enabled : table.unaryEnabled = other.unaryEnabled

variable {p : String → Prop} {table other : OperatorTable} {symbol : String}

theorem AgreeOn.unary (h : AgreeOn p table other) (shared : p symbol) : table.unary? symbol = other.unary? symbol := by
  rw [unary?, unary?, h.unaryMeaning symbol shared, h.enabled]

theorem AgreeOn.knows (h : AgreeOn p table other) (shared : p symbol) : table.knows symbol = other.knows symbol := by
  rw [OperatorTable.knows, OperatorTable.knows, h.binary symbol shared, h.unaryMeaning symbol shared]

/-- Symbols that mean something else or nothing without the bitwise operators. -/
def bitwiseSymbols : List String := ["&", "|", "^", "<<", ">>", "~"]

theorem agreeOn_bitwise : AgreeOn (· ∉ bitwiseSymbols) arithmetic bitwise := by
  refine ⟨fun symbol other => ?_, fun symbol other => ?_, rfl⟩
  all_goals simp only [bitwiseSymbols, List.mem_cons, List.not_mem_nil, or_false, not_or] at other
  · simp [bitwise, withUsual, setBinary, setUnary, BinaryOperator.symbol, other]
  · simp [bitwise, withUsual, setBinary, setUnary, UnaryOperator.symbol, other]

end Calculator.OperatorTable
