import Calculator.Operator.Table

/-!
# Tables of usual symbols
-/

namespace Calculator.OperatorTable

variable {table : OperatorTable}

/-- Every operator of the table is written with its usual symbol. -/
structure UsesSymbols (table : OperatorTable) : Prop where
  binary : ∀ symbol operator, table.binary? symbol = some operator → operator.symbol = symbol
  unary : ∀ symbol operator, table.unaryMeaning? symbol = some operator → operator.symbol = symbol

theorem usesSymbols_empty : UsesSymbols empty := ⟨nofun, nofun⟩

theorem UsesSymbols.setBinary (h : table.UsesSymbols) (operator : BinaryOperator) :
    (table.setBinary operator.symbol operator).UsesSymbols := by
  refine ⟨fun symbol other means => ?_, h.unary⟩
  simp only [OperatorTable.setBinary] at means
  by_cases same : symbol = operator.symbol
  · rw [if_pos same] at means
    cases means
    exact same.symm
  · rw [if_neg same] at means
    exact h.binary symbol other means

theorem UsesSymbols.setUnary (h : table.UsesSymbols) (operator : UnaryOperator) :
    (table.setUnary operator.symbol operator).UsesSymbols := by
  refine ⟨h.binary, fun symbol other means => ?_⟩
  simp only [OperatorTable.setUnary] at means
  by_cases same : symbol = operator.symbol
  · rw [if_pos same] at means
    cases means
    exact same.symm
  · rw [if_neg same] at means
    exact h.unary symbol other means

theorem UsesSymbols.withUsual (h : table.UsesSymbols) (binary : List BinaryOperator) (unary : List UnaryOperator) :
    (table.withUsual binary unary).UsesSymbols := by
  unfold OperatorTable.withUsual
  induction binary generalizing table with
  | cons operator binary ih => exact ih (h.setBinary operator)
  | nil =>
    induction unary generalizing table with
    | cons operator unary ih => exact ih (h.setUnary operator)
    | nil => exact h

theorem usesSymbols_arithmetic : UsesSymbols arithmetic :=
  usesSymbols_empty.withUsual _ _

theorem usesSymbols_bitwise : UsesSymbols bitwise :=
  usesSymbols_arithmetic.withUsual _ _

/-- An operator that the table knows by any symbol is known by its own. -/
theorem UsesSymbols.binary_symbol (h : table.UsesSymbols) {symbol : String} {operator : BinaryOperator}
    (means : table.binary? symbol = some operator) : table.binary? operator.symbol = some operator := by
  rw [h.binary symbol operator means]
  exact means

theorem UsesSymbols.symbol_of_unary (h : table.UsesSymbols) {symbol : String} {operator : UnaryOperator}
    (means : table.unary? symbol = some operator) : operator.symbol = symbol := by
  unfold unary? at means
  split at means
  · exact h.unary symbol operator means
  · cases means

theorem UsesSymbols.unary_symbol (h : table.UsesSymbols) {symbol : String} {operator : UnaryOperator}
    (means : table.unary? symbol = some operator) : table.unary? operator.symbol = some operator := by
  rw [h.symbol_of_unary means]
  exact means

end Calculator.OperatorTable
