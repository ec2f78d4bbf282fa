import Calculator.Operator.Table

/-!
# Extensions of tables

A table extends another one if it keeps all of its meanings. Giving a meaning to a symbol that has none, and enabling
unary operators, lead to extensions.
-/

namespace Calculator.OperatorTable

/-- Every meaning of a symbol in `small` is its meaning in `large`. Disabled unary meanings do not count. -/
structure Extends (large small : OperatorTable) : Prop where
  binary : ∀ symbol operator, small.binary? symbol = some operator → large.binary? symbol = some operator
  unary : ∀ symbol operator, small.unary? symbol = some operator → large.unary? symbol = some operator

variable {small middle large table : OperatorTable}

theorem Extends.refl (table : OperatorTable) : table.Extends table := ⟨fun _ _ => id, fun _ _ => id⟩

theorem Extends.trans (h : large.Extends middle) (h' : middle.Extends small) : large.Extends small :=
  ⟨fun symbol operator means => h.binary symbol operator (h'.binary symbol operator means),
    fun symbol operator means => h.unary symbol operator (h'.unary symbol operator means)⟩

theorem extends_setBinary {symbol : String} {operator : BinaryOperator} (free : table.binary? symbol = none) :
    (table.setBinary symbol operator).Extends table := by
  refine ⟨fun other meaning means => ?_, fun _ _ => id⟩
  have different : other ≠ symbol := by
    rintro rfl
    rw [free] at means
    cases means
  exact (if_neg different).trans means

theorem extends_setUnary {symbol : String} {operator : UnaryOperator} (free : table.unary? symbol = none) :
    (table.setUnary symbol operator).Extends table := by
  refine ⟨fun _ _ => id, fun other meaning means => ?_⟩
  have different : other ≠ symbol := by
    rintro rfl
    rw [free] at means
    cases means
  have same : (table.setUnary symbol operator).unary? other = table.unary? other := by
    simp only [unary?, setUnary, if_neg different]
  exact same.trans means

theorem extends_enableUnary : (table.enableUnary true).Extends table := by
  refine ⟨fun _ _ => id, fun symbol operator means => ?_⟩
  cases enabled : table.unaryEnabled with
  | true => simpa [unary?, enableUnary, enabled] using means
  | false => simp [unary?, enabled] at means

/-! ### Changes -/

/-- The change gives a meaning to a symbol that has none, or enables unary operators. -/
def Change.Adds (table : OperatorTable) : Change → Prop
  | .binary symbol _ => table.binary? symbol = none
  | .unary symbol _ => table.unary? symbol = none
  | .remove _ => False
  | .enableUnary enabled => enabled = true

/-- Each of the changes adds to what those before it have made of the table. -/
def AddAll : OperatorTable → List Change → Prop
  | _, [] => True
  | table, change :: rest => change.Adds table ∧ AddAll (table.apply change) rest

theorem extends_apply {change : Change} (adds : change.Adds table) : (table.apply change).Extends table := by
  cases change with
  | binary => exact extends_setBinary adds
  | unary => exact extends_setUnary adds
  | remove => exact adds.elim
  | enableUnary enabled =>
    obtain rfl : enabled = true := adds
    exact extends_enableUnary

theorem extends_foldl {changes : List Change} (add : AddAll table changes) :
    (changes.foldl OperatorTable.apply table).Extends table := by
  induction changes generalizing table with
  | nil => exact .refl table
  | cons change rest ih => exact (ih add.2).trans (extends_apply add.1)

end Calculator.OperatorTable
