import Calculator.Expr.Printer

/-!
# The text of expressions

`Expr.text` writes a chain along its spine. `Expr.rendering` is the same text by recursion on the expression, where
each operation stands between its own parentheses.
-/

namespace Calculator.Expr

mutual

/-- The characters of the infix text. -/
def rendering : Expr → List Char
  | literal value => (Decimal.plain value).toList
  | binary operator _ left right =>
    '(' :: (rendering left ++ ' ' :: (operator.symbol.toList ++ ' ' :: (rendering right ++ [')'])))
  | unary operator _ operand => '(' :: (operator.symbol.toList ++ (rendering operand ++ [')']))
  | call name _ arguments => name.toList ++ '(' :: (renderingAll arguments ++ [')'])

/-- The texts of the arguments, separated by commas. -/
def renderingAll : List Expr → List Char
  | [] => []
  | [e] => rendering e
  | e :: rest => rendering e ++ ',' :: ' ' :: renderingAll rest

end

/-! ### The text of a chain -/

/-- What a step writes behind the chain on its left. -/
def Step.rendering (step : Step) : List Char :=
  ' ' :: (step.operator.symbol.toList ++ ' ' :: (step.operand.rendering ++ [')']))

theorem rendering_onto (e : Expr) (step : Step) :
    (Step.onto e step).rendering = '(' :: (e.rendering ++ step.rendering) := rfl

theorem rendering_foldl (steps : List Step) (e : Expr) : (steps.foldl Step.onto e).rendering =
    List.replicate steps.length '(' ++ e.rendering ++ steps.flatMap Step.rendering := by
  induction steps generalizing e with
  | nil => simp
  | cons step steps ih =>
    -- The parenthesis of the first step is the innermost one.
    rw [List.foldl_cons, ih, rendering_onto, List.length_cons, List.replicate_succ', List.flatMap_cons]
    simp only [List.append_assoc, List.cons_append, List.nil_append]

theorem rendering_eq_spine (e : Expr) : e.rendering =
    List.replicate e.spine.2.length '(' ++ e.spine.1.rendering ++ e.spine.2.flatMap Step.rendering := by
  rw [← rendering_foldl, foldl_spine]

theorem renderingAll_eq_intercalate (arguments : List Expr) :
    renderingAll arguments = [',', ' '].intercalate (arguments.map rendering) := by
  induction arguments with
  | nil => rfl
  | cons e rest ih =>
    cases rest with
    | nil => simp [renderingAll]
    | cons next rest =>
      rw [List.map_cons, List.map_cons, List.intercalate_cons_cons, ← List.map_cons, ← ih, List.append_assoc]
      rfl

/-! ### The text -/

/-- Writes a step of a chain behind the others. -/
def Step.write (written : String) (step : Step) : String :=
  s!"{written} {step.operator.symbol} {step.operand.text})"

theorem text_binary (operator : BinaryOperator) (token : Token) (left right : Expr) :
    let chain := (binary operator token left right).spine
    (binary operator token left right).text =
      chain.2.foldl Step.write (String.ofList (List.replicate chain.2.length '(') ++ chain.1.text) := by
  rw [text]
  exact List.foldl_attach (f := Step.write)

theorem text_call (name : String) (position : Nat) (arguments : List Expr) :
    (call name position arguments).text = name ++ "(" ++ ", ".intercalate (arguments.map text) ++ ")" := by
  rw [text, List.attach_map_val]

theorem toList_foldl_write {steps : List Step}
    (operands : ∀ step ∈ steps, step.operand.text.toList = step.operand.rendering)
    (written : String) : (steps.foldl Step.write written).toList = written.toList ++ steps.flatMap Step.rendering := by
  induction steps generalizing written with
  | nil => simp
  | cons step steps ih =>
    obtain ⟨first, others⟩ := List.forall_mem_cons.mp operands
    rw [List.foldl_cons, ih others, List.flatMap_cons, ← List.append_assoc]
    simp [Step.write, Step.rendering, first, toString]

theorem toList_text : ∀ e : Expr, e.text.toList = e.rendering
  | literal value => by rw [text, rendering]
  | binary operator token left right => by
    have leftmost := toList_text (binary operator token left right).spine.1
    have operands : ∀ step ∈ (binary operator token left right).spine.2, step.operand.text.toList =
        step.operand.rendering :=
      fun step _ => toList_text step.operand
    rw [text_binary, toList_foldl_write operands, String.toList_append, String.toList_ofList, leftmost]
    exact (rendering_eq_spine _).symm
  | unary operator token operand => by
    have inner := toList_text operand
    simp [text, rendering, inner, toString]
  | call name position arguments => by
    have each : arguments.map (String.toList ∘ text) = arguments.map rendering :=
      List.map_congr_left fun e _ => toList_text e
    rw [text_call, rendering, renderingAll_eq_intercalate, ← each]
    simp
termination_by e => e.size
decreasing_by
  · exact size_leftmost_lt operator token left right
  · rename_i member
    exact size_lt_of_mem_spine member
  · exact Nat.lt_succ_self _
  · rename_i member
    exact Nat.lt_succ_of_le (size_le_of_mem member)

/-! ### Without places -/

/-- A token that says nothing. -/
def blank : Token := .stop 0

mutual

/-- The expression without the texts and places of its tokens. -/
def bare : Expr → Expr
  | literal value => literal value
  | binary operator _ left right => binary operator blank (bare left) (bare right)
  | unary operator _ operand => unary operator blank (bare operand)
  | call name _ arguments => call name 0 (bareAll arguments)

def bareAll : List Expr → List Expr
  | [] => []
  | e :: rest => bare e :: bareAll rest

end

end Calculator.Expr
