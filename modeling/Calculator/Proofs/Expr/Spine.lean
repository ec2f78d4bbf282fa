import Calculator.Proofs.Expr.Rendering

/-!
# The text of a chain

An expression is its leftmost operand with the steps of its spine applied one after the other, and no
other operand and steps make it up. In the infix text a parenthesis is opened for every step before the
leftmost operand is written, and each step closes one of them behind its own operand.
-/

namespace Calculator.Expr

variable {e leftmost : Expr} {steps : List Step}

/-! ### The spine -/

theorem leftmost_spineFrom : ∀ (steps : List Step) (e : Expr), (spineFrom steps e).1.binaryOperator? = none
  | steps, binary operator token left right => leftmost_spineFrom (⟨operator, token, right⟩ :: steps) left
  | _, literal _ | _, unary _ _ _ | _, call _ _ _ => rfl

theorem spineFrom_of_leftmost (h : leftmost.binaryOperator? = none) (steps : List Step) :
    spineFrom steps leftmost = (leftmost, steps) := by
  cases leftmost with
  | binary => cases h
  | _ => rfl

theorem spineFrom_foldl (steps above : List Step) (e : Expr) :
    spineFrom above (steps.foldl Step.onto e) = spineFrom (steps ++ above) e := by
  induction steps generalizing e with
  | nil => rfl
  | cons step steps ih =>
    -- The first step is applied first, so it comes off last and stands in front of the others.
    rw [List.foldl_cons, ih]
    rfl

theorem spine_eq_iff : e.spine = (leftmost, steps) ↔
    leftmost.binaryOperator? = none ∧ steps.foldl Step.onto leftmost = e := by
  constructor
  · intro h
    have off := leftmost_spineFrom [] e
    have back := e.foldl_spine
    rw [spine] at h back
    rw [h] at off back
    exact ⟨off, back⟩
  · rintro ⟨off, rfl⟩
    rw [spine, spineFrom_foldl, List.append_nil, spineFrom_of_leftmost off]

/-! ### The text -/

/-- The infix text is what recursion on the expression gives. All parentheses of the spine open before its
leftmost operand, and the spine is the only way to make up the expression from an operand that is no
binary operation and steps on it. -/
theorem text_renders_spine (e : Expr) :
    e.text.toList = e.rendering ∧
      (∀ arguments, renderingAll arguments = [',', ' '].intercalate (arguments.map rendering)) ∧
      e.rendering = List.replicate e.spine.2.length '(' ++ e.spine.1.rendering ++ e.spine.2.flatMap Step.rendering ∧
      ∀ leftmost steps, e.spine = (leftmost, steps) ↔
        leftmost.binaryOperator? = none ∧ steps.foldl Step.onto leftmost = e := by
  refine ⟨toList_text e, renderingAll_eq_intercalate, ?_, fun leftmost steps => spine_eq_iff⟩
  calc e.rendering
    _ = (e.spine.2.foldl Step.onto e.spine.1).rendering := by rw [foldl_spine]
    _ = _ := rendering_foldl e.spine.2 e.spine.1

example :
    let minus : Token := { kind := .operator, text := "-", position := 0 }
    let x := call "x" 0 []
    (binary .subtract minus (binary .subtract minus x x) (unary .negate minus x)).text = "((x() - x()) - (-x()))" := by
  cbv

end Calculator.Expr
