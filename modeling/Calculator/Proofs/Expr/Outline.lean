import Calculator.Expr.Outline
import Calculator.Proofs.Display
import Calculator.Proofs.Evaluation.Names
import Calculator.Proofs.Expr.Rendering
import Calculator.Proofs.Expr.Shape

/-!
# Outlines and lines

A drawing ends with a line feed. The infix text, which takes its place for expressions that are too high, has none.
-/

namespace Calculator

def EndsLine (text : String) : Prop :=
  ∃ front, text = front ++ "\n"

theorem EndsLine.append {text : String} (h : EndsLine text) (front : String) : EndsLine (front ++ text) := by
  obtain ⟨earlier, rfl⟩ := h
  exact ⟨front ++ earlier, (String.append_assoc ..).symm⟩

namespace Expr

/-! ### Line feeds -/

theorem not_feed_of_allShown {text : List Char} (h : AllShown text) : '\n' ∉ text :=
  fun member => absurd (h _ member) (by decide)

mutual

theorem not_feed_rendering : ∀ e : Expr, (∀ name ∈ e.names, '\n' ∉ name.toList) → '\n' ∉ e.rendering
  | .literal value, _ => not_feed_of_allShown (Decimal.allShown_plain value)
  | .unary operator _ operand, h => by
    have inner := not_feed_rendering operand h
    cases operator <;> simp [rendering, inner, UnaryOperator.symbol]
  | .binary operator _ left right, h => by
    obtain ⟨l, r⟩ := List.forall_mem_append.mp h
    have first := not_feed_rendering left l
    have second := not_feed_rendering right r
    cases operator <;> simp [rendering, first, second, BinaryOperator.symbol]
  | .call name _ arguments, h => by
    obtain ⟨here, inside⟩ := List.forall_mem_cons.mp h
    have list := not_feed_renderingAll arguments inside
    simp [rendering, here, list]

theorem not_feed_renderingAll :
    ∀ list : List Expr, (∀ name ∈ namesAll list, '\n' ∉ name.toList) → '\n' ∉ renderingAll list
  | [], _ => by simp [renderingAll]
  | [e], h => not_feed_rendering e (List.forall_mem_append.mp h).1
  | e :: other :: rest, h => by
    obtain ⟨l, r⟩ := List.forall_mem_append.mp h
    have first := not_feed_rendering e l
    have second := not_feed_renderingAll (other :: rest) r
    simp [renderingAll, first, second]

end

theorem not_feed_text {e : Expr} (names : ∀ name ∈ e.names, '\n' ∉ name.toList) : '\n' ∉ e.text.toList := by
  rw [toList_text]
  exact not_feed_rendering e names

theorem endsLine_outlineLine (text indent : String) (last : Bool) (e : Expr) :
    EndsLine (text ++ outlineLine indent last e) :=
  EndsLine.append ⟨_, rfl⟩ text

mutual

theorem endsLine_outlineFrom (text indent : String) (last : Bool) :
    ∀ e : Expr, EndsLine (outlineFrom text indent last e)
  | .literal _ => endsLine_outlineLine _ _ _ _
  | .binary _ _ _ right => endsLine_outlineFrom _ _ _ right
  | .unary _ _ operand => endsLine_outlineFrom _ _ _ operand
  | .call _ _ arguments => endsLine_outlineAll _ _ arguments (endsLine_outlineLine _ _ _ _)

theorem endsLine_outlineAll (text indent : String) :
    ∀ list : List Expr, EndsLine text → EndsLine (outlineAll text indent list)
  | [], h => h
  | e :: rest, _ => endsLine_outlineAll _ _ rest (endsLine_outlineFrom _ _ _ e)

end

theorem endsLine_drawing (e : Expr) : EndsLine e.drawing :=
  endsLine_outlineFrom _ _ _ e

/-! ### Outlines by any drawing -/

variable {draw : Expr → String} {e : Expr}

theorem outlineBy_of_low (low : e.height ≤ maxOutlineHeight) : e.outlineBy draw = draw e := by
  rw [outlineBy, shape_eq, if_neg (Nat.not_lt.mpr low)]

theorem outlineBy_of_high (high : maxOutlineHeight < e.height) : e.outlineBy draw = e.text := by
  rw [outlineBy, shape_eq, if_pos high]

end Expr

end Calculator
