import Calculator.Token.Basic
import Calculator.Operator.Basic

/-!
# Expressions

The tree of an expression, its size and height, and the chain of its left operands. Such chains can be
very long, as in a sum of many terms, so everything here that walks a tree keeps the subtrees still to
be visited in a list.
-/

namespace Calculator

/-- An expression. A constant is a call without arguments. -/
inductive Expr where
  | literal (value : Float)
  | binary (operator : BinaryOperator) (token : Token) (left right : Expr)
  | unary (operator : UnaryOperator) (token : Token) (operand : Expr)
  | call (name : String) (position : Nat) (arguments : List Expr)

namespace Expr

def operands : Expr → List Expr
  | literal _ => []
  | binary _ _ left right => [left, right]
  | unary _ _ operand => [operand]
  | call _ _ arguments => arguments

/-- The byte offset that the root comes from, 0 for a literal. -/
def position : Expr → Nat
  | literal _ => 0
  | binary _ token _ _ | unary _ token _ => token.position
  | call _ position _ => position

def isLiteral (value : Float) : Expr → Bool
  | literal x => x == value
  | _ => false

def binaryOperator? : Expr → Option BinaryOperator
  | binary operator _ _ _ => some operator
  | _ => none

/-! ### Size and height -/

mutual

def size : Expr → Nat
  | literal _ => 1
  | binary _ _ left right => size left + size right + 1
  | unary _ _ operand => size operand + 1
  | call _ _ arguments => sizeAll arguments + 1

def sizeAll : List Expr → Nat
  | [] => 0
  | e :: rest => size e + sizeAll rest

end

mutual

/-- The number of nodes on the longest path from the root. -/
def height : Expr → Nat
  | literal _ => 1
  | binary _ _ left right => max (height left) (height right) + 1
  | unary _ _ operand => height operand + 1
  | call _ _ arguments => heightAll arguments + 1

def heightAll : List Expr → Nat
  | [] => 0
  | e :: rest => max (height e) (heightAll rest)

end

theorem size_le_of_mem {e : Expr} {arguments : List Expr} (member : e ∈ arguments) :
    e.size ≤ sizeAll arguments := by
  induction member with
  | head rest => exact Nat.le_add_right ..
  | tail other _ ih => exact Nat.le_trans ih (Nat.le_add_left ..)

theorem size_eq (e : Expr) : e.size = sizeAll e.operands + 1 := by
  cases e <;> simp [size, sizeAll, operands]

theorem sizeAll_append (xs ys : List Expr) : sizeAll (xs ++ ys) = sizeAll xs + sizeAll ys := by
  induction xs with
  | nil => simp [sizeAll]
  | cons x xs ih => simp [sizeAll, ih, Nat.add_assoc]

/-- Counts the nodes of the pending subtrees and finds the deepest, each subtree coming with the depth of
its root. -/
def shapeFrom (nodes deepest : Nat) : List (Expr × Nat) → Nat × Nat
  | [] => (nodes, deepest)
  | (e, depth) :: pending =>
    shapeFrom (nodes + 1) (max deepest depth) (e.operands.map (·, depth + 1) ++ pending)
termination_by pending => sizeAll (pending.map Prod.fst)
decreasing_by
  simp [sizeAll_append, sizeAll, size_eq e, Function.comp_def]

def shape (e : Expr) : Nat × Nat :=
  shapeFrom 0 0 [(e, 1)]

/-! ### The chain of left operands -/

/-- One operation of a chain: the operator and its right operand. -/
structure Step where
  operator : BinaryOperator
  token : Token
  operand : Expr

def Step.onto (left : Expr) (step : Step) : Expr :=
  binary step.operator step.token left step.operand

/-- Goes down the left operands, with the `steps` above already taken off. -/
def spineFrom (steps : List Step) : Expr → Expr × List Step
  | binary operator token left right => spineFrom (⟨operator, token, right⟩ :: steps) left
  | leftmost => (leftmost, steps)

/-- The leftmost operand that is no binary operation, and the operations on it, innermost first. -/
def spine (e : Expr) : Expr × List Step :=
  spineFrom [] e

/-- Nothing is lost: the steps lead from the leftmost operand back to the expression. -/
theorem foldl_spineFrom : ∀ (e : Expr) (steps : List Step),
    (spineFrom steps e).2.foldl Step.onto (spineFrom steps e).1 = steps.foldl Step.onto e
  | binary operator token left right, steps => by
    rw [spineFrom, foldl_spineFrom left]
    rfl
  | literal _, _ | unary _ _ _, _ | call _ _ _, _ => rfl

theorem foldl_spine (e : Expr) : e.spine.2.foldl Step.onto e.spine.1 = e :=
  foldl_spineFrom e []

theorem size_spineFrom : ∀ (e : Expr) (steps : List Step), (spineFrom steps e).1.size ≤ e.size ∧
    ∀ step ∈ (spineFrom steps e).2, step ∈ steps ∨ step.operand.size < e.size
  | binary operator token left right, steps => by
    obtain ⟨first, others⟩ := size_spineFrom left (⟨operator, token, right⟩ :: steps)
    rw [size]
    refine ⟨Nat.le_trans first (by omega), fun step member => ?_⟩
    rcases others step member with member | less
    · rcases List.mem_cons.mp member with rfl | member
      · exact .inr (Nat.lt_succ_of_le (Nat.le_add_left ..))
      · exact .inl member
    · exact .inr (by omega)
  | literal _, _ | unary _ _ _, _ | call _ _ _, _ => ⟨Nat.le_refl _, fun _ => .inl⟩

theorem size_leftmost_lt (operator : BinaryOperator) (token : Token) (left right : Expr) :
    (binary operator token left right).spine.1.size < (binary operator token left right).size := by
  have first := (size_spineFrom left [⟨operator, token, right⟩]).1
  exact Nat.lt_succ_of_le (Nat.le_trans first (Nat.le_add_right ..))

theorem size_lt_of_mem_spine {e : Expr} {step : Step} (member : step ∈ e.spine.2) : step.operand.size < e.size :=
  ((size_spineFrom e []).2 step member).resolve_left List.not_mem_nil

end Expr

end Calculator
