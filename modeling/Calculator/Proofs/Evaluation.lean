import Calculator.Evaluation
import Calculator.Proofs.Failure

/-!
# Evaluation by definition

`Evaluation.plain` evaluates the operands of each operation from left to right and then applies it, without
counting levels and without taking chains apart. `evaluate` agrees with it on every expression that nests over no
more levels than are allowed, and fails on all others.
-/

namespace Calculator

namespace Expr

mutual

/-- The levels that the operations in an expression nest over. A chain of binary operations along left operands
is one level. -/
def nesting : Expr → Nat
  | literal _ => 0
  | unary _ _ operand => nesting operand + 1
  | binary _ _ left right => max (chainNesting left) (nesting right) + 1
  | call _ _ arguments => levelsAbove arguments

/-- The largest nesting of the leftmost operand and the right operands of a chain, which has no operation if
the expression is no binary one. -/
def chainNesting : Expr → Nat
  | binary _ _ left right => max (chainNesting left) (nesting right)
  | literal _ => 0
  | unary _ _ operand => nesting operand + 1
  | call _ _ arguments => levelsAbove arguments

/-- One more than the largest nesting of the arguments, 0 if there are none. -/
def levelsAbove : List Expr → Nat
  | [] => 0
  | e :: rest => max (nesting e + 1) (levelsAbove rest)

end

theorem levelsAbove_lt {arguments : List Expr} {n : Nat} :
    levelsAbove arguments < n + 1 ↔ ∀ e ∈ arguments, e.nesting < n := by
  induction arguments with
  | nil => simp [levelsAbove]
  | cons e rest ih =>
    simp only [levelsAbove, Nat.max_lt, Nat.add_lt_add_iff_right, ih, List.mem_cons, forall_eq_or_imp]

/-- The chain of an expression is the one that its spine is taken apart into. -/
theorem chainNesting_spineFrom {n : Nat} : ∀ (e : Expr) (steps : List Step),
    (e.chainNesting < n ∧ ∀ step ∈ steps, step.operand.nesting < n) ↔
      (spineFrom steps e).1.nesting < n ∧ ∀ step ∈ (spineFrom steps e).2, step.operand.nesting < n
  | binary operator token left right, steps => by
    rw [spineFrom, ← chainNesting_spineFrom left, chainNesting, Nat.max_lt]
    simp only [List.mem_cons, forall_eq_or_imp, and_assoc]
  | literal _, _ | unary _ _ _, _ | call _ _ _, _ => Iff.rfl

/-- A binary operation nests over one level more than the leftmost operand and the right operands of its chain. -/
theorem nesting_binary {operator : BinaryOperator} {token : Token} {left right : Expr} {n : Nat} :
    (binary operator token left right).nesting < n + 1 ↔
      (binary operator token left right).spine.1.nesting < n ∧
        ∀ step ∈ (binary operator token left right).spine.2, step.operand.nesting < n := by
  rw [spine, ← chainNesting_spineFrom, nesting, chainNesting]
  simp

end Expr

namespace Evaluation

variable {context : Context} {n levels : Nat}

/-- Calls a name with values. A constant comes before a function, if there are no values. -/
def resolve (context : Context) (name : String) (position : Nat) : List Float → Except Failure Float
  | [] =>
    match context.constant? name with
    | some value => .ok value
    | none =>
      match context.function? name with
      | some f => f.call [] position
      | none => failAt position (.unknownName name)
  | values =>
    match context.function? name with
    | some f => f.call values position
    | none => failAt position (.unknownFunction name)

mutual

/-- The value of an expression: its operands from left to right, and then its operation. -/
def plain (context : Context) : Expr → Except Failure Float
  | .literal value => .ok value
  | .unary operator token operand => do
    let x ← plain context operand
    applyUnary operator x token.position
  | .binary operator token left right => do
    let x ← plain context left
    let y ← plain context right
    applyBinary operator x y token.position
  | .call name position arguments => do
    let values ← plainAll context arguments
    resolve context name position values

def plainAll (context : Context) : List Expr → Except Failure (List Float)
  | [] => .ok []
  | e :: rest => do
    let value ← plain context e
    let values ← plainAll context rest
    return value :: values

end

theorem call_eq_resolve {name : String} {values : List Float} {position : Nat} :
    call context name values position = resolve context name position values := by
  cases values with
  | nil => cases h : context.constant? name <;> cases h' : context.function? name <;> simp [call, resolve, h, h']
  | cons value values => cases h : context.function? name <;> simp [call, resolve, h]

/-! ### Within the allowed levels -/

/-- A step of a chain, with its right operand evaluated by `value`. -/
def stepWith (value : Expr → Except Failure Float) (left : Float) (step : Expr.Step) : Except Failure Float := do
  let right ← value step.operand
  applyBinary step.operator left right step.token.position

theorem evaluateWithin_binary {operator : BinaryOperator} {token : Token} {left right : Expr} :
    evaluateWithin context (levels + 1) (.binary operator token left right) = (do
      let leftmost ← evaluateWithin context levels (Expr.binary operator token left right).spine.1
      (Expr.binary operator token left right).spine.2.foldlM (stepWith (evaluateWithin context levels)) leftmost) := rfl

theorem plain_foldl {steps : List Expr.Step} {e : Expr} :
    plain context (steps.foldl Expr.Step.onto e) = (do
      let leftmost ← plain context e
      steps.foldlM (stepWith (plain context)) leftmost) := by
  induction steps generalizing e with
  | nil =>
    rw [List.foldl_nil]
    cases plain context e <;> rfl
  | cons step steps ih =>
    rw [List.foldl_cons, ih, Expr.Step.onto, plain]
    cases plain context e with
    | error => rfl
    | ok left => simp [stepWith]

theorem plain_spine (e : Expr) :
    plain context e = (do
      let leftmost ← plain context e.spine.1
      e.spine.2.foldlM (stepWith (plain context)) leftmost) := by
  rw [← plain_foldl, e.foldl_spine]

theorem foldlM_stepWith_congr {value value' : Expr → Except Failure Float} {steps : List Expr.Step}
    (same : ∀ step ∈ steps, value step.operand = value' step.operand) (left : Float) :
    steps.foldlM (stepWith value) left = steps.foldlM (stepWith value') left := by
  induction steps generalizing left with
  | nil => rfl
  | cons step steps ih =>
    have head : stepWith value left step = stepWith value' left step := by
      rw [stepWith, same step List.mem_cons_self, stepWith]
    have tail := ih fun step member => same step (List.mem_cons_of_mem _ member)
    simp only [List.foldlM_cons, head, tail]

theorem mapM_eq_plainAll {value : Expr → Except Failure Float} {arguments : List Expr}
    (same : ∀ e ∈ arguments, value e = plain context e) : arguments.mapM value = plainAll context arguments := by
  induction arguments with
  | nil => rfl
  | cons e rest ih =>
    rw [List.mapM_cons, plainAll, same e List.mem_cons_self, ih fun e member => same e (List.mem_cons_of_mem _ member)]

theorem evaluateWithin_eq_plain {e : Expr} (h : e.nesting < levels) :
    evaluateWithin context levels e = plain context e := by
  induction levels generalizing e with
  | zero => exact absurd h (Nat.not_lt_zero _)
  | succ levels ih =>
    cases e with
    | literal => rfl
    | unary operator token operand =>
      rw [evaluateWithin, plain, ih (Nat.lt_of_succ_lt_succ h)]
    | call name position arguments =>
      rw [evaluateWithin, plain, mapM_eq_plainAll fun e member => ih (Expr.levelsAbove_lt.mp h e member)]
      simp only [call_eq_resolve]
    | binary operator token left right =>
      obtain ⟨leftmost, steps⟩ := Expr.nesting_binary.mp h
      rw [evaluateWithin_binary, plain_spine, ih leftmost]
      simp only [foldlM_stepWith_congr fun step member => ih (steps step member)]

/-! ### Beyond the allowed levels -/

def Fails (outcome : Except Failure α) : Prop :=
  ∃ failure, outcome = .error failure

theorem fails_bind {outcome : Except Failure α} {f : α → Except Failure β} (h : Fails outcome) :
    Fails (outcome >>= f) := by
  obtain ⟨failure, rfl⟩ := h
  exact ⟨failure, rfl⟩

theorem fails_bind_of_forall {outcome : Except Failure α} {f : α → Except Failure β} (h : ∀ a, Fails (f a)) :
    Fails (outcome >>= f) := by
  cases outcome with
  | error failure => exact ⟨failure, rfl⟩
  | ok a => exact h a

theorem fails_mapM {f : Expr → Except Failure Float} {arguments : List Expr} {e : Expr} (member : e ∈ arguments)
    (h : Fails (f e)) : Fails (arguments.mapM f) := by
  induction member with
  | head =>
    rw [List.mapM_cons]
    exact fails_bind h
  | tail _ _ ih =>
    rw [List.mapM_cons]
    exact fails_bind_of_forall fun _ => fails_bind ih

theorem fails_foldlM {value : Expr → Except Failure Float} {steps : List Expr.Step} {step : Expr.Step}
    (member : step ∈ steps) (h : Fails (value step.operand)) (left : Float) :
    Fails (steps.foldlM (stepWith value) left) := by
  induction member generalizing left with
  | head =>
    rw [List.foldlM_cons]
    exact fails_bind (fails_bind h)
  | tail _ _ ih =>
    rw [List.foldlM_cons]
    exact fails_bind_of_forall ih

theorem evaluateWithin_fails {e : Expr} (h : levels ≤ e.nesting) : Fails (evaluateWithin context levels e) := by
  induction levels generalizing e with
  | zero => exact ⟨_, rfl⟩
  | succ levels ih =>
    cases e with
    | literal => exact absurd h (Nat.not_succ_le_zero _)
    | unary operator token operand =>
      unfold evaluateWithin
      exact fails_bind (ih (Nat.le_of_succ_le_succ h))
    | call name position arguments =>
      have deep : ¬ ∀ e ∈ arguments, e.nesting < levels :=
        fun all => Nat.not_lt.mpr h (Expr.levelsAbove_lt.mpr all)
      simp only [Classical.not_forall, Nat.not_lt] at deep
      obtain ⟨e, member, deep⟩ := deep
      unfold evaluateWithin
      exact fails_bind (fails_mapM member (ih deep))
    | binary operator token left right =>
      rw [evaluateWithin_binary]
      by_cases leftmost : (Expr.binary operator token left right).spine.1.nesting < levels
      · have deep : ¬ ∀ step ∈ (Expr.binary operator token left right).spine.2, step.operand.nesting < levels :=
          fun all => Nat.not_lt.mpr h (Expr.nesting_binary.mpr ⟨leftmost, all⟩)
        simp only [Classical.not_forall, Nat.not_lt] at deep
        obtain ⟨step, member, deep⟩ := deep
        exact fails_bind_of_forall (fails_foldlM member (ih deep))
      · exact fails_bind (ih (Nat.not_lt.mp leftmost))

/-- Expressions that nest over as many levels as are allowed, or fewer, have the value or the first failure that
the definition gives, and all others fail. -/
theorem evaluate_eq_plain_or_fails (context : Context) (e : Expr) :
    (e.nesting ≤ maxDepth → evaluate context e = plain context e) ∧
      (maxDepth < e.nesting → ∃ failure, evaluate context e = .error failure) :=
  ⟨fun h => evaluateWithin_eq_plain (Nat.lt_succ_of_le h), fun h => evaluateWithin_fails h⟩

/-- Minus signs in front of a zero, as many as may nest, and one more. -/
theorem evaluate_signs :
    let signs (n : Nat) : Expr := Nat.repeat (.unary .negate ⟨.operator, "-", 0, .decimal, 0⟩) n (.literal 0)
    let context := Context.ofTable .arithmetic
    evaluate context (signs 1024) = plain context (signs 1024) ∧
      ∃ failure, evaluate context (signs 1025) = .error failure := by
  intro signs context
  have nesting (n : Nat) : (signs n).nesting = n := by
    induction n with
    | zero => rfl
    | succ n ih => exact congrArg Nat.succ ih
  exact ⟨(evaluate_eq_plain_or_fails context _).1 (Nat.le_of_eq (nesting 1024)),
    (evaluate_eq_plain_or_fails context _).2 (by rw [nesting]; decide)⟩

end Evaluation

end Calculator
