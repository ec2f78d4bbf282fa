import Std.Data.TreeMap.Lemmas
import Calculator.Proofs.Double.Overflow
import Calculator.Proofs.Evaluation.Invariant

/-!
# Defined and finite values

No operation and no function lets an undefined result out, and none makes an infinite one of finite operands. So
neither appears in the value of an expression unless it was written there or is a constant.
-/

namespace Calculator.Evaluation

variable {context : Context}

/-- The value is defined, and finite if the `operands` are. -/
def Regular (operands : List Float) (value : Float) : Prop :=
  value.isNaN = false ∧ ((∀ x ∈ operands, x.isFinite = true) → value.isFinite = true)

theorem isNaN_of_isFinite {x : Float} (finite : x.isFinite = true) : x.isNaN = false := by
  rw [Double.isFinite_eq] at finite
  simp only [Bool.and_eq_true, Bool.not_eq_eq_eq_not, Bool.not_true] at finite
  exact finite.1

theorem isFinite_of_kinds {x : Float} (defined : x.isNaN = false) (bounded : x.isInf = false) : x.isFinite = true := by
  rw [Double.isFinite_eq, defined, bounded]
  rfl

theorem regular_integer {operands : List Float} (n : Int64) : Regular operands (Double.ofInt n.toInt) := by
  have finite := Double.isFinite_ofInt64 n
  exact ⟨isNaN_of_isFinite finite, fun _ => finite⟩

/-! ### Operations and functions -/

theorem call_gives (f : Function) (arguments : List Float) (position : Nat) :
    Gives (Regular arguments) (f.call arguments position) := by
  unfold Function.call
  split
  · trivial
  split
  · trivial
  dsimp only
  split
  · trivial
  next defined =>
    have defined : (f.body arguments).isNaN = false := Bool.eq_false_iff.mpr defined
    split
    · trivial
    next bounded =>
      refine ⟨defined, fun finite => isFinite_of_kinds defined ?_⟩
      have all : arguments.all Float.isFinite = true := List.all_eq_true.mpr finite
      simpa [all] using bounded

theorem checkResult_gives (operator : BinaryOperator) (x y result : Float) (position : Nat) :
    Gives (Regular [x, y]) (checkResult operator x y result position) := by
  unfold checkResult
  dsimp only
  split
  · trivial
  next defined =>
    have defined : result.isNaN = false := Bool.eq_false_iff.mpr defined
    split
    · trivial
    next bounded =>
      split
      · trivial
      · refine ⟨defined, fun finite => isFinite_of_kinds defined ?_⟩
        have left : x.isFinite = true := finite x (by simp)
        have right : y.isFinite = true := finite y (by simp)
        simpa [left, right] using bounded

theorem applyBitwise_gives (operator : BinaryOperator) (x y : Float) (position : Nat) :
    Gives (Regular [x, y]) (applyBitwise operator x y position) := by
  apply gives_bind
  intro a
  apply gives_bind
  intro b
  cases operator with
  | bitwiseAnd | bitwiseOr | bitwiseXor => exact regular_integer _
  | shiftLeft | shiftRight => exact gives_bind fun n => regular_integer n
  | _ => trivial

theorem applyArithmetic_gives (operator : BinaryOperator) (x y : Float) (position : Nat) :
    Gives (Regular [x, y]) (applyArithmetic operator x y position) := by
  have checked := checkResult_gives operator x y
  cases operator with
  | add | subtract | multiply => exact checked _ position
  | divide | modulo | exponentiate =>
    unfold applyArithmetic
    dsimp only
    split
    · trivial
    · exact checked _ position
  | _ => trivial

theorem applyBinary_gives (operator : BinaryOperator) (x y : Float) (position : Nat) :
    Gives (Regular [x, y]) (applyBinary operator x y position) := by
  unfold applyBinary
  split
  · exact applyBitwise_gives operator x y position
  · exact applyArithmetic_gives operator x y position

theorem applyUnary_gives (operator : UnaryOperator) {x : Float} (defined : x.isNaN = false) (position : Nat) :
    Gives (Regular [x]) (applyUnary operator x position) := by
  cases operator with
  | plus => exact ⟨defined, fun finite => finite x (List.mem_singleton_self x)⟩
  | negate =>
    refine ⟨?_, fun finite => Double.isFinite_neg (finite x (List.mem_singleton_self x))⟩
    rw [Double.isNaN_neg]
    exact defined
  | bitwiseNot =>
    have integer : Gives (fun _ => True) (toInteger x position) :=
      ends_of_forall (fun _ _ => trivial) fun _ _ => trivial
    exact ends_map integer fun n _ => regular_integer _

/-! ### Expressions -/

theorem keeps_defined (constants : ∀ name x, context.constant? name = some x → x.isNaN = false) :
    Keeps context (fun x => x.isNaN = false) (fun _ => True) where
  constant := constants
  unknownName _ _ := trivial
  unknownFunction _ _ := trivial
  function f arguments position _ :=
    (call_gives f arguments position).mono (fun _ regular => regular.1) fun _ _ => trivial
  unary operator _ position defined :=
    (applyUnary_gives operator defined position).mono (fun _ regular => regular.1) fun _ _ => trivial
  binary operator x y position _ _ :=
    (applyBinary_gives operator x y position).mono (fun _ regular => regular.1) fun _ _ => trivial

theorem keeps_finite (constants : ∀ name x, context.constant? name = some x → x.isFinite = true) :
    Keeps context (fun x => x.isFinite = true) (fun _ => True) where
  constant := constants
  unknownName _ _ := trivial
  unknownFunction _ _ := trivial
  function f arguments position finite :=
    (call_gives f arguments position).mono (fun _ regular => regular.2 finite) fun _ _ => trivial
  unary operator _ position finite :=
    (applyUnary_gives operator (isNaN_of_isFinite finite) position).mono
      (fun _ regular => regular.2 (List.forall_mem_singleton.mpr finite)) fun _ _ => trivial
  binary operator x y position left right :=
    (applyBinary_gives operator x y position).mono
      (fun _ regular => regular.2 (by simp [left, right])) fun _ _ => trivial

/-- If no literal and no constant is undefined, no value is, and if all are finite, each value is. -/
theorem evaluate_defined_and_finite (context : Context)
    (e : Expr) (value : Float) (h : evaluate context e = .ok value) :
    ((∀ x ∈ e.literals, x.isNaN = false) → (∀ name x, context.constant? name = some x → x.isNaN = false) →
      value.isNaN = false) ∧
      ((∀ x ∈ e.literals, x.isFinite = true) →
        (∀ name x, context.constant? name = some x → x.isFinite = true) →
        value.isFinite = true) := by
  have same : plain context e = .ok value := plain_of_evaluateWithin h
  constructor
  · intro literals constants
    have kept := plain_ends (keeps_defined constants) e literals
    rw [same] at kept
    exact kept
  · intro literals constants
    have kept := plain_ends (keeps_finite constants) e literals
    rw [same] at kept
    exact kept

/-- A constant less two is finite. -/
theorem evaluate_finite_difference :
    let context := (Context.ofTable .arithmetic).addConstant "c" (Double.ofInt 3)
    let e : Expr := .binary .subtract { kind := .operator, text := "-", position := 1 } (.call "c" 0 [])
      (.unary .negate { kind := .operator, text := "-", position := 2 } (.literal (Double.ofInt 2)))
    let value := Double.ofInt 3 - -Double.ofInt 2
    evaluate context e = .ok value ∧ (∀ x ∈ e.literals, x.isFinite = true) ∧
      (∀ name x, context.constant? name = some x → x.isFinite = true) ∧ value.isFinite = true := by
  intro context e value
  have finite (n : Int64) := Double.isFinite_ofInt64 n
  have known name : context.constant? name = if name = "c" then some (Double.ofInt 3) else none := by
    have empty : (Context.ofTable .arithmetic).constants = ∅ := rfl
    show ((Context.ofTable .arithmetic).constants.insert "c" (Double.ofInt 3))[name]? = _
    rw [empty, Std.TreeMap.getElem?_insert]
    by_cases same : "c" = name
    · subst same
      simp
    · simp [same, Ne.symm same]
  have evaluated : evaluate context e = .ok value := by
    have defined : value.isNaN = false := by decide +kernel
    have bounded : value.isInf = false := by decide +kernel
    rw [evaluate, evaluateWithin_eq_plain (by decide)]
    have applied : applyBinary .subtract (Double.ofInt 3) (-Double.ofInt 2) 1 = .ok value := by
      have subtracts (x y : Float) : applyBinary .subtract x y 1 = checkResult .subtract x y (x - y) 1 := rfl
      have same : Double.ofInt 3 - -Double.ofInt 2 = value := rfl
      rw [subtracts, same]
      unfold checkResult
      dsimp only
      rw [defined, bounded]
      rfl
    simp only [e, plain, plainAll, resolve, known, applyUnary, ok_bind, if_true, applied]
  have literals : ∀ x ∈ e.literals, x.isFinite = true := by
    intro x member
    have same : x = Double.ofInt 2 := by simpa [e, Expr.literals, Expr.literalsAll] using member
    rw [same]
    exact finite 2
  have constants : ∀ name x, context.constant? name = some x → x.isFinite = true := by
    intro name x h
    rw [known] at h
    split at h
    · cases h
      exact finite 3
    · cases h
  exact ⟨evaluated, literals, constants,
    (evaluate_defined_and_finite context e value evaluated).2 literals constants⟩

end Calculator.Evaluation
