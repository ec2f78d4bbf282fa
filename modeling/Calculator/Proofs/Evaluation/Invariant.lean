import Calculator.Proofs.Evaluation

/-!
# What every evaluation keeps

A property of values that constants have and operations and functions keep holds of whatever an expression with such
literals evaluates to, and one that all their failures have holds of its failure.
-/

namespace Calculator

mutual

/-- The values of the literals in an expression, from left to right. -/
def Expr.literals : Expr → List Float
  | .literal value => [value]
  | .unary _ _ operand => Expr.literals operand
  | .binary _ _ left right => Expr.literals left ++ Expr.literals right
  | .call _ _ arguments => Expr.literalsAll arguments

def Expr.literalsAll : List Expr → List Float
  | [] => []
  | e :: rest => Expr.literals e ++ Expr.literalsAll rest

end

namespace Evaluation

variable {context : Context} {good : Float → Prop} {bad : Failure → Prop}

/-- Good values lead to good values, or to failures that are `bad`. -/
structure Keeps (context : Context) (good : Float → Prop) (bad : Failure → Prop) : Prop where
  constant : ∀ name value, context.constant? name = some value → good value
  unknownName : ∀ name position, bad { cause := .unknownName name, position }
  unknownFunction : ∀ name position, bad { cause := .unknownFunction name, position }
  function : ∀ (f : Function) arguments position, (∀ x ∈ arguments, good x) →
    Ends good bad (f.call arguments position)
  unary : ∀ operator x position, good x → Ends good bad (applyUnary operator x position)
  binary : ∀ operator x y position, good x → good y → Ends good bad (applyBinary operator x y position)

theorem resolve_ends (keeps : Keeps context good bad) {name : String} {position : Nat} {values : List Float}
    (each : ∀ x ∈ values, good x) : Ends good bad (resolve context name position values) := by
  cases values with
  | nil =>
    cases constant : context.constant? name with
    | some value =>
      simp only [resolve, constant]
      exact keeps.constant name value constant
    | none =>
      cases function : context.function? name with
      | some f =>
        simp only [resolve, constant, function]
        exact keeps.function f [] position each
      | none =>
        simp only [resolve, constant, function]
        exact keeps.unknownName name position
  | cons value values =>
    cases function : context.function? name with
    | some f =>
      simp only [resolve, function]
      exact keeps.function f _ position each
    | none =>
      simp only [resolve, function]
      exact keeps.unknownFunction name position

mutual

theorem plain_ends (keeps : Keeps context good bad) :
    ∀ e : Expr, (∀ x ∈ e.literals, good x) → Ends good bad (plain context e)
  | .literal value, h => h value (by simp [Expr.literals])
  | .unary operator token operand, h => by
    rw [plain]
    apply ends_bind (plain_ends keeps operand h)
    exact fun x good => keeps.unary operator x token.position good
  | .binary operator token left right, h => by
    have inside := List.forall_mem_append.mp h
    rw [plain]
    apply ends_bind (plain_ends keeps left inside.1)
    intro x goodLeft
    apply ends_bind (plain_ends keeps right inside.2)
    exact fun y goodRight => keeps.binary operator x y token.position goodLeft goodRight
  | .call name position arguments, h => by
    rw [plain]
    apply ends_bind (plainAll_ends keeps arguments h)
    exact fun values each => resolve_ends keeps each

theorem plainAll_ends (keeps : Keeps context good bad) :
    ∀ list : List Expr, (∀ x ∈ Expr.literalsAll list, good x) →
      Ends (fun values => ∀ x ∈ values, good x) bad (plainAll context list)
  | [], _ => by simp [plainAll, Ends]
  | e :: rest, h => by
    have inside := List.forall_mem_append.mp h
    rw [plainAll]
    apply ends_bind (plain_ends keeps e inside.1)
    intro value good
    apply ends_bind (plainAll_ends keeps rest inside.2)
    intro values each
    exact List.forall_mem_cons.mpr ⟨good, each⟩

end

/-- The value of an evaluation with any number of levels is the one by definition. -/
theorem plain_of_evaluateWithin {levels : Nat}
    {e : Expr} {value : Float} (h : evaluateWithin context levels e = .ok value) :
    plain context e = .ok value := by
  by_cases room : e.nesting < levels
  · rwa [← evaluateWithin_eq_plain room]
  · have fails : Fails (evaluateWithin context levels e) := evaluateWithin_fails (Nat.not_lt.mp room)
    obtain ⟨failure, same⟩ := fails
    rw [same] at h
    cases h

end Evaluation

/-! ### Failures of values -/

/-- Whether an operation on the operands can fail for the cause. -/
def BinaryOperator.failsFor (operator : BinaryOperator) : Cause → Bool
  | .divisionByZero => operator = .divide || operator = .modulo
  | .overflow | .underflow | .notANumber | .fractionalPower | .shiftOutOfRange _ => true
  | _ => false

/-- Whether a function can fail for the cause. -/
def Cause.isOfFunction : Cause → Bool
  | .wrongArity _ _ | .outsideDomain _ | .undefinedFor _ _ | .overflow => true
  | _ => false

/-- Whether a cause is found in values or names, and not in the form of an expression. -/
def Cause.isOfValue : Cause → Bool
  | .divisionByZero | .overflow | .underflow | .notANumber | .fractionalPower | .shiftOutOfRange _
  | .unknownName _ | .unknownFunction _ | .wrongArity _ _ | .outsideDomain _ | .undefinedFor _ _ => true
  | _ => false

theorem BinaryOperator.isOfValue_of_failsFor {operator : BinaryOperator} {cause : Cause}
    (h : operator.failsFor cause = true) : cause.isOfValue = true := by
  cases cause <;> first | rfl | cases h

theorem Cause.isOfValue_of_isOfFunction {cause : Cause} (h : cause.isOfFunction = true) : cause.isOfValue = true := by
  cases cause <;> first | rfl | cases h

namespace Evaluation

/-- The failure has one of the causes, and is reported at the position. -/
def FailsAt (causes : Cause → Bool) (position : Nat) (failure : Failure) : Prop :=
  causes failure.cause = true ∧ failure.position = position

/-- The failure is due to values or names. -/
def OfValue (failure : Failure) : Prop := failure.cause.isOfValue = true

theorem toInteger_reports {causes : Cause → Bool} (overflow : causes .overflow = true) (x : Float) (position : Nat) :
    Reports (FailsAt causes position) (toInteger x position) := by
  unfold toInteger
  split
  · trivial
  · exact ⟨overflow, rfl⟩

theorem applyUnary_reports {causes : Cause → Bool} (overflow : causes .overflow = true) (operator : UnaryOperator)
    (x : Float) (position : Nat) : Reports (FailsAt causes position) (applyUnary operator x position) := by
  cases operator with
  | plus | negate => trivial
  | bitwiseNot => exact ends_map (toInteger_reports overflow x position) fun _ _ => trivial

theorem shiftAmount_reports (operator : BinaryOperator) (amount : Int64) (position : Nat) :
    Reports (FailsAt operator.failsFor position) (shiftAmount amount position) := by
  unfold shiftAmount
  split
  · trivial
  · exact ⟨rfl, rfl⟩

theorem applyBitwise_reports {operator : BinaryOperator}
    (bitwise : operator.isBitwise = true) (x y : Float) (position : Nat) :
    Reports (FailsAt operator.failsFor position) (applyBitwise operator x y position) := by
  apply reports_bind (toInteger_reports rfl x position)
  intro a
  apply reports_bind (toInteger_reports rfl y position)
  intro b
  cases operator with
  | bitwiseAnd | bitwiseOr | bitwiseXor => trivial
  | shiftLeft | shiftRight =>
    apply reports_bind (ends_map (shiftAmount_reports _ b position) fun _ _ => trivial)
    exact fun _ => trivial
  | _ => cases bitwise

theorem checkResult_reports (operator : BinaryOperator) (x y result : Float) (position : Nat) :
    Reports (FailsAt operator.failsFor position) (checkResult operator x y result position) := by
  unfold checkResult
  dsimp only
  split
  · exact ⟨rfl, rfl⟩
  · split
    · exact ⟨rfl, rfl⟩
    · split
      · exact ⟨rfl, rfl⟩
      · trivial

theorem applyArithmetic_reports {operator : BinaryOperator}
    (arithmetic : operator.isBitwise = false) (x y : Float) (position : Nat) :
    Reports (FailsAt operator.failsFor position) (applyArithmetic operator x y position) := by
  have checked := checkResult_reports operator x y
  cases operator with
  | add | subtract | multiply => exact checked _ position
  | divide | modulo =>
    unfold applyArithmetic
    dsimp only
    split
    · exact ⟨rfl, rfl⟩
    · exact checked _ position
  | exponentiate =>
    unfold applyArithmetic
    dsimp only
    split
    · exact ⟨rfl, rfl⟩
    · exact checked _ position
  | _ => cases arithmetic

/-- No operation meets an operator that it does not know, and only a division finds that it divides by zero. -/
theorem applyBinary_reports (operator : BinaryOperator) (x y : Float) (position : Nat) :
    Reports (FailsAt operator.failsFor position) (applyBinary operator x y position) := by
  unfold applyBinary
  split
  next bitwise => exact applyBitwise_reports bitwise x y position
  next arithmetic => exact applyArithmetic_reports (by simpa using arithmetic) x y position

theorem call_reports (f : Function) (arguments : List Float) (position : Nat) :
    Reports (FailsAt Cause.isOfFunction position) (f.call arguments position) := by
  unfold Function.call
  split
  · exact ⟨rfl, rfl⟩
  · split
    · exact ⟨rfl, rfl⟩
    · dsimp only
      split
      · exact ⟨rfl, rfl⟩
      · split
        · exact ⟨rfl, rfl⟩
        · trivial

/-- Without a limit, only values and names make an evaluation fail. -/
theorem plain_reports (context : Context) (e : Expr) : Reports OfValue (plain context e) := by
  have keeps : Keeps context (fun _ => True) OfValue := {
    constant := fun _ _ _ => trivial
    unknownName := fun _ _ => rfl
    unknownFunction := fun _ _ => rfl
    function := fun f arguments position _ =>
      (call_reports f arguments position).mono (fun _ => id) fun _ fails => Cause.isOfValue_of_isOfFunction fails.1
    unary := fun operator x position _ =>
      (applyUnary_reports rfl operator x position).mono (fun _ => id) fun _ fails => fails.1
    binary := fun operator x y position _ _ =>
      (applyBinary_reports operator x y position).mono
        (fun _ => id) fun _ fails => operator.isOfValue_of_failsFor fails.1 }
  exact plain_ends keeps e fun _ _ => trivial

end Evaluation

end Calculator
