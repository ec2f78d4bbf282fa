import Calculator.Proofs.Evaluation
import Calculator.Proofs.Mode

/-!
# Operations with a name and a symbol

Powers and remainders can be written with a function or with an operator, which check their operands and results in
different ways. They agree, but for a power that is too small a number and for a remainder by zero.
-/

namespace Calculator

variable {context : Context} {fs : List Function} {f : Function} {x y result : Float} {position place : Nat}

/-! ### Contexts with the builtin functions -/

namespace Context

/-- Functions with different names are all found after they were added. -/
theorem function?_addFunctions_self (distinct : (fs.map Function.name).Nodup) (member : f ∈ fs) (context : Context) :
    (fs.foldl addFunction context).function? f.name = some f := by
  induction fs generalizing context with
  | nil => cases member
  | cons g fs ih =>
    obtain ⟨fresh, distinct⟩ := List.nodup_cons.mp distinct
    rcases List.mem_cons.mp member with rfl | member
    · have absent : ∀ g ∈ fs, g.name ≠ f.name :=
        fun g member same => fresh (List.mem_map.mpr ⟨g, member, same⟩)
      exact (function?_addFunctions absent).trans ((function?_addFunction context f f.name).trans (if_pos rfl))
    · exact ih distinct member (context.addFunction g)

end Context

namespace Builtin

/-- The context knows every builtin function by its name. -/
def IsHeld (context : Context) : Prop :=
  ∀ f ∈ functions, context.function? f.name = some f

theorem isHeld_addFunctions (context : Context) : IsHeld (addFunctions context) := by
  have distinct : (functions.map Function.name).Nodup := by decide
  exact fun f member => Context.function?_addFunctions_self distinct member context

end Builtin

namespace Evaluation

/-! ### Outcomes -/

def FailsWith (category : Category) (outcome : Except Failure Float) : Prop :=
  ∃ failure, outcome = .error failure ∧ failure.category = category

/-- The outcomes are the same value, or failures of the same category. -/
def Alike (outcome other : Except Failure Float) : Prop :=
  (∃ value, outcome = .ok value ∧ other = .ok value) ∨
    ∃ category, FailsWith category outcome ∧ FailsWith category other

theorem Alike.category_eq {outcome other : Except Failure Float} {category category' : Category}
    (alike : Alike outcome other) (fails : FailsWith category outcome) (fails' : FailsWith category' other) :
    category = category' := by
  obtain ⟨failure, rfl, rfl⟩ := fails
  obtain ⟨failure', rfl, rfl⟩ := fails'
  rcases alike with ⟨_, failed, -⟩ | ⟨_, ⟨_, ⟨⟩, same⟩, ⟨_, ⟨⟩, same'⟩⟩
  · cases failed
  · rw [same, same']

theorem failsWith_failAt (cause : Cause) (position : Nat) : FailsWith cause.category (failAt position cause) :=
  ⟨_, rfl, rfl⟩

theorem failsWith_failAt_iff {cause : Cause} {category : Category} :
    FailsWith category (failAt position cause) ↔ cause.category = category := by
  constructor
  · rintro ⟨_, ⟨⟩, same⟩
    exact same
  · rintro rfl
    exact failsWith_failAt cause position

theorem not_failsWith_ok {category : Category} {value : Float} : ¬ FailsWith category (.ok value) :=
  nofun

theorem alike_failAt {cause cause' : Cause} :
    Alike (failAt position cause) (failAt place cause') ↔ cause.category = cause'.category := by
  constructor
  · rintro (⟨value, failed, -⟩ | ⟨category, first, second⟩)
    · cases failed
    · rw [failsWith_failAt_iff.mp first, failsWith_failAt_iff.mp second]
  · exact fun same => .inr ⟨_, failsWith_failAt_iff.mpr same, failsWith_failAt cause' place⟩

theorem alike_ok (value : Float) : Alike (.ok value) (.ok value) :=
  .inl ⟨value, rfl, rfl⟩

theorem not_alike_ok {cause : Cause} {value : Float} : ¬ Alike (.ok value) (failAt place cause) := by
  rintro (⟨_, -, failed⟩ | ⟨category, failed, -⟩)
  · cases failed
  · exact not_failsWith_ok failed

/-! ### The checks of a result -/

/-- What a function of two arguments makes of its result. -/
def calledResult (name : String) (x y result : Float) (position : Nat) : Except Failure Float :=
  if result.isNaN then failAt position (.undefinedFor name [x, y])
  else if result.isInf && (x.isFinite && y.isFinite) then failAt position .overflow
  else .ok result

/-- Where an operator refuses a result as too small a number. -/
def vanishes (operator : BinaryOperator) (x y result : Float) : Bool :=
  scales operator && result == 0.0 && x != 0.0 && y != 0.0 && (x.isFinite && y.isFinite)

theorem checkResult_eq (operator : BinaryOperator) (x y result : Float) (position : Nat) :
    checkResult operator x y result position =
      if result.isNaN then failAt position .notANumber
      else if result.isInf && (x.isFinite && y.isFinite) then failAt position .overflow
      else if vanishes operator x y result then failAt position .underflow
      else .ok result := rfl

theorem eq_zero_of_vanishes {operator : BinaryOperator} (small : vanishes operator x y result = true) :
    (result == 0.0) = true := by
  simp only [vanishes, Bool.and_eq_true] at small
  exact small.1.1.1.2

/-- The checks agree unless the operator refuses a small number, which the function gives as zero. -/
theorem checked_alike_or_underflow (operator : BinaryOperator)
    (name : String) (x y result : Float) (position place : Nat) :
    (Alike (calledResult name x y result position) (checkResult operator x y result place) ∧
        ¬ FailsWith .numericUnderflow (checkResult operator x y result place)) ∨
      (vanishes operator x y result = true ∧ FailsWith .numericUnderflow (checkResult operator x y result place) ∧
        calledResult name x y result position = .ok result ∧
          ¬ Alike (calledResult name x y result position) (checkResult operator x y result place)) := by
  rw [checkResult_eq, calledResult]
  by_cases undefined : result.isNaN = true
  · rw [if_pos undefined, if_pos undefined, alike_failAt, failsWith_failAt_iff]
    exact .inl ⟨rfl, nofun⟩
  rw [if_neg undefined, if_neg undefined]
  by_cases large : (result.isInf && (x.isFinite && y.isFinite)) = true
  · rw [if_pos large, if_pos large, alike_failAt, failsWith_failAt_iff]
    exact .inl ⟨rfl, nofun⟩
  rw [if_neg large, if_neg large]
  by_cases small : vanishes operator x y result = true
  · rw [if_pos small, failsWith_failAt_iff]
    exact .inr ⟨small, rfl, rfl, not_alike_ok⟩
  · rw [if_neg small]
    exact .inl ⟨alike_ok result, not_failsWith_ok⟩

/-! ### Calls and operations -/

theorem call_two {g : Float → Float → Float} {refused : Bool} {words : String}
    (found : context.function? f.name = some f) (arity : f.arity = .exactly 2) (body : f.body = Builtin.ofTwo g)
    (check : f.violation? f.name [x, y] = if refused then some words else none) :
    call context f.name [x, y] position =
      if refused then failAt position (.outsideDomain words) else calledResult f.name x y (g x y) position := by
  have finite : [x, y].all Float.isFinite = (x.isFinite && y.isFinite) := by simp
  rw [call_eq_resolve, resolve, found]
  · dsimp only
    rw [Function.call, arity, body, check, finite]
    cases refused <;> rfl
  · exact List.cons_ne_nil _ _

theorem call_power (held : Builtin.IsHeld context) : call context "pow" [x, y] position =
    if x < 0.0 && Double.hasFraction y then
      failAt position (.outsideDomain "pow of a negative base requires an integer exponent")
    else calledResult "pow" x y (x.pow y) position :=
  call_two (held { Builtin.two "pow" Float.pow with violation? := Builtin.realPower } (by simp [Builtin.functions]))
    rfl rfl rfl

theorem call_remainder (held : Builtin.IsHeld context) : call context "fmod" [x, y] position =
    if y == 0.0 then failAt position (.outsideDomain "fmod divisor cannot be zero")
    else calledResult "fmod" x y (Double.remainder x y) position :=
  call_two (held { Builtin.two "fmod" Double.remainder with violation? := Builtin.nonZeroDivisor }
    (by simp [Builtin.functions])) rfl rfl rfl

theorem applyBinary_power : applyBinary .exponentiate x y place =
    if x < 0.0 && y.isFinite && Double.hasFraction y then failAt place .fractionalPower
    else checkResult .exponentiate x y (x.pow y) place := by
  show applyArithmetic .exponentiate x y place = _
  unfold applyArithmetic
  dsimp only
  split <;> rfl

theorem applyBinary_remainder : applyBinary .modulo x y place =
    if y == 0.0 then failAt place .divisionByZero else checkResult .modulo x y (Double.remainder x y) place := by
  show applyArithmetic .modulo x y place = _
  unfold applyArithmetic
  dsimp only
  split <;> rfl

theorem power_alike_or_underflow (held : Builtin.IsHeld context) (finite : y.isFinite = true) :
    (Alike (call context "pow" [x, y] position) (applyBinary .exponentiate x y place) ∧
        ¬ FailsWith .numericUnderflow (applyBinary .exponentiate x y place)) ∨
      (FailsWith .numericUnderflow (applyBinary .exponentiate x y place) ∧
        (∃ zero, call context "pow" [x, y] position = .ok zero ∧ (zero == 0.0) = true) ∧
          ¬ Alike (call context "pow" [x, y] position) (applyBinary .exponentiate x y place)) := by
  rw [call_power held, applyBinary_power, finite, Bool.and_true]
  split
  · rw [alike_failAt, failsWith_failAt_iff]
    exact .inl ⟨rfl, nofun⟩
  · rcases checked_alike_or_underflow .exponentiate "pow" x y (x.pow y) position place with
      agree | ⟨small, fails, gives, differ⟩
    · exact .inl agree
    · exact .inr ⟨fails, ⟨_, gives, eq_zero_of_vanishes small⟩, differ⟩

theorem remainder_alike (held : Builtin.IsHeld context) (nonzero : (y == 0.0) = false) :
    Alike (call context "fmod" [x, y] position) (applyBinary .modulo x y place) := by
  rw [call_remainder held, applyBinary_remainder, nonzero]
  rcases checked_alike_or_underflow .modulo "fmod" x y (Double.remainder x y) position place with agree | ⟨small, -⟩
  · exact agree.1
  · cases small

theorem remainder_by_zero (held : Builtin.IsHeld context) (zero : (y == 0.0) = true) :
    FailsWith .divisionByZero (applyBinary .modulo x y place) ∧
      FailsWith .domainError (call context "fmod" [x, y] position) := by
  rw [call_remainder held, applyBinary_remainder, if_pos zero, if_pos zero]
  exact ⟨failsWith_failAt _ _, failsWith_failAt _ _⟩

/-- The function and the operator for powers agree on finite operands, unless the operator finds too small
a number, for which the function gives zero. Those for remainders agree on all defined operands, unless
the divisor is zero, which each refuses in its own way. -/
theorem functions_agree_with_operators (context : Context) (held : Builtin.IsHeld context) (x y : Float)
    (position place : Nat) :
    (x.isFinite = true → y.isFinite = true →
      (Alike (call context "pow" [x, y] position) (applyBinary .exponentiate x y place) ↔
          ¬ FailsWith .numericUnderflow (applyBinary .exponentiate x y place)) ∧
        (FailsWith .numericUnderflow (applyBinary .exponentiate x y place) →
          ∃ zero, call context "pow" [x, y] position = .ok zero ∧ (zero == 0.0) = true)) ∧
      (x.isNaN = false → y.isNaN = false →
        (Alike (call context "fmod" [x, y] position) (applyBinary .modulo x y place) ↔ (y == 0.0) = false) ∧
          ((y == 0.0) = true → FailsWith .divisionByZero (applyBinary .modulo x y place) ∧
            FailsWith .domainError (call context "fmod" [x, y] position))) := by
  constructor
  · intro _ finite
    rcases power_alike_or_underflow held finite with ⟨agree, sound⟩ | ⟨fails, gives, differ⟩
    · exact ⟨iff_of_true agree sound, fun fails => absurd fails sound⟩
    · exact ⟨iff_of_false differ fun sound => sound fails, fun _ => gives⟩
  · intro _ _
    refine ⟨⟨fun agree => Bool.eq_false_iff.mpr fun zero => ?_, remainder_alike held⟩, remainder_by_zero held⟩
    obtain ⟨operator, function⟩ : FailsWith .divisionByZero (applyBinary .modulo x y place) ∧
        FailsWith .domainError (call context "fmod" [x, y] position) := remainder_by_zero held zero
    cases agree.category_eq function operator

/-- Seven by zero is refused as a division by zero and as an argument outside the domain, and seven to the
power of two is found alike unless it is too small. -/
theorem functions_agree_with_operators_on_seven :
    let context := Builtin.addFunctions (.ofTable .arithmetic)
    let seven := Double.ofInt 7
    let two := Double.ofInt 2
    Builtin.IsHeld context ∧ seven.isFinite = true ∧ two.isFinite = true ∧ seven.isNaN = false ∧
      (Alike (call context "pow" [seven, two] 0) (applyBinary .exponentiate seven two 1) ↔
        ¬ FailsWith .numericUnderflow (applyBinary .exponentiate seven two 1)) ∧
      Alike (call context "fmod" [seven, two] 0) (applyBinary .modulo seven two 1) ∧
      FailsWith .divisionByZero (applyBinary .modulo seven 0.0 1) ∧
        FailsWith .domainError (call context "fmod" [seven, 0.0] 0) := by
  intro context seven two
  have held : Builtin.IsHeld context := Builtin.isHeld_addFunctions _
  have finite : seven.isFinite = true := by decide +kernel
  have finite' : two.isFinite = true := by decide +kernel
  have defined : seven.isNaN = false := by decide +kernel
  have defined' : two.isNaN = false := by decide +kernel
  obtain ⟨powers, remainders⟩ := functions_agree_with_operators context held seven two 0 1
  obtain ⟨-, zero⟩ := (functions_agree_with_operators context held seven 0.0 0 1).2 defined (by decide +kernel)
  exact ⟨held, finite, finite', defined, (powers finite finite').1,
    (remainders defined defined').1.mpr (by decide +kernel),
    zero (by decide +kernel)⟩

end Evaluation

end Calculator
