import Calculator.Postfix.Tree
import Calculator.Proofs.Failure
import Calculator.Proofs.Postfix.Moves

/-!
# Operands in balance

A tree is built from entries only if they leave one operand. How many they will leave can be told while the
tokens are still read, from the yard alone, and moving operators to the entries does not change it.
-/

namespace Calculator

/-- How many operands the entry leaves, less those it takes. -/
def PostfixEntry.weight : PostfixEntry → Int
  | number _ | constant _ => 1
  | unary _ _ => 0
  | binary _ _ => -1
  | call token => 1 - token.argumentCount

/-- What the entry will weigh. The arguments of a call are counted by their parenthesis meanwhile. -/
def Pending.weight : Pending → Int
  | binary _ _ => -1
  | unary _ _ => 0
  | call _ => 1
  | parenthesis _ true commas => -(commas + 1)
  | parenthesis _ false _ => 0

def Pending.weightAll : List Pending → Int
  | [] => 0
  | pending :: stack => pending.weight + weightAll stack

/-- Whether an open parenthesis holds arguments. -/
def Pending.holdsArguments? : Pending → Option Bool
  | parenthesis _ holdsArguments _ => some holdsArguments
  | binary _ _ | unary _ _ | call _ => none

namespace Postfix

variable {entries : List PostfixEntry} {operands : List Expr} {entry : PostfixEntry} {e : Expr}

def weight : List PostfixEntry → Int
  | [] => 0
  | entry :: entries => entry.weight + weight entries

theorem weight_append (before after : List PostfixEntry) : weight (before ++ after) = weight before + weight after := by
  induction before with
  | nil => exact (Int.zero_add _).symm
  | cons entry before ih => rw [List.cons_append, weight, weight, ih, Int.add_assoc]

theorem weight_reverse (entries : List PostfixEntry) : weight entries.reverse = weight entries := by
  induction entries with
  | nil => rfl
  | cons entry entries ih =>
    rw [List.reverse_cons, weight_append, ih, weight, weight, weight]
    omega

theorem take?_eq_some {count : Nat} {taken list rest : List Expr} (h : take? count taken operands = some (list, rest)) :
    ∃ front, operands = front ++ rest ∧ list = front.reverse ++ taken ∧ front.length = count := by
  induction count generalizing taken operands with
  | zero =>
    cases h
    exact ⟨[], rfl, rfl, rfl⟩
  | succ count ih =>
    cases operands with
    | nil => cases h
    | cons top operands =>
      obtain ⟨front, rfl, rfl, rfl⟩ := ih h
      exact ⟨top :: front, rfl, by simp, rfl⟩

theorem build_length {more : List Expr} (h : build operands entry = .ok more) :
    (more.length : Int) = operands.length + entry.weight := by
  cases entry with
  | number token =>
    obtain ⟨value, -, rfl⟩ := map_eq_ok.mp h
    simp [PostfixEntry.weight]
  | constant token =>
    cases h
    simp [PostfixEntry.weight]
  | unary operator token =>
    cases operands with
    | nil => cases h
    | cons operand operands =>
      cases h
      simp [PostfixEntry.weight]
  | binary operator token =>
    rcases operands with _ | ⟨right, _ | ⟨left, operands⟩⟩
    · cases h
    · cases h
    · cases h
      simp only [PostfixEntry.weight, List.length_cons]
      omega
  | call token =>
    unfold build at h
    cases taken : take? token.argumentCount [] operands with
    | none => simp [taken, failAt] at h
    | some pair =>
      obtain ⟨list, rest⟩ := pair
      simp only [taken, Except.ok.injEq] at h
      obtain ⟨front, rfl, -, count⟩ := take?_eq_some taken
      rw [← h, PostfixEntry.weight, List.length_cons, List.length_append]
      omega

theorem foldlM_length {more : List Expr} (h : entries.foldlM build operands = .ok more) :
    (more.length : Int) = operands.length + weight entries := by
  induction entries generalizing operands with
  | nil =>
    cases h
    simp [weight]
  | cons entry entries ih =>
    rw [List.foldlM_cons] at h
    obtain ⟨next, built, h⟩ := bind_eq_ok.mp h
    rw [ih h, build_length built]
    simp [weight, Int.add_assoc]

theorem weight_of_toExpr (h : toExpr entries = .ok e) : weight entries = 1 := by
  obtain ⟨operands, built, h⟩ := bind_eq_ok.mp h
  have := foldlM_length built
  rcases operands with _ | ⟨_, _ | _⟩
  · cases h
  · simpa using this.symm
  · cases h

theorem number_of_build {more : List Expr} (h : entries.foldlM build operands = .ok more) {token : Token}
    (member : .number token ∈ entries) : ∃ value, token.numericValue = .ok value := by
  induction entries generalizing operands with
  | nil => cases member
  | cons entry entries ih =>
    rw [List.foldlM_cons] at h
    obtain ⟨next, built, h⟩ := bind_eq_ok.mp h
    rcases List.mem_cons.mp member with rfl | member
    · obtain ⟨value, reads, -⟩ := map_eq_ok.mp built
      exact ⟨value, reads⟩
    · exact ih h member

end Postfix

namespace Yard

variable {previous : Option Token} {yard next : Yard}
  {stack : List Pending} {entries : List PostfixEntry} {token : Token}

/-- What will be left of the operands and operations so far. -/
def weight (yard : Yard) : Int :=
  Pending.weightAll yard.stack + Postfix.weight yard.output

/-- The weight, and the operand that is due after `previous`. -/
def due (previous : Option Token) (yard : Yard) : Int :=
  yard.weight + if Token.opensOperand previous then 1 else 0

/-- The open parentheses, innermost first. -/
def parens (stack : List Pending) : List Bool :=
  stack.filterMap Pending.holdsArguments?

/-- A call waits only directly below the parenthesis of its arguments. -/
def Covered : List Pending → Prop
  | [] => True
  | .parenthesis _ true _ :: .call _ :: stack => Covered stack
  | .call _ :: _ => False
  | _ :: stack => Covered stack

@[simp]
theorem weight_write {entry : PostfixEntry} : (yard.write entry).weight = yard.weight + entry.weight := by
  simp only [weight, write, Postfix.weight]
  omega

@[simp]
theorem weight_push {pending : Pending} : (yard.push pending).weight = yard.weight + pending.weight := by
  simp only [weight, push, Pending.weightAll]
  omega

/-! ### What moves keeps its weight -/

/-- Moving has changed neither the weight nor the open parentheses. -/
structure Keeps (yard moved : Yard) : Prop where
  weight : moved.weight = yard.weight
  covered : Covered moved.stack
  parens : parens moved.stack = parens yard.stack

theorem moveWhile_keeps (leaves : Pending → Bool) (output : List PostfixEntry) (covered : Covered stack) :
    Keeps ⟨stack, output⟩ (moveWhile leaves stack output) := by
  refine moveWhile_induct leaves ⟨rfl, covered, rfl⟩ ?_
  rintro top entry stack output leaving ⟨same, covered, parens⟩
  cases top with
  | call => exact covered.elim
  | parenthesis => cases leaving
  | binary operator token | unary operator token =>
    cases leaving
    refine ⟨.trans ?_ same, covered, parens⟩
    simp only [weight, Postfix.weight, Pending.weightAll, PostfixEntry.weight, Pending.weight]
    omega

theorem moveAll_keeps (covered : Covered yard.stack) : Keeps yard yard.moveAll :=
  moveWhile_keeps _ _ covered

theorem weight_binary (operator : BinaryOperator) (token : Token) (covered : Covered yard.stack) :
    (yard.binary operator token).weight = yard.weight - 1 ∧ Covered (yard.binary operator token).stack ∧
      parens (yard.binary operator token).stack = parens yard.stack := by
  have keeps := moveWhile_keeps (Pending.precedes operator) yard.output covered
  refine ⟨?_, keeps.covered, keeps.parens⟩
  unfold binary
  rw [weight_push, keeps.weight]
  rfl

theorem covered_tail {opening : Token} {holdsArguments : Bool} {commas : Nat} (more : Nat)
    (covered : Covered (.parenthesis opening holdsArguments commas :: stack)) :
    Covered (.parenthesis opening holdsArguments more :: stack) := by
  cases stack with
  | nil => cases holdsArguments <;> trivial
  | cons pending stack => cases pending <;> cases holdsArguments <;> exact covered

theorem weight_comma {after : Option Token} (covered : Covered yard.stack)
    (h : yard.comma previous after token = .ok next) :
    next.weight = yard.weight - 1 ∧ Covered next.stack ∧
      ∃ outer, parens yard.stack = true :: outer ∧ parens next.stack = true :: outer := by
  obtain ⟨-, opening, commas, stack, top, rfl⟩ := comma_eq_ok h
  have keeps := moveAll_keeps covered
  have inside := keeps.covered
  have same := keeps.weight
  rw [top] at inside
  refine ⟨?_, covered_tail _ inside, Yard.parens stack, ?_, rfl⟩
  · simp only [weight, top, Pending.weightAll, Pending.weight] at same ⊢
    omega
  · rw [← keeps.parens, top]
    rfl

/-- Where no operand is due, a closing parenthesis ends something that is not empty. -/
theorem weight_closing (covered : Covered yard.stack) (place : Token.opensOperand previous = false)
    (h : yard.closing previous token = .ok next) :
    next.weight = yard.weight ∧ Covered next.stack ∧
      ∃ holdsArguments, parens yard.stack = holdsArguments :: parens next.stack := by
  have keeps := moveAll_keeps covered
  have inside := keeps.covered
  have same := keeps.weight
  obtain ⟨opening, commas, stack, ⟨top, rfl⟩ | ⟨name, count, top, rfl, counts⟩⟩ := closing_eq_ok h
  · rw [top] at inside
    refine ⟨?_, inside, false, ?_⟩
    · simp only [weight, top, Pending.weightAll, Pending.weight] at same ⊢
      omega
    · rw [← keeps.parens, top]
      rfl
  · rw [top] at inside
    have count := counts (Token.ends_of_opensOperand place)
    refine ⟨?_, inside, true, ?_⟩
    · simp only [weight, top, Postfix.weight, Pending.weightAll, Pending.weight, PostfixEntry.weight] at same ⊢
      omega
    · rw [← keeps.parens, top]
      rfl

theorem weight_finish (covered : Covered yard.stack) (h : yard.finish = .ok entries) :
    parens yard.stack = [] ∧ Postfix.weight entries = yard.weight := by
  have keeps := moveAll_keeps covered
  obtain ⟨top, rfl⟩ := finish_eq_ok h
  rw [← keeps.weight, ← keeps.parens, weight, top]
  exact ⟨rfl, by rw [Postfix.weight_reverse, Pending.weightAll, Int.zero_add]⟩

end Yard

end Calculator
