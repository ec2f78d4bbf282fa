import Calculator.Proofs.Double.Integers
import Calculator.Proofs.Evaluation

/-!
# Operations on bits

A tree of integer literals under operations that never lengthen a word has the value that it has in words
of 64 bits, although each operation takes doubles and gives one: all words in between have 54 bits and a
sign at most, and such integers are doubles. The first right shift by more bits than there are is refused.
-/

namespace Calculator

/-! ### Words -/

/-- The operations that give no word longer than both operands. -/
inductive BitOperator where
  | and
  | or
  | xor
  | shiftRight

namespace BitOperator

def toBinary : BitOperator → BinaryOperator
  | and => .bitwiseAnd
  | or => .bitwiseOr
  | xor => .bitwiseXor
  | shiftRight => .shiftRight

/-- The operation in two's complement. A right shift keeps the sign. -/
def apply : BitOperator → BitVec 64 → BitVec 64 → BitVec 64
  | and, a, b => a &&& b
  | or, a, b => a ||| b
  | xor, a, b => a ^^^ b
  | shiftRight, a, b => a.sshiftRight b.toNat

end BitOperator

namespace Word

variable {a b : BitVec 64}

/-- The word is an integer from `-2 ^ 53` on and below `2 ^ 53`. -/
def IsShort (a : BitVec 64) : Prop :=
  -2 ^ 53 ≤ a.toInt ∧ a.toInt < 2 ^ 53

theorem natAbs_le (short : IsShort a) : a.toInt.natAbs ≤ 2 ^ 53 := by
  unfold IsShort at short
  omega

/-- The bits above the lowest 53 are all equal. -/
theorem isShort_iff : IsShort a ↔ a.sshiftRight 53 = 0#64 ∨ a.sshiftRight 53 = -1#64 := by
  have rest : (a.sshiftRight 53).toInt = a.toInt / 2 ^ 53 := by
    rw [BitVec.toInt_sshiftRight, Int.shiftRight_eq_div_pow]
    rfl
  have zero : (0#64).toInt = 0 := rfl
  have ones : (-1#64).toInt = -1 := rfl
  unfold IsShort
  rw [← BitVec.toInt_inj, ← BitVec.toInt_inj, rest, zero, ones]
  omega

theorem isShort_sshiftRight (short : IsShort a) (n : Nat) : IsShort (a.sshiftRight n) := by
  unfold IsShort at short ⊢
  rw [BitVec.toInt_sshiftRight, Int.shiftRight_eq_div_pow]
  have positive : 0 < ((2 ^ n : Nat) : Int) := Int.natCast_pos.mpr (Nat.two_pow_pos n)
  generalize ((2 ^ n : Nat) : Int) = d at positive
  rw [Int.le_ediv_iff_mul_le positive, Int.ediv_lt_iff_lt_mul positive]
  omega

theorem isShort_apply (operator : BitOperator) (left : IsShort a) (right : IsShort b) :
    IsShort (operator.apply a b) := by
  cases operator with
  | shiftRight => exact isShort_sshiftRight left _
  | and | or | xor =>
    -- The upper bits of the result come from the upper bits alone, which are all zeros or all ones.
    rw [isShort_iff] at left right ⊢
    simp only [BitOperator.apply, BitVec.sshiftRight_and_distrib, BitVec.sshiftRight_or_distrib,
      BitVec.sshiftRight_xor_distrib]
    rcases left with left | left <;> rcases right with right | right <;> rw [left, right] <;> decide

theorem isShort_not (short : IsShort a) : IsShort (~~~a) := by
  have same : ~~~a = BitOperator.xor.apply a (BitVec.allOnes 64) := BitVec.xor_allOnes.symm
  rw [same]
  exact isShort_apply .xor short ⟨by decide, by decide⟩

end Word

/-! ### Trees -/

/-- A right shift: the position of its operator, and by how much it shifts. -/
structure Shift where
  position : Nat
  amount : BitVec 64

/-- A word has room for the shift. -/
def Shift.IsLegal (shift : Shift) : Prop :=
  0 ≤ shift.amount.toInt ∧ shift.amount.toInt ≤ 63

instance (shift : Shift) : Decidable shift.IsLegal :=
  inferInstanceAs (Decidable (_ ∧ _))

/-- The shift that the operation is, if it is one. -/
def BitOperator.shifts (position : Nat) (amount : BitVec 64) : BitOperator → List Shift
  | shiftRight => [⟨position, amount⟩]
  | and | or | xor => []

/-- Integers below `2 ^ 53`, each with a double that is the integer, under operations on bits. -/
inductive BitTree where
  | literal (value : Float) (n : Nat) (small : n < 2 ^ 53) (exact : Double.Represents value n)
  | complement (token : Token) (operand : BitTree)
  | operation (operator : BitOperator) (token : Token) (left right : BitTree)

namespace BitTree

def toExpr : BitTree → Expr
  | literal value _ _ _ => .literal value
  | complement token operand => .unary .bitwiseNot token operand.toExpr
  | operation operator token left right => .binary operator.toBinary token left.toExpr right.toExpr

/-- The value in two's complement. -/
def word : BitTree → BitVec 64
  | literal _ n _ _ => BitVec.ofNat 64 n
  | complement _ operand => ~~~operand.word
  | operation operator _ left right => operator.apply left.word right.word

/-- The right shifts, in the order in which they are evaluated. -/
def shifts : BitTree → List Shift
  | literal _ _ _ _ => []
  | complement _ operand => operand.shifts
  | operation operator token left right =>
    left.shifts ++ right.shifts ++ operator.shifts token.position right.word

theorem toInt_literal {n : Nat} (small : n < 2 ^ 53) : (BitVec.ofNat 64 n).toInt = n := by
  rw [BitVec.toInt_eq_toNat_of_lt] <;> rw [BitVec.toNat_ofNat] <;> omega

theorem isShort_word (tree : BitTree) : Word.IsShort tree.word := by
  induction tree with
  | literal value n small =>
    rw [word, Word.IsShort, toInt_literal small]
    omega
  | complement _ _ ih => exact Word.isShort_not ih
  | operation operator _ _ _ left right => exact Word.isShort_apply operator left right

end BitTree

/-! ### Evaluation -/

namespace Evaluation

open Double (Represents)

variable {x y : Float} {a b : BitVec 64}

theorem represents_of_le {n : Int} (small : n.natAbs ≤ 2 ^ 53) : Represents (Double.ofInt n) n := by
  have room : 2 ^ 53 < Double.overflow := by decide +kernel
  have finite := Nat.lt_of_le_of_lt small room
  rcases Nat.lt_or_eq_of_le small with short | full
  · exact Double.represents_of_digits finite short (a := 0) (Nat.mul_one _).symm
  · exact Double.represents_of_digits finite (k := 2 ^ 52) (a := 1) (by decide) full

theorem toInteger_of_represents (exact : Represents x a.toInt) (position : Nat) :
    toInteger x position = .ok (Int64.ofBitVec a) := by
  have converted := exact.toInt64?_eq
  rw [if_pos ⟨a.le_toInt, a.toInt_lt⟩, Int64.ofInt_bitVecToInt] at converted
  rw [toInteger, converted]

/-- The outcome is the word, or the failure of the first shift that is not legal. -/
def Computes (outcome : Except Failure Float) (shifts : List Shift) (word : BitVec 64) : Prop :=
  match shifts.find? fun shift => ¬ shift.IsLegal with
  | none => ∃ x, outcome = .ok x ∧ Represents x word.toInt
  | some shift => outcome = failAt shift.position (.shiftOutOfRange (.ofBitVec shift.amount))

variable {shifts more : List Shift} {outcome : Except Failure Float} {position : Nat}

theorem computes_ok (exact : Represents x a.toInt) : Computes (.ok x) [] a :=
  ⟨x, rfl, exact⟩

theorem Computes.bind {f : Float → Except Failure Float} (h : Computes outcome shifts a)
    (next : ∀ x, Represents x a.toInt → Computes (f x) more b) : Computes (outcome >>= f) (shifts ++ more) b := by
  unfold Computes at h
  cases found : shifts.find? fun shift => ¬ shift.IsLegal with
  | none =>
    rw [found] at h
    obtain ⟨x, rfl, exact⟩ := h
    rw [Computes, List.find?_append, found, Option.none_or]
    exact next x exact
  | some shift =>
    rw [found] at h
    rw [Computes, List.find?_append, found, h]
    rfl

theorem applyUnary_computes (exact : Represents x a.toInt) (short : Word.IsShort a) :
    Computes (applyUnary .bitwiseNot x position) [] (~~~a) := by
  have integer := toInteger_of_represents exact position
  have applied : applyUnary .bitwiseNot x position = .ok (Double.ofInt (~~~a).toInt) := by
    rw [applyUnary, integer, ← Int64.toInt_ofBitVec, Int64.ofBitVec_not]
    rfl
  rw [applied]
  exact computes_ok (represents_of_le (Word.natAbs_le (Word.isShort_not short)))

theorem shiftAmount_eq (shift : Shift) : shiftAmount (.ofBitVec shift.amount) shift.position =
    if shift.IsLegal then .ok (.ofBitVec shift.amount)
    else failAt shift.position (.shiftOutOfRange (.ofBitVec shift.amount)) := by
  have low : 0 ≤ Int64.ofBitVec shift.amount ↔ 0 ≤ shift.amount.toInt := by
    rw [Int64.le_iff_toInt_le, Int64.toInt_ofBitVec]
    rfl
  have high : Int64.ofBitVec shift.amount < 64 ↔ shift.amount.toInt ≤ 63 := by
    rw [Int64.lt_iff_toInt_lt, Int64.toInt_ofBitVec]
    exact Int.lt_add_one_iff (b := 63)
  exact if_congr (and_congr low high) rfl rfl

/-- The amount of a legal shift is not reduced. -/
theorem shiftRight_ofBitVec (low : 0 ≤ b.toInt) (high : b.toInt ≤ 63) :
    Int64.ofBitVec a >>> Int64.ofBitVec b = .ofBitVec (a.sshiftRight b.toNat) := by
  have same : b.smod 64 = b := by
    apply BitVec.eq_of_toInt_eq
    rw [BitVec.toInt_smod]
    exact Int.fmod_eq_of_lt low (Int.lt_add_one_iff.mpr high)
  apply Int64.toBitVec_inj.mp
  rw [Int64.toBitVec_shiftRight]
  show a.sshiftRight' (b.smod 64) = a.sshiftRight b.toNat
  rw [same]
  rfl

theorem applyBinary_computes (operator : BitOperator) (left : Represents x a.toInt) (right : Represents y b.toInt)
    (short : Word.IsShort (operator.apply a b)) :
    Computes (applyBinary operator.toBinary x y position) (operator.shifts position b) (operator.apply a b) := by
  have exact := represents_of_le (Word.natAbs_le short)
  have applied : applyBinary operator.toBinary x y position = applyBitwise operator.toBinary x y position := by
    cases operator <;> rfl
  rw [applied, applyBitwise, toInteger_of_represents left, toInteger_of_represents right, ok_bind, ok_bind]
  cases operator with
  | and | or | xor => exact computes_ok exact
  | shiftRight =>
    have amount := shiftAmount_eq ⟨position, b⟩
    by_cases legal : Shift.IsLegal ⟨position, b⟩
    · rw [if_pos legal] at amount
      have nothing : [Shift.mk position b].find? (fun shift => ¬ shift.IsLegal) = none := by simp [legal]
      simp only [BitOperator.toBinary, amount, Except.map, ok_bind, BitOperator.shifts, Computes, nothing]
      rw [shiftRight_ofBitVec legal.1 legal.2, Int64.toInt_ofBitVec]
      exact ⟨_, rfl, exact⟩
    · rw [if_neg legal] at amount
      have found : [Shift.mk position b].find? (fun shift => ¬ shift.IsLegal) =
          some ⟨position, b⟩ := by simp [legal]
      simp only [BitOperator.toBinary, amount, BitOperator.shifts, Computes, found]
      rfl

theorem plain_computes (context : Context) (tree : BitTree) :
    Computes (plain context tree.toExpr) tree.shifts tree.word := by
  induction tree with
  | literal value n small exact => exact computes_ok (by rwa [BitTree.word, BitTree.toInt_literal small])
  | complement token operand ih =>
    rw [BitTree.toExpr, plain, BitTree.shifts, ← List.append_nil operand.shifts]
    exact ih.bind fun x exact => applyUnary_computes exact operand.isShort_word
  | operation operator token left right ihLeft ihRight =>
    -- The shifts of the left operand come first, then those of the right one, and the operator itself comes last.
    rw [BitTree.toExpr, plain, BitTree.shifts, List.append_assoc]
    apply ihLeft.bind
    intro x exactLeft
    apply ihRight.bind
    intro y exactRight
    exact applyBinary_computes operator exactLeft exactRight
      (BitTree.isShort_word (.operation operator token left right))

/-- In any context, a tree of integers below `2 ^ 53` under operations on bits has exactly the value that
it has in words of 64 bits, if the amounts of all right shifts are between 0 and 63. If not, the first
shift by another amount is reported as outside of its domain, at its position. There is no overflow. -/
theorem bits_evaluated (context : Context) (tree : BitTree) (room : tree.toExpr.nesting ≤ maxDepth) :
    ((∀ shift ∈ tree.shifts, shift.IsLegal) →
      ∃ x, evaluate context tree.toExpr = .ok x ∧ Represents x tree.word.toInt) ∧
      (∀ before shift after, tree.shifts = before ++ shift :: after → (∀ earlier ∈ before, earlier.IsLegal) →
        ¬ shift.IsLegal → ∃ failure, evaluate context tree.toExpr = .error failure ∧
          failure.category = .domainError ∧
          failure.position = shift.position) ∧
      ∀ failure, evaluate context tree.toExpr = .error failure → failure.category ≠ .numericOverflow := by
  have computes := plain_computes context tree
  rw [← evaluateWithin_eq_plain (Nat.lt_succ_of_le room), ← evaluate] at computes
  unfold Computes at computes
  refine ⟨fun legal => ?_, fun before shift after order earlier illegal => ?_, fun failure fails => ?_⟩
  · have none : tree.shifts.find? (fun shift => ¬ shift.IsLegal) = none := by
      simpa [List.find?_eq_none] using legal
    rwa [none] at computes
  · have first : tree.shifts.find? (fun shift => ¬ shift.IsLegal) = some shift :=
      List.find?_eq_some_iff_append.mpr ⟨by simpa using illegal, before, after, order, by simpa using earlier⟩
    rw [first] at computes
    exact ⟨_, computes, rfl, rfl⟩
  · rw [fails] at computes
    split at computes
    next =>
      obtain ⟨x, value, -⟩ := computes
      cases value
    next =>
      cases computes
      nofun

/-- The least of the integers is shifted by 52 bits, but not by 64. -/
theorem bits_evaluated_least :
    let context := Context.ofTable .bitwise
    let literal (n : Nat) (small : n < 2 ^ 53) : BitTree :=
      .literal (Double.ofInt n) n small (represents_of_le (Nat.le_of_lt small))
    let least : BitTree :=
      .complement { kind := .operator, text := "~", position := 0 } (literal (2 ^ 53 - 1) (by decide))
    let shifted n (small : n < 2 ^ 53) : BitTree :=
      .operation .shiftRight { kind := .operator, text := ">>", position := 18 } least (literal n small)
    let near := shifted 52 (by decide)
    let far := shifted 64 (by decide)
    (near.toExpr.nesting ≤ maxDepth ∧ (∀ shift ∈ near.shifts, shift.IsLegal) ∧
      ∃ x, evaluate context near.toExpr = .ok x ∧ Represents x (-2)) ∧
      far.toExpr.nesting ≤ maxDepth ∧ far.shifts = [⟨18, 64⟩] ∧ ¬ Shift.IsLegal ⟨18, 64⟩ ∧
        ∃ failure, evaluate context far.toExpr = .error failure ∧
          failure.category = .domainError ∧ failure.position = 18 := by
  intro context literal least shifted near far
  have room : near.toExpr.nesting ≤ maxDepth := by decide
  have roomFar : far.toExpr.nesting ≤ maxDepth := by decide
  have legal : ∀ shift ∈ near.shifts, shift.IsLegal := by
    have only : near.shifts = [⟨18, 52⟩] := rfl
    rw [only]
    exact List.forall_mem_singleton.mpr (by decide)
  have word : near.word.toInt = -2 := by decide
  obtain ⟨value, -⟩ := bits_evaluated context near room
  obtain ⟨-, refused, -⟩ := bits_evaluated context far roomFar
  exact ⟨⟨room, legal, word ▸ value legal⟩, roomFar, rfl, by decide, refused [] _ [] rfl nofun (by decide)⟩

end Evaluation

end Calculator
