import Calculator.Proofs.Descent.Limit
import Calculator.Proofs.Evaluation

/-!
# The nesting of what the descent reads

An expression read without opening a level nests once for each precedence below the tightest, because a chain of one
precedence is one level. A level that the descent opens adds that many and two more at most: one for the call around
an argument, and one for the power around a base.
-/

namespace Calculator

namespace Expr

variable {e : Expr} {n : Nat}

theorem chainNesting_le : e.chainNesting ≤ e.nesting := by
  cases e with
  | binary operator token left right =>
    rw [chainNesting, nesting]
    omega
  | literal | unary | call => exact Nat.le_refl _

theorem levelsAbove_le {arguments : List Expr} (h : ∀ e ∈ arguments, e.nesting ≤ n) :
    levelsAbove arguments ≤ n + 1 := by
  apply Nat.le_of_lt_succ
  apply levelsAbove_lt.mpr
  exact fun e member => Nat.lt_succ_of_le (h e member)

end Expr

/-- Each binary operator of the table has one of the precedences. -/
def OperatorTable.Within (table : OperatorTable) (precedences : List Nat) : Prop :=
  ∀ symbol operator, table.binary? symbol = some operator → operator.precedence ∈ precedences

namespace Descent

/-- How many of the precedences are at least `n` and below the tightest. -/
def looser (precedences : List Nat) (n : Nat) : Nat :=
  precedences.countP fun m => n ≤ m ∧ m < tightest

variable {precedences : List Nat} {n bound levels : Nat}

theorem looser_tightest : looser precedences tightest = 0 := by
  apply List.countP_eq_zero.mpr
  intro m _
  simp

theorem looser_eq (upper : n < tightest) :
    looser precedences n = looser precedences (n + 1) + precedences.count n := by
  induction precedences with
  | nil => rfl
  | cons m rest ih =>
    unfold looser at *
    rw [List.countP_cons, List.countP_cons, List.count_cons, ih]
    by_cases same : m = n
    · subst same
      simp [upper, Nat.add_assoc]
    · have next : n ≤ m ↔ n + 1 ≤ m := by omega
      simp only [next, beq_iff_eq, same, if_false]
      omega

theorem looser_lt (upper : n < tightest) (member : n ∈ precedences) :
    looser precedences (n + 1) < looser precedences n := by
  have occurs : 0 < precedences.count n := List.count_pos_iff.mpr member
  rw [looser_eq upper]
  omega

theorem looser_le_length : looser precedences n ≤ precedences.length := List.countP_le_length

theorem looser_lt_length (member : tightest ∈ precedences) : looser precedences n < precedences.length := by
  apply Nat.lt_of_le_of_ne looser_le_length
  intro same
  have all := List.countP_eq_length.mp same tightest member
  simp at all

/-! ### Chains -/

/-- The expression nests over `looser` levels and those of its operands. If no level is its own, its chain is an
operand. -/
structure Spans (bound looser : Nat) (e : Expr) : Prop where
  nesting : e.nesting ≤ looser + bound
  chain : e.chainNesting + 1 ≤ max looser 1 + bound

variable {setting : Setting} {operand : Parser Expr} {left e : Expr} {list : List Expr} {given tokens rest : List Token}

theorem spans_binary {less more : Nat} {operator : BinaryOperator} {token : Token} {right : Expr} (lt : less < more)
    (l : Spans bound more left) (r : right.nesting ≤ less + bound) :
    Spans bound more (.binary operator token left right) := by
  have chain := l.chain
  constructor
  · rw [Expr.nesting]
    omega
  · rw [Expr.chainNesting]
    omega

theorem Spans.mono {less more : Nat} (h : Spans bound less e) (le : less ≤ more) : Spans bound more e := by
  have nesting := h.nesting
  have chain := h.chain
  constructor <;> omega

section

variable (within : setting.table.Within precedences)
  (operands : ∀ given e rest, Yields (operand given) e rest → e.nesting ≤ bound)

include within operands

theorem level_spans (upper : n ≤ tightest) (h : Yields (level setting operand n given) e rest) :
    Spans bound (looser precedences n) e := by
  obtain ⟨k, hk⟩ := Nat.exists_eq_add_of_le upper
  induction k generalizing n given e rest with
  | zero =>
    obtain rfl : n = tightest := hk.symm
    have nesting := operands _ _ _ h
    have chain := e.chainNesting_le
    rw [looser_tightest]
    constructor <;> omega
  | succ k ih =>
    have below : n < tightest := by omega
    rw [level_of_lt below] at h
    obtain ⟨left, tokens, first, chains⟩ := yields_chain.mp h
    have deeper {given e rest} (h : Yields (level setting operand (n + 1) given) e rest) := ih below h (by omega)
    have start : Spans bound (looser precedences n) left := by
      apply (deeper first).mono
      rw [looser_eq below]
      exact Nat.le_add_right _ _
    clear h first
    induction chains with
    | stop => exact start
    | @step left right _ token operator _ _ _ means r _ ih =>
      obtain ⟨⟨-, means⟩, binds⟩ := binaryAt?_eq_some.mp means
      have member : n ∈ precedences := binds ▸ within _ _ means
      exact ih (spans_binary (looser_lt below member) start (deeper r).nesting)

theorem expression_nesting (h : Yields (expression setting operand given) e rest) :
    e.nesting ≤ looser precedences 1 + bound :=
  (level_spans within operands (show 1 ≤ tightest by decide) h).nesting

end

/-! ### Arguments and operands -/

theorem gathers_forall {argument : Parser Expr} {before : List Expr} {good : Expr → Prop}
    (each : ∀ given e rest, Yields (argument given) e rest → good e) (h : Gathers argument before tokens list rest)
    (earlier : ∀ e ∈ before, good e) : ∀ e ∈ list, good e := by
  induction h with
  | close =>
    intro e member
    exact earlier e (List.mem_reverse.mp member)
  | @next _ _ e _ _ _ _ _ h _ ih =>
    apply ih
    intro other member
    rcases List.mem_cons.mp member with rfl | member
    · exact each _ _ _ h
    · exact earlier other member

theorem arguments_forall {argument : Parser Expr} {good : Expr → Prop}
    (each : ∀ given e rest, Yields (argument given) e rest → good e)
    (h : Yields (arguments setting argument tokens) list rest) : ∀ e ∈ list, good e := by
  by_cases empty : ∃ token ∈ tokens.head?, token.kind = .closing
  · obtain ⟨token, head, kind⟩ := empty
    obtain ⟨others, rfl⟩ := List.head?_eq_some_iff.mp head
    obtain ⟨rfl, rfl⟩ := (yields_arguments_nil kind).mp h
    simp
  · have filled : ∀ token ∈ tokens.head?, token.kind ≠ .closing :=
      fun token head kind => empty ⟨token, head, kind⟩
    obtain ⟨e, after, first, more⟩ := (yields_arguments filled).mp h
    apply gathers_forall each more
    intro other member
    rw [List.mem_singleton.mp member]
    exact each _ _ _ first

section

variable (within : setting.table.Within precedences)
  (deeper : ∀ lower, levels = lower + 1 → ∀ given e rest,
    Yields (Descent.operand setting lower given) e rest → e.nesting ≤ (precedences.length + 1) * lower)

include within deeper

theorem primary_nesting (h : Yields (primary setting (nested setting levels) given) e rest) :
    e.nesting = 0 ∨ ∃ lower, levels = lower + 1 ∧
      e.nesting ≤ looser precedences 1 + (precedences.length + 1) * lower + 1 := by
  have inside {operand : Parser Expr} (room : nested setting levels = some operand) : ∃ lower, levels = lower + 1 ∧
      ∀ given e rest, Yields (expression setting operand given) e rest →
        e.nesting ≤ looser precedences 1 + (precedences.length + 1) * lower := by
    cases levels with
    | zero => cases room
    | succ lower =>
      cases room
      exact ⟨lower, rfl, fun given e rest h => expression_nesting within (deeper lower rfl) h⟩
  cases primary_of_yields h with
  | number | constant => exact .inl rfl
  | call kind opens room h =>
    obtain ⟨lower, same, each⟩ := inside room
    exact .inr ⟨lower, same, Expr.levelsAbove_le (arguments_forall each h)⟩
  | parenthesized opens room h =>
    obtain ⟨lower, same, each⟩ := inside room
    obtain ⟨-, closing, -, h⟩ := yields_parenthesized.mp h
    exact .inr ⟨lower, same, Nat.le_succ_of_le (each _ _ _ h)⟩

theorem power_nesting (h : Yields (power setting (nested setting levels) given) e rest) :
    e.nesting ≤ (precedences.length + 1) * levels := by
  have shorter : looser precedences 1 ≤ precedences.length := looser_le_length
  cases power_of_yields h with
  | plain h =>
    rcases primary_nesting within deeper h with leaf | ⟨lower, rfl, nesting⟩
    · omega
    · rw [Nat.mul_succ]
      omega
  | @raised base exponent token operator operand _ _ _ b means room x =>
    obtain ⟨⟨-, means⟩, binds⟩ := binaryAt?_eq_some.mp means
    have less : looser precedences 1 < precedences.length := looser_lt_length (binds ▸ within _ _ means)
    have chain := base.chainNesting_le
    cases levels with
    | zero => cases room
    | succ lower =>
      cases room
      have right := deeper lower rfl _ _ _ x
      have left : base.nesting ≤ (precedences.length + 1) * lower + precedences.length := by
        rcases primary_nesting within deeper b with leaf | ⟨_, same, nesting⟩
        · omega
        · cases same
          omega
      rw [Expr.nesting, Nat.mul_succ]
      omega

theorem operandOver_nesting (h : Yields (operandOver setting (nested setting levels) given) e rest) :
    e.nesting ≤ (precedences.length + 1) * levels := by
  cases yields_operandOver.mp h with
  | plain first h => exact power_nesting within deeper h
  | unary means room h =>
    cases levels with
    | zero => cases room
    | succ lower =>
      cases room
      have inner := deeper lower rfl _ _ _ h
      rw [Expr.nesting, Nat.mul_succ]
      omega

end

theorem operand_nesting (within : setting.table.Within precedences) (levels : Nat) (given : List Token) (e : Expr)
    (rest : List Token) (h : Yields (Descent.operand setting levels given) e rest) :
    e.nesting ≤ (precedences.length + 1) * levels := by
  induction levels generalizing given e rest with
  | zero => exact operandOver_nesting within nofun h
  | succ levels ih =>
    refine operandOver_nesting within ?_ h
    rintro _ ⟨⟩
    exact ih

/-! ### Whole lists -/

variable {table : OperatorTable}

theorem parseWithin_nesting (within : table.Within precedences) (h : parseWithin levels table tokens = .ok e) :
    e.nesting ≤ looser precedences 1 + (precedences.length + 1) * levels := by
  by_cases empty : body tokens = []
  · rw [parseWithin_empty empty] at h
    cases h
  · rw [parseWithin_filled empty] at h
    obtain ⟨⟨result, rest, shorter⟩, read, h⟩ := bind_eq_ok.mp h
    cases rest with
    | cons => cases h
    | nil =>
      cases h
      have operands := @operand_nesting precedences ⟨table, stopOf tokens⟩ within levels
      exact expression_nesting within operands ⟨_, read, rfl, rfl⟩

end Descent

theorem ParserKind.nesting_le {kind : ParserKind}
    {table : OperatorTable} {tokens : List Token} {precedences : List Nat} {e : Expr}
    (within : table.Within precedences) (h : kind.parse table tokens = .ok e) :
    e.nesting ≤ Descent.looser precedences 1 + (precedences.length + 1) * maxNesting := by
  obtain ⟨nesting, -, derived⟩ := parse_sound kind h
  apply Descent.parseWithin_nesting within
  rw [Descent.parseWithin_of_check nesting, Descent.parse_eq_ok]
  exact derived

end Calculator
