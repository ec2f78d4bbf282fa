import Calculator.Proofs.Parser.Places
import Calculator.Proofs.Token.Nesting

/-!
# Long sums

A sum does not nest, so it may have any number of terms. Its tree is as high as it is long.
-/

namespace Calculator

open Token (Scans)

/-! ### Sums of zeros -/

def Token.zero (position : Nat) : Token := { kind := .number, text := "0", position }

def Token.plus (position : Nat) : Token := { kind := .operator, text := "+", position }

/-- `0`, and `n` times `+0`. -/
def zeros : Nat → List Char
  | 0 => ['0']
  | n + 1 => zeros n ++ ['+', '0']

def zeroTokens : Nat → List Token
  | 0 => [.zero 0]
  | n + 1 => zeroTokens n ++ [.plus (2 * n + 1), .zero (2 * n + 2)]

/-- The tree of such a sum, whose zeros have the value `x`. -/
def zeroSum (x : Float) : Nat → Expr
  | 0 => .literal x
  | n + 1 => .binary .add (.plus (2 * n + 1)) (zeroSum x n) (.literal x)

variable {table : OperatorTable} {x : Float} {rest : List Char}

theorem height_zeroSum (x : Float) (n : Nat) : (zeroSum x n).height = n + 1 := by
  induction n with
  | zero => rfl
  | succ n ih =>
    rw [zeroSum, Expr.height, ih, Expr.height]
    omega

/-! ### From the text to the tree -/

theorem scans_zero (position : Nat) (ends : rest = [] ∨ ∃ more, rest = '+' :: more) :
    Scans position ('0' :: rest) [.zero position] (position + 1) rest := by
  have read : Lexeme.read position '0' rest = .ok { kind := .number, text := ['0'] } := by
    rcases ends with rfl | ⟨more, rfl⟩ <;> rfl
  exact Token.scans_lexeme [] (Text.isBlank_of_isDigit rfl) read rfl

theorem scans_plus (position : Nat) (rest : List Char) :
    Scans position ('+' :: rest) [.plus position] (position + 1) rest := by
  have read : Lexeme.read position '+' rest = .ok { kind := .operator, text := ['+'] } := rfl
  exact Token.scans_lexeme [] (Text.isBlank_of_visible (by decide) (by decide)) read rfl

theorem scans_zeros (n : Nat) (ends : rest = [] ∨ ∃ more, rest = '+' :: more) :
    Scans 0 (zeros n ++ rest) (zeroTokens n) (2 * n + 1) rest := by
  induction n generalizing rest with
  | zero => exact scans_zero 0 ends
  | succ n ih =>
    have before := @ih ('+' :: '0' :: rest) (.inr ⟨_, rfl⟩)
    rw [zeros, List.append_assoc]
    exact before.trans ((scans_plus _ _).trans (scans_zero _ ends))

theorem scan_zeros (n : Nat) : Token.scan (String.ofList (zeros n)) = .ok (zeroTokens n ++ [.stop (2 * n + 1)]) := by
  apply Token.scan_of_scans
  have scans := @scans_zeros [] n (.inl rfl)
  rwa [List.append_nil, ← String.toList_ofList (l := zeros n)] at scans

theorem derives_zeros (adds : table.binary? "+" = some .add)
    (reads : ∀ position, (Token.zero position).numericValue = .ok x)
    (n : Nat) : Derives table (.expression BinaryOperator.add.precedence) (zeroTokens n) (zeroSum x n) := by
  have zero position : Derives table .primary [.zero position] (.literal x) := .number rfl (reads position)
  induction n with
  | zero => exact (zero 0).expression (by decide) (by decide)
  | succ n ih =>
    have last := zero (2 * n + 2)
    exact .operation (by decide) (by decide) ⟨rfl, adds⟩ rfl ih (last.expression (by decide) (by decide))

theorem passes_zeros (adds : table.binary? "+" = some .add) (n : Nat) : Adjacency.Passes table (zeroTokens n) := by
  have zero position : Adjacency.Passes table [.zero position] := Adjacency.passes_operand rfl
  induction n with
  | zero => exact zero 0
  | succ n ih =>
    intro earlier previous rest follows
    rw [zeroTokens, List.append_assoc]
    refine ih _ _ _ (Adjacency.follows_binary ⟨rfl, adds⟩ rfl fun _ _ => ?_)
    exact zero _ _ _ _ follows

/-- However many terms there are, no level stays open. -/
theorem nests_zeros (adds : table.binary? "+" = some .add)
    (limit n : Nat) (previous : Option Token) (rest : List Token) :
    Nesting.checkWithin table limit previous .start (zeroTokens n ++ rest) =
      Nesting.checkWithin table limit (some (.zero (2 * n))) .start rest := by
  have zero previous position rest : Nesting.checkWithin table limit previous .start (.zero position :: rest) =
      Nesting.checkWithin table limit (some (.zero position)) .start rest :=
    Nesting.checkWithin_cons (Nesting.step_other (by simp [Token.zero])) (Nat.zero_le _)
  induction n generalizing rest with
  | zero => exact zero previous 0 rest
  | succ n ih =>
    have plus : Nesting.step table (some (.zero (2 * n))) .start (.plus (2 * n + 1)) = .start :=
      Nesting.step_binary ⟨rfl, adds⟩ (by decide) rfl
    rw [zeroTokens, List.append_assoc, ih, List.cons_append, Nesting.checkWithin_cons plus (Nat.zero_le _)]
    exact zero _ _ rest

theorem convert_zeros (kind : ParserKind) (adds : table.binary? "+" = some .add)
    (reads : ∀ position, (Token.zero position).numericValue = .ok x) (n : Nat) :
    kind.convert table (String.ofList (zeros n)) = .ok (zeroSum x n) := by
  have scanned := scan_zeros n
  have nesting : Nesting.check table (zeroTokens n ++ [.stop (2 * n + 1)]) = .ok () := by
    rw [Nesting.check_eq_checkWithin, nests_zeros adds]
    exact Nesting.checkWithin_others (Nat.zero_le _) (by simp [Token.stop])
  have adjacency : Adjacency.check table (zeroTokens n ++ [.stop (2 * n + 1)]) = .ok () := by
    refine passes_zeros adds n none none [.stop _] fun _ _ _ => (Adjacency.checkFrom_other ?_ ?_).mpr rfl
    all_goals simp [Token.stop]
  apply ParserKind.convert_of_parse scanned
  refine (ParserKind.parse_eq_ok kind (ParserKind.stopsLast_of_scan scanned)).mpr ⟨nesting, adjacency, ?_⟩
  rw [ParserKind.body_of_scan scanned]
  exact (derives_zeros adds reads n).loosen (by decide) (by decide) (by decide)

/-! ### The value -/

theorem numericValue_zero (position : Nat) : (Token.zero position).numericValue = .ok (Double.ofInt 0) := by
  have read : Decimal.read? "0".toList = some (Double.ofInt 0) := by cbv
  simp only [Token.numericValue, Token.zero, read]
  rfl

theorem plain_zeroSum (context : Context) (n : Nat) :
    Evaluation.plain context (zeroSum (Double.ofInt 0) n) = .ok (Double.ofInt 0) := by
  have sum position : Evaluation.applyBinary .add (Double.ofInt 0) (Double.ofInt 0) position =
      .ok (Double.ofInt 0) := rfl
  induction n with
  | zero => rw [zeroSum, Evaluation.plain]
  | succ n ih =>
    rw [zeroSum, Evaluation.plain, ih, Evaluation.plain]
    exact sum (2 * n + 1)

theorem calculate_zeros {context : Context} (known : context.table = .arithmetic ∨ context.table = .bitwise)
    (kind : ParserKind)
    (n : Nat) : Evaluation.calculate context kind (String.ofList (zeros n)) = .ok (Double.ofInt 0) := by
  have adds : context.table.binary? "+" = some .add := by
    rcases known with same | same <;> rw [same] <;> rfl
  rw [Evaluation.calculate_eq_plain known (convert_zeros kind adds numericValue_zero n)]
  exact plain_zeroSum context n

end Calculator
