import Calculator.Proofs.Descent.Levels
import Calculator.Proofs.Descent.Pairing
import Calculator.Proofs.Parser

/-!
# The descent with fewer levels

With fewer levels than it opens, the descent is refused one at the first token that opens one too many. Where the
scan for nesting finds no such token, the allowed levels are enough.
-/

namespace Calculator.Descent

open Nesting (checkWithin)

variable {setting : Setting} {levels more : Nat} {token : Token} {given tokens rest : List Token}
variable {table : OperatorTable} {failure : Failure} {e : Expr}

/-! ### Levels that are refused -/

theorem parseWithin_eq_or_refused (le : levels ≤ more) :
    parseWithin levels table tokens = parseWithin more table tokens ∨
      ∃ position, parseWithin levels table tokens = failAt position .nestedTooDeeply := by
  have alike : Setting.Alike (fun _ => True) (fun _ => True) ⟨table, stopOf tokens⟩ ⟨table, stopOf tokens⟩ :=
    Setting.alike_self trivial (fun _ _ _ _ => trivial) fun _ _ _ => reports_any _
  have paired : Paired (fun _ => True) (fun _ => True)
      (fun failure => ∃ position, failure = ⟨.nestedTooDeeply, position⟩)
      (parseWithin levels table tokens) (parseWithin more table tokens) :=
    parseWithin_paired alike (fun _ _ => trivial) trivial le fun _ position => ⟨position, rfl⟩
  rcases paired.eq_or_cut with same | ⟨_, ⟨position, rfl⟩, refused⟩
  · exact .inl same
  · exact .inr ⟨position, refused⟩

/-- The scan of the part before the stop token succeeds where the descent does, and fails where the descent is
refused a level. -/
theorem parseWithin_follows :
    Ends (fun _ => checkWithin table levels none Nesting.start (body tokens) = .ok ())
      (fun failure => failure.cause = .nestedTooDeeply →
        checkWithin table levels none Nesting.start (body tokens) = .error failure)
      (parseWithin levels table tokens) := by
  by_cases empty : body tokens = []
  · rw [parseWithin_empty empty]
    exact nofun
  · rw [parseWithin_filled empty]
    have operands : Tracks ⟨table, stopOf tokens⟩ levels (· = 0) (operand ⟨table, stopOf tokens⟩ levels) :=
      fun _ _ _ _ _ opens _ => operand_tracks levels opens trivial
    have follows : Follows ⟨table, stopOf tokens⟩ (0 + levels) none ⟨[0], 0⟩ (body tokens) (Grown 0 0 []) _ :=
      expression_tracks operands rfl rfl
    rw [Nat.zero_add] at follows
    apply ends_bind follows
    rintro ⟨e, rest, shorter⟩ ⟨last, middle, -, -, same⟩
    cases rest with
    | nil => exact same
    | cons token rest => exact nofun

/-- At most `levels` levels may be open, and `token` opens one more. -/
def Exceeds (levels : Nat) (table : OperatorTable) (tokens : List Token) (token : Token) : Prop :=
  token ∈ tokens ∧ parseWithin levels table tokens = failAt token.position .nestedTooDeeply

theorem checkWithin_of_refused {position : Nat}
    (refused : parseWithin levels table tokens = failAt position .nestedTooDeeply) :
    checkWithin table levels none Nesting.start (body tokens) = failAt position .nestedTooDeeply := by
  have follows := @parseWithin_follows levels tokens table
  rw [refused] at follows
  exact follows rfl

theorem exceeds_of_refused {position : Nat}
    (refused : parseWithin levels table tokens = failAt position .nestedTooDeeply) :
    ∃ token, Exceeds levels table tokens token := by
  obtain ⟨token, member, same⟩ := Nesting.checkWithin_eq_error (checkWithin_of_refused refused)
  refine ⟨token, List.takeWhile_subset _ member, ?_⟩
  cases same
  exact refused

/-- The descent that may open a level at each token is refused none. -/
theorem parse_not_refused {position : Nat} : parse table tokens ≠ failAt position .nestedTooDeeply := by
  intro refused
  have fails := checkWithin_of_refused refused
  have short : (body tokens).length ≤ tokens.length := (List.takeWhile_prefix _).length_le
  have passes : checkWithin table tokens.length none Nesting.start (body tokens) = .ok () := by
    apply Nesting.checkWithin_of_short
    simpa [Nesting.start] using short
  rw [passes] at fails
  cases fails

/-- The descent with any number of levels does what it does with as many as it likes, or opens one too many. -/
theorem parseWithin_eq_parse_or_exceeds (levels : Nat) (table : OperatorTable) (tokens : List Token) :
    parseWithin levels table tokens = parse table tokens ∨ ∃ token, Exceeds levels table tokens token := by
  rcases Nat.le_total levels tokens.length with le | le
  · rcases parseWithin_eq_or_refused le with same | ⟨position, refused⟩
    · exact .inl same
    · exact .inr (exceeds_of_refused refused)
  · rcases parseWithin_eq_or_refused le with same | ⟨position, refused⟩
    · exact .inl same.symm
    · exact absurd refused parse_not_refused

theorem check_of_body (stops : Token.StopsLast tokens)
    (h : checkWithin table maxNesting none Nesting.start (body tokens) = .ok ()) :
    Nesting.check table tokens = .ok () := by
  obtain ⟨rest, same, stop⟩ := body_append_of_stopsLast stops
  rw [Nesting.check_eq_checkWithin]
  conv => lhs; rw [same]
  exact Nesting.checkWithin_append_stops (Nat.zero_le _) stop h

theorem check_of_exceeds (h : Exceeds maxNesting table tokens token) :
    Nesting.check table tokens = failAt token.position .nestedTooDeeply := by
  have fails := checkWithin_of_refused h.2
  obtain ⟨rest, same, -⟩ := body_append tokens
  rw [Nesting.check_eq_checkWithin]
  conv => lhs; rw [same]
  exact Nesting.checkWithin_append fails

theorem not_exceeds_of_check (accepted : Nesting.check table tokens = .ok ()) :
    ¬ Exceeds maxNesting table tokens token := by
  intro h
  rw [check_of_exceeds h] at accepted
  cases accepted

theorem parseWithin_of_check (accepted : Nesting.check table tokens = .ok ()) :
    parseWithin maxNesting table tokens = parse table tokens := by
  rcases parseWithin_eq_parse_or_exceeds maxNesting table tokens with same | ⟨token, exceeds⟩
  · exact same
  · exact absurd exceeds (not_exceeds_of_check accepted)

/-! ### A row of operators -/

theorem foldr_chain_error {operand : Parser Expr} {failure : Failure} (h : operand given = .error failure)
    (precedences : List Nat) : precedences.foldr (Descent.chain setting) operand given = .error failure := by
  induction precedences with
  | nil => exact h
  | cons n precedences ih =>
    rw [List.foldr_cons, Descent.chain, ih]
    rfl

theorem operand_unaries {front : List Token} {last : Token}
    (unary : ∀ token ∈ front ++ [last], ∃ operator, setting.table.IsUnary token operator) :
    operand setting front.length (front ++ last :: rest) = failAt last.position .nestedTooDeeply := by
  induction front with
  | nil =>
    obtain ⟨operator, means⟩ := unary last (List.mem_singleton_self last)
    show operandOver setting none (last :: rest) = _
    unfold operandOver
    simp only [unaryAt?_eq_some.mpr means]
    rfl
  | cons token front ih =>
    obtain ⟨operator, means⟩ := unary token List.mem_cons_self
    have deeper := ih fun token member => unary token (List.mem_cons_of_mem _ member)
    show operandOver setting (some (operand setting front.length)) (token :: (front ++ last :: rest)) = _
    unfold operandOver
    simp only [unaryAt?_eq_some.mpr means, enter, ok_bind, deeper]
    rfl

/-- A row of unary operators opens a level at each of them. -/
theorem parseWithin_unaries {front : List Token} {last : Token}
    (unary : ∀ token ∈ front ++ [last], ∃ operator, table.IsUnary token operator) :
    parseWithin front.length table (front ++ last :: rest) = failAt last.position .nestedTooDeeply := by
  have inside token (member : token ∈ front ++ [last]) : (!token.isStop) = true := by
    obtain ⟨operator, means⟩ := unary token member
    simp [Token.isStop, means.1]
  have same : body (front ++ last :: rest) = front ++ last :: body rest := by
    have split : front ++ last :: rest = (front ++ [last]) ++ rest := by simp
    rw [body, split, List.takeWhile_append_of_pos inside, List.append_assoc]
    rfl
  have filled : body (front ++ last :: rest) ≠ [] := by simp [same]
  rw [parseWithin_filled filled, same, expression, foldr_chain_error (operand_unaries unary)]
  rfl

/-! ### The levels that are allowed -/

/-- The scan for nesting accepts no list in which the descent opens more levels than are allowed. Where the descent
would open one too many, the scan fails at that token; and it accepts each list that the descent reads within the
allowed levels. -/
theorem check_limits_levels (table : OperatorTable) (tokens : List Token) (stops : Token.StopsLast tokens) :
    (∀ levels, parseWithin levels table tokens = parse table tokens ∨
      ∃ token, Exceeds levels table tokens token) ∧
      (Nesting.check table tokens = .ok () →
        parseWithin maxNesting table tokens = parse table tokens ∧
          ∀ token, ¬ Exceeds maxNesting table tokens token) ∧
      (∀ token, Exceeds maxNesting table tokens token →
        Nesting.check table tokens = failAt token.position .nestedTooDeeply) ∧
      ∀ e, parse table tokens = .ok e →
        (Nesting.check table tokens = .ok () ↔ parseWithin maxNesting table tokens = .ok e) := by
  refine ⟨fun levels => parseWithin_eq_parse_or_exceeds levels table tokens, fun accepted => ?_,
    fun token => check_of_exceeds, fun e read => ?_⟩
  · exact ⟨parseWithin_of_check accepted, fun token => not_exceeds_of_check accepted⟩
  constructor
  · intro accepted
    rw [parseWithin_of_check accepted, read]
  · intro within
    have follows := @parseWithin_follows maxNesting tokens table
    rw [within] at follows
    exact check_of_body stops follows

/-- Minus signs before a name: 128 of them open as many levels as are allowed, and one more is one too many. -/
theorem check_limits_signs :
    let sign (place : Nat) : Token := { kind := .operator, text := "-", position := place }
    let signs (n : Nat) : List Token :=
      (List.range n).map sign ++ [{ kind := .identifier, text := "x", position := n }, .stop (n + 1)]
    Token.StopsLast (signs 128) ∧ Nesting.check .arithmetic (signs 128) = .ok () ∧
      parseWithin 128 .arithmetic (signs 128) = parse .arithmetic (signs 128) ∧
      Token.StopsLast (signs 129) ∧ Exceeds 128 .arithmetic (signs 129) (sign 128) ∧
      Nesting.check .arithmetic (signs 129) = failAt 128 .nestedTooDeeply := by
  intro sign signs
  have stops n : Token.StopsLast (signs n) := by
    intro token member
    have member : (∃ place < n, sign place = token) ∨
        token = { kind := .identifier, text := "x", position := n } := by
      simpa [signs] using member
    rcases member with ⟨place, -, rfl⟩ | rfl <;> rfl
  have row n : ∀ token ∈ (List.range n).map sign, OperatorTable.arithmetic.IsUnary token .negate := by
    intro token member
    obtain ⟨place, -, rfl⟩ := List.mem_map.mp member
    exact ⟨rfl, rfl⟩
  have accepted : Nesting.check .arithmetic (signs 128) = .ok () := by
    rw [Nesting.check_eq_checkWithin]
    apply Nesting.checkWithin_unaries (fun token member => (row 128 token member).1) rfl
    · simp [maxNesting]
    · simp [Token.stop]
  have refused : parseWithin 128 .arithmetic (signs 129) = failAt 128 .nestedTooDeeply := by
    have split : (List.range 129).map sign = (List.range 128).map sign ++ [sign 128] := by
      rw [List.range_succ, List.map_append, List.map_singleton]
    have unary : ∀ token ∈ (List.range 128).map sign ++ [sign 128],
        ∃ operator, OperatorTable.arithmetic.IsUnary token operator :=
      fun token member => ⟨_, row 129 token (split ▸ member)⟩
    have refused rest : parseWithin 128 .arithmetic ((List.range 128).map sign ++ sign 128 :: rest) =
        failAt 128 .nestedTooDeeply :=
      parseWithin_unaries unary
    simp only [signs, split]
    rw [List.append_assoc]
    exact refused _
  have exceeds : Exceeds 128 .arithmetic (signs 129) (sign 128) :=
    ⟨List.mem_append_left _ (List.mem_map_of_mem (List.mem_range.mpr (by decide))), refused⟩
  exact ⟨stops 128, accepted, ((check_limits_levels .arithmetic _ (stops 128)).2.1 accepted).1,
    stops 129, exceeds, (check_limits_levels .arithmetic _ (stops 129)).2.2.1 _ exceeds⟩

end Calculator.Descent
