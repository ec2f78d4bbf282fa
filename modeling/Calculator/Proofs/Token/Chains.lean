import Mathlib
import Calculator.Token.Nesting

/-!
# Chains and depth

The depth at any token is the length of all chains with a level for each open parenthesis. So no token
closes more levels than are open, in whatever order the tokens come, and tokens that are accepted never
nest deeper than is allowed.
-/

namespace Calculator.Nesting

variable {table : OperatorTable} {previous : Option Token} {token : Token} {tokens : List Token} {nesting : Nesting}

/-! ### The levels at each token -/

/-- The levels that are open after tokens that follow `previous`, with `nesting` open before them. -/
def afterFrom (table : OperatorTable) (previous : Option Token) (nesting : Nesting) : List Token → Nesting
  | [] => nesting
  | token :: rest => afterFrom table (some token) (nesting.step table previous token) rest

/-- The levels that are open after tokens. -/
def after (table : OperatorTable) (tokens : List Token) : Nesting :=
  afterFrom table none start tokens

theorem afterFrom_concat (tokens : List Token) (token : Token) : afterFrom table previous nesting (tokens ++ [token]) =
    (afterFrom table previous nesting tokens).step table (tokens.getLast?.or previous) token := by
  induction tokens generalizing previous nesting with
  | nil => rfl
  | cons first rest ih =>
    rw [List.cons_append, afterFrom, afterFrom, ih, List.getLast?_cons]
    cases rest.getLast? <;> rfl

theorem after_concat (tokens : List Token) (token : Token) :
    after table (tokens ++ [token]) = (after table tokens).step table tokens.getLast? token := by
  rw [after, afterFrom_concat, Option.or_none, after]

/-- The check compares the depth after each of the tokens with the limit. -/
theorem checkFrom_eq_ok_iff : checkFrom table previous nesting tokens = .ok () ↔
    ∀ n < tokens.length, (afterFrom table previous nesting (tokens.take (n + 1))).depth ≤ maxNesting := by
  induction tokens generalizing previous nesting with
  | nil => exact iff_of_true rfl nofun
  | cons token rest ih =>
    rw [checkFrom]
    by_cases full : maxNesting < (nesting.step table previous token).depth
    · rw [if_pos full]
      refine iff_of_false nofun fun all => ?_
      exact absurd full (Nat.not_lt.mpr (all 0 (Nat.zero_lt_succ _)))
    · rw [if_neg full, ih]
      constructor
      · intro all n inside
        cases n with
        | zero => exact Nat.not_lt.mp full
        | succ n => exact all n (Nat.lt_of_succ_lt_succ inside)
      · exact fun all n inside => all (n + 1) (Nat.succ_lt_succ inside)

theorem check_eq_ok_iff : check table tokens = .ok () ↔
    ∀ n, (after table (tokens.take n)).depth ≤ maxNesting := by
  rw [check, checkFrom_eq_ok_iff]
  constructor
  · intro all n
    -- Past the last token nothing changes, and before the first one nothing is open.
    rw [List.take_eq_take_min]
    generalize bounded : min n tokens.length = k
    cases k with
    | zero => exact Nat.zero_le _
    | succ k =>
      have inside : k < tokens.length := by omega
      exact all k inside
  · exact fun all n _ => all (n + 1)

/-! ### What a step takes and adds -/

/-- The levels that a step takes from the depth: a chain that ends, and the parenthesis around it if that is closed. -/
def taken (table : OperatorTable) (previous : Option Token) (nesting : Nesting) (token : Token) : Nat :=
  match token.kind, nesting.chains with
  | .closing, chain :: _ :: _ => chain + 1
  | .comma, chain :: _ => chain
  | .operator, chain :: _ => if opensLevel table previous token then 0 else chain
  | _, _ => 0

/-- The levels that a step adds to the depth. -/
def added (table : OperatorTable) (previous : Option Token) (nesting : Nesting) (token : Token) : Nat :=
  match token.kind, nesting.chains with
  | .opening, _ => 1
  | .operator, _ :: _ => if opensLevel table previous token then 1 else 0
  | _, _ => 0

theorem depth_step (table : OperatorTable) (previous : Option Token) (nesting : Nesting) (token : Token) :
    (nesting.step table previous token).depth =
      nesting.depth - taken table previous nesting token + added table previous nesting token := by
  obtain ⟨chains, depth⟩ := nesting
  unfold step taken added
  cases token.kind with
  | closing => rcases chains with _ | ⟨chain, _ | ⟨next, outer⟩⟩ <;> rfl
  | comma => cases chains <;> rfl
  | operator =>
    cases chains with
    | nil => cases opensLevel table previous token <;> rfl
    | cons chain outer => cases opensLevel table previous token <;> rfl
  | _ => rfl

/-! ### The chains make up the depth -/

/-- There is a chain, and the chains and the parentheses between them make up the depth. -/
structure Accounted (nesting : Nesting) : Prop where
  filled : nesting.chains ≠ []
  total : nesting.depth = nesting.chains.sum + (nesting.chains.length - 1)

theorem accounted_cons {chain depth : Nat} {outer : List Nat} :
    Accounted ⟨chain :: outer, depth⟩ ↔ depth = chain + outer.sum + outer.length := by
  constructor
  · intro h
    simpa using h.total
  · exact fun total => ⟨List.cons_ne_nil chain outer, by simpa using total⟩

theorem accounted_start : Accounted start :=
  accounted_cons.mpr rfl

/-- The chain that ends is part of the depth, and so is the level of a parenthesis inside another chain. -/
theorem Accounted.taken_le (h : Accounted nesting) (table : OperatorTable) (previous : Option Token) (token : Token) :
    taken table previous nesting token ≤ nesting.depth := by
  obtain ⟨_ | ⟨chain, outer⟩, depth⟩ := nesting
  · exact absurd rfl h.filled
  have total := accounted_cons.mp h
  unfold taken
  dsimp only
  split
  next same =>
    cases same
    rw [List.length_cons] at total
    omega
  next same =>
    cases same
    omega
  next same =>
    cases same
    split <;> omega
  next => exact Nat.zero_le _

theorem Accounted.step (h : Accounted nesting) (table : OperatorTable) (previous : Option Token) (token : Token) :
    Accounted (nesting.step table previous token) := by
  obtain ⟨_ | ⟨chain, outer⟩, depth⟩ := nesting
  · exact absurd rfl h.filled
  have total := accounted_cons.mp h
  have ended : depth - chain = 0 + outer.sum + outer.length := by omega
  have extended : depth + 1 = chain + 1 + outer.sum + outer.length := by omega
  unfold Nesting.step
  cases token.kind with
  | opening =>
    have opened : depth + 1 = 0 + (chain :: outer).sum + (chain :: outer).length := by
      rw [List.sum_cons, List.length_cons]
      omega
    exact accounted_cons.mpr opened
  | closing =>
    cases outer with
    | nil => exact h
    | cons next outer =>
      rw [List.sum_cons, List.length_cons] at total
      have closed : depth - (chain + 1) = next + outer.sum + outer.length := by omega
      exact accounted_cons.mpr closed
  | comma => exact accounted_cons.mpr ended
  | operator =>
    dsimp only
    split
    · exact accounted_cons.mpr extended
    · exact accounted_cons.mpr ended
  | _ => exact h

theorem accounted_afterFrom (h : Accounted nesting) (tokens : List Token) :
    Accounted (afterFrom table previous nesting tokens) := by
  induction tokens generalizing previous nesting with
  | nil => exact h
  | cons token rest ih => exact ih (h.step table previous token)

theorem accounted_after (table : OperatorTable) (tokens : List Token) : Accounted (after table tokens) :=
  accounted_afterFrom accounted_start tokens

/-- At each token the chains make up the depth, so the token takes no more from it than there is. Tokens are accepted if
they nest no deeper than 128 levels after each of them. -/
theorem chains_make_up_depth (table : OperatorTable) (tokens : List Token) :
    (∀ n, let nesting := after table (tokens.take n)
      (nesting.chains ≠ [] ∧ nesting.depth = nesting.chains.sum + (nesting.chains.length - 1)) ∧
        ∀ token, tokens[n]? = some token →
          taken table (tokens.take n).getLast? nesting token ≤ nesting.depth ∧
            (after table (tokens.take (n + 1))).depth =
              nesting.depth - taken table (tokens.take n).getLast? nesting token +
                added table (tokens.take n).getLast? nesting token) ∧
      (check table tokens = .ok () ↔ ∀ n, (after table (tokens.take n)).depth ≤ 128) := by
  refine ⟨?_, check_eq_ok_iff⟩
  intro n nesting
  have accounted : Accounted nesting := accounted_after table (tokens.take n)
  refine ⟨⟨accounted.filled, accounted.total⟩, fun token here => ⟨accounted.taken_le table _ token, ?_⟩⟩
  rw [List.take_add_one, here, Option.toList_some, after_concat]
  exact depth_step table _ nesting token

/-- A parenthesis with two signs in it is closed with both of them, and the surplus one behind it takes nothing. -/
theorem chains_make_up_depth_of_signs :
    let opening : Token := { kind := .opening, text := "(", position := 0 }
    let minus : Token := { kind := .operator, text := "-", position := 1 }
    let closing : Token := { kind := .closing, text := ")", position := 2 }
    let tokens := [opening, minus, minus, closing, closing]
    let nesting := after .arithmetic (tokens.take 3)
    check .arithmetic tokens = .ok () ∧ tokens[3]? = some closing ∧
      nesting.chains = [2, 0] ∧ nesting.depth ≤ 128 ∧
      taken .arithmetic (some minus) nesting closing = 3 ∧ 3 ≤ nesting.depth ∧
        (after .arithmetic (tokens.take 4)).depth =
          nesting.depth - 3 + added .arithmetic (some minus) nesting closing := by
  intro opening minus closing tokens nesting
  have accepted : check .arithmetic tokens = .ok () := by decide +kernel
  have chains : nesting.chains = [2, 0] := by decide +kernel
  have all : taken .arithmetic (some minus) nesting closing = 3 := by decide +kernel
  obtain ⟨steps, limited⟩ := chains_make_up_depth .arithmetic tokens
  obtain ⟨covered, next⟩ := (steps 3).2 closing rfl
  have previous : (tokens.take 3).getLast? = some minus := rfl
  rw [previous, all] at covered next
  exact ⟨accepted, rfl, chains, limited.mp accepted 3, all, covered, next⟩

end Calculator.Nesting
