import Calculator.Proofs.Grammar.Basic
import Calculator.Token.Nesting

/-!
# The nesting that tokens are checked for

What one token does to the open levels, and the check with any limit. A token opens one level at most, so
short lists nest little.
-/

namespace Calculator.Nesting

variable {table : OperatorTable} {previous : Option Token} {token : Token} {tokens rest : List Token}
variable {nesting : Nesting} {outer : List Nat} {limit chain next depth : Nat}

theorem step_depth (table : OperatorTable) (previous : Option Token) (nesting : Nesting) (token : Token) :
    (nesting.step table previous token).depth ≤ nesting.depth + 1 := by
  obtain ⟨chains, depth⟩ := nesting
  unfold step
  cases token.kind with
  | opening => exact Nat.le_refl _
  | closing => rcases chains with _ | ⟨chain, _ | ⟨next, outer⟩⟩ <;> simp only [closeParenthesis] <;> omega
  | comma => cases chains <;> simp only [endChain] <;> omega
  | operator =>
    simp only
    split <;> cases chains <;> simp only [extendChain, endChain] <;> omega
  | _ => exact Nat.le_succ _

/-! ### What a token opens and closes -/

theorem step_other (kind : token.kind ∈ [.number, .identifier, .endOfInput, .unknown]) :
    nesting.step table previous token = nesting := by
  unfold step
  cases same : token.kind <;> simp_all

theorem step_opening (kind : token.kind = .opening) :
    step table previous ⟨outer, depth⟩ token = ⟨0 :: outer, depth + 1⟩ := by
  simp [step, kind]

theorem step_closing (kind : token.kind = .closing) :
    step table previous ⟨chain :: next :: outer, depth⟩ token = ⟨next :: outer, depth - (chain + 1)⟩ := by
  simp [step, kind, closeParenthesis]

theorem step_comma (kind : token.kind = .comma) :
    step table previous ⟨chain :: outer, depth⟩ token = ⟨0 :: outer, depth - chain⟩ := by
  simp [step, kind, endChain]

theorem step_unary (kind : token.kind = .operator) (opens : Token.opensOperand previous = true) :
    step table previous ⟨chain :: outer, depth⟩ token = ⟨(chain + 1) :: outer, depth + 1⟩ := by
  simp [step, kind, opensLevel, opens, extendChain]

theorem step_tightest {operator : BinaryOperator} (means : table.IsBinary token operator)
    (binds : operator.precedence = tightest) :
    step table previous ⟨chain :: outer, depth⟩ token = ⟨(chain + 1) :: outer, depth + 1⟩ := by
  have right := BinaryOperator.isRightAssociative_iff.mpr binds
  simp [step, means.1, opensLevel, means.2, right, extendChain]

theorem step_binary {operator : BinaryOperator} (means : table.IsBinary token operator)
    (binds : operator.precedence < tightest) (ends : Token.opensOperand previous = false) :
    step table previous ⟨chain :: outer, depth⟩ token = ⟨0 :: outer, depth - chain⟩ := by
  have left : operator.isRightAssociative = false := by
    apply Bool.eq_false_iff.mpr
    intro right
    have := BinaryOperator.isRightAssociative_iff.mp right
    omega
  simp [step, means.1, opensLevel, means.2, left, ends, endChain]

/-! ### The check with any limit -/

/-- Checks the tokens after `previous` for more than `limit` open levels. -/
def checkWithin (table : OperatorTable) (limit : Nat) (previous : Option Token) (nesting : Nesting) :
    List Token → Except Failure Unit
  | [] => .ok ()
  | token :: rest =>
    let nesting := nesting.step table previous token
    if limit < nesting.depth then failAt token.position .nestedTooDeeply
    else checkWithin table limit (some token) nesting rest

theorem checkFrom_eq_checkWithin :
    checkFrom table previous nesting tokens = checkWithin table maxNesting previous nesting tokens := by
  induction tokens generalizing previous nesting with
  | nil => rfl
  | cons token rest ih => rw [checkFrom, checkWithin, ih]

theorem check_eq_checkWithin : check table tokens = checkWithin table maxNesting none start tokens :=
  checkFrom_eq_checkWithin

theorem checkWithin_cons {after : Nesting} (same : nesting.step table previous token = after)
    (room : after.depth ≤ limit) :
    checkWithin table limit previous nesting (token :: rest) = checkWithin table limit (some token) after rest := by
  rw [checkWithin, same]
  exact if_neg (Nat.not_lt.mpr room)

theorem checkWithin_full {after : Nesting} (same : nesting.step table previous token = after)
    (full : limit < after.depth) :
    checkWithin table limit previous nesting (token :: rest) = failAt token.position .nestedTooDeeply := by
  rw [checkWithin, same]
  exact if_pos full

theorem checkWithin_append {failure : Failure} (h : checkWithin table limit previous nesting tokens = .error failure) :
    checkWithin table limit previous nesting (tokens ++ rest) = .error failure := by
  induction tokens generalizing previous nesting with
  | nil => cases h
  | cons token tokens ih =>
    rw [List.cons_append, checkWithin] at *
    by_cases full : limit < (nesting.step table previous token).depth
    · rwa [if_pos full] at *
    · rw [if_neg full] at *
      exact ih h

/-- Levels are refused at a token. -/
theorem checkWithin_eq_error {failure : Failure}
    (h : checkWithin table limit previous nesting tokens = .error failure) :
    ∃ token ∈ tokens, failure = { cause := .nestedTooDeeply, position := token.position } := by
  induction tokens generalizing previous nesting with
  | nil => cases h
  | cons token tokens ih =>
    rw [checkWithin] at h
    by_cases full : limit < (nesting.step table previous token).depth
    · rw [if_pos full] at h
      cases h
      exact ⟨token, List.mem_cons_self, rfl⟩
    · rw [if_neg full] at h
      obtain ⟨other, member, same⟩ := ih h
      exact ⟨other, List.mem_cons_of_mem _ member, same⟩

theorem checkWithin_others (room : nesting.depth ≤ limit)
    (other : ∀ token ∈ tokens, token.kind ∈ [.number, .identifier, .endOfInput, .unknown]) :
    checkWithin table limit previous nesting tokens = .ok () := by
  induction tokens generalizing previous with
  | nil => rfl
  | cons token rest ih =>
    rw [checkWithin_cons (step_other (other token List.mem_cons_self)) room]
    exact ih fun token member => other token (List.mem_cons_of_mem _ member)

theorem checkWithin_append_stops (room : nesting.depth ≤ limit) (stop : ∀ token ∈ rest, token.kind = .endOfInput)
    (h : checkWithin table limit previous nesting tokens = .ok ()) :
    checkWithin table limit previous nesting (tokens ++ rest) = .ok () := by
  induction tokens generalizing previous nesting with
  | nil => exact checkWithin_others room fun token member => by simp [stop token member]
  | cons token tokens ih =>
    rw [List.cons_append, checkWithin] at *
    by_cases full : limit < (nesting.step table previous token).depth
    · rw [if_pos full] at h
      cases h
    · rw [if_neg full] at *
      exact ih (Nat.not_lt.mp full) h

/-- A row of operators in front of an operand opens a level at each of them. -/
theorem checkWithin_unaries {front : List Token} (kind : ∀ token ∈ front, token.kind = .operator)
    (opens : Token.opensOperand previous = true) (room : depth + front.length ≤ limit)
    (other : ∀ token ∈ rest, token.kind ∈ [.number, .identifier, .endOfInput, .unknown]) :
    checkWithin table limit previous ⟨chain :: outer, depth⟩ (front ++ rest) = .ok () := by
  induction front generalizing previous chain depth with
  | nil => exact checkWithin_others room other
  | cons token front ih =>
    rw [List.length_cons] at room
    have operator := kind token List.mem_cons_self
    rw [List.cons_append, checkWithin_cons (step_unary operator opens) (by show depth + 1 ≤ limit; omega)]
    apply ih (fun token member => kind token (List.mem_cons_of_mem _ member))
    · exact Token.opensOperand_after (by simp [operator])
    · omega

theorem checkWithin_of_short (short : nesting.depth + tokens.length ≤ limit) :
    checkWithin table limit previous nesting tokens = .ok () := by
  induction tokens generalizing previous nesting with
  | nil => rfl
  | cons token rest ih =>
    have grows := step_depth table previous nesting token
    rw [List.length_cons] at short
    rw [checkWithin_cons rfl (by omega)]
    exact ih (by omega)

theorem check_of_short (short : tokens.length ≤ maxNesting) : check table tokens = .ok () := by
  rw [check_eq_checkWithin]
  apply checkWithin_of_short
  simpa [start] using short

end Calculator.Nesting
