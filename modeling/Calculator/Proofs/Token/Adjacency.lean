import Calculator.Proofs.Failure
import Calculator.Proofs.Grammar.Basic

/-!
# What passes the check of neighbours
-/

namespace Calculator.Adjacency

variable {table : OperatorTable} {earlier previous next : Option Token} {token : Token} {rest : List Token}

theorem checkFrom_cons : checkFrom table earlier previous (token :: rest) = .ok () ↔
    token.kind ≠ .unknown ∧
      (token.kind = .operator → checkOperator table earlier previous rest.head? token = .ok ()) ∧
        checkFrom table previous (some token) rest = .ok () := by
  rw [checkFrom]
  by_cases unknown : token.kind = .unknown
  · simp [unknown, failAt]
  by_cases operator : token.kind = .operator
  · simp [Token.isOperator, operator, check_bind_eq_ok]
  · simp [unknown, Token.isOperator, operator]

theorem checkOperator_eq_ok : checkOperator table earlier previous next token = .ok () ↔
    next.any opensOperand = true ∧
      if Token.opensOperand previous = true then
        (table.unary? token.text).isSome = true ∧
          ¬ (token.text = "+" ∧ previous.any Token.isOperator = true ∧ earlier.any Token.endsOperand = true)
      else (table.binary? token.text).isSome = true := by
  unfold checkOperator
  cases place : Token.opensOperand previous with
  | false => cases table.binary? token.text <;> cases next.any opensOperand <;> simp [failAt, pure, Except.pure]
  | true =>
    by_cases sign : token.text = "+" ∧ previous.any Token.isOperator = true ∧ earlier.any Token.endsOperand = true
    · cases table.unary? token.text <;> simp [sign, failAt]
    · cases table.unary? token.text <;> cases next.any opensOperand <;> simp [sign, failAt, pure, Except.pure]

/-! ### Operands that pass -/

/-- The tokens pass wherever an operand has ended. -/
def Follows (table : OperatorTable) (rest : List Token) : Prop :=
  ∀ earlier previous, previous.any Token.endsOperand = true → checkFrom table earlier previous rest = .ok ()

/-- The tokens pass in front of all that passes after an operand. -/
def Passes (table : OperatorTable) (tokens : List Token) : Prop :=
  ∀ earlier previous rest, Follows table rest → checkFrom table earlier previous (tokens ++ rest) = .ok ()

variable {tokens before after : List Token} {name opening closing comma : Token}

theorem checkFrom_other (known : token.kind ≠ .unknown) (other : token.kind ≠ .operator) :
    checkFrom table earlier previous (token :: rest) = .ok () ↔
      checkFrom table previous (some token) rest = .ok () := by
  rw [checkFrom_cons]
  exact ⟨fun h => h.2.2, fun h => ⟨known, fun kind => absurd kind other, h⟩⟩

theorem follows_closing (kind : token.kind = .closing) (h : Follows table rest) : Follows table (token :: rest) :=
  fun _ _ _ => (checkFrom_other (by simp [kind]) (by simp [kind])).mpr (h _ _ (by simp [Token.endsOperand, kind]))

theorem follows_comma (kind : token.kind = .comma)
    (h : ∀ earlier previous, checkFrom table earlier previous rest = .ok ()) : Follows table (token :: rest) :=
  fun _ _ _ => (checkFrom_other (by simp [kind]) (by simp [kind])).mpr (h _ _)

theorem follows_binary {operator : BinaryOperator} (means : table.IsBinary token operator)
    (opens : rest.head?.any opensOperand = true)
    (h : ∀ earlier previous, checkFrom table earlier previous rest = .ok ()) : Follows table (token :: rest) := by
  intro earlier previous ends
  refine checkFrom_cons.mpr ⟨by simp [means.1], fun _ => checkOperator_eq_ok.mpr ⟨opens, ?_⟩, h _ _⟩
  simp [Token.opensOperand, ends, means.2]

theorem passes_operand (h : token.endsOperand = true) : Passes table [token] := by
  intro earlier previous rest follows
  refine (checkFrom_other ?_ ?_).mpr (follows _ _ h)
  all_goals
    intro kind
    simp [Token.endsOperand, kind] at h

theorem passes_binary {operator : BinaryOperator} (opens : opening.kind = .opening) (closes : closing.kind = .closing)
    (means : table.IsBinary token operator) (begins : after.head?.any opensOperand = true)
    (l : Passes table before) (r : Passes table after) :
    Passes table (opening :: (before ++ token :: (after ++ [closing]))) := by
  intro earlier previous rest follows
  rw [List.cons_append, List.append_assoc, List.cons_append,
    List.append_assoc, checkFrom_other (by simp [opens]) (by simp [opens])]
  refine l _ _ _ (follows_binary means ?_ fun _ _ => r _ _ _ (follows_closing closes follows))
  rw [List.head?_append]
  exact any_or_left begins

theorem passes_unary {operator : UnaryOperator} (opens : opening.kind = .opening) (closes : closing.kind = .closing)
    (means : table.IsUnary token operator) (begins : tokens.head?.any opensOperand = true) (h : Passes table tokens) :
    Passes table (opening :: token :: (tokens ++ [closing])) := by
  intro earlier previous rest follows
  rw [List.cons_append, List.cons_append, List.append_assoc, checkFrom_other (by simp [opens]) (by simp [opens])]
  refine checkFrom_cons.mpr ⟨by simp [means.1], fun _ => checkOperator_eq_ok.mpr ⟨?_, ?_⟩,
    h _ _ _ (follows_closing closes follows)⟩
  · rw [List.head?_append]
    exact any_or_left begins
  · simp [Token.opensOperand, Token.endsOperand, Token.isOperator, opens, means.2]

theorem passes_call (kind : name.kind = .identifier)
    (opens : opening.kind = .opening) (closes : closing.kind = .closing)
    (h : Passes table tokens) : Passes table (name :: opening :: (tokens ++ [closing])) := by
  intro earlier previous rest follows
  rw [List.cons_append, List.cons_append, List.append_assoc, checkFrom_other (by simp [kind]) (by simp [kind]),
    checkFrom_other (by simp [opens]) (by simp [opens])]
  exact h _ _ _ (follows_closing closes follows)

theorem passes_emptyCall (kind : name.kind = .identifier) (opens : opening.kind = .opening)
    (closes : closing.kind = .closing) : Passes table [name, opening, closing] := by
  intro earlier previous rest follows
  rw [List.cons_append, List.cons_append, checkFrom_other (by simp [kind]) (by simp [kind]),
    checkFrom_other (by simp [opens]) (by simp [opens])]
  exact passes_operand (by simp [Token.endsOperand, closes]) _ _ _ follows

theorem passes_more (kind : comma.kind = .comma) (l : Passes table before) (r : Passes table after) :
    Passes table (before ++ comma :: after) := by
  intro earlier previous rest follows
  rw [List.append_assoc, List.cons_append]
  exact l _ _ _ (follows_comma kind fun _ _ => r _ _ _ follows)

end Calculator.Adjacency
