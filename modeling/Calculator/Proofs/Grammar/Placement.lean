import Calculator.Proofs.Grammar.Basic

/-!
# Places of tokens

`Placed` says of each token that it stands where it may, by what came before it alone: whether an operand
is due, and which parentheses are open. Tokens in such places derive a tree.
-/

namespace Calculator

/-- Each token stands where it may. The open parentheses come innermost first, and say whether they hold
arguments. -/
inductive Placed (table : OperatorTable) : (parens : List Bool) → (due : Bool) → List Token → Prop where
  | done : Placed table [] false []
  | number {parens : List Bool} {token : Token} {value : Float} {rest : List Token} (kind : token.kind = .number)
      (reads : token.numericValue = .ok value) (h : Placed table parens false rest) :
      Placed table parens true (token :: rest)
  | constant {parens : List Bool} {name : Token} {rest : List Token} (kind : name.kind = .identifier)
      (h : Placed table parens false rest) : Placed table parens true (name :: rest)
  | emptyCall {parens : List Bool} {name opening closing : Token} {rest : List Token}
      (kind : name.kind = .identifier) (opens : opening.kind = .opening) (closes : closing.kind = .closing)
      (h : Placed table parens false rest) : Placed table parens true (name :: opening :: closing :: rest)
  | call {parens : List Bool} {name opening : Token} {rest : List Token} (kind : name.kind = .identifier)
      (opens : opening.kind = .opening) (h : Placed table (true :: parens) true rest) :
      Placed table parens true (name :: opening :: rest)
  | group {parens : List Bool} {opening : Token} {rest : List Token} (opens : opening.kind = .opening)
      (h : Placed table (false :: parens) true rest) : Placed table parens true (opening :: rest)
  | unary {parens : List Bool} {token : Token} {operator : UnaryOperator} {rest : List Token}
      (means : table.IsUnary token operator) (h : Placed table parens true rest) :
      Placed table parens true (token :: rest)
  | binary {parens : List Bool} {token : Token} {operator : BinaryOperator} {rest : List Token}
      (means : table.IsBinary token operator) (h : Placed table parens true rest) :
      Placed table parens false (token :: rest)
  | comma {parens : List Bool} {token : Token} {rest : List Token} (kind : token.kind = .comma)
      (h : Placed table (true :: parens) true rest) : Placed table (true :: parens) false (token :: rest)
  | closing {holdsArguments : Bool} {parens : List Bool} {token : Token} {rest : List Token}
      (kind : token.kind = .closing) (h : Placed table parens false rest) :
      Placed table (holdsArguments :: parens) false (token :: rest)

variable {table : OperatorTable} {parens : List Bool} {n bound : Nat} {tokens rest : List Token}

/-- A list begins with tokens of the form, up to where no more operators belong to it. -/
def Reaches (table : OperatorTable) (parens : List Bool) (form : Form) (tokens : List Token) : Prop :=
  ∃ read rest e, tokens = read ++ rest ∧ Derives table form read e ∧ Placed table parens false rest ∧
    Settled table form.least rest

/-! ### After an operand -/

theorem Placed.settled (h : Placed table parens false rest) : Settled table (tightest + 1) rest := by
  cases h with
  | done => exact settled_nil
  | @binary _ _ operator _ means => exact settled_operator means (Nat.lt_succ_of_le operator.precedence_le)
  | comma kind | closing kind => exact settled_of_kind (by simp [kind]) (by simp [kind])

/-- Either no operator of precedence `n` comes next, or an operand after it is due. -/
theorem Placed.next (h : Placed table parens false rest) (settled : Settled table (n + 1) rest) :
    Settled table n rest ∨ ∃ token operator after, rest = token :: after ∧ table.IsBinary token operator ∧
      operator.precedence = n ∧ Placed table parens true after := by
  cases h with
  | done => exact .inl settled_nil
  | comma kind | closing kind => exact .inl (settled_of_kind (by simp [kind]) (by simp [kind]))
  | @binary _ token operator after means h =>
    rcases Nat.lt_or_eq_of_le (Nat.le_of_lt_succ ((settled token rfl).2 operator means)) with lt | same
    · exact .inl (settled_operator means lt)
    · exact .inr ⟨token, operator, after, rfl, means, same, h⟩

/-- Where no operator is left to read, an argument or a group has ended. -/
theorem Placed.ended {holdsArguments : Bool} (h : Placed table (holdsArguments :: parens) false rest)
    (settled : Settled table 1 rest) :
    ∃ token after, rest = token :: after ∧
      (token.kind = .closing ∧ Placed table parens false after ∨
        token.kind = .comma ∧ holdsArguments = true ∧ Placed table (true :: parens) true after) := by
  cases h with
  | binary means => exact absurd settled (not_settled_operator means)
  | comma kind h => exact ⟨_, _, rfl, .inr ⟨kind, rfl, h⟩⟩
  | closing kind h => exact ⟨_, _, rfl, .inl ⟨kind, h⟩⟩

/-! ### Where an operand is due -/

/-- Where an operand is due, lists of fewer than `bound` tokens begin with an expression. -/
def Progress (table : OperatorTable) (bound : Nat) : Prop :=
  ∀ parens tokens n, tokens.length < bound → Placed table parens true tokens → 1 ≤ n → n ≤ tightest →
    Reaches table parens (.expression n) tokens

section

variable (progress : Progress table bound)

include progress

/-- The operations of precedence `n` that follow what has been read. -/
theorem reaches_chain (lower : 1 ≤ n) (upper : n < tightest) {before : List Token} {left : Expr}
    (room : rest.length ≤ bound) (l : Derives table (.expression n) before left)
    (h : Placed table parens false rest) (settled : Settled table (n + 1) rest) :
    Reaches table parens (.expression n) (before ++ rest) := by
  induction size : rest.length using Nat.strongRecOn generalizing before left rest with
  | _ size ih =>
    subst size
    rcases h.next settled with stop | ⟨token, operator, after, rfl, means, binds, h⟩
    · exact ⟨before, rest, left, rfl, l, h, stop⟩
    · rw [List.length_cons] at room ih
      obtain ⟨read, rest, right, rfl, r, h, settled⟩ := progress _ after (n + 1) room h (by omega) upper
      rw [List.length_append] at room ih
      have operation := Derives.operation lower upper means binds l r
      have reached := ih rest.length (by omega) (by omega) operation h settled rfl
      simpa using reached

theorem reaches_arguments (room : tokens.length < bound) (h : Placed table (true :: parens) true tokens) :
    ∃ read token rest list, tokens = read ++ token :: rest ∧ token.kind = .closing ∧
      DerivesAll table read list ∧ Placed table parens false rest := by
  induction size : tokens.length using Nat.strongRecOn generalizing tokens with
  | _ size ih =>
    subst size
    obtain ⟨read, rest, e, rfl, derived, h, settled⟩ := progress _ tokens 1 room h (by decide) (by decide)
    obtain ⟨token, after, rfl, ⟨kind, h⟩ | ⟨kind, _, h⟩⟩ := h.ended settled
    · exact ⟨read, token, after, [e], rfl, kind, .one derived, h⟩
    · simp only [List.length_append, List.length_cons] at room ih
      obtain ⟨others, last, rest, list, rfl, closes, all, h⟩ := ih after.length (by omega) (by omega) h rfl
      exact ⟨read ++ token :: others, last, rest, e :: list, by simp, closes, .more derived kind all, h⟩

theorem reaches_primary (room : tokens.length ≤ bound) (h : Placed table parens true tokens)
    (first : ∀ token ∈ tokens.head?, token.kind ≠ .operator) : Reaches table parens .primary tokens := by
  cases h with
  | @number _ token value rest kind reads h =>
    exact ⟨[token], rest, _, rfl, .number kind reads, h, h.settled⟩
  | @constant _ name rest kind h => exact ⟨[name], rest, _, rfl, .constant kind, h, h.settled⟩
  | @emptyCall _ name opening closing rest kind opens closes h =>
    exact ⟨[name, opening, closing], rest, _, rfl, .emptyCall kind opens closes, h, h.settled⟩
  | @call _ name opening rest kind opens h =>
    simp only [List.length_cons] at room
    obtain ⟨read, token, rest, list, rfl, closes, all, h⟩ := reaches_arguments progress (by omega) h
    exact ⟨name :: opening :: (read ++ [token]), rest, _, by simp, .call kind opens closes all, h, h.settled⟩
  | @group _ opening rest opens h =>
    obtain ⟨read, rest, e, rfl, derived, h, settled⟩ := progress _ rest 1 room h (by decide) (by decide)
    obtain ⟨token, after, rfl, ⟨kind, h⟩ | ⟨_, other, _⟩⟩ := h.ended settled
    · exact ⟨opening :: (read ++ [token]), after, e, by simp, .parenthesized opens kind derived, h, h.settled⟩
    · contradiction
  | unary means => exact absurd means.1 (first _ rfl)

theorem reaches_power (room : tokens.length ≤ bound) (h : Placed table parens true tokens)
    (first : ∀ token ∈ tokens.head?, token.kind ≠ .operator) : Reaches table parens .power tokens := by
  obtain ⟨read, rest, base, rfl, b, h, settled⟩ := reaches_primary progress room h first
  rcases h.next settled with stop | ⟨token, operator, after, rfl, means, binds, h⟩
  · exact ⟨read, rest, base, rfl, .ofPrimary b, h, stop⟩
  · simp only [List.length_append, List.length_cons] at room
    obtain ⟨others, rest, exponent, rfl, x, h, settled⟩ :=
      progress _ after tightest (by omega) h (by decide) (Nat.le_refl _)
    exact ⟨read ++ token :: others, rest, _, by simp, .power means binds b x, h, settled⟩

theorem reaches_operand (room : tokens.length ≤ bound) (h : Placed table parens true tokens) :
    Reaches table parens (.expression tightest) tokens := by
  by_cases first : ∀ token ∈ tokens.head?, token.kind ≠ .operator
  · obtain ⟨read, rest, e, same, derived, h, settled⟩ := reaches_power progress room h first
    exact ⟨read, rest, e, same, .ofPower derived, h, settled⟩
  · cases h with
    | @unary _ token operator rest means h =>
      obtain ⟨read, rest, e, rfl, derived, h, settled⟩ :=
        progress _ rest tightest room h (by decide) (Nat.le_refl _)
      exact ⟨token :: read, rest, _, rfl, .unary means derived, h, settled⟩
    | number kind | constant kind | emptyCall kind | call kind | group kind => simp [kind] at first

theorem reaches_expression (room : tokens.length ≤ bound) (h : Placed table parens true tokens) (lower : 1 ≤ n)
    (upper : n ≤ tightest) : Reaches table parens (.expression n) tokens := by
  obtain ⟨k, hk⟩ := Nat.exists_eq_add_of_le upper
  induction k generalizing n with
  | zero =>
    obtain rfl : n = tightest := hk.symm
    exact reaches_operand progress room h
  | succ k ih =>
    have below : n < tightest := by omega
    obtain ⟨read, rest, e, rfl, derived, h, settled⟩ := ih (by omega) below (by omega)
    rw [List.length_append] at room
    exact reaches_chain progress lower below (by omega) (.tighter lower below derived) h settled

end

theorem progress (bound : Nat) : Progress table bound := by
  induction bound with
  | zero => exact fun _ _ _ room => absurd room (Nat.not_lt_zero _)
  | succ bound ih => exact fun _ _ _ room h => reaches_expression ih (Nat.le_of_lt_succ room) h

theorem Placed.derives (h : Placed table [] true tokens) : ∃ e, Derives table (.expression 1) tokens e := by
  obtain ⟨read, rest, e, rfl, derived, h, settled⟩ :=
    progress (tokens.length + 1) [] tokens 1 (Nat.lt_succ_self _) h (by decide) (by decide)
  cases h with
  | done => exact ⟨e, by simpa using derived⟩
  | binary means => exact absurd settled (not_settled_operator means)

end Calculator
