import Calculator.Postfix.Reordering
import Calculator.Proofs.Grammar.Basic

/-!
# Steps of the reordering

What one token does to the stack and the output, and which part of the stack leaves.
-/

namespace Calculator

namespace Yard

variable {table : OperatorTable} {n : Nat} {pending stack : List Pending} {output : List PostfixEntry}

/-! ### Leaving the stack -/

/-- Only operators of precedence `n` or tighter wait. -/
def Waits (n : Nat) (pending : List Pending) : Prop :=
  ∀ p ∈ pending, ∃ k, p.precedence? = some k ∧ n ≤ k

/-- No operator of precedence `n` or tighter moves the top of the stack. -/
def Guards (n : Nat) (stack : List Pending) : Prop :=
  ∀ top ∈ stack.head?, ∀ operator : BinaryOperator, n ≤ operator.precedence →
    Pending.precedes operator top = false

theorem Waits.mono {m : Nat} (h : Waits n pending) (le : m ≤ n) : Waits m pending :=
  fun p member => (h p member).imp fun _ ⟨same, bound⟩ => ⟨same, Nat.le_trans le bound⟩

theorem Guards.mono {m : Nat} (h : Guards n stack) (le : n ≤ m) : Guards m stack :=
  fun top head operator bound => h top head operator (Nat.le_trans le bound)

theorem waits_append {others : List Pending} : Waits n (pending ++ others) ↔ Waits n pending ∧ Waits n others := by
  simp only [Waits, List.mem_append, or_imp, forall_and]

theorem waits_nil : Waits n [] := by
  simp [Waits]

theorem guards_nil : Guards n [] := by
  simp [Guards]

theorem guards_parenthesis {token : Token} {holdsArguments : Bool} {commas : Nat} :
    Guards n (.parenthesis token holdsArguments commas :: stack) := by
  rintro _ ⟨⟩ operator _
  rfl

theorem guards_unary {token : Token} {operator : UnaryOperator} :
    Guards tightest (.unary operator token :: stack) := by
  rintro _ ⟨⟩ other bound
  have same : other.precedence = tightest := Nat.le_antisymm other.precedence_le bound
  simp [Pending.precedes, Pending.precedence?, UnaryOperator.precedence, same,
    BinaryOperator.isRightAssociative_iff.mpr same]

/-- A waiting operator stays where only tighter ones follow, or only those that group from the right. -/
theorem guards_binary {token : Token} {operator : BinaryOperator}
    (h : operator.precedence < n ∨ n = tightest) :
    Guards n (.binary operator token :: stack) := by
  rintro _ ⟨⟩ other bound
  have := other.precedence_le
  have := operator.precedence_le
  have right : operator.precedence = other.precedence → other.isRightAssociative = true := by
    intro same
    exact BinaryOperator.isRightAssociative_iff.mpr (by omega)
  simp only [Pending.precedes, Pending.precedence?, Option.any_some, Bool.or_eq_false_iff,
    decide_eq_false_iff_not, Bool.and_eq_false_imp, beq_iff_eq, Bool.not_eq_eq_eq_not, Bool.not_false]
  exact ⟨by omega, right⟩

theorem entry?_of_precedence? {p : Pending} {k : Nat} (h : p.precedence? = some k) :
    ∃ entry, p.entry? = some entry := by
  cases p with
  | binary | unary => exact ⟨_, rfl⟩
  | call | parenthesis => simp [Pending.precedence?] at h

theorem moveWhile_append {leaves : Pending → Bool}
    (stack : List Pending) (output : List PostfixEntry) (h : Waits n pending)
    (all : ∀ p ∈ pending, leaves p = true) :
    moveWhile leaves (pending ++ stack) output =
      moveWhile leaves stack ((pending.filterMap Pending.entry?).reverse ++ output) := by
  induction pending generalizing output with
  | nil => rfl
  | cons p pending ih =>
    obtain ⟨k, same, _⟩ := h p List.mem_cons_self
    obtain ⟨entry, found⟩ := entry?_of_precedence? same
    rw [List.cons_append, moveWhile, found]
    simp only [all p List.mem_cons_self, if_true]
    rw [ih _ (fun p member => h p (List.mem_cons_of_mem _ member))
      (fun p member => all p (List.mem_cons_of_mem _ member)), List.filterMap_cons_some found]
    simp

theorem moveWhile_stop {leaves : Pending → Bool} (h : ∀ top ∈ stack.head?, leaves top = false) :
    moveWhile leaves stack output = ⟨stack, output⟩ := by
  cases stack with
  | nil => rfl
  | cons top stack =>
    unfold moveWhile
    cases top.entry? with
    | none => rfl
    | some entry => simp [h top rfl]

/-- What stays true when an operator moves from the stack to the output stays true while they move. -/
theorem moveWhile_induct {motive : Yard → Prop} (leaves : Pending → Bool) (start : motive ⟨stack, output⟩)
    (move : ∀ top entry stack output, top.entry? = some entry → motive ⟨top :: stack, output⟩ →
      motive ⟨stack, entry :: output⟩) : motive (moveWhile leaves stack output) := by
  induction stack generalizing output with
  | nil => exact start
  | cons top stack ih =>
    unfold moveWhile
    split
    next entry leaving =>
      split
      · exact ih (move top entry stack output leaving start)
      · exact start
    next => exact start

/-- A binary operator takes the place of all that binds more tightly, or equally tightly from the left. -/
theorem binary_eq {m : Nat} {token : Token} {operator : BinaryOperator} (waits : Waits m pending)
    (applied : operator.precedence < m ∨ operator.precedence = m ∧ m < tightest)
    (guards : Guards n stack) (bound : n ≤ operator.precedence) :
    binary ⟨pending ++ stack, output⟩ operator token =
      ⟨.binary operator token :: stack, (pending.filterMap Pending.entry?).reverse ++ output⟩ := by
  have leave : ∀ p ∈ pending, Pending.precedes operator p = true := by
    intro p member
    obtain ⟨k, same, le⟩ := waits p member
    have left : operator.precedence ≠ tightest → operator.isRightAssociative = false := fun h =>
      Bool.eq_false_iff.mpr fun right => h (BinaryOperator.isRightAssociative_iff.mp right)
    rcases Nat.lt_or_ge operator.precedence k with lt | ge
    · simp [Pending.precedes, same, lt]
    · simp [Pending.precedes, same, left (by omega), show k = operator.precedence by omega]
  rw [binary, moveWhile_append _ _ waits leave,
    moveWhile_stop fun top head => guards top head operator bound]
  rfl

theorem moveWhile_parenthesis {leaves : Pending → Bool} {token : Token} {holdsArguments : Bool} {commas : Nat} :
    moveWhile leaves (.parenthesis token holdsArguments commas :: stack) output =
      ⟨.parenthesis token holdsArguments commas :: stack, output⟩ := rfl

/-! ### One token -/

variable {previous : Option Token} {token : Token} {rest : List Token}

theorem not_opening_of_ends {previous : Option Token} (h : previous.any Token.endsOperand = true) :
    previous.any (fun token => token.kind = .opening) = false := by
  cases previous with
  | none => rfl
  | some last => cases kind : last.kind <;> simp_all [Token.endsOperand]

theorem run_cons {yard next : Yard} (other : token.kind ≠ .endOfInput)
    (h : yard.step table previous rest.head? token = .ok next) :
    run table previous yard (token :: rest) = run table (some token) next rest := by
  rw [run]
  simp [Token.isStop, other, h]

theorem run_number {yard : Yard} (kind : token.kind = .number) :
    run table previous yard (token :: rest) = run table (some token) (yard.write (.number token)) rest :=
  run_cons (by simp [kind]) (by simp [step, kind])

theorem run_constant {yard : Yard} (kind : token.kind = .identifier)
    (alone : ∀ next ∈ rest.head?, next.kind ≠ .opening) :
    run table previous yard (token :: rest) = run table (some token) (yard.write (.constant token)) rest := by
  apply run_cons (by simp [kind])
  have : rest.head?.any (fun token => token.kind = .opening) = false := by
    cases head : rest.head? with
    | none => rfl
    | some next => simp [alone next head]
  simp [step, kind, this]

theorem run_unary {yard : Yard} {operator : UnaryOperator} (means : table.IsUnary token operator)
    (place : Token.opensOperand previous = true) :
    run table previous yard (token :: rest) = run table (some token) (yard.push (.unary operator token)) rest :=
  run_cons (by simp [means.1]) (by simp [step, means.1, Yard.operator, place, means.2])

theorem run_binary {yard : Yard} {operator : BinaryOperator} (means : table.IsBinary token operator)
    (place : Token.opensOperand previous = false) :
    run table previous yard (token :: rest) = run table (some token) (yard.binary operator token) rest :=
  run_cons (by simp [means.1]) (by simp [step, means.1, Yard.operator, place, means.2])

theorem run_opening {yard : Yard} (kind : token.kind = .opening) (alone : previous.any Token.isIdentifier = false) :
    run table previous yard (token :: rest) =
      run table (some token) (yard.push (.parenthesis token false 0)) rest :=
  run_cons (by simp [kind]) (by simp [step, kind, alone])

theorem not_identifier_of_opens (place : Token.opensOperand previous = true) :
    previous.any Token.isIdentifier = false := by
  cases previous with
  | none => rfl
  | some token => cases kind : token.kind <;> simp_all [Token.opensOperand, Token.endsOperand, Token.isIdentifier]

theorem run_call {yard : Yard} {opening : Token} (kind : token.kind = .identifier) (opens : opening.kind = .opening) :
    run table previous yard (token :: opening :: rest) =
      run table (some opening) ((yard.push (.call token)).push (.parenthesis opening true 0)) rest := by
  have pushed : yard.step table previous (opening :: rest).head? token = .ok (yard.push (.call token)) := by
    simp [step, kind, opens]
  rw [run_cons (by simp [kind]) pushed]
  exact run_cons (by simp [opens]) (by simp [step, opens, Token.isIdentifier, kind])

/-- What a finished expression leaves on the stack goes to the output at the parenthesis around it. -/
theorem moveAll_inside {opening : Token} {holdsArguments : Bool} {commas : Nat} (waits : Waits n pending) :
    moveAll ⟨pending ++ .parenthesis opening holdsArguments commas :: stack, output⟩ =
      ⟨.parenthesis opening holdsArguments commas :: stack,
        (pending.filterMap Pending.entry?).reverse ++ output⟩ := by
  rw [moveAll, moveWhile_append _ _ waits (fun _ _ => rfl), moveWhile_parenthesis]

theorem run_comma {opening : Token} {commas : Nat} (kind : token.kind = .comma) (waits : Waits n pending)
    (before : previous.any Token.endsOperand = true)
    (after : rest.head?.any Adjacency.opensOperand = true) :
    run table previous ⟨pending ++ .parenthesis opening true commas :: stack, output⟩ (token :: rest) =
      run table (some token) ⟨.parenthesis opening true (commas + 1) :: stack,
        (pending.filterMap Pending.entry?).reverse ++ output⟩ rest := by
  apply run_cons (by simp [kind])
  have opens : opensArgument previous = false := by
    cases previous with
    | none => simp at before
    | some last => cases same : last.kind <;> simp_all [Token.endsOperand, opensArgument]
  have closes : closesArgument rest.head? = false := by
    cases head : rest.head? with
    | none => simp [head] at after
    | some next => cases same : next.kind <;> simp_all [Adjacency.opensOperand, closesArgument]
  simp [step, kind, comma, opens, closes, moveAll_inside waits]

theorem run_closing {opening : Token} (kind : token.kind = .closing) (waits : Waits n pending)
    (before : previous.any Token.endsOperand = true) :
    run table previous ⟨pending ++ .parenthesis opening false 0 :: stack, output⟩ (token :: rest) =
      run table (some token) ⟨stack, (pending.filterMap Pending.entry?).reverse ++ output⟩ rest := by
  apply run_cons (by simp [kind])
  simp [step, kind, closing, not_opening_of_ends before, moveAll_inside waits]

theorem run_closing_call {name opening : Token} {commas : Nat} (kind : token.kind = .closing)
    (waits : Waits n pending) (before : previous.any Token.endsOperand = true) :
    run table previous ⟨pending ++ .parenthesis opening true commas :: .call name :: stack, output⟩
        (token :: rest) =
      run table (some token) ⟨stack, .call { name with argumentCount := commas + 1 } ::
        ((pending.filterMap Pending.entry?).reverse ++ output)⟩ rest := by
  apply run_cons (by simp [kind])
  simp [step, kind, closing, not_opening_of_ends before, moveAll_inside waits, write]

theorem run_closing_empty {name opening : Token} (kind : token.kind = .closing) (opens : opening.kind = .opening) :
    run table (some opening) ⟨.parenthesis opening true 0 :: .call name :: stack, output⟩ (token :: rest) =
      run table (some token) ⟨stack, .call { name with argumentCount := 0 } :: output⟩ rest :=
  run_cons (by simp [kind]) (by simp [step, kind, closing, opens, moveAll, moveWhile_parenthesis, write])

/-! ### What a comma or a parenthesis did -/

theorem comma_eq_ok {yard next : Yard} {after : Option Token} (h : yard.comma previous after token = .ok next) :
    closesArgument after = false ∧ ∃ opening commas stack,
      yard.moveAll.stack = .parenthesis opening true commas :: stack ∧
        next = ⟨.parenthesis opening true (commas + 1) :: stack, yard.moveAll.output⟩ := by
  unfold comma at h
  generalize yard.moveAll = moved at h ⊢
  obtain ⟨stack, output⟩ := moved
  by_cases misplaced : (opensArgument previous || closesArgument after) = true
  · simp [misplaced, failAt] at h
  rw [if_neg misplaced] at h
  have closes : closesArgument after = false := by
    simp_all
  rcases stack with _ | ⟨_ | _ | _ | ⟨opening, _ | _, commas⟩, stack⟩ <;> cases h
  exact ⟨closes, opening, commas, stack, rfl, rfl⟩

theorem closing_eq_ok {yard next : Yard} (h : yard.closing previous token = .ok next) :
    ∃ opening commas stack,
      yard.moveAll.stack = .parenthesis opening false commas :: stack ∧ next = ⟨stack, yard.moveAll.output⟩ ∨
        ∃ name count, yard.moveAll.stack = .parenthesis opening true commas :: .call name :: stack ∧
          next = ⟨stack, .call { name with argumentCount := count } :: yard.moveAll.output⟩ ∧
            (previous.any Token.endsOperand = true → count = commas + 1) := by
  unfold closing at h
  generalize yard.moveAll = moved at h ⊢
  obtain ⟨stack, output⟩ := moved
  rcases stack with _ | ⟨_ | _ | _ | ⟨opening, _ | _, commas⟩, stack⟩ <;> try cases h
  · simp only at h
    split at h <;> cases h
    exact ⟨opening, commas, stack, .inl ⟨rfl, rfl⟩⟩
  · rcases stack with _ | ⟨_ | _ | name | _, stack⟩ <;> cases h
    refine ⟨opening, commas, stack, .inr ⟨name, _, rfl, rfl, fun ends => ?_⟩⟩
    simp [not_opening_of_ends ends]

theorem moveWhile_top (stack : List Pending) (output : List PostfixEntry) :
    ∀ top ∈ (moveWhile (fun _ => true) stack output).stack.head?, top.entry? = none := by
  induction stack generalizing output with
  | nil => simp [moveWhile]
  | cons top stack ih =>
    unfold moveWhile
    cases entry : top.entry? with
    | none =>
      intro other head
      cases head
      exact entry
    | some => exact ih _

theorem finish_eq_ok {yard : Yard} {entries : List PostfixEntry} (h : yard.finish = .ok entries) :
    yard.moveAll.stack = [] ∧ entries = yard.moveAll.output.reverse := by
  have top := moveWhile_top yard.stack yard.output
  unfold finish at h
  change ∀ top ∈ yard.moveAll.stack.head?, top.entry? = none at top
  generalize yard.moveAll = moved at h top ⊢
  obtain ⟨stack, output⟩ := moved
  cases stack with
  | nil =>
    cases h
    exact ⟨rfl, rfl⟩
  | cons pending stack =>
    cases pending with
    | parenthesis => cases h
    | binary | unary | call => exact absurd (top _ rfl) nofun

theorem run_stop {yard : Yard} (stop : ∀ token ∈ rest.head?, token.kind = .endOfInput) :
    run table previous yard rest = .ok yard := by
  cases rest with
  | nil => rfl
  | cons token rest => simp [run, Token.isStop, stop token rfl]

theorem finish_waits (waits : Waits n pending) :
    finish ⟨pending, output⟩ = .ok (output.reverse ++ pending.filterMap Pending.entry?) := by
  have moved : moveAll ⟨pending, output⟩ = ⟨[], (pending.filterMap Pending.entry?).reverse ++ output⟩ := by
    simpa [moveWhile, moveAll] using moveWhile_append [] output waits fun _ _ => rfl
  rw [finish, moved]
  simp

end Yard

end Calculator
