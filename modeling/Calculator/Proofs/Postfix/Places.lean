import Calculator.Descent
import Calculator.Proofs.Grammar.Placement
import Calculator.Proofs.Postfix.Weight
import Calculator.Proofs.Token.Adjacency

/-!
# Places in a reordered list

No token lowers the number of operands that are due, and a token out of its place raises it. So the tokens from
whose entries a tree is built are all in their places.
-/

namespace Calculator.Yard

variable {table : OperatorTable} {previous : Option Token} {yard next : Yard} {stack : List Pending}
  {output entries : List PostfixEntry} {token : Token} {tokens rest : List Token}

/-! ### From the first token to the entries -/

/-- Reading the tokens leads to the entries. -/
def Leads (table : OperatorTable) (previous : Option Token) (yard : Yard) (tokens : List Token)
    (entries : List PostfixEntry) : Prop :=
  (run table previous yard tokens).bind finish = .ok entries

theorem leads_cons (other : token.kind ≠ .endOfInput) :
    Leads table previous yard (token :: rest) entries ↔
      ∃ next, yard.step table previous rest.head? token = .ok next ∧
        Leads table (some token) next rest entries := by
  rw [Leads, run]
  cases yard.step table previous rest.head? token <;> simp [Leads, Token.isStop, other, Except.bind]

theorem moveWhile_output (leaves : Pending → Bool)
    (stack : List Pending) {entry : PostfixEntry} (member : entry ∈ output) :
    entry ∈ (moveWhile leaves stack output).output := by
  apply moveWhile_induct (motive := fun moved => entry ∈ moved.output) leaves member
  intro top other stack output _ member
  exact List.mem_cons_of_mem other member

theorem comma_output {after : Option Token} {entry : PostfixEntry} (h : yard.comma previous after token = .ok next)
    (member : entry ∈ yard.output) : entry ∈ next.output := by
  obtain ⟨-, opening, commas, stack, -, rfl⟩ := comma_eq_ok h
  exact moveWhile_output _ _ member

theorem closing_output {entry : PostfixEntry} (h : yard.closing previous token = .ok next)
    (member : entry ∈ yard.output) : entry ∈ next.output := by
  have stays : entry ∈ yard.moveAll.output := moveWhile_output _ _ member
  obtain ⟨opening, commas, stack, ⟨-, rfl⟩ | ⟨name, count, -, rfl, -⟩⟩ := closing_eq_ok h
  · exact stays
  · exact List.mem_cons_of_mem _ stays

theorem step_output {after : Option Token} {entry : PostfixEntry} (h : yard.step table previous after token = .ok next)
    (member : entry ∈ yard.output) : entry ∈ next.output := by
  cases kind : token.kind <;> simp only [step, kind] at h
  case number =>
    cases h
    exact List.mem_cons_of_mem _ member
  case identifier =>
    split at h <;> cases h
    · exact member
    · exact List.mem_cons_of_mem _ member
  case operator =>
    unfold operator at h
    split at h <;> split at h <;> cases h
    · exact member
    · exact moveWhile_output _ _ member
  case comma => exact comma_output h member
  case closing => exact closing_output h member
  case opening | endOfInput =>
    cases h
    exact member
  case unknown => cases h

theorem finish_output {entry : PostfixEntry} (h : yard.finish = .ok entries) (member : entry ∈ yard.output) :
    entry ∈ entries := by
  obtain ⟨-, rfl⟩ := finish_eq_ok h
  exact List.mem_reverse.mpr (moveWhile_output _ _ member)

theorem leads_stop (stop : ∀ token ∈ tokens.head?, token.kind = .endOfInput) :
    Leads table previous yard tokens entries ↔ yard.finish = .ok entries := by
  rw [Leads, run_stop stop]
  rfl

theorem leads_output {entry : PostfixEntry} (h : Leads table previous yard tokens entries)
    (member : entry ∈ yard.output) : entry ∈ entries := by
  induction tokens generalizing previous yard with
  | nil => exact finish_output h member
  | cons token rest ih =>
    by_cases stop : token.kind = .endOfInput
    · refine finish_output ((leads_stop ?_).mp h) member
      rintro _ ⟨⟩
      exact stop
    · obtain ⟨next, step, h⟩ := (leads_cons stop).mp h
      exact ih h (step_output step member)

theorem not_finish_inside {opening : Token} {holdsArguments : Bool} {commas : Nat} :
    (yard.push (.parenthesis opening holdsArguments commas)).finish ≠ .ok entries := by
  simp [finish, moveAll, moveWhile_parenthesis, push, failAt]

/-- Where an operand is due, and neither the end nor a closing parenthesis can come, it begins. -/
theorem opens_of_leads (place : opensArgument previous = true) (last : yard.finish ≠ .ok entries)
    (filled : ∀ token ∈ tokens.head?, token.kind = .closing → ∀ next, yard.closing previous token ≠ .ok next)
    (h : Leads table previous yard tokens entries) : tokens.head?.any Adjacency.opensOperand = true := by
  by_cases stop : ∀ token ∈ tokens.head?, token.kind = .endOfInput
  · exact absurd ((leads_stop stop).mp h) last
  cases tokens with
  | nil => exact absurd nofun stop
  | cons token rest =>
    have other : token.kind ≠ .endOfInput := by simpa using stop
    obtain ⟨next, step, _⟩ := (leads_cons other).mp h
    cases kind : token.kind <;> simp only [Yard.step, kind] at step
    case closing => exact absurd step (filled token rfl kind next)
    case comma => simp [comma, place, failAt] at step
    case endOfInput => exact absurd kind other
    case unknown => cases step
    all_goals simp [Adjacency.opensOperand, kind]

/-- No token is unknown, and operators have an operand after them. -/
def Followed : List Token → Prop
  | [] => True
  | token :: rest => token.kind ≠ .unknown ∧
      (token.kind = .operator → rest.head?.any Adjacency.opensOperand = true) ∧ Followed rest

/-- What holds of a yard between two tokens. -/
structure Steady (previous : Option Token) (yard : Yard) (tokens : List Token) : Prop where
  covered : Covered yard.stack
  followed : Followed tokens
  /-- Where an operand is due, it begins. -/
  ready : Token.opensOperand previous = true → tokens.head?.any Adjacency.opensOperand = true
  /-- The parenthesis of a call has been read together with its name. -/
  alone : previous.any Token.isIdentifier = true → ∀ next ∈ tokens.head?, next.kind ≠ .opening

/-- Where an operand is due, none of the tokens comes that need one before them. -/
theorem Steady.ended (steady : Steady previous yard (token :: rest))
    (opens : Adjacency.opensOperand token = false) : Token.opensOperand previous = false := by
  by_cases place : Token.opensOperand previous = true
  · simpa [opens] using steady.ready place
  · exact Bool.eq_false_iff.mpr place

/-- The entries outweigh what is due, unless the tokens are in their places. -/
def Balanced (table : OperatorTable) (previous : Option Token) (yard : Yard) (tokens : List Token)
    (entries : List PostfixEntry) : Prop :=
  due previous yard ≤ Postfix.weight entries ∧
    (Postfix.weight entries ≤ due previous yard →
      Placed table (parens yard.stack) (Token.opensOperand previous) (Descent.body tokens))

section

variable {last : Option Token} {others : List Token}

/-- An operand makes good for the one that is due, if one is. -/
theorem Balanced.operand (h : Balanced table last next others entries) (raised : due last next = yard.weight + 1)
    (place : Placed table (parens next.stack) (Token.opensOperand last) (Descent.body others) →
      Placed table (parens yard.stack) true (Descent.body tokens)) :
    Balanced table previous yard tokens entries := by
  obtain ⟨least, placed⟩ := h
  rw [raised] at least placed
  cases opens : Token.opensOperand previous with
  | true => exact ⟨by simpa [due, opens] using least, by simpa [due, opens] using fun h => place (placed h)⟩
  | false =>
    constructor
    · simp [due, opens]
      omega
    · simp [due, opens]
      omega

/-- What leaves as much due as before does not matter to the balance. -/
theorem Balanced.even (h : Balanced table last next others entries) (same : due last next = due previous yard)
    (place : Placed table (parens next.stack) (Token.opensOperand last) (Descent.body others) →
      Placed table (parens yard.stack) (Token.opensOperand previous) (Descent.body tokens)) :
    Balanced table previous yard tokens entries := by
  obtain ⟨least, placed⟩ := h
  rw [same] at least placed
  exact ⟨least, fun h => place (placed h)⟩

end

theorem body_cons (other : token.kind ≠ .endOfInput) : Descent.body (token :: rest) = token :: Descent.body rest := by
  simp [Descent.body, Token.isStop, other]

theorem body_stop (stop : ∀ token ∈ tokens.head?, token.kind = .endOfInput) : Descent.body tokens = [] := by
  cases tokens with
  | nil => rfl
  | cons token rest => simp [Descent.body, Token.isStop, stop token rfl]

theorem balanced_stop (stop : ∀ token ∈ tokens.head?, token.kind = .endOfInput)
    (h : Leads table previous yard tokens entries) (steady : Steady previous yard tokens) :
    Balanced table previous yard tokens entries := by
  have place : Token.opensOperand previous = false := by
    by_cases opens : Token.opensOperand previous = true
    · obtain ⟨token, head, opens⟩ := (Option.any_eq_true ..).mp (steady.ready opens)
      simp [Adjacency.opensOperand, stop token head] at opens
    · exact Bool.eq_false_iff.mpr opens
  obtain ⟨none, weight⟩ := weight_finish steady.covered ((leads_stop stop).mp h)
  refine ⟨by simp [due, place, weight], fun _ => ?_⟩
  rw [none, place, body_stop stop]
  exact .done

section

variable (ih : ∀ {last : Option Token} {next : Yard} {others : List Token}, others.length ≤ rest.length →
    Leads table last next others entries → Steady last next others → Balanced table last next others entries)
  (numbers : ∀ token, .number token ∈ entries → ∃ value, token.numericValue = .ok value)
  (h : Leads table previous yard (token :: rest) entries) (steady : Steady previous yard (token :: rest))

include ih h steady

include numbers in
theorem balanced_number (kind : token.kind = .number) : Balanced table previous yard (token :: rest) entries := by
  rw [Leads, run_number kind] at h
  have place : Token.opensOperand (some token) = false := by simp [Token.opensOperand, Token.endsOperand, kind]
  obtain ⟨value, reads⟩ := numbers token (leads_output h List.mem_cons_self)
  refine (ih (Nat.le_refl _) h ?_).operand (by simp [due, place, PostfixEntry.weight]) fun placed => ?_
  · exact ⟨steady.covered, steady.followed.2.2, by simp [place], by simp [Token.isIdentifier, kind]⟩
  · rw [body_cons (by simp [kind])]
    rw [place] at placed
    exact .number kind reads placed

theorem balanced_constant (kind : token.kind = .identifier) (free : ∀ next ∈ rest.head?, next.kind ≠ .opening) :
    Balanced table previous yard (token :: rest) entries := by
  rw [Leads, run_constant kind free] at h
  have place : Token.opensOperand (some token) = false := by simp [Token.opensOperand, Token.endsOperand, kind]
  refine (ih (Nat.le_refl _) h ?_).operand (by simp [due, place, PostfixEntry.weight]) fun placed => ?_
  · exact ⟨steady.covered, steady.followed.2.2, by simp [place], fun _ => free⟩
  · rw [body_cons (by simp [kind])]
    rw [place] at placed
    exact .constant kind placed

theorem balanced_operator (kind : token.kind = .operator) : Balanced table previous yard (token :: rest) entries := by
  have after : Token.opensOperand (some token) = true := Token.opensOperand_after (by simp [kind])
  have other : token.kind ≠ .endOfInput := by simp [kind]
  have ready := steady.followed.2.1 kind
  obtain ⟨next, step, h⟩ := (leads_cons other).mp h
  simp only [Yard.step, kind, Yard.operator] at step
  cases place : Token.opensOperand previous with
  | true =>
    cases means : table.unary? token.text with
    | none => simp [place, means, failAt] at step
    | some operator =>
      simp only [place, means, if_true, Except.ok.injEq] at step
      subst step
      refine (ih (Nat.le_refl _) h ?_).even (by simp [due, place, after, Pending.weight]) fun placed => ?_
      · exact ⟨steady.covered, steady.followed.2.2, fun _ => ready, by simp [Token.isIdentifier, kind]⟩
      · rw [body_cons other, place]
        rw [after] at placed
        exact .unary ⟨kind, means⟩ placed
  | false =>
    cases means : table.binary? token.text with
    | none => simp [place, means, failAt] at step
    | some operator =>
      simp only [place, means, Bool.false_eq_true, if_false, Except.ok.injEq] at step
      subst step
      obtain ⟨weight, covered, same⟩ := weight_binary operator token steady.covered
      refine (ih (Nat.le_refl _) h ?_).even (by simp [due, place, after, weight]) fun placed => ?_
      · exact ⟨covered, steady.followed.2.2, fun _ => ready, by simp [Token.isIdentifier, kind]⟩
      · rw [body_cons other, place]
        rw [after, same] at placed
        exact .binary ⟨kind, means⟩ placed

theorem balanced_comma (kind : token.kind = .comma) : Balanced table previous yard (token :: rest) entries := by
  have after : Token.opensOperand (some token) = true := Token.opensOperand_after (by simp [kind])
  have other : token.kind ≠ .endOfInput := by simp [kind]
  obtain ⟨next, step, h⟩ := (leads_cons other).mp h
  simp only [Yard.step, kind] at step
  have follows := (comma_eq_ok step).1
  obtain ⟨weight, covered, outer, same, same'⟩ := weight_comma steady.covered step
  have place : Token.opensOperand previous = false := steady.ended (by simp [Adjacency.opensOperand, kind])
  refine (ih (Nat.le_refl _) h ?_).even (by simp [due, place, after, weight]) fun placed => ?_
  · refine ⟨covered, steady.followed.2.2, fun _ => ?_, by simp [Token.isIdentifier, kind]⟩
    cases rest with
    | nil => simp [closesArgument] at follows
    | cons first rest =>
      have known := steady.followed.2.2.1
      cases kind' : first.kind <;> simp_all [closesArgument, Adjacency.opensOperand]
  · rw [body_cons other, place, same]
    rw [after, same'] at placed
    exact .comma kind placed

theorem balanced_closing (kind : token.kind = .closing) : Balanced table previous yard (token :: rest) entries := by
  have after : Token.opensOperand (some token) = false := by simp [Token.opensOperand, Token.endsOperand, kind]
  have other : token.kind ≠ .endOfInput := by simp [kind]
  obtain ⟨next, step, h⟩ := (leads_cons other).mp h
  simp only [Yard.step, kind] at step
  have place : Token.opensOperand previous = false := steady.ended (by simp [Adjacency.opensOperand, kind])
  obtain ⟨weight, covered, holdsArguments, same⟩ := weight_closing steady.covered place step
  refine (ih (Nat.le_refl _) h ?_).even (by simp [due, place, after, weight]) fun placed => ?_
  · exact ⟨covered, steady.followed.2.2, by simp [after], by simp [Token.isIdentifier, kind]⟩
  · rw [body_cons other, place, same]
    rw [after] at placed
    exact .closing kind placed

theorem balanced_opening (kind : token.kind = .opening) : Balanced table previous yard (token :: rest) entries := by
  have after : Token.opensOperand (some token) = true := Token.opensOperand_after (by simp [kind])
  have alone : previous.any Token.isIdentifier = false :=
    Bool.eq_false_iff.mpr fun name => steady.alone name token rfl kind
  rw [Leads, run_opening kind alone] at h
  refine (ih (Nat.le_refl _) h ?_).operand (by simp [due, after, Pending.weight]) fun placed => ?_
  · refine ⟨steady.covered, steady.followed.2.2,
      fun _ => opens_of_leads ?_ not_finish_inside ?_ h, by simp [Token.isIdentifier, kind]⟩
    · simp [opensArgument, kind]
    · intro last _ _ next
      simp [closing, moveAll, moveWhile_parenthesis, kind, push, failAt]
  · rw [body_cons (by simp [kind])]
    rw [after] at placed
    exact .group kind placed

theorem balanced_call {opening : Token} (kind : token.kind = .identifier) (head : rest.head? = some opening)
    (opens : opening.kind = .opening) : Balanced table previous yard (token :: rest) entries := by
  obtain ⟨others, rfl⟩ := List.head?_eq_some_iff.mp head
  have after : Token.opensOperand (some opening) = true := by simp [Token.opensOperand, Token.endsOperand, opens]
  have followed := steady.followed.2.2.2.2
  by_cases empty : ∀ next ∈ others.head?, next.kind ≠ .closing
  · rw [Leads, run_call kind opens] at h
    refine (ih (Nat.le_succ _) h ?_).operand
      (by simp only [due, after, weight_push, Pending.weight, if_true]; omega) fun placed => ?_
    · refine ⟨steady.covered, followed,
        fun _ => opens_of_leads ?_ not_finish_inside ?_ h, by simp [Token.isIdentifier, opens]⟩
      · simp [opensArgument, opens]
      · exact fun last head closes => absurd closes (empty last head)
    · rw [body_cons (by simp [kind]), body_cons (by simp [opens])]
      rw [after] at placed
      exact .call kind opens placed
  · obtain ⟨closing, others, rfl, closes⟩ : ∃ closing tail, others = closing :: tail ∧
      closing.kind = .closing := by
      cases others with
      | nil => exact absurd (by simp) empty
      | cons closing others => exact ⟨closing, others, rfl, by simpa using empty⟩
    have place : Token.opensOperand (some closing) = false := by simp [Token.opensOperand, Token.endsOperand, closes]
    rw [Leads, run_call kind opens] at h
    simp only [push] at h
    rw [run_closing_empty closes opens] at h
    refine (ih (by simp; omega) h ?_).operand ?_ fun placed => ?_
    · exact ⟨steady.covered, followed.2.2, by simp [place], by simp [Token.isIdentifier, closes]⟩
    · simp [due, place, weight, Postfix.weight, PostfixEntry.weight]
      omega
    · rw [body_cons (by simp [kind]), body_cons (by simp [opens]), body_cons (by simp [closes])]
      rw [place] at placed
      exact .emptyCall kind opens closes placed

end

theorem balanced_of_leads (numbers : ∀ token, .number token ∈ entries → ∃ value, token.numericValue = .ok value)
    (h : Leads table previous yard tokens entries) (steady : Steady previous yard tokens) :
    Balanced table previous yard tokens entries := by
  induction size : tokens.length using Nat.strongRecOn generalizing previous yard tokens with
  | _ size ih =>
    subst size
    by_cases stop : ∀ token ∈ tokens.head?, token.kind = .endOfInput
    · exact balanced_stop stop h steady
    cases tokens with
    | nil => exact absurd nofun stop
    | cons token rest =>
      have ih {last : Option Token} {next : Yard} {others : List Token} (shorter : others.length ≤ rest.length)
          (h : Leads table last next others entries) (steady : Steady last next others) :=
        ih others.length (Nat.lt_succ_of_le shorter) h steady rfl
      cases kind : token.kind with
      | number => exact balanced_number ih numbers h steady kind
      | operator => exact balanced_operator ih h steady kind
      | opening => exact balanced_opening ih h steady kind
      | closing => exact balanced_closing ih h steady kind
      | comma => exact balanced_comma ih h steady kind
      | endOfInput => exact absurd kind (by simpa using stop)
      | unknown => exact absurd kind steady.followed.1
      | identifier =>
        by_cases free : ∀ next ∈ rest.head?, next.kind ≠ .opening
        · exact balanced_constant ih h steady kind free
        · cases rest with
          | nil => exact absurd nofun free
          | cons opening rest => exact balanced_call ih h steady kind rfl (by simpa using free)

/-! ### The tokens of a tree -/

theorem followed_of_check {earlier : Option Token} (h : Adjacency.checkFrom table earlier previous tokens = .ok ()) :
    Followed tokens := by
  induction tokens generalizing earlier previous with
  | nil => trivial
  | cons token rest ih =>
    obtain ⟨known, operator, h⟩ := Adjacency.checkFrom_cons.mp h
    exact ⟨known, fun kind => (Adjacency.checkOperator_eq_ok.mp (operator kind)).1, ih h⟩

theorem placed_of_toExpr {e : Expr} (check : Adjacency.check table tokens = .ok ())
    (reordered : Postfix.ofTokens table tokens = .ok entries) (built : Postfix.toExpr entries = .ok e) :
    Placed table [] true (Descent.body tokens) := by
  have weight := Postfix.weight_of_toExpr built
  have numbers : ∀ token, .number token ∈ entries → ∃ value, token.numericValue = .ok value := by
    obtain ⟨operands, built, _⟩ := bind_eq_ok.mp built
    exact fun token => Postfix.number_of_build built
  have h : Leads table none start tokens entries := reordered
  have followed := followed_of_check check
  have steady : Steady none start tokens := by
    refine ⟨trivial, followed, fun _ => opens_of_leads rfl ?_ ?_ h, nofun⟩
    · intro finished
      cases finished
      cases weight
    · intro token _ _ next
      simp [closing, moveAll, moveWhile, start, failAt]
  have balanced := (balanced_of_leads numbers h steady).2
  rw [weight] at balanced
  exact balanced (Int.le_refl _)

end Calculator.Yard
