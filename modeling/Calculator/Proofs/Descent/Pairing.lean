import Calculator.Proofs.Descent.Steps

/-!
# Two runs of the descent

The descent is run twice on the same tokens, with settings that look them up alike, where the second run may open more
levels. One lemma for each parser says that the runs do the same, unless the first one is refused a level, that known
tokens are left, and which failures are reported.
-/

namespace Calculator.Descent

variable {α β : Type} {known : Token → Prop} {bad cut : Failure → Prop} {setting other : Setting} {n : Nat}
variable {given tokens : List Token}

/-! ### Two outcomes -/

/-- The outcomes are the same value or the same failure, and have the property for it, or the first run was cut
short. -/
inductive Paired (keeps : α → Prop) (bad cut : Failure → Prop) :
    Except Failure α → Except Failure α → Prop where
  | ok {a : α} (kept : keeps a) : Paired keeps bad cut (.ok a) (.ok a)
  | error {failure : Failure} (reported : bad failure) : Paired keeps bad cut (.error failure) (.error failure)
  | cut {failure : Failure} {outcome : Except Failure α} (short : cut failure) :
      Paired keeps bad cut (.error failure) outcome

namespace Paired

variable {keeps : α → Prop} {keeps' : β → Prop} {x y : Except Failure α}

theorem bind {f g : α → Except Failure β} (h : Paired keeps bad cut x y)
    (next : ∀ a, keeps a → Paired keeps' bad cut (f a) (g a)) : Paired keeps' bad cut (x >>= f) (y >>= g) := by
  cases h with
  | ok kept => exact next _ kept
  | error reported => exact .error reported
  | cut short => exact .cut short

theorem mapError {bad' : Failure → Prop} {f : Failure → Failure} (h : Paired keeps bad (fun _ => False) x y)
    (next : ∀ failure, bad failure → bad' (f failure)) : Paired keeps bad' cut (x.mapError f) (y.mapError f) := by
  cases h with
  | ok kept => exact .ok kept
  | error reported => exact .error (next _ reported)
  | cut short => exact short.elim

theorem of_reports (h : Reports bad x) : Paired (fun _ => True) bad cut x x := by
  cases x with
  | ok a => exact .ok trivial
  | error failure => exact .error h

theorem eq_or_cut (h : Paired keeps bad cut x y) : x = y ∨ ∃ failure, cut failure ∧ x = .error failure := by
  cases h with
  | ok | error => exact .inl rfl
  | cut short => exact .inr ⟨_, short, rfl⟩

theorem reports (h : Paired keeps bad (fun _ => False) x y) : Reports bad x := by
  cases h with
  | ok => trivial
  | error reported => exact reported
  | cut short => exact short.elim

end Paired

/-- Both settings look up the known tokens alike. A known token, or the stop token, may be refused for its form, and a
known number for what its text says. -/
structure Setting.Alike (known : Token → Prop) (bad : Failure → Prop) (setting other : Setting) : Prop where
  stop : setting.stop = other.stop
  stops : known setting.stop
  binary : ∀ n token, known token → setting.binaryAt? n token = other.binaryAt? n token
  unary : ∀ token, known token → setting.unaryAt? token = other.unaryAt? token
  refusal : ∀ token cause, known token → cause.category = .invalidSyntax →
    bad { cause, position := token.position }
  number : ∀ token, known token → token.kind = .number → Reports bad token.numericValue

theorem Setting.alike_self (stops : known setting.stop)
    (refusal : ∀ token cause, known token → cause.category = .invalidSyntax →
      bad { cause, position := token.position })
    (number : ∀ token, known token → token.kind = .number → Reports bad token.numericValue) :
    setting.Alike known bad setting :=
  ⟨rfl, stops, fun _ _ _ => rfl, fun _ _ => rfl, refusal, number⟩

/-- The tokens that are left are known. -/
def Leaves (known : Token → Prop) (parsed : Parsed α given) : Prop := ∀ token ∈ parsed.rest, known token

/-- On known tokens the parsers have paired outcomes, and leave known tokens. -/
def Pair (known : Token → Prop) (bad cut : Failure → Prop) (parser parser' : Parser α) : Prop :=
  ∀ given, (∀ token ∈ given, known token) → Paired (Leaves known) bad cut (parser given) (parser' given)

theorem Setting.Alike.peek (alike : setting.Alike known bad other) : setting.peek = other.peek := by
  funext tokens
  rw [Setting.peek, Setting.peek, alike.stop]

theorem Setting.Alike.peek_known (alike : setting.Alike known bad other) (inside : ∀ token ∈ tokens, known token) :
    known (setting.peek tokens) := by
  cases tokens with
  | nil => exact alike.stops
  | cons token rest => exact inside token List.mem_cons_self

theorem refuse_paired {keeps : α → Prop} (alike : setting.Alike known bad other) {cause : Token → Cause}
    (category : ∀ token, (cause token).category = .invalidSyntax) (inside : ∀ token ∈ tokens, known token) :
    Paired keeps bad cut (setting.refuse cause tokens) (other.refuse cause tokens) := by
  rw [Setting.refuse, Setting.refuse, ← alike.peek]
  exact .error (alike.refusal _ _ (alike.peek_known inside) (category _))

/-! ### Chains -/

section

variable {operand operand' : Parser Expr} (alike : setting.Alike known bad other)
  (h : Pair known bad cut operand operand')

include alike h

theorem chainFrom_paired {left : Expr} {shorter : tokens.length < given.length}
    (inside : ∀ token ∈ tokens, known token) :
    Paired (Leaves known) bad cut (chainFrom setting n operand left tokens shorter)
      (chainFrom other n operand' left tokens shorter) := by
  fun_induction chainFrom setting n operand left tokens shorter with
  | case1 =>
    unfold chainFrom
    exact .ok inside
  | case2 left token tokens shorter none =>
    unfold chainFrom
    rw [← alike.binary n token (inside token List.mem_cons_self), none]
    exact .ok inside
  | case3 left token tokens shorter operator means _ ih =>
    obtain ⟨here, later⟩ := List.forall_mem_cons.mp inside
    rw [chainFrom.eq_def other n operand']
    simp only [← alike.binary n token here, means]
    exact (h tokens later).bind fun right => ih right

theorem chain_pair (n : Nat) : Pair known bad cut (chain setting n operand) (chain other n operand') :=
  fun given inside => (h given inside).bind fun _ => chainFrom_paired alike h

theorem expression_pair : Pair known bad cut (expression setting operand) (expression other operand') := by
  have folds (precedences : List Nat) :
      Pair known bad cut (precedences.foldr (chain setting) operand) (precedences.foldr (chain other) operand') := by
    induction precedences with
    | nil => exact h
    | cons n precedences ih => exact chain_pair alike ih n
  exact folds _

end

/-! ### Calls and parentheses -/

theorem closing_paired {bad' : Failure → Prop}
    (alike : setting.Alike known bad other) {cause : Token → Cause} {a : α}
    {shorter : tokens.length < given.length}
    (refused : ∀ token, known token → bad' { cause := cause token, position := token.position })
    (inside : ∀ token ∈ tokens, known token) :
    Paired (Leaves known) bad' cut (closing setting cause a tokens shorter) (closing other cause a tokens shorter) := by
  have refuse : Paired (Leaves known) bad' cut (setting.refuse cause tokens : Except Failure (Parsed α given))
      (other.refuse cause tokens) := by
    rw [Setting.refuse, Setting.refuse, ← alike.peek]
    exact .error (refused _ (alike.peek_known inside))
  cases tokens with
  | nil => exact refuse
  | cons token rest =>
    unfold closing
    by_cases kind : token.kind = .closing
    · simp only [kind, if_true]
      exact .ok (List.forall_mem_cons.mp inside).2
    · simp only [kind, if_false]
      exact refuse

/-- A missing parenthesis is reported where it is missed or, if that is no place, at the opening one. -/
theorem unclosed_reported (alike : setting.Alike known bad other) {opening token : Token} (here : known opening)
    (found : known token) :
    bad (Failure.withPosition { cause := .unclosedExpression token, position := token.position } opening.position) := by
  unfold Failure.withPosition
  split
  · exact alike.refusal opening _ here rfl
  · exact alike.refusal token _ found rfl

section

variable {argument argument' : Parser Expr} (alike : setting.Alike known bad other)
  (h : Pair known bad cut argument argument')

include alike h

theorem argumentsFrom_paired {before : List Expr} {shorter : tokens.length < given.length}
    (inside : ∀ token ∈ tokens, known token) :
    Paired (Leaves known) bad cut (argumentsFrom setting argument before tokens shorter)
      (argumentsFrom other argument' before tokens shorter) := by
  fun_induction argumentsFrom setting argument before tokens shorter with
  | case1 =>
    unfold argumentsFrom
    exact refuse_paired alike (fun _ => rfl) inside
  | case2 before comma tokens shorter kind _ ih =>
    rw [argumentsFrom.eq_def other argument']
    simp only [kind, if_true]
    exact (h tokens (List.forall_mem_cons.mp inside).2).bind fun next => ih next
  | case3 before token tokens shorter kind =>
    rw [argumentsFrom.eq_def other argument']
    simp only [kind, if_false]
    exact closing_paired alike (fun token here => alike.refusal token _ here rfl) inside

theorem someArguments_pair : Pair known bad cut (someArguments setting argument) (someArguments other argument') :=
  fun given inside => (h given inside).bind fun _ => argumentsFrom_paired alike h

theorem arguments_pair : Pair known bad cut (arguments setting argument) (arguments other argument') := by
  intro given inside
  cases given with
  | nil => exact someArguments_pair alike h [] inside
  | cons token rest =>
    unfold arguments
    by_cases kind : token.kind = .closing
    · simp only [kind, if_true]
      exact .ok (List.forall_mem_cons.mp inside).2
    · simp only [kind, if_false]
      exact someArguments_pair alike h _ inside

theorem parenthesized_pair {opening : Token} (here : known opening) :
    Pair known bad cut (parenthesized setting argument opening) (parenthesized other argument' opening) := by
  intro given inside
  unfold parenthesized
  rw [← alike.peek]
  by_cases empty : (setting.peek given).kind = .closing
  · simp only [empty, if_true]
    have refused : Paired (fun _ : PUnit => False) bad cut (setting.refuse (fun _ => .emptyParentheses) given)
        (other.refuse (fun _ => .emptyParentheses) given) := refuse_paired alike (fun _ => rfl) inside
    exact refused.bind fun _ => False.elim
  · simp only [empty, if_false]
    refine (h given inside).bind fun inner left => ?_
    have closes : Paired (Leaves known) (fun failure => bad (failure.withPosition opening.position)) (fun _ => False)
        (closing setting .unclosedExpression inner.result inner.rest inner.shorter)
        (closing other .unclosedExpression inner.result inner.rest inner.shorter) :=
      closing_paired alike (fun token => unclosed_reported alike here) left
    exact closes.mapError fun failure => id

end

/-! ### Operands -/

/-- Both runs may open a level, to parsers that are paired, or neither may, or the first is cut short. -/
inductive PairDeeper (known : Token → Prop) (bad cut : Failure → Prop) :
    Option (Parser Expr) → Option (Parser Expr) → Prop where
  | none : PairDeeper known bad cut none none
  | some {operand operand' : Parser Expr} (h : Pair known bad cut operand operand') :
      PairDeeper known bad cut (some operand) (some operand')
  | cut {operand : Parser Expr} (short : ∀ position, cut { cause := .nestedTooDeeply, position }) :
      PairDeeper known bad cut none (some operand)

section

variable {deeper deeper' : Option (Parser Expr)} (alike : setting.Alike known bad other)
  (h : PairDeeper known bad cut deeper deeper')

include alike h

theorem enter_bind_paired {keeps : α → Prop} {token : Token}
    {f g : Parser Expr → Except Failure α} (here : known token)
    (next : ∀ operand operand', Pair known bad cut operand operand' →
      Paired keeps bad cut (f operand) (g operand')) :
    Paired keeps bad cut (enter deeper token >>= f) (enter deeper' token >>= g) := by
  cases h with
  | none => exact .error (alike.refusal token _ here rfl)
  | some h => exact next _ _ h
  | cut short => exact .cut (short _)

theorem primary_pair : Pair known bad cut (primary setting deeper) (primary other deeper') := by
  intro given inside
  cases given with
  | nil => exact refuse_paired alike (fun _ => rfl) inside
  | cons token tokens =>
    obtain ⟨here, later⟩ := List.forall_mem_cons.mp inside
    unfold primary
    cases kind : token.kind with
    | number =>
      simp only [kind]
      exact (Paired.of_reports (alike.number token here kind)).bind fun value _ => .ok later
    | identifier =>
      cases tokens with
      | nil =>
        simp only [kind]
        exact .ok later
      | cons next tokens =>
        by_cases opens : next.kind = .opening
        · simp only [kind, opens, if_true]
          obtain ⟨here, later⟩ := List.forall_mem_cons.mp later
          refine enter_bind_paired alike h here fun operand operand' inner => ?_
          have list := arguments_pair alike (expression_pair alike inner) tokens later
          exact list.bind fun list left => .ok left
        · simp only [kind, opens, if_false]
          exact .ok later
    | opening =>
      simp only [kind]
      refine enter_bind_paired alike h here fun operand operand' inner => ?_
      have inside := parenthesized_pair alike (expression_pair alike inner) here tokens later
      exact inside.bind fun e left => .ok left
    | operator | closing | comma | endOfInput | unknown =>
      simp only [kind]
      exact refuse_paired alike (fun _ => rfl) inside

theorem power_pair : Pair known bad cut (power setting deeper) (power other deeper') := by
  intro given inside
  refine (primary_pair alike h given inside).bind ?_
  rintro ⟨base, left, shorter⟩ inside
  cases left with
  | nil => exact .ok inside
  | cons token rest =>
    obtain ⟨here, later⟩ := List.forall_mem_cons.mp inside
    dsimp only
    rw [← alike.binary tightest token here]
    cases setting.binaryAt? tightest token with
    | none => exact .ok inside
    | some operator =>
      refine enter_bind_paired alike h here fun operand operand' inner => ?_
      exact (inner rest later).bind fun exponent left => .ok left

theorem operandOver_pair : Pair known bad cut (operandOver setting deeper) (operandOver other deeper') := by
  intro given inside
  cases given with
  | nil => exact power_pair alike h [] inside
  | cons token rest =>
    obtain ⟨here, later⟩ := List.forall_mem_cons.mp inside
    unfold operandOver
    dsimp only
    rw [← alike.unary token here]
    cases setting.unaryAt? token with
    | none => exact power_pair alike h _ inside
    | some operator =>
      refine enter_bind_paired alike h here fun operand operand' inner => ?_
      exact (inner rest later).bind fun e left => .ok left

end

theorem operand_pair (alike : setting.Alike known bad other) {levels more : Nat} (le : levels ≤ more)
    (fewer : levels < more → ∀ position, cut { cause := .nestedTooDeeply, position }) :
    Pair known bad cut (operand setting levels) (operand other more) := by
  induction levels generalizing more with
  | zero =>
    cases more with
    | zero => exact operandOver_pair alike .none
    | succ more => exact operandOver_pair alike (.cut (fewer (Nat.succ_pos more)))
  | succ levels ih =>
    cases more with
    | zero => exact absurd le (Nat.not_succ_le_zero levels)
    | succ more =>
      exact operandOver_pair alike (.some (ih (Nat.le_of_succ_le_succ le) fun less => fewer (Nat.succ_lt_succ less)))

/-! ### Whole lists -/

section

variable {table table' : OperatorTable}
  (alike : Setting.Alike known bad ⟨table, stopOf tokens⟩ ⟨table', stopOf tokens⟩)
  (inside : ∀ token ∈ tokens, known token) (empty : bad { cause := .emptyExpression })

include alike inside empty

theorem parseWithin_paired {levels more : Nat} (le : levels ≤ more)
    (fewer : levels < more → ∀ position, cut { cause := .nestedTooDeeply, position }) :
    Paired (fun _ => True) bad cut (parseWithin levels table tokens) (parseWithin more table' tokens) := by
  by_cases nothing : body tokens = []
  · rw [parseWithin_empty nothing, parseWithin_empty nothing]
    exact .error empty
  rw [parseWithin_filled nothing, parseWithin_filled nothing]
  have within : ∀ token ∈ body tokens, known token :=
    fun token member => inside token (List.takeWhile_subset _ member)
  refine (expression_pair alike (operand_pair alike le fewer) _ within).bind ?_
  rintro ⟨e, rest, shorter⟩ left
  cases rest with
  | nil => exact .ok trivial
  | cons token rest => exact .error (alike.refusal token _ (left token List.mem_cons_self) rfl)

theorem parse_paired : Paired (fun _ => True) bad (fun _ => False) (parse table tokens) (parse table' tokens) :=
  parseWithin_paired alike inside empty (Nat.le_refl _) fun less => absurd less (Nat.lt_irrefl _)

end

end Calculator.Descent
