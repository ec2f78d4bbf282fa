import Calculator.Descent
import Calculator.Proofs.Failure

/-!
# What the parsers of the descent read

`Yields` says what a parser returns and which tokens it leaves. One relation or equivalence for each parser
describes its successes by those of the parsers that it calls, so that nothing else opens the definitions.
-/

namespace Calculator.Descent

variable {α : Type} {setting : Setting} {given : List Token}

/-- The parser for operands one level deeper, where `levels` may still be opened. -/
def nested (setting : Setting) : (levels : Nat) → Option (Parser Expr)
  | 0 => none
  | levels + 1 => some (operand setting levels)

theorem operand_eq (levels : Nat) : operand setting levels = operandOver setting (nested setting levels) := by
  cases levels <;> rfl

/-- The outcome is a success with the result `a` that leaves `rest`. -/
def Yields (outcome : Except Failure (Parsed α given)) (a : α) (rest : List Token) : Prop :=
  ∃ parsed, outcome = .ok parsed ∧ parsed.result = a ∧ parsed.rest = rest

theorem yields_ok {result a : α} {tokens rest : List Token} {shorter : tokens.length < given.length} :
    Yields (.ok ⟨result, tokens, shorter⟩) a rest ↔ result = a ∧ tokens = rest := by
  constructor
  · rintro ⟨parsed, same, result⟩
    cases same
    exact result
  · rintro ⟨rfl, rfl⟩
    exact ⟨_, rfl, rfl, rfl⟩

theorem not_yields_refuse {cause : Token → Cause} {tokens : List Token} {a : α} {rest : List Token} :
    ¬ @Yields α given (setting.refuse cause tokens) a rest := nofun

theorem yields_unique {outcome : Except Failure (Parsed α given)} {a b : α} {rest others : List Token}
    (h : Yields outcome a rest) (h' : Yields outcome b others) : a = b ∧ rest = others := by
  obtain ⟨_, rfl, rfl, rfl⟩ := h
  obtain ⟨_, same, rfl, rfl⟩ := h'
  cases same
  exact ⟨rfl, rfl⟩

/-! ### Chains of left associative operators -/

/-- With `left` read, the operators of one precedence and their operands in front of `rest` lead to `e`. -/
inductive Chains (setting : Setting) (n : Nat) (operand : Parser Expr) :
    Expr → List Token → Expr → List Token → Prop where
  | stop {left : Expr} {rest : List Token} (h : ∀ token ∈ rest.head?, setting.binaryAt? n token = none) :
      Chains setting n operand left rest left rest
  | step {left right e : Expr} {token : Token} {operator : BinaryOperator} {tokens after rest : List Token}
      (means : setting.binaryAt? n token = some operator) (r : Yields (operand tokens) right after)
      (h : Chains setting n operand (.binary operator token left right) after e rest) :
      Chains setting n operand left (token :: tokens) e rest

variable {n : Nat} {operand : Parser Expr} {left e : Expr} {tokens rest : List Token}

theorem chains_of_chainFrom {shorter : tokens.length < given.length}
    (h : Yields (chainFrom setting n operand left tokens shorter) e rest) :
    Chains setting n operand left tokens e rest := by
  fun_induction chainFrom setting n operand left tokens shorter with
  | case1 =>
    obtain ⟨rfl, rfl⟩ := yields_ok.mp h
    exact .stop (by simp)
  | case2 left token tokens shorter none =>
    obtain ⟨rfl, rfl⟩ := yields_ok.mp h
    exact .stop (by simpa using none)
  | case3 left token tokens shorter operator means _ ih =>
    obtain ⟨parsed, h, result⟩ := h
    obtain ⟨right, hr, h⟩ := bind_eq_ok.mp h
    exact .step means ⟨right, hr, rfl, rfl⟩ (ih right ⟨parsed, h, result⟩)

theorem chainFrom_of_chains (h : Chains setting n operand left tokens e rest) :
    ∀ shorter : tokens.length < given.length,
      Yields (chainFrom setting n operand left tokens shorter) e rest := by
  induction h with
  | @stop left rest none =>
    intro shorter
    unfold chainFrom
    cases rest with
    | nil => exact yields_ok.mpr ⟨rfl, rfl⟩
    | cons token rest =>
      simp only [none token rfl]
      exact yields_ok.mpr ⟨rfl, rfl⟩
  | step means r _ ih =>
    intro shorter
    unfold chainFrom
    rw [means]
    obtain ⟨right, hr, rfl, rfl⟩ := r
    obtain ⟨parsed, h, result⟩ := ih (by have := right.shorter; simp at shorter; omega)
    exact ⟨parsed, bind_eq_ok.mpr ⟨right, hr, h⟩, result⟩

theorem yields_chain : Yields (chain setting n operand given) e rest ↔
    ∃ left tokens, Yields (operand given) left tokens ∧ Chains setting n operand left tokens e rest := by
  constructor
  · rintro ⟨parsed, h, result⟩
    obtain ⟨left, hl, h⟩ := bind_eq_ok.mp h
    exact ⟨_, _, ⟨left, hl, rfl, rfl⟩, chains_of_chainFrom ⟨parsed, h, result⟩⟩
  · rintro ⟨_, _, ⟨left, hl, rfl, rfl⟩, h⟩
    obtain ⟨parsed, h, result⟩ := chainFrom_of_chains h left.shorter
    exact ⟨parsed, bind_eq_ok.mpr ⟨left, hl, h⟩, result⟩

/-! ### Closing parentheses and arguments -/

theorem yields_closing {cause : Token → Cause} {result a : α} {shorter : tokens.length < given.length} :
    Yields (closing setting cause result tokens shorter) a rest ↔
      result = a ∧ ∃ token, token.kind = .closing ∧ tokens = token :: rest := by
  unfold closing
  cases tokens with
  | nil => simp [not_yields_refuse]
  | cons token tokens =>
    by_cases kind : token.kind = .closing
    · simp only [kind, if_true, yields_ok]
      refine and_congr_right fun _ => ⟨?_, ?_⟩
      · rintro rfl
        exact ⟨token, kind, rfl⟩
      · rintro ⟨_, _, same⟩
        cases same
        rfl
    · simp only [kind, if_false, not_yields_refuse, false_iff]
      rintro ⟨_, _, closes, same⟩
      cases same
      exact kind closes

/-- With the arguments `before` read, the last one first, the tokens in front of `rest` complete the list. -/
inductive Gathers (argument : Parser Expr) : List Expr → List Token → List Expr → List Token → Prop where
  | close {before : List Expr} {token : Token} {rest : List Token} (kind : token.kind = .closing) :
      Gathers argument before (token :: rest) before.reverse rest
  | next {before list : List Expr} {e : Expr} {comma : Token} {tokens after rest : List Token}
      (kind : comma.kind = .comma) (h : Yields (argument tokens) e after)
      (more : Gathers argument (e :: before) after list rest) :
      Gathers argument before (comma :: tokens) list rest

variable {argument : Parser Expr} {before list : List Expr}

theorem gathers_of_argumentsFrom {shorter : tokens.length < given.length}
    (h : Yields (argumentsFrom setting argument before tokens shorter) list rest) :
    Gathers argument before tokens list rest := by
  fun_induction argumentsFrom setting argument before tokens shorter with
  | case1 => exact absurd h not_yields_refuse
  | case2 before comma tokens shorter kind _ ih =>
    obtain ⟨parsed, h, result⟩ := h
    obtain ⟨next, hn, h⟩ := bind_eq_ok.mp h
    exact .next kind ⟨next, hn, rfl, rfl⟩ (ih next ⟨parsed, h, result⟩)
  | case3 before token tokens shorter other _ =>
    obtain ⟨rfl, last, kind, same⟩ := yields_closing.mp h
    cases same
    exact .close kind

theorem argumentsFrom_of_gathers (h : Gathers argument before tokens list rest) :
    ∀ shorter : tokens.length < given.length,
      Yields (argumentsFrom setting argument before tokens shorter) list rest := by
  induction h with
  | close kind =>
    intro shorter
    unfold argumentsFrom
    simp only [kind, reduceCtorEq, if_false]
    exact yields_closing.mpr ⟨rfl, _, kind, rfl⟩
  | next kind h _ ih =>
    intro shorter
    unfold argumentsFrom
    simp only [kind, if_true]
    obtain ⟨next, hn, rfl, rfl⟩ := h
    obtain ⟨parsed, h, result⟩ := ih (by have := next.shorter; simp at shorter; omega)
    exact ⟨parsed, bind_eq_ok.mpr ⟨next, hn, h⟩, result⟩

theorem yields_someArguments : Yields (someArguments setting argument given) list rest ↔
    ∃ e tokens, Yields (argument given) e tokens ∧ Gathers argument [e] tokens list rest := by
  constructor
  · rintro ⟨parsed, h, result⟩
    obtain ⟨first, hf, h⟩ := bind_eq_ok.mp h
    exact ⟨_, _, ⟨first, hf, rfl, rfl⟩, gathers_of_argumentsFrom ⟨parsed, h, result⟩⟩
  · rintro ⟨_, _, ⟨first, hf, rfl, rfl⟩, h⟩
    obtain ⟨parsed, h, result⟩ := argumentsFrom_of_gathers h first.shorter
    exact ⟨parsed, bind_eq_ok.mpr ⟨first, hf, h⟩, result⟩

theorem yields_arguments_nil {token : Token} (kind : token.kind = .closing) :
    Yields (arguments setting argument (token :: tokens)) list rest ↔ list = [] ∧ rest = tokens := by
  simp only [arguments, kind, if_true, yields_ok, eq_comm]

theorem yields_arguments (h : ∀ token ∈ given.head?, token.kind ≠ .closing) :
    Yields (arguments setting argument given) list rest ↔
      ∃ e tokens, Yields (argument given) e tokens ∧ Gathers argument [e] tokens list rest := by
  refine Iff.trans ?_ (@yields_someArguments setting _ _ _ _)
  match given, h with
  | [], _ => rfl
  | token :: given, h => simp only [arguments, h token rfl, if_false]

theorem mapError_eq_ok {x : Except Failure α} {f : Failure → Failure} {a : α} :
    x.mapError f = .ok a ↔ x = .ok a := by
  cases x with
  | error failure => exact ⟨nofun, nofun⟩
  | ok => exact Iff.rfl

theorem yields_parenthesized {inner : Parser Expr} {opening : Token} :
    Yields (parenthesized setting inner opening given) e rest ↔
      (∀ token ∈ given.head?, token.kind ≠ .closing) ∧
        ∃ token, token.kind = .closing ∧ Yields (inner given) e (token :: rest) := by
  match given with
  | [] =>
    constructor
    · rintro ⟨parsed, _⟩
      exact absurd parsed.shorter (Nat.not_lt_zero _)
    · rintro ⟨_, _, _, parsed, _⟩
      exact absurd parsed.shorter (Nat.not_lt_zero _)
  | first :: given =>
    unfold parenthesized
    simp only [Setting.peek, List.head?_cons, Option.getD_some, Option.mem_some, forall_eq']
    by_cases empty : first.kind = .closing
    · simp only [empty, if_true, ne_eq, not_true, false_and, iff_false]
      rintro ⟨_, h, _⟩
      cases h
    simp only [empty, if_false, ne_eq, not_false_eq_true, true_and]
    constructor
    · rintro ⟨parsed, h, result⟩
      obtain ⟨read, hr, h⟩ := bind_eq_ok.mp h
      obtain ⟨rfl, token, kind, same⟩ := yields_closing.mp ⟨parsed, mapError_eq_ok.mp h, result⟩
      exact ⟨token, kind, read, hr, rfl, same⟩
    · rintro ⟨token, kind, read, hr, rfl, same⟩
      obtain ⟨parsed, h, result⟩ := yields_closing.mpr ⟨rfl, token, kind, same⟩
      exact ⟨parsed, bind_eq_ok.mpr ⟨read, hr, mapError_eq_ok.mpr h⟩, result⟩

/-! ### Operands -/

theorem enter_eq_ok {deeper : Option (Parser Expr)} {token : Token} :
    enter deeper token = .ok operand ↔ deeper = some operand := by
  cases deeper <;> simp [enter, failAt]

/-- The tokens in front of the rest are a number, a constant, a call or an expression in parentheses. -/
inductive Primary (setting : Setting) (deeper : Option (Parser Expr)) :
    List Token → Expr → List Token → Prop where
  | number {token : Token} {value : Float} {rest : List Token} (kind : token.kind = .number)
      (reads : token.numericValue = .ok value) :
      Primary setting deeper (token :: rest) (.literal value) rest
  | constant {name : Token} {rest : List Token} (kind : name.kind = .identifier)
      (alone : ∀ token ∈ rest.head?, token.kind ≠ .opening) :
      Primary setting deeper (name :: rest) (.call name.text name.position []) rest
  | call {name opening : Token} {operand : Parser Expr} {list : List Expr} {tokens rest : List Token}
      (kind : name.kind = .identifier) (opens : opening.kind = .opening) (room : deeper = some operand)
      (h : Yields (arguments setting (expression setting operand) tokens) list rest) :
      Primary setting deeper (name :: opening :: tokens) (.call name.text name.position list) rest
  | parenthesized {opening : Token} {operand : Parser Expr} {e : Expr} {tokens rest : List Token}
      (opens : opening.kind = .opening) (room : deeper = some operand)
      (h : Yields (parenthesized setting (expression setting operand) opening tokens) e rest) :
      Primary setting deeper (opening :: tokens) e rest

variable {deeper : Option (Parser Expr)}

theorem primary_of_yields (h : Yields (primary setting deeper given) e rest) :
    Primary setting deeper given e rest := by
  cases given with
  | nil => exact absurd h not_yields_refuse
  | cons token tokens =>
    unfold primary at h
    cases kind : token.kind with
    | number =>
      simp only [kind] at h
      obtain ⟨parsed, h, rfl, rfl⟩ := h
      obtain ⟨value, reads, h⟩ := bind_eq_ok.mp h
      cases h
      exact .number kind reads
    | identifier =>
      cases tokens with
      | nil =>
        simp only [kind] at h
        obtain ⟨rfl, rfl⟩ := yields_ok.mp h
        exact .constant kind (by simp)
      | cons next tokens =>
        simp only [kind] at h
        split at h
        next opens =>
          obtain ⟨parsed, h, rfl, rfl⟩ := h
          obtain ⟨operand, room, h⟩ := bind_eq_ok.mp h
          obtain ⟨list, hl, h⟩ := bind_eq_ok.mp h
          cases h
          exact .call kind opens (enter_eq_ok.mp room) ⟨list, hl, rfl, rfl⟩
        next other =>
          obtain ⟨rfl, rfl⟩ := yields_ok.mp h
          exact .constant kind (by simpa using other)
    | opening =>
      simp only [kind] at h
      obtain ⟨parsed, h, rfl, rfl⟩ := h
      obtain ⟨operand, room, h⟩ := bind_eq_ok.mp h
      obtain ⟨inner, hi, h⟩ := bind_eq_ok.mp h
      cases h
      exact .parenthesized kind (enter_eq_ok.mp room) ⟨inner, hi, rfl, rfl⟩
    | operator | closing | comma | endOfInput | unknown =>
      simp only [kind] at h
      exact absurd h not_yields_refuse

theorem yields_of_primary (h : Primary setting deeper given e rest) :
    Yields (primary setting deeper given) e rest := by
  unfold primary
  cases h with
  | number kind reads =>
    simp only [kind]
    exact ⟨_, bind_eq_ok.mpr ⟨_, reads, rfl⟩, rfl, rfl⟩
  | constant kind alone =>
    cases rest with
    | nil => simp only [kind, yields_ok, and_self]
    | cons next rest => simp only [kind, alone next rfl, if_false, yields_ok, and_self]
  | call kind opens room h =>
    obtain ⟨list, hl, rfl, rfl⟩ := h
    simp only [kind, opens, if_true]
    exact ⟨_, bind_eq_ok.mpr ⟨_, enter_eq_ok.mpr room, bind_eq_ok.mpr ⟨_, hl, rfl⟩⟩, rfl, rfl⟩
  | parenthesized opens room h =>
    obtain ⟨inner, hi, rfl, rfl⟩ := h
    simp only [opens]
    exact ⟨_, bind_eq_ok.mpr ⟨_, enter_eq_ok.mpr room, bind_eq_ok.mpr ⟨_, hi, rfl⟩⟩, rfl, rfl⟩

/-- The tokens in front of the rest are a primary, or one raised to an operand. -/
inductive Power (setting : Setting) (deeper : Option (Parser Expr)) :
    List Token → Expr → List Token → Prop where
  | plain {e : Expr} {tokens rest : List Token} (h : Yields (primary setting deeper tokens) e rest)
      (last : ∀ token ∈ rest.head?, setting.binaryAt? tightest token = none) :
      Power setting deeper tokens e rest
  | raised {base exponent : Expr} {token : Token} {operator : BinaryOperator} {operand : Parser Expr}
      {tokens after rest : List Token} (b : Yields (primary setting deeper tokens) base (token :: after))
      (means : setting.binaryAt? tightest token = some operator) (room : deeper = some operand)
      (x : Yields (operand after) exponent rest) :
      Power setting deeper tokens (.binary operator token base exponent) rest

theorem power_of_yields (h : Yields (power setting deeper given) e rest) : Power setting deeper given e rest := by
  unfold power at h
  obtain ⟨parsed, h, rfl, rfl⟩ := h
  obtain ⟨base, hb, h⟩ := bind_eq_ok.mp h
  split at h
  next left =>
    cases h
    exact .plain ⟨_, hb, rfl, rfl⟩ (by simp [left])
  next token after left =>
    split at h
    next none =>
      cases h
      exact .plain ⟨_, hb, rfl, rfl⟩ (by simpa [left] using none)
    next operator means =>
      obtain ⟨operand, room, h⟩ := bind_eq_ok.mp h
      obtain ⟨exponent, hx, h⟩ := bind_eq_ok.mp h
      cases h
      exact .raised ⟨_, hb, rfl, left⟩ means (enter_eq_ok.mp room) ⟨_, hx, rfl, rfl⟩

theorem yields_of_power (h : Power setting deeper given e rest) : Yields (power setting deeper given) e rest := by
  unfold power
  cases h with
  | plain h last =>
    obtain ⟨base, hb, rfl, rfl⟩ := h
    refine ⟨base, bind_eq_ok.mpr ⟨base, hb, ?_⟩, rfl, rfl⟩
    split
    · rfl
    next token after left =>
      rw [last token (by rw [left]; rfl)]
      rfl
  | raised b means room x =>
    obtain ⟨base, hb, rfl, left⟩ := b
    obtain ⟨exponent, hx, rfl, rfl⟩ := x
    have shorter : exponent.rest.length < given.length := by
      have := base.shorter
      have := exponent.shorter
      simp only [left, List.length_cons] at *
      omega
    refine ⟨⟨_, exponent.rest, shorter⟩, bind_eq_ok.mpr ⟨base, hb, ?_⟩, rfl, rfl⟩
    split
    next none => simp [none] at left
    next same =>
      cases left.symm.trans same
      simp only [means]
      exact bind_eq_ok.mpr ⟨_, enter_eq_ok.mpr room, bind_eq_ok.mpr ⟨_, hx, rfl⟩⟩

/-- The tokens in front of the rest are a power, or a unary operator and its operand. -/
inductive Operand (setting : Setting) (deeper : Option (Parser Expr)) :
    List Token → Expr → List Token → Prop where
  | plain {e : Expr} {tokens rest : List Token} (first : ∀ token ∈ tokens.head?, setting.unaryAt? token = none)
      (h : Yields (power setting deeper tokens) e rest) : Operand setting deeper tokens e rest
  | unary {e : Expr} {token : Token} {operator : UnaryOperator} {operand : Parser Expr}
      {tokens rest : List Token} (means : setting.unaryAt? token = some operator)
      (room : deeper = some operand) (h : Yields (operand tokens) e rest) :
      Operand setting deeper (token :: tokens) (.unary operator token e) rest

theorem yields_operandOver : Yields (operandOver setting deeper given) e rest ↔
    Operand setting deeper given e rest := by
  constructor
  · intro h
    cases given with
    | nil => exact .plain (by simp) h
    | cons token tokens =>
      unfold operandOver at h
      cases means : setting.unaryAt? token with
      | none =>
        simp only [means] at h
        exact .plain (by simpa using means) h
      | some operator =>
        simp only [means] at h
        obtain ⟨parsed, h, rfl, rfl⟩ := h
        obtain ⟨operand, room, h⟩ := bind_eq_ok.mp h
        obtain ⟨inner, hi, h⟩ := bind_eq_ok.mp h
        cases h
        exact .unary means (enter_eq_ok.mp room) ⟨_, hi, rfl, rfl⟩
  · intro h
    cases h with
    | plain first h =>
      cases given with
      | nil => exact h
      | cons token tokens =>
        unfold operandOver
        simp only [first token rfl]
        exact h
    | unary means room h =>
      obtain ⟨inner, hi, rfl, rfl⟩ := h
      unfold operandOver
      simp only [means]
      exact ⟨_, bind_eq_ok.mpr ⟨_, enter_eq_ok.mpr room, bind_eq_ok.mpr ⟨_, hi, rfl⟩⟩, rfl, rfl⟩

/-! ### Levels of precedence -/

/-- The parser of expressions whose operators have at least the given precedence. -/
def level (setting : Setting) (operand : Parser Expr) (n : Nat) : Parser Expr :=
  (List.range' n (tightest - n)).foldr (chain setting) operand

theorem level_of_lt (h : n < tightest) :
    level setting operand n = chain setting n (level setting operand (n + 1)) := by
  rw [level, show tightest - n = tightest - (n + 1) + 1 by omega, List.range'_succ, List.foldr_cons, level]

theorem level_tightest : level setting operand tightest = operand := rfl

/-! ### Whole lists -/

variable {table : OperatorTable} {levels : Nat}

theorem parseWithin_empty (empty : body tokens = []) : parseWithin levels table tokens = failAt 0 .emptyExpression := by
  have : (body tokens).isEmpty = true := List.isEmpty_iff.mpr empty
  unfold parseWithin
  rw [if_pos this]
  rfl

theorem parseWithin_filled (filled : body tokens ≠ []) :
    parseWithin levels table tokens = (do
      let e ← expression ⟨table, stopOf tokens⟩ (Descent.operand ⟨table, stopOf tokens⟩ levels) (body tokens)
      match e.rest with
      | [] => return e.result
      | token :: _ => failAt token.position (.trailingToken token.text)) := by
  have : ¬ (body tokens).isEmpty = true := fun empty => filled (List.isEmpty_iff.mp empty)
  unfold parseWithin
  exact if_neg this

theorem stopOf_kind (tokens : List Token) : (stopOf tokens).kind = .endOfInput := by
  unfold stopOf
  cases found : tokens.find? Token.isStop with
  | none => rfl
  | some token =>
    have stop : token.isStop = true := List.find?_some found
    exact of_decide_eq_true stop

end Calculator.Descent
