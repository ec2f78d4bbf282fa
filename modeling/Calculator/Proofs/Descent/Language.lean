import Calculator.Proofs.Descent.Steps
import Calculator.Proofs.Grammar.Basic

/-!
# The language of the descent

The descent accepts exactly the lists of tokens that derive a tree, and returns that tree.
-/

namespace Calculator.Descent

variable {setting : Setting} {n : Nat} {operand : Parser Expr} {left e : Expr} {tokens rest : List Token}

/-! ### Meanings -/

theorem binaryAt?_eq_some {token : Token} {operator : BinaryOperator} :
    setting.binaryAt? n token = some operator ↔
      setting.table.IsBinary token operator ∧ operator.precedence = n := by
  by_cases kind : token.kind = .operator <;>
    simp [Setting.binaryAt?, OperatorTable.IsBinary, Token.isOperator, kind, Option.filter_eq_some_iff]

theorem unaryAt?_eq_some {token : Token} {operator : UnaryOperator} :
    setting.unaryAt? token = some operator ↔ setting.table.IsUnary token operator := by
  by_cases kind : token.kind = .operator <;>
    simp [Setting.unaryAt?, OperatorTable.IsUnary, Token.isOperator, kind]

/-! ### What is read derives the result -/

/-- What the parser reads has the form, with the result as its tree. -/
def Sound (setting : Setting) (form : Form) (parser : Parser Expr) : Prop :=
  ∀ given e rest, Yields (parser given) e rest →
    ∃ read, given = read ++ rest ∧ Derives setting.table form read e

theorem chains_sound (lower : 1 ≤ n) (upper : n < tightest)
    (sound : Sound setting (.expression (n + 1)) operand)
    (h : Chains setting n operand left tokens e rest) {before : List Token}
    (l : Derives setting.table (.expression n) before left) :
    ∃ read, before ++ tokens = read ++ rest ∧ Derives setting.table (.expression n) read e := by
  induction h generalizing before with
  | stop => exact ⟨before, rfl, l⟩
  | step means right _ ih =>
    obtain ⟨means, binds⟩ := binaryAt?_eq_some.mp means
    obtain ⟨after, rfl, r⟩ := sound _ _ _ right
    obtain ⟨read, same, derived⟩ := ih (.operation lower upper means binds l r)
    exact ⟨read, by rw [← same]; simp, derived⟩

theorem chain_sound (lower : 1 ≤ n) (upper : n < tightest)
    (sound : Sound setting (.expression (n + 1)) operand) :
    Sound setting (.expression n) (chain setting n operand) := by
  intro given e rest h
  obtain ⟨left, tokens, first, more⟩ := yields_chain.mp h
  obtain ⟨before, rfl, l⟩ := sound _ _ _ first
  exact chains_sound lower upper sound more (.tighter lower upper l)

theorem level_sound (sound : Sound setting (.expression tightest) operand) (lower : 1 ≤ n)
    (upper : n ≤ tightest) : Sound setting (.expression n) (level setting operand n) := by
  obtain ⟨k, hk⟩ := Nat.exists_eq_add_of_le upper
  induction k generalizing n with
  | zero =>
    obtain rfl : n = tightest := hk.symm
    exact sound
  | succ k ih =>
    have below : n < tightest := by omega
    rw [level_of_lt below]
    exact chain_sound lower below (ih (by omega) below (by omega))

theorem expression_sound (sound : Sound setting (.expression tightest) operand) :
    Sound setting (.expression 1) (expression setting operand) :=
  level_sound sound (by decide) (by decide)

theorem gathers_sound {argument : Parser Expr} (sound : Sound setting (.expression 1) argument)
    {before list : List Expr} (h : Gathers argument before tokens list rest) {read : List Token}
    (first : Derives setting.table (.expression 1) read e) :
    ∃ more token others, token.kind = .closing ∧ tokens = more ++ token :: rest ∧
      DerivesAll setting.table (read ++ more) (e :: others) ∧ list = before.reverse ++ others := by
  induction h generalizing read e with
  | @close before token rest kind => exact ⟨[], token, [], kind, rfl, by simpa using .one first, by simp⟩
  | @next before list e' comma tokens after rest kind h _ ih =>
    obtain ⟨front, rfl, derived⟩ := sound _ _ _ h
    obtain ⟨more, last, others, closes, rfl, all, rfl⟩ := ih derived
    exact ⟨comma :: (front ++ more), last, e' :: others, closes, by simp, .more first kind all, by simp⟩

theorem arguments_sound {argument : Parser Expr} (sound : Sound setting (.expression 1) argument)
    {list : List Expr} (h : Yields (arguments setting argument tokens) list rest) :
    ∃ read token, token.kind = .closing ∧ tokens = read ++ token :: rest ∧
      (read = [] ∧ list = [] ∨ DerivesAll setting.table read list) := by
  by_cases empty : ∃ token ∈ tokens.head?, token.kind = .closing
  · obtain ⟨token, head, kind⟩ := empty
    obtain ⟨others, rfl⟩ := List.head?_eq_some_iff.mp head
    obtain ⟨rfl, rfl⟩ := (yields_arguments_nil kind).mp h
    exact ⟨[], token, kind, rfl, .inl ⟨rfl, rfl⟩⟩
  · have filled : ∀ token ∈ tokens.head?, token.kind ≠ .closing :=
      fun token head kind => empty ⟨token, head, kind⟩
    obtain ⟨e, after, first, more⟩ := (yields_arguments filled).mp h
    obtain ⟨read, rfl, derived⟩ := sound _ _ _ first
    obtain ⟨others, token, list, kind, rfl, all, rfl⟩ := gathers_sound sound more derived
    exact ⟨read ++ others, token, kind, by simp, .inr all⟩

section

variable {deeper : Option (Parser Expr)}
  (sound : ∀ operand, deeper = some operand → Sound setting (.expression tightest) operand)

include sound

theorem primary_sound : Sound setting .primary (primary setting deeper) := by
  intro given e rest h
  cases primary_of_yields h with
  | number kind reads => exact ⟨[_], rfl, .number kind reads⟩
  | constant kind => exact ⟨[_], rfl, .constant kind⟩
  | @call name opening _ list tokens _ kind opens room h =>
    obtain ⟨read, closing, closes, rfl, ⟨rfl, rfl⟩ | derived⟩ :=
      arguments_sound (expression_sound (sound _ room)) h
    · exact ⟨[name, opening, closing], rfl, .emptyCall kind opens closes⟩
    · exact ⟨name :: opening :: (read ++ [closing]), by simp, .call kind opens closes derived⟩
  | @parenthesized opening _ _ tokens _ opens room h =>
    obtain ⟨_, closing, closes, h⟩ := yields_parenthesized.mp h
    obtain ⟨read, rfl, derived⟩ := expression_sound (sound _ room) _ _ _ h
    exact ⟨opening :: (read ++ [closing]), by simp, .parenthesized opens closes derived⟩

theorem power_sound : Sound setting .power (power setting deeper) := by
  intro given e rest h
  cases power_of_yields h with
  | plain h =>
    obtain ⟨read, rfl, derived⟩ := primary_sound sound _ _ _ h
    exact ⟨read, rfl, .ofPrimary derived⟩
  | @raised base exponent token operator operand _ after _ b means room x =>
    obtain ⟨means, binds⟩ := binaryAt?_eq_some.mp means
    obtain ⟨before, rfl, derived⟩ := primary_sound sound _ _ _ b
    obtain ⟨read, rfl, derived'⟩ := sound _ room _ _ _ x
    exact ⟨before ++ token :: read, by simp, .power means binds derived derived'⟩

theorem operandOver_sound : Sound setting (.expression tightest) (operandOver setting deeper) := by
  intro given e rest h
  cases yields_operandOver.mp h with
  | plain _ h =>
    obtain ⟨read, rfl, derived⟩ := power_sound sound _ _ _ h
    exact ⟨read, rfl, .ofPower derived⟩
  | @unary _ token _ _ _ _ means room h =>
    obtain ⟨read, rfl, derived⟩ := sound _ room _ _ _ h
    exact ⟨token :: read, rfl, .unary (unaryAt?_eq_some.mp means) derived⟩

end

theorem operand_sound (levels : Nat) :
    Sound setting (.expression tightest) (Descent.operand setting levels) := by
  induction levels with
  | zero => exact operandOver_sound nofun
  | succ levels ih =>
    apply operandOver_sound
    rintro _ ⟨⟩
    exact ih

/-! ### What has the form is read -/

theorem binaryAt?_eq_none_of_settled (h : Settled setting.table n rest) :
    ∀ token ∈ rest.head?, setting.binaryAt? n token = none := by
  intro token head
  cases means : setting.binaryAt? n token with
  | none => rfl
  | some operator =>
    obtain ⟨means, binds⟩ := binaryAt?_eq_some.mp means
    have := (h token head).2 operator means
    omega

def reader (setting : Setting) (levels : Nat) : Form → Parser Expr
  | .expression n => level setting (Descent.operand setting levels) n
  | .power => power setting (nested setting levels)
  | .primary => primary setting (nested setting levels)

/-- How the parser of a form goes on once it has read `left`: only a chain does. -/
def Resumes (setting : Setting) (levels : Nat) : Form → Expr → List Token → Expr → List Token → Prop
  | .expression n, left, tokens, e, rest =>
    if n < tightest then Chains setting n (reader setting levels (.expression (n + 1))) left tokens e rest
    else left = e ∧ tokens = rest
  | _, left, tokens, e, rest => left = e ∧ tokens = rest

theorem resumes_expression {levels : Nat} (h : n < tightest) :
    Resumes setting levels (.expression n) left tokens e rest ↔
      Chains setting n (reader setting levels (.expression (n + 1))) left tokens e rest := by
  simp [Resumes, h]

theorem resumes_self {levels : Nat} (h : Settled setting.table n rest) :
    Resumes setting levels (.expression n) e rest e rest := by
  by_cases below : n < tightest
  · exact (resumes_expression below).mpr (.stop (binaryAt?_eq_none_of_settled h))
  · simp [Resumes, below]

/-- What may follow tokens of a form before its parser goes on with a chain: no operator of this precedence or
tighter. -/
def bound : Form → Nat
  | .expression n => min (n + 1) tightest
  | .power => tightest
  | .primary => tightest + 1

/-- The parser of the form reads the tokens, with `left` as their tree, and goes on with those behind them. -/
def Completes (setting : Setting) (form : Form) (read : List Token) (left : Expr) : Prop :=
  ∀ ⦃levels tokens e rest⦄, read.length ≤ levels → Settled setting.table (bound form) tokens →
    Resumes setting levels form left tokens e rest → Yields (reader setting levels form (read ++ tokens)) e rest

/-- The tokens in front of a closing parenthesis are read as the first argument and those after it. -/
def CompletesAll (setting : Setting) (read : List Token) (list : List Expr) : Prop :=
  ∀ ⦃levels closing rest⦄, read.length ≤ levels → closing.kind = .closing → ∃ e after,
    Yields (reader setting levels (.expression 1) (read ++ closing :: rest)) e after ∧
      ∀ before, Gathers (reader setting levels (.expression 1)) (e :: before) after (before.reverse ++ list) rest

namespace Completes

variable {read before after : List Token} {right : Expr} {token opening closing : Token} {list : List Expr}

theorem operation {operator : BinaryOperator} (upper : n < tightest) (means : setting.table.IsBinary token operator)
    (binds : operator.precedence = n) (l : Completes setting (.expression n) before left)
    (r : Completes setting (.expression (n + 1)) after right) :
    Completes setting (.expression n) (before ++ token :: after) (.binary operator token left right) := by
  intro levels tokens e rest room settled resumes
  simp only [List.length_append, List.length_cons] at room
  rw [List.append_assoc, List.cons_append]
  have settled : Settled setting.table (n + 1) tokens := settled.mono (Nat.min_le_left _ _)
  refine l (by omega) (settled_operator means (by rw [bound]; omega)) ((resumes_expression upper).mpr ?_)
  refine .step (binaryAt?_eq_some.mpr ⟨means, binds⟩) (r (by omega) ?_ (resumes_self settled)) ?_
  · exact settled.mono (by rw [bound]; omega)
  · exact (resumes_expression upper).mp resumes

theorem tighter (upper : n < tightest) (h : Completes setting (.expression (n + 1)) read left) :
    Completes setting (.expression n) read left := by
  intro levels tokens e rest room settled resumes
  rw [reader, level_of_lt upper]
  have settled : Settled setting.table (n + 1) tokens := settled.mono (Nat.min_le_left _ _)
  exact yields_chain.mpr ⟨_, tokens, h room (settled.mono (by rw [bound]; omega)) (resumes_self settled),
    (resumes_expression upper).mp resumes⟩

theorem unary {operator : UnaryOperator} (means : setting.table.IsUnary token operator)
    (h : Completes setting (.expression tightest) read e) :
    Completes setting (.expression tightest) (token :: read) (.unary operator token e) := by
  intro levels tokens e rest room settled resumes
  obtain ⟨rfl, rfl⟩ := resumes
  obtain ⟨levels, rfl⟩ : ∃ k, levels = k + 1 := Nat.exists_eq_add_one.mpr (Nat.zero_lt_of_lt room)
  rw [reader, level_tightest, operand_eq]
  exact yields_operandOver.mpr (.unary (unaryAt?_eq_some.mpr means) rfl
    (h (Nat.le_of_succ_le_succ room) settled ⟨rfl, rfl⟩))

theorem ofPower (derived : Derives setting.table .power read e) (h : Completes setting .power read e) :
    Completes setting (.expression tightest) read e := by
  intro levels tokens e rest room settled resumes
  obtain ⟨rfl, rfl⟩ := resumes
  rw [reader, level_tightest, operand_eq]
  refine yields_operandOver.mpr (.plain ?_ (h room settled ⟨rfl, rfl⟩))
  intro token head
  have other := head_append derived.head_of_power token head
  simp only [Token.isOperator, Bool.not_eq_true', decide_eq_false_iff_not] at other
  exact Option.eq_none_iff_forall_ne_some.mpr fun _ means => other (unaryAt?_eq_some.mp means).1

theorem ofPrimary (h : Completes setting .primary read e) : Completes setting .power read e := by
  intro levels tokens e rest room settled resumes
  obtain ⟨rfl, rfl⟩ := resumes
  have primary := h room (settled.mono (Nat.le_succ _)) ⟨rfl, rfl⟩
  exact yields_of_power (.plain primary (binaryAt?_eq_none_of_settled settled))

theorem power {operator : BinaryOperator} (means : setting.table.IsBinary token operator)
    (binds : operator.precedence = tightest) (b : Completes setting .primary before left)
    (x : Completes setting (.expression tightest) after right) :
    Completes setting .power (before ++ token :: after) (.binary operator token left right) := by
  intro levels tokens e rest room settled resumes
  obtain ⟨rfl, rfl⟩ := resumes
  simp only [List.length_append, List.length_cons] at room
  obtain ⟨levels, rfl⟩ : ∃ k, levels = k + 1 := Nat.exists_eq_add_one.mpr (by omega)
  rw [List.append_assoc, List.cons_append]
  have ended : Settled setting.table (bound .primary) (token :: (after ++ tokens)) :=
    settled_operator means (by rw [binds, bound]; omega)
  exact yields_of_power (.raised (b (by omega) ended ⟨rfl, rfl⟩) (binaryAt?_eq_some.mpr ⟨means, binds⟩) rfl
    (x (by omega) settled ⟨rfl, rfl⟩))

theorem number {value : Float} (kind : token.kind = .number) (reads : token.numericValue = .ok value) :
    Completes setting .primary [token] (.literal value) := by
  intro levels tokens e rest _ _ resumes
  obtain ⟨rfl, rfl⟩ := resumes
  exact yields_of_primary (.number kind reads)

theorem constant (kind : token.kind = .identifier) :
    Completes setting .primary [token] (.call token.text token.position []) := by
  intro levels tokens e rest _ settled resumes
  obtain ⟨rfl, rfl⟩ := resumes
  exact yields_of_primary (.constant kind fun token head => (settled token head).1)

theorem emptyCall (kind : token.kind = .identifier) (opens : opening.kind = .opening)
    (closes : closing.kind = .closing) :
    Completes setting .primary [token, opening, closing] (.call token.text token.position []) := by
  intro levels tokens e rest room _ resumes
  obtain ⟨rfl, rfl⟩ := resumes
  obtain ⟨levels, rfl⟩ : ∃ k, levels = k + 1 := Nat.exists_eq_add_one.mpr (Nat.zero_lt_of_lt room)
  exact yields_of_primary (.call kind opens rfl ((yields_arguments_nil closes).mpr ⟨rfl, rfl⟩))

theorem not_closing_of_opens (opens : read.head?.any Adjacency.opensOperand = true) (tokens : List Token) :
    ∀ token ∈ (read ++ tokens).head?, token.kind ≠ .closing := by
  intro token head kind
  have opens := head_append opens token head
  simp [Adjacency.opensOperand, kind] at opens

theorem call (kind : token.kind = .identifier) (opens : opening.kind = .opening) (closes : closing.kind = .closing)
    (derived : DerivesAll setting.table read list) (h : CompletesAll setting read list) :
    Completes setting .primary (token :: opening :: (read ++ [closing])) (.call token.text token.position list) := by
  intro levels tokens e rest room _ resumes
  obtain ⟨rfl, rfl⟩ := resumes
  simp only [List.length_append, List.length_cons] at room
  obtain ⟨levels, rfl⟩ : ∃ k, levels = k + 1 := Nat.exists_eq_add_one.mpr (by omega)
  rw [List.cons_append, List.cons_append, List.append_assoc]
  obtain ⟨e, after, first, more⟩ := @h levels _ tokens (by omega) closes
  have filled := not_closing_of_opens derived.head_opens (closing :: tokens)
  exact yields_of_primary (.call kind opens rfl ((yields_arguments filled).mpr ⟨e, after, first, more []⟩))

theorem parenthesized (opens : opening.kind = .opening) (closes : closing.kind = .closing)
    (derived : Derives setting.table (.expression 1) read e) (h : Completes setting (.expression 1) read e) :
    Completes setting .primary (opening :: (read ++ [closing])) e := by
  intro levels tokens _ rest room _ resumes
  obtain ⟨rfl, rfl⟩ := resumes
  simp only [List.length_append, List.length_cons] at room
  obtain ⟨levels, rfl⟩ : ∃ k, levels = k + 1 := Nat.exists_eq_add_one.mpr (by omega)
  rw [List.cons_append, List.append_assoc]
  have settled {n} : Settled setting.table n (closing :: tokens) :=
    settled_of_kind (by simp [closes]) (by simp [closes])
  have filled := not_closing_of_opens derived.head_opens (closing :: tokens)
  have inner : Yields (reader setting levels (.expression 1) (read ++ closing :: tokens)) e (closing :: tokens) :=
    h (by omega) settled (resumes_self settled)
  exact yields_of_primary (.parenthesized opens rfl (yields_parenthesized.mpr ⟨filled, _, closes, inner⟩))

theorem one (h : Completes setting (.expression 1) read e) : CompletesAll setting read [e] := by
  intro levels closing rest room kind
  have settled {n} : Settled setting.table n (closing :: rest) := settled_of_kind (by simp [kind]) (by simp [kind])
  refine ⟨_, _, h room settled (resumes_self settled), fun before => ?_⟩
  rw [← List.reverse_cons]
  exact .close kind

theorem more {comma : Token} (h : Completes setting (.expression 1) before e) (kind : comma.kind = .comma)
    (others : CompletesAll setting after list) : CompletesAll setting (before ++ comma :: after) (e :: list) := by
  intro levels closing rest room closes
  simp only [List.length_append, List.length_cons] at room
  have settled {n} : Settled setting.table n (comma :: (after ++ closing :: rest)) :=
    settled_of_kind (by simp [kind]) (by simp [kind])
  obtain ⟨next, left, first, gathers⟩ := @others levels closing rest (by omega) closes
  rw [List.append_assoc, List.cons_append]
  refine ⟨_, _, h (by omega) settled (resumes_self settled), fun earlier => .next kind first ?_⟩
  simpa using gathers (e :: earlier)

end Completes

theorem reader_complete {form : Form} {read : List Token} (h : Derives setting.table form read left) :
    Completes setting form read left := by
  induction h using @Derives.rec setting.table _ (fun read list _ => CompletesAll setting read list) with
  | operation _ upper means binds _ _ l r => exact l.operation upper means binds r
  | tighter _ upper _ h => exact h.tighter upper
  | unary means _ h => exact h.unary means
  | ofPower derived h => exact h.ofPower derived
  | ofPrimary _ h => exact h.ofPrimary
  | power means binds _ _ b x => exact b.power means binds x
  | number kind reads => exact .number kind reads
  | constant kind => exact .constant kind
  | emptyCall kind opens closes => exact .emptyCall kind opens closes
  | call kind opens closes derived h => exact .call kind opens closes derived h
  | parenthesized opens closes derived h => exact h.parenthesized opens closes derived
  | one _ h => exact h.one
  | more _ kind _ h others => exact h.more kind others

/-! ### Whole lists -/

theorem resumes_alone {form : Form} {levels : Nat} : Resumes setting levels form e [] e [] := by
  cases form with
  | expression => exact resumes_self settled_nil
  | power | primary => exact ⟨rfl, rfl⟩

theorem reader_alone {form : Form} {levels : Nat} (h : Derives setting.table form tokens e)
    (room : tokens.length ≤ levels) : Yields (reader setting levels form tokens) e [] := by
  have := reader_complete h room settled_nil resumes_alone
  rwa [List.append_nil] at this

theorem derives_unique {table : OperatorTable} {form : Form} {other : Expr} (h : Derives table form tokens e)
    (h' : Derives table form tokens other) : e = other := by
  let setting : Setting := ⟨table, .stop 0⟩
  have complete {e : Expr} (h : Derives setting.table form tokens e) :
      Yields (reader setting tokens.length form tokens) e [] := reader_alone h (Nat.le_refl _)
  exact (yields_unique (complete h) (complete h')).1

/-- A whole list is read if its parser leaves nothing of the part before the stop token. -/
theorem parse_iff_yields {table : OperatorTable} :
    Descent.parse table tokens = .ok e ↔ body tokens ≠ [] ∧
      Yields (reader ⟨table, stopOf tokens⟩ tokens.length (.expression 1) (body tokens)) e [] := by
  rw [Descent.parse]
  by_cases empty : body tokens = []
  · rw [parseWithin_empty empty]
    exact ⟨nofun, fun h => absurd empty h.1⟩
  rw [parseWithin_filled empty, bind_eq_ok]
  constructor
  · rintro ⟨⟨result, rest, shorter⟩, same, h⟩
    cases rest with
    | cons => cases h
    | nil =>
      cases h
      exact ⟨empty, _, same, rfl, rfl⟩
  · rintro ⟨_, ⟨result, rest, shorter⟩, same, rfl, rfl⟩
    exact ⟨_, same, rfl⟩

/-- The descent reads a list exactly if its part before the stop token derives a tree. -/
theorem parse_eq_ok {table : OperatorTable} :
    Descent.parse table tokens = .ok e ↔ Derives table (.expression 1) (body tokens) e := by
  rw [parse_iff_yields]
  constructor
  · rintro ⟨_, h⟩
    obtain ⟨read, same, derived⟩ := expression_sound (operand_sound _) _ _ _ h
    rw [same, List.append_nil]
    exact derived
  · intro h
    have room : (body tokens).length ≤ tokens.length := (List.takeWhile_prefix _).length_le
    exact ⟨h.ne_nil, reader_alone h room⟩

end Calculator.Descent
