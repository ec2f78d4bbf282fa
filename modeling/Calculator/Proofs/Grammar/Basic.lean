import Calculator.Expr.Basic
import Calculator.Operator.Table
import Calculator.Token.Adjacency
import Calculator.Token.Value

/-!
# The grammar of expressions

`Derives` says which tokens have which tree, without a parser. Chains of one precedence below the
tightest group from the left, the tightest groups from the right, and a unary operator applies to
everything up to the next operator below the tightest.
-/

namespace Calculator

theorem BinaryOperator.isRightAssociative_iff {operator : BinaryOperator} :
    operator.isRightAssociative = true ↔ operator.precedence = tightest := by
  cases operator <;> decide

theorem BinaryOperator.precedence_pos (operator : BinaryOperator) : 1 ≤ operator.precedence := by
  cases operator <;> decide

theorem BinaryOperator.precedence_le (operator : BinaryOperator) : operator.precedence ≤ tightest := by
  cases operator <;> decide

namespace OperatorTable

variable (table : OperatorTable) (token : Token)

/-- The token is an operator that means `operator` between two operands. -/
def IsBinary (operator : BinaryOperator) : Prop :=
  token.kind = .operator ∧ table.binary? token.text = some operator

/-- The token is an operator that means `operator` in front of an operand. -/
def IsUnary (operator : UnaryOperator) : Prop :=
  token.kind = .operator ∧ table.unary? token.text = some operator

end OperatorTable

inductive Form where
  /-- Operations that bind at least as tightly as `precedence`. -/
  | expression (precedence : Nat)
  /-- An operand of a unary operator that begins with none. -/
  | power
  /-- A number, a constant, a call or an expression in parentheses. -/
  | primary

/-- The precedence from which on operators occur in the form outside parentheses. -/
def Form.least : Form → Nat
  | .expression n => n
  | .power => tightest
  | .primary => tightest + 1

mutual

/-- The tokens have the form, and the expression is their tree. -/
inductive Derives (table : OperatorTable) : Form → List Token → Expr → Prop where
  | operation {n : Nat} {before after : List Token} {token : Token} {operator : BinaryOperator}
      {left right : Expr} (lower : 1 ≤ n) (upper : n < tightest)
      (means : table.IsBinary token operator) (binds : operator.precedence = n)
      (l : Derives table (.expression n) before left)
      (r : Derives table (.expression (n + 1)) after right) :
      Derives table (.expression n) (before ++ token :: after) (.binary operator token left right)
  | tighter {n : Nat} {tokens : List Token} {e : Expr} (lower : 1 ≤ n) (upper : n < tightest)
      (h : Derives table (.expression (n + 1)) tokens e) :
      Derives table (.expression n) tokens e
  | unary {tokens : List Token} {token : Token} {operator : UnaryOperator} {operand : Expr}
      (means : table.IsUnary token operator)
      (h : Derives table (.expression tightest) tokens operand) :
      Derives table (.expression tightest) (token :: tokens) (.unary operator token operand)
  | ofPower {tokens : List Token} {e : Expr} (h : Derives table .power tokens e) :
      Derives table (.expression tightest) tokens e
  | ofPrimary {tokens : List Token} {e : Expr} (h : Derives table .primary tokens e) :
      Derives table .power tokens e
  | power {before after : List Token} {token : Token} {operator : BinaryOperator}
      {base exponent : Expr} (means : table.IsBinary token operator)
      (binds : operator.precedence = tightest) (b : Derives table .primary before base)
      (x : Derives table (.expression tightest) after exponent) :
      Derives table .power (before ++ token :: after) (.binary operator token base exponent)
  | number {token : Token} {value : Float} (kind : token.kind = .number)
      (reads : token.numericValue = .ok value) :
      Derives table .primary [token] (.literal value)
  | constant {name : Token} (kind : name.kind = .identifier) :
      Derives table .primary [name] (.call name.text name.position [])
  | emptyCall {name opening closing : Token} (kind : name.kind = .identifier)
      (opens : opening.kind = .opening) (closes : closing.kind = .closing) :
      Derives table .primary [name, opening, closing] (.call name.text name.position [])
  | call {name opening closing : Token} {tokens : List Token} {arguments : List Expr}
      (kind : name.kind = .identifier) (opens : opening.kind = .opening)
      (closes : closing.kind = .closing) (h : DerivesAll table tokens arguments) :
      Derives table .primary (name :: opening :: (tokens ++ [closing]))
        (.call name.text name.position arguments)
  | parenthesized {opening closing : Token} {tokens : List Token} {e : Expr}
      (opens : opening.kind = .opening) (closes : closing.kind = .closing)
      (h : Derives table (.expression 1) tokens e) :
      Derives table .primary (opening :: (tokens ++ [closing])) e

/-- The tokens are expressions separated by commas, at least one. -/
inductive DerivesAll (table : OperatorTable) : List Token → List Expr → Prop where
  | one {tokens : List Token} {e : Expr} (h : Derives table (.expression 1) tokens e) :
      DerivesAll table tokens [e]
  | more {tokens rest : List Token} {comma : Token} {e : Expr} {list : List Expr}
      (h : Derives table (.expression 1) tokens e) (kind : comma.kind = .comma)
      (hs : DerivesAll table rest list) :
      DerivesAll table (tokens ++ comma :: rest) (e :: list)

end

variable {table : OperatorTable} {form : Form} {n : Nat} {tokens : List Token} {e : Expr}

/-- What binds more tightly can stand where a looser expression can. -/
theorem Derives.loosen {m n : Nat} (h : Derives table (.expression n) tokens e) (lower : 1 ≤ m) (le : m ≤ n)
    (upper : n ≤ tightest) : Derives table (.expression m) tokens e := by
  obtain ⟨k, rfl⟩ := Nat.exists_eq_add_of_le le
  induction k generalizing m with
  | zero => exact h
  | succ k ih =>
    rw [← Nat.succ_add_eq_add_succ] at h upper
    exact .tighter lower (by omega) (ih (by omega) h (by omega) upper)

theorem Derives.expression (h : Derives table .primary tokens e) (lower : 1 ≤ n) (upper : n ≤ tightest) :
    Derives table (.expression n) tokens e :=
  (Derives.ofPower (.ofPrimary h)).loosen lower upper (Nat.le_refl _)

/-- Two primaries with any operator between them are an expression. -/
theorem Derives.ofPrimaries {before after : List Token} {token : Token} {operator : BinaryOperator} {left right : Expr}
    (means : table.IsBinary token operator) (l : Derives table .primary before left)
    (r : Derives table .primary after right) :
    Derives table (.expression 1) (before ++ token :: after) (.binary operator token left right) := by
  have lower := operator.precedence_pos
  rcases Nat.lt_or_eq_of_le operator.precedence_le with upper | binds
  · have derived :=
      Derives.operation lower upper means rfl (l.expression lower (by omega)) (r.expression (by omega) upper)
    exact derived.loosen (Nat.le_refl _) lower (by omega)
  · have derived := Derives.power means binds l (r.expression (by decide) (Nat.le_refl _))
    exact (Derives.ofPower derived).loosen (Nat.le_refl _) (by decide) (Nat.le_refl _)

/-! ### Where operands begin and end -/

namespace Token

variable {token : Token} {previous : Option Token}

theorem opensOperand_after (kind : token.kind ∈ [.operator, .opening, .comma]) :
    opensOperand (some token) = true := by
  unfold opensOperand endsOperand
  cases same : token.kind <;> simp_all

theorem opensOperand_of_ends (h : previous.any endsOperand = true) : opensOperand previous = false := by
  simp [opensOperand, h]

theorem ends_of_opensOperand (h : opensOperand previous = false) : previous.any endsOperand = true := by
  simpa [opensOperand] using h

end Token

/-! ### The ends of a derived list -/

theorem any_or_left {p : α → Bool} {a b : Option α} (h : a.any p = true) : (a.or b).any p = true := by
  cases a with
  | none => simp at h
  | some x => exact h

theorem head_append {p : Token → Bool} {tokens rest : List Token} (h : tokens.head?.any p = true) :
    ∀ token ∈ (tokens ++ rest).head?, p token = true := by
  cases tokens with
  | nil => simp at h
  | cons first tokens =>
    rintro _ ⟨⟩
    exact h

theorem Derives.ne_nil (h : Derives table form tokens e) : tokens ≠ [] := by
  induction h using @Derives.rec table _ (fun _ _ _ => True) with
  | tighter _ _ _ ih | ofPower _ ih | ofPrimary _ ih => exact ih
  | _ => simp

theorem Derives.head_opens (h : Derives table form tokens e) :
    tokens.head?.any Adjacency.opensOperand = true := by
  induction h using @Derives.rec table _ (fun _ _ _ => True) with
  | tighter _ _ _ ih | ofPower _ ih | ofPrimary _ ih => exact ih
  | operation _ _ _ _ _ _ ih _ | power _ _ _ _ ih _ =>
    rw [List.head?_append]
    exact any_or_left ih
  | unary means => simp [Adjacency.opensOperand, means.1]
  | number kind | constant kind | emptyCall kind | call kind | parenthesized kind =>
    simp [Adjacency.opensOperand, kind]
  | one | more => trivial

theorem DerivesAll.head_opens {list : List Expr} (h : DerivesAll table tokens list) :
    tokens.head?.any Adjacency.opensOperand = true := by
  cases h with
  | one h => exact h.head_opens
  | more h =>
    rw [List.head?_append]
    exact any_or_left h.head_opens

theorem Derives.head_of_primary (h : Derives table .primary tokens e) :
    tokens.head?.any (!·.isOperator) = true := by
  cases h <;> simp_all [Token.isOperator]

theorem Derives.head_of_power (h : Derives table .power tokens e) :
    tokens.head?.any (!·.isOperator) = true := by
  cases h with
  | ofPrimary h => exact h.head_of_primary
  | power _ _ b _ =>
    rw [List.head?_append]
    exact any_or_left b.head_of_primary

theorem getLast?_append_cons {before after : List Token} {token : Token} (h : after ≠ []) :
    (before ++ token :: after).getLast? = after.getLast? := by
  rw [List.getLast?_append, List.getLast?_cons_of_ne_nil h, List.getLast?_eq_some_getLast h]
  rfl

theorem Derives.last_ends (h : Derives table form tokens e) :
    tokens.getLast?.any Token.endsOperand = true := by
  induction h using @Derives.rec table _ (fun _ _ _ => True) with
  | tighter _ _ _ ih | ofPower _ ih | ofPrimary _ ih => exact ih
  | operation _ _ _ _ _ r _ ih | power _ _ _ r _ ih =>
    rw [getLast?_append_cons r.ne_nil]
    exact ih
  | unary _ h ih =>
    rw [List.getLast?_cons_of_ne_nil h.ne_nil]
    exact ih
  | number kind | constant kind => simp [Token.endsOperand, kind]
  | emptyCall _ _ closes => simp [Token.endsOperand, closes]
  | call _ _ closes | parenthesized _ closes =>
    simp [List.getLast?_cons, Token.endsOperand, closes]
  | one | more => trivial

theorem DerivesAll.ne_nil {list : List Expr} (h : DerivesAll table tokens list) : tokens ≠ [] := by
  cases h with
  | one h => exact h.ne_nil
  | more => simp

theorem DerivesAll.last_ends {list : List Expr} (h : DerivesAll table tokens list) :
    tokens.getLast?.any Token.endsOperand = true := by
  induction h using @DerivesAll.rec table (fun _ _ _ _ => True) with
  | one h => exact h.last_ends
  | more _ _ hs _ ih =>
    rw [getLast?_append_cons hs.ne_nil]
    exact ih
  | _ => trivial

/-! ### What may follow -/

/-- The next token is no opening parenthesis, and no binary operator of precedence `n` or tighter. -/
def Settled (table : OperatorTable) (n : Nat) (rest : List Token) : Prop :=
  ∀ token ∈ rest.head?, token.kind ≠ .opening ∧
    ∀ operator, table.IsBinary token operator → operator.precedence < n

variable {rest : List Token}

theorem Settled.mono {m : Nat} (h : Settled table m rest) (le : m ≤ n) :
    Settled table n rest :=
  fun token head =>
    ⟨(h token head).1, fun operator means => Nat.lt_of_lt_of_le ((h token head).2 operator means) le⟩

theorem settled_nil : Settled table n [] := by
  simp [Settled]

theorem settled_operator {token : Token} {operator : BinaryOperator}
    (means : table.IsBinary token operator) (lt : operator.precedence < n) :
    Settled table n (token :: rest) := by
  rintro _ ⟨⟩
  refine ⟨by simp [means.1], fun other means' => ?_⟩
  cases means.2.symm.trans means'.2
  exact lt

theorem not_settled_operator {token : Token} {operator : BinaryOperator} (means : table.IsBinary token operator) :
    ¬ Settled table 1 (token :: rest) := fun h =>
  Nat.not_lt.mpr operator.precedence_pos ((h token rfl).2 operator means)

theorem settled_of_kind {token : Token} (opening : token.kind ≠ .opening)
    (operator : token.kind ≠ .operator) : Settled table n (token :: rest) := by
  rintro _ ⟨⟩
  exact ⟨opening, fun _ means => absurd means.1 operator⟩

/-! ### The numbers in a derived list -/

/-- Every number among the tokens has a value. -/
def NumbersRead (tokens : List Token) : Prop :=
  ∀ token ∈ tokens, token.kind = .number → ∃ value, token.numericValue = .ok value

theorem numbersRead_append {left right : List Token} :
    NumbersRead (left ++ right) ↔ NumbersRead left ∧ NumbersRead right := by
  simp only [NumbersRead, List.mem_append, or_imp, forall_and]

theorem numbersRead_cons {token : Token} {rest : List Token} (h : token.kind ≠ .number) :
    NumbersRead (token :: rest) ↔ NumbersRead rest := by
  simp [NumbersRead, h]

theorem Derives.numbersRead (h : Derives table form tokens e) : NumbersRead tokens := by
  induction h using @Derives.rec table _ (fun tokens _ _ => NumbersRead tokens) with
  | tighter _ _ _ ih | ofPower _ ih | ofPrimary _ ih | one _ ih => exact ih
  | operation _ _ means _ _ _ l r | power means _ _ _ l r =>
    exact numbersRead_append.mpr ⟨l, (numbersRead_cons (by simp [means.1])).mpr r⟩
  | more _ kind _ l r =>
    exact numbersRead_append.mpr ⟨l, (numbersRead_cons (by simp [kind])).mpr r⟩
  | unary means _ ih => exact (numbersRead_cons (by simp [means.1])).mpr ih
  | number _ reads => simp [NumbersRead, reads]
  | constant kind => simp [NumbersRead, kind]
  | emptyCall kind opens closes => simp [NumbersRead, kind, opens, closes]
  | call kind opens closes _ ih =>
    rw [numbersRead_cons (by simp [kind]), numbersRead_cons (by simp [opens]), numbersRead_append]
    exact ⟨ih, by simp [NumbersRead, closes]⟩
  | parenthesized opens closes _ ih =>
    rw [numbersRead_cons (by simp [opens]), numbersRead_append]
    exact ⟨ih, by simp [NumbersRead, closes]⟩

end Calculator
