import Calculator.Proofs.Evaluation.Depth
import Calculator.Proofs.Parser

/-!
# Places do not matter

Where its tokens stand decides no more about a text than where its failures are reported. Tokens that differ in nothing
else have trees that differ in nothing else, and these have the same value or fail for the same cause.
-/

namespace Calculator

variable {table : OperatorTable} {form : Form} {tokens others : List Token} {token other : Token} {e : Expr}
variable {earlier previous : Option Token} {α β : Type}

/-- The value, or only why there is none. -/
def byCause (outcome : Except Failure α) : Except Cause α :=
  outcome.mapError Failure.cause

theorem byCause_eq_ok {outcome : Except Failure α} {a : α} : byCause outcome = .ok a ↔ outcome = .ok a := by
  cases outcome <;> simp [byCause, Except.mapError]

namespace Token

/-- The token as if it stood at the beginning of its text. -/
def unplaced (token : Token) : Token := { token with position := 0 }

@[simp]
theorem unplaced_kind (token : Token) : token.unplaced.kind = token.kind := rfl

@[simp]
theorem unplaced_text (token : Token) : token.unplaced.text = token.text := rfl

theorem kind_of_unplaced (same : other.unplaced = token.unplaced) : other.kind = token.kind := by
  rw [← unplaced_kind, same, unplaced_kind]

theorem text_of_unplaced (same : other.unplaced = token.unplaced) : other.text = token.text := by
  rw [← unplaced_text, same, unplaced_text]

/-- What corresponds to a list around a token is a list around a token. -/
theorem around_of_unplaced {before after : List Token}
    (same : others.map unplaced = (before ++ token :: after).map unplaced) :
    ∃ before' token' after', others = before' ++ token' :: after' ∧ before'.map unplaced = before.map unplaced ∧
      token'.unplaced = token.unplaced ∧ after'.map unplaced = after.map unplaced := by
  rw [List.map_append, List.map_cons, List.map_eq_append_iff] at same
  obtain ⟨before', rest, rfl, sameBefore, same⟩ := same
  obtain ⟨token', after', rfl, sameToken, sameAfter⟩ := List.map_eq_cons_iff.mp same
  exact ⟨before', token', after', rfl, sameBefore, sameToken, sameAfter⟩

theorem byCause_numericValue (token : Token) : byCause token.unplaced.numericValue = byCause token.numericValue := by
  unfold numericValue
  by_cases number : token.isNumber = true
  · have same : token.unplaced.isNumber = true := number
    have base : token.unplaced.base = token.base := rfl
    rw [number, same, if_neg (by decide), if_neg (by decide), base, unplaced_text]
    cases token.base with
    | decimal => cases Decimal.read? token.text.toList <;> rfl
    | _ =>
      dsimp only
      split <;> rfl
  · have same : ¬ token.unplaced.isNumber = true := number
    rw [Bool.eq_false_iff.mpr number, Bool.eq_false_iff.mpr same]
    rfl

theorem numericValue_of_unplaced {value : Float} (same : other.unplaced = token.unplaced)
    (reads : token.numericValue = .ok value) : other.numericValue = .ok value := by
  rw [← byCause_eq_ok, ← byCause_numericValue, same, byCause_numericValue, byCause_eq_ok]
  exact reads

end Token

theorem OperatorTable.IsBinary.unplaced {operator : BinaryOperator} (means : table.IsBinary token operator)
    (same : other.unplaced = token.unplaced) : table.IsBinary other operator := by
  rwa [IsBinary, Token.kind_of_unplaced same, Token.text_of_unplaced same]

theorem OperatorTable.IsUnary.unplaced {operator : UnaryOperator} (means : table.IsUnary token operator)
    (same : other.unplaced = token.unplaced) : table.IsUnary other operator := by
  rwa [IsUnary, Token.kind_of_unplaced same, Token.text_of_unplaced same]

namespace Expr

mutual

/-- The expression with all its tokens and names as if they stood at the beginning of the text. -/
def unplaced : Expr → Expr
  | literal value => literal value
  | binary operator token left right => binary operator token.unplaced (unplaced left) (unplaced right)
  | unary operator token operand => unary operator token.unplaced (unplaced operand)
  | call name _ arguments => call name 0 (unplacedAll arguments)

def unplacedAll : List Expr → List Expr
  | [] => []
  | e :: rest => unplaced e :: unplacedAll rest

end

end Expr

/-! ### Derivations -/

/-- Tokens that differ from these in places only have a tree that differs from this one in places only. -/
def Movable (table : OperatorTable) (form : Form) (tokens : List Token) (e : Expr) : Prop :=
  ∀ ⦃others : List Token⦄, others.map Token.unplaced = tokens.map Token.unplaced →
    ∃ e', Derives table form others e' ∧ e'.unplaced = e.unplaced

/-- So do tokens that are separated by commas. -/
def MovableAll (table : OperatorTable) (tokens : List Token) (list : List Expr) : Prop :=
  ∀ ⦃others : List Token⦄, others.map Token.unplaced = tokens.map Token.unplaced →
    ∃ list', DerivesAll table others list' ∧ Expr.unplacedAll list' = Expr.unplacedAll list

namespace Movable

variable {n : Nat} {before after rest : List Token} {opening closing name : Token}
variable {left right : Expr} {list : List Expr}

theorem operation {operator : BinaryOperator} (lower : 1 ≤ n) (upper : n < tightest)
    (means : table.IsBinary token operator) (binds : operator.precedence = n)
    (l : Movable table (.expression n) before left) (r : Movable table (.expression (n + 1)) after right) :
    Movable table (.expression n) (before ++ token :: after) (.binary operator token left right) := by
  intro others same
  obtain ⟨before, token, after, rfl, sameBefore, sameToken, sameAfter⟩ := Token.around_of_unplaced same
  obtain ⟨left, derivedLeft, sameLeft⟩ := l sameBefore
  obtain ⟨right, derivedRight, sameRight⟩ := r sameAfter
  refine ⟨_, .operation lower upper (means.unplaced sameToken) binds derivedLeft derivedRight, ?_⟩
  rw [Expr.unplaced, sameLeft, sameRight, sameToken, Expr.unplaced]

theorem power {operator : BinaryOperator} (means : table.IsBinary token operator)
    (binds : operator.precedence = tightest) (b : Movable table .primary before left)
    (x : Movable table (.expression tightest) after right) :
    Movable table .power (before ++ token :: after) (.binary operator token left right) := by
  intro others same
  obtain ⟨before, token, after, rfl, sameBefore, sameToken, sameAfter⟩ := Token.around_of_unplaced same
  obtain ⟨base, derivedBase, sameBase⟩ := b sameBefore
  obtain ⟨exponent, derivedExponent, sameExponent⟩ := x sameAfter
  refine ⟨_, .power (means.unplaced sameToken) binds derivedBase derivedExponent, ?_⟩
  rw [Expr.unplaced, sameBase, sameExponent, sameToken, Expr.unplaced]

theorem widen {other : Form} (h : Movable table form tokens e)
    (wider : ∀ tokens e, Derives table form tokens e → Derives table other tokens e) :
    Movable table other tokens e := by
  intro others same
  obtain ⟨e', derived, same⟩ := h same
  exact ⟨e', wider _ _ derived, same⟩

theorem unary {operator : UnaryOperator} (means : table.IsUnary token operator)
    (h : Movable table (.expression tightest) tokens e) :
    Movable table (.expression tightest) (token :: tokens) (.unary operator token e) := by
  intro others same
  obtain ⟨token, others, rfl, sameToken, same⟩ := List.map_eq_cons_iff.mp same
  obtain ⟨e', derived, same⟩ := h same
  exact ⟨_, .unary (means.unplaced sameToken) derived, by rw [Expr.unplaced, same, sameToken, Expr.unplaced]⟩

theorem number {value : Float} (kind : token.kind = .number) (reads : token.numericValue = .ok value) :
    Movable table .primary [token] (.literal value) := by
  intro others same
  obtain ⟨token, rfl, sameToken⟩ := List.map_eq_singleton_iff.mp same
  have kind := (Token.kind_of_unplaced sameToken).trans kind
  exact ⟨_, .number kind (Token.numericValue_of_unplaced sameToken reads), rfl⟩

theorem constant (kind : name.kind = .identifier) :
    Movable table .primary [name] (.call name.text name.position []) := by
  intro others same
  obtain ⟨name, rfl, sameName⟩ := List.map_eq_singleton_iff.mp same
  refine ⟨_, .constant ((Token.kind_of_unplaced sameName).trans kind), ?_⟩
  rw [Expr.unplaced, Token.text_of_unplaced sameName, Expr.unplaced]

theorem emptyCall (kind : name.kind = .identifier) (opens : opening.kind = .opening)
    (closes : closing.kind = .closing) :
    Movable table .primary [name, opening, closing] (.call name.text name.position []) := by
  intro others same
  obtain ⟨name, rest, rfl, sameName, same⟩ := List.map_eq_cons_iff.mp same
  obtain ⟨opening, rest, rfl, sameOpening, same⟩ := List.map_eq_cons_iff.mp same
  obtain ⟨closing, rfl, sameClosing⟩ := List.map_eq_singleton_iff.mp same
  refine ⟨_, .emptyCall ((Token.kind_of_unplaced sameName).trans kind)
    ((Token.kind_of_unplaced sameOpening).trans opens) ((Token.kind_of_unplaced sameClosing).trans closes), ?_⟩
  rw [Expr.unplaced, Token.text_of_unplaced sameName, Expr.unplaced]

theorem call (kind : name.kind = .identifier) (opens : opening.kind = .opening) (closes : closing.kind = .closing)
    (h : MovableAll table tokens list) :
    Movable table .primary (name :: opening :: (tokens ++ [closing])) (.call name.text name.position list) := by
  intro others same
  obtain ⟨name, rest, rfl, sameName, same⟩ := List.map_eq_cons_iff.mp same
  obtain ⟨opening, rest, rfl, sameOpening, same⟩ := List.map_eq_cons_iff.mp same
  obtain ⟨inner, closing, rest, rfl, sameInner, sameClosing, none⟩ := Token.around_of_unplaced same
  obtain rfl := List.map_eq_nil_iff.mp none
  obtain ⟨list, derived, sameList⟩ := h sameInner
  refine ⟨_, .call ((Token.kind_of_unplaced sameName).trans kind) ((Token.kind_of_unplaced sameOpening).trans opens)
    ((Token.kind_of_unplaced sameClosing).trans closes) derived, ?_⟩
  rw [Expr.unplaced, Token.text_of_unplaced sameName, sameList, Expr.unplaced]

theorem parenthesized (opens : opening.kind = .opening) (closes : closing.kind = .closing)
    (h : Movable table (.expression 1) tokens e) : Movable table .primary (opening :: (tokens ++ [closing])) e := by
  intro others same
  obtain ⟨opening, rest, rfl, sameOpening, same⟩ := List.map_eq_cons_iff.mp same
  obtain ⟨inner, closing, rest, rfl, sameInner, sameClosing, none⟩ := Token.around_of_unplaced same
  obtain rfl := List.map_eq_nil_iff.mp none
  obtain ⟨e', derived, same⟩ := h sameInner
  exact ⟨e', .parenthesized ((Token.kind_of_unplaced sameOpening).trans opens)
    ((Token.kind_of_unplaced sameClosing).trans closes) derived, same⟩

theorem one (h : Movable table (.expression 1) tokens e) : MovableAll table tokens [e] := by
  intro others same
  obtain ⟨e', derived, same⟩ := h same
  exact ⟨[e'], .one derived, by rw [Expr.unplacedAll, same, Expr.unplacedAll]; rfl⟩

theorem more (h : Movable table (.expression 1) tokens e) (kind : token.kind = .comma)
    (hs : MovableAll table rest list) : MovableAll table (tokens ++ token :: rest) (e :: list) := by
  intro others same
  obtain ⟨first, comma, rest, rfl, sameFirst, sameComma, sameRest⟩ := Token.around_of_unplaced same
  obtain ⟨e', derived, sameTree⟩ := h sameFirst
  obtain ⟨list, derivedAll, sameList⟩ := hs sameRest
  refine ⟨e' :: list, .more derived ((Token.kind_of_unplaced sameComma).trans kind) derivedAll, ?_⟩
  rw [Expr.unplacedAll, sameTree, sameList, Expr.unplacedAll]

end Movable

theorem Derives.movable (h : Derives table form tokens e) : Movable table form tokens e := by
  induction h using @Derives.rec table _ (fun tokens list _ => MovableAll table tokens list) with
  | operation lower upper means binds _ _ l r => exact .operation lower upper means binds l r
  | tighter lower upper _ ih => exact ih.widen fun _ _ => .tighter lower upper
  | unary means _ ih => exact .unary means ih
  | ofPower _ ih => exact ih.widen fun _ _ => .ofPower
  | ofPrimary _ ih => exact ih.widen fun _ _ => .ofPrimary
  | power means binds _ _ b x => exact .power means binds b x
  | number kind reads => exact .number kind reads
  | constant kind => exact .constant kind
  | emptyCall kind opens closes => exact .emptyCall kind opens closes
  | call kind opens closes _ ih => exact .call kind opens closes ih
  | parenthesized opens closes _ ih => exact .parenthesized opens closes ih
  | one _ ih => exact ih.one
  | more _ kind _ ih ihs => exact ih.more kind ihs

/-! ### The checks -/

theorem Token.opensOperand_unplaced :
    Token.opensOperand (previous.map Token.unplaced) = Token.opensOperand previous := by
  cases previous <;> rfl

namespace Adjacency

theorem checkOperator_unplaced {next : Option Token} :
    checkOperator table (earlier.map Token.unplaced)
      (previous.map Token.unplaced) (next.map Token.unplaced) token.unplaced =
      .ok () ↔ checkOperator table earlier previous next token = .ok () := by
  have opens : (next.map Token.unplaced).any opensOperand = next.any opensOperand := by cases next <;> rfl
  have operator : (previous.map Token.unplaced).any Token.isOperator = previous.any Token.isOperator := by
    cases previous <;> rfl
  have ends : (earlier.map Token.unplaced).any Token.endsOperand = earlier.any Token.endsOperand := by
    cases earlier <;> rfl
  rw [checkOperator_eq_ok, checkOperator_eq_ok, opens, operator, ends, Token.opensOperand_unplaced, Token.unplaced_text]

theorem checkFrom_unplaced :
    checkFrom table (earlier.map Token.unplaced) (previous.map Token.unplaced) (tokens.map Token.unplaced) = .ok () ↔
      checkFrom table earlier previous tokens = .ok () := by
  induction tokens generalizing earlier previous with
  | nil => exact Iff.rfl
  | cons token rest ih =>
    rw [List.map_cons, checkFrom_cons, checkFrom_cons, List.head?_map, checkOperator_unplaced, ← Option.map_some, ih]
    rfl

end Adjacency

namespace Nesting

variable {nesting : Nesting}

theorem step_unplaced :
    step table (previous.map Token.unplaced) nesting token.unplaced = step table previous nesting token := by
  unfold step opensLevel
  rw [Token.opensOperand_unplaced, Token.unplaced_kind, Token.unplaced_text]

theorem checkFrom_unplaced :
    checkFrom table (previous.map Token.unplaced) nesting (tokens.map Token.unplaced) = .ok () ↔
      checkFrom table previous nesting tokens = .ok () := by
  induction tokens generalizing previous nesting with
  | nil => exact Iff.rfl
  | cons token rest ih =>
    rw [List.map_cons]
    unfold checkFrom
    rw [step_unplaced]
    dsimp only
    split
    · simp [failAt]
    · exact @ih (some token) _

end Nesting

theorem Descent.body_unplaced (tokens : List Token) :
    body (tokens.map Token.unplaced) = (body tokens).map Token.unplaced := by
  rw [body, List.takeWhile_map]
  rfl

/-- Both parsers accept what either accepts, wherever its tokens stand. -/
theorem ParserKind.parse_move {kind : ParserKind} (stops : Token.StopsLast others)
    (same : others.map Token.unplaced = tokens.map Token.unplaced) (h : kind.parse table tokens = .ok e) :
    ∃ e', e'.unplaced = e.unplaced ∧ ∀ kind : ParserKind, kind.parse table others = .ok e' := by
  obtain ⟨nesting, adjacency, derived⟩ := parse_sound kind h
  have body : (Descent.body others).map Token.unplaced = (Descent.body tokens).map Token.unplaced := by
    rw [← Descent.body_unplaced, same, Descent.body_unplaced]
  obtain ⟨e', derived, sameTree⟩ := derived.movable body
  refine ⟨e', sameTree, fun kind => (parse_eq_ok kind stops).mpr ⟨?_, ?_, derived⟩⟩
  · exact Nesting.checkFrom_unplaced.mp (same ▸ Nesting.checkFrom_unplaced.mpr nesting)
  · exact Adjacency.checkFrom_unplaced.mp (same ▸ Adjacency.checkFrom_unplaced.mpr adjacency)

/-! ### Values -/

theorem byCause_bind {outcome outcome' : Except Failure α} {f f' : α → Except Failure β}
    (same : byCause outcome = byCause outcome') (next : ∀ a, byCause (f a) = byCause (f' a)) :
    byCause (outcome >>= f) = byCause (outcome' >>= f') := by
  cases outcome with
  | error failure =>
    cases outcome' with
    | error failure' => exact congrArg Except.error (Except.error.inj same)
    | ok a => cases same
  | ok a =>
    cases outcome' with
    | error failure => cases same
    | ok a' =>
      cases same
      exact next a

theorem byCause_map {outcome outcome' : Except Failure α} (same : byCause outcome = byCause outcome') (f : α → β) :
    byCause (outcome.map f) = byCause (outcome'.map f) :=
  byCause_bind same fun _ => rfl

namespace Evaluation

variable {context : Context}

theorem byCause_toInteger (x : Float) (position position' : Nat) :
    byCause (toInteger x position) = byCause (toInteger x position') := by
  unfold toInteger
  split <;> rfl

theorem byCause_shiftAmount (amount : Int64) (position position' : Nat) :
    byCause (shiftAmount amount position) = byCause (shiftAmount amount position') := by
  unfold shiftAmount
  split <;> rfl

theorem byCause_applyUnary (operator : UnaryOperator) (x : Float) (position position' : Nat) :
    byCause (applyUnary operator x position) = byCause (applyUnary operator x position') := by
  cases operator with
  | plus | negate => rfl
  | bitwiseNot => exact byCause_map (byCause_toInteger x position position') _

theorem byCause_applyBitwise (operator : BinaryOperator) (x y : Float) (position position' : Nat) :
    byCause (applyBitwise operator x y position) = byCause (applyBitwise operator x y position') := by
  refine byCause_bind (byCause_toInteger x position position') fun a => ?_
  refine byCause_bind (byCause_toInteger y position position') fun b => ?_
  cases operator with
  | shiftLeft | shiftRight => exact byCause_bind (byCause_map (byCause_shiftAmount b position position') _) fun _ => rfl
  | _ => rfl

theorem byCause_checkResult (operator : BinaryOperator) (x y result : Float) (position position' : Nat) :
    byCause (checkResult operator x y result position) = byCause (checkResult operator x y result position') := by
  unfold checkResult
  dsimp only
  repeat' split
  all_goals rfl

theorem byCause_applyArithmetic (operator : BinaryOperator) (x y : Float) (position position' : Nat) :
    byCause (applyArithmetic operator x y position) = byCause (applyArithmetic operator x y position') := by
  have checked result := byCause_checkResult operator x y result position position'
  cases operator with
  | add | subtract | multiply => exact checked _
  | divide | modulo | exponentiate =>
    unfold applyArithmetic
    dsimp only
    split
    · rfl
    · exact checked _
  | _ => rfl

theorem byCause_applyBinary (operator : BinaryOperator) (x y : Float) (position position' : Nat) :
    byCause (applyBinary operator x y position) = byCause (applyBinary operator x y position') := by
  unfold applyBinary
  split
  · exact byCause_applyBitwise operator x y position position'
  · exact byCause_applyArithmetic operator x y position position'

theorem byCause_call (f : Function) (arguments : List Float) (position position' : Nat) :
    byCause (f.call arguments position) = byCause (f.call arguments position') := by
  unfold Function.call
  dsimp only
  repeat' split
  all_goals rfl

theorem byCause_resolve (name : String) (values : List Float) (position position' : Nat) :
    byCause (resolve context name position values) = byCause (resolve context name position' values) := by
  unfold resolve
  split
  · split
    · rfl
    · split
      · exact byCause_call _ _ position position'
      · rfl
  · split
    · exact byCause_call _ _ position position'
    · rfl

mutual

theorem byCause_plain : ∀ e : Expr, byCause (plain context e.unplaced) = byCause (plain context e)
  | .literal _ => rfl
  | .unary operator token operand => by
    rw [Expr.unplaced, plain, plain]
    exact byCause_bind (byCause_plain operand) fun x => byCause_applyUnary operator x _ _
  | .binary operator token left right => by
    rw [Expr.unplaced, plain, plain]
    refine byCause_bind (byCause_plain left) fun x => byCause_bind (byCause_plain right) fun y => ?_
    exact byCause_applyBinary operator x y _ _
  | .call name position arguments => by
    rw [Expr.unplaced, plain, plain]
    exact byCause_bind (byCause_plainAll arguments) fun values => byCause_resolve name values _ _

theorem byCause_plainAll :
    ∀ list : List Expr, byCause (plainAll context (Expr.unplacedAll list)) = byCause (plainAll context list)
  | [] => rfl
  | e :: rest => by
    rw [Expr.unplacedAll, plainAll, plainAll]
    exact byCause_bind (byCause_plain e) fun value => byCause_bind (byCause_plainAll rest) fun values => rfl

end

theorem byCause_plain_of_unplaced {e e' : Expr} (same : e'.unplaced = e.unplaced) :
    byCause (plain context e') = byCause (plain context e) := by
  rw [← byCause_plain e', same, byCause_plain e]

/-- With the operators of a mode, the value of a text is that of its tree. -/
theorem calculate_eq_plain {kind : ParserKind}
    {text : String} (mode : context.table = .arithmetic ∨ context.table = .bitwise)
    (converted : kind.convert context.table text = .ok e) : calculate context kind text = plain context e := by
  obtain ⟨tokens, -, parsed⟩ := ParserKind.parse_of_convert converted
  rw [calculate, converted, ok_bind, evaluate, evaluateWithin_eq_plain]
  exact Nat.lt_succ_of_le (nesting_le_of_modes mode parsed)

end Evaluation

end Calculator
