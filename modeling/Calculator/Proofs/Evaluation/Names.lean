import Calculator.Proofs.Evaluation
import Calculator.Proofs.Grammar.Basic

/-!
# Evaluation and the names that occur

An expression has the same outcome in contexts that agree on its names, and keeps its value in a context that only adds
names to those with a meaning.
-/

namespace Calculator

variable {table : OperatorTable} {form : Form} {tokens : List Token} {token : Token} {e : Expr}

namespace Expr

mutual

/-- The names of the calls and constants in the expression. -/
def names : Expr → List String
  | literal _ => []
  | unary _ _ operand => names operand
  | binary _ _ left right => names left ++ names right
  | call name _ arguments => name :: namesAll arguments

def namesAll : List Expr → List String
  | [] => []
  | e :: rest => names e ++ namesAll rest

end

end Expr

namespace Token

def names (tokens : List Token) : List String :=
  (tokens.filter isIdentifier).map text

theorem names_append (left right : List Token) : names (left ++ right) = names left ++ names right := by
  rw [names, List.filter_append, List.map_append]
  rfl

theorem names_cons (other : token.kind ≠ .identifier) (rest : List Token) : names (token :: rest) = names rest := by
  have skipped : ¬ token.isIdentifier = true := fun identifier => other (of_decide_eq_true identifier)
  rw [names, List.filter_cons_of_neg skipped]
  rfl

theorem names_identifier (kind : token.kind = .identifier) (rest : List Token) :
    names (token :: rest) = token.text :: names rest := by
  have taken : token.isIdentifier = true := decide_eq_true kind
  rw [names, List.filter_cons_of_pos taken]
  rfl

end Token

/-- The names in a tree are those of its identifiers, in their order. -/
theorem Derives.names (h : Derives table form tokens e) : Token.names tokens = e.names := by
  induction h using @Derives.rec table _ (fun tokens list _ => Token.names tokens = Expr.namesAll list) with
  | tighter _ _ _ ih | ofPower _ ih | ofPrimary _ ih => exact ih
  | operation _ _ means _ _ _ l r | power means _ _ _ l r =>
    rw [Token.names_append, Token.names_cons (by simp [means.1]), l, r, Expr.names]
  | unary means _ ih => rw [Token.names_cons (by simp [means.1]), ih, Expr.names]
  | number kind => exact Token.names_cons (by simp [kind]) []
  | constant kind => exact Token.names_identifier kind []
  | emptyCall kind opens closes =>
    rw [Token.names_identifier kind, Token.names_cons (by simp [opens]), Token.names_cons (by simp [closes])]
    rfl
  | call kind opens closes _ ih =>
    rw [Token.names_identifier kind, Token.names_cons (by simp [opens]), Token.names_append, ih,
      Token.names_cons (by simp [closes]), Expr.names]
    exact congrArg _ (List.append_nil _)
  | parenthesized opens closes _ ih =>
    rw [Token.names_cons (by simp [opens]), Token.names_append, ih, Token.names_cons (by simp [closes])]
    exact List.append_nil _
  | one _ ih =>
    rw [ih, Expr.namesAll, Expr.namesAll, List.append_nil]
  | more _ kind _ l r =>
    rw [Token.names_append, Token.names_cons (by simp [kind]), l, r, Expr.namesAll]

namespace Evaluation

variable {context context' : Context}

/-- Both contexts know the name alike. -/
def AgreeOn (context context' : Context) (name : String) : Prop :=
  context.constant? name = context'.constant? name ∧ context.function? name = context'.function? name

theorem resolve_of_agree {name : String} (agree : AgreeOn context context' name)
    (position : Nat) (values : List Float) :
    resolve context name position values = resolve context' name position values := by
  unfold resolve
  rw [agree.1, agree.2]

mutual

theorem plain_of_agree : ∀ e : Expr, (∀ name ∈ e.names, AgreeOn context context' name) →
    plain context e = plain context' e
  | .literal _, _ => rfl
  | .unary _ _ operand, h => by
    rw [plain, plain, plain_of_agree operand h]
  | .binary _ _ left right, h => by
    have inside := List.forall_mem_append.mp h
    rw [plain, plain, plain_of_agree left inside.1, plain_of_agree right inside.2]
  | .call name position arguments, h => by
    have inside := List.forall_mem_cons.mp h
    rw [plain, plain, plainAll_of_agree arguments inside.2]
    simp only [resolve_of_agree inside.1]

theorem plainAll_of_agree : ∀ list : List Expr,
    (∀ name ∈ Expr.namesAll list, AgreeOn context context' name) → plainAll context list = plainAll context' list
  | [], _ => rfl
  | e :: rest, h => by
    have inside := List.forall_mem_append.mp h
    rw [plainAll, plainAll, plain_of_agree e inside.1, plainAll_of_agree rest inside.2]

end

/-! ### More names -/

/-- Every name keeps its meaning, and none that is a function becomes a constant as well. -/
structure Extends (large small : Context) : Prop where
  constant : ∀ name value, small.constant? name = some value → large.constant? name = some value
  function : ∀ name f, small.function? name = some f → large.function? name = some f
  fresh : ∀ name f, small.function? name = some f → small.constant? name = none → large.constant? name = none

variable {small large : Context}

theorem resolve_extend (wider : Extends large small)
    {name : String} {position : Nat} {values : List Float} {value : Float}
    (h : resolve small name position values = .ok value) : resolve large name position values = .ok value := by
  cases values with
  | nil =>
    unfold resolve at h ⊢
    dsimp only at h ⊢
    split at h
    next constant =>
      rw [wider.constant _ _ constant]
      exact h
    next unknown =>
      split at h
      next f function =>
        rw [wider.fresh _ _ function unknown, wider.function _ _ function]
        exact h
      next => cases h
  | cons first rest =>
    unfold resolve at h ⊢
    dsimp only at h ⊢
    split at h
    next f function =>
      rw [wider.function _ _ function]
      exact h
    next => cases h

mutual

theorem plain_extend (wider : Extends large small) : ∀ (e : Expr) (value : Float),
    plain small e = .ok value → plain large e = .ok value
  | .literal _, _, h => h
  | .unary _ _ operand, value, h => by
    rw [plain] at h ⊢
    obtain ⟨x, evaluated, h⟩ := bind_eq_ok.mp h
    exact bind_eq_ok.mpr ⟨x, plain_extend wider operand x evaluated, h⟩
  | .binary _ _ left right, value, h => by
    rw [plain] at h ⊢
    obtain ⟨x, evaluatedLeft, h⟩ := bind_eq_ok.mp h
    obtain ⟨y, evaluatedRight, h⟩ := bind_eq_ok.mp h
    exact bind_eq_ok.mpr ⟨x, plain_extend wider left x evaluatedLeft,
      bind_eq_ok.mpr ⟨y, plain_extend wider right y evaluatedRight, h⟩⟩
  | .call _ _ arguments, value, h => by
    rw [plain] at h ⊢
    obtain ⟨values, evaluated, h⟩ := bind_eq_ok.mp h
    exact bind_eq_ok.mpr ⟨values, plainAll_extend wider arguments values evaluated, resolve_extend wider h⟩

theorem plainAll_extend (wider : Extends large small) : ∀ (list : List Expr) (values : List Float),
    plainAll small list = .ok values → plainAll large list = .ok values
  | [], _, h => h
  | e :: rest, values, h => by
    rw [plainAll] at h ⊢
    obtain ⟨value, evaluated, h⟩ := bind_eq_ok.mp h
    obtain ⟨others, evaluatedRest, h⟩ := bind_eq_ok.mp h
    exact bind_eq_ok.mpr ⟨value, plain_extend wider e value evaluated,
      bind_eq_ok.mpr ⟨others, plainAll_extend wider rest others evaluatedRest, h⟩⟩

end

end Evaluation

end Calculator
