import Calculator.Proofs.Evaluation.Invariant
import Calculator.Proofs.Grammar.Basic

/-!
# Where an evaluation fails

An evaluation fails at one of the operations or calls in the expression, and reports what that one reports for some
operands. In the tree of some tokens each of them stands at a token with its meaning.
-/

namespace Calculator

namespace Expr

variable {node e parent : Expr}

/-- The expression is the other one or a part of it. -/
inductive Within : Expr → Expr → Prop
  | refl (e : Expr) : Within e e
  | operand {node operand e : Expr} (member : operand ∈ e.operands) (h : Within node operand) : Within node e

theorem Within.trans (h : Within node e) (h' : Within e parent) : Within node parent := by
  induction h' with
  | refl => exact h
  | operand member _ ih => exact .operand member ih

/-- The right operand and the operation of each step are parts of the expression. -/
def StepsWithin (steps : List Step) (parent : Expr) : Prop :=
  ∀ step ∈ steps, Within step.operand parent ∧ ∃ left, Within (step.onto left) parent

theorem within_spineFrom (e : Expr) (steps : List Step) (inside : Within e parent) (above : StepsWithin steps parent) :
    Within (spineFrom steps e).1 parent ∧ StepsWithin (spineFrom steps e).2 parent := by
  fun_induction spineFrom steps e with
  | case1 steps operator token left right ih =>
    have operand {e} (member : e ∈ [left, right]) : Within e parent :=
      Within.trans (.operand member (.refl e)) inside
    refine ih (operand (by simp)) (List.forall_mem_cons.mpr ⟨⟨operand (by simp), left, inside⟩, above⟩)
  | case2 => exact ⟨inside, above⟩

theorem within_spine (e : Expr) : Within e.spine.1 e ∧ StepsWithin e.spine.2 e :=
  within_spineFrom e [] (.refl e) nofun

end Expr

open Calculator.Expr (Within)

/-! ### Places of operations -/

section

variable {table : OperatorTable} {form : Form} {tokens more : List Token} {e : Expr}

/-- The operation or the call, if the expression is one, stands at one of the tokens, which means it. -/
def Expr.StandsAmong (table : OperatorTable) (tokens : List Token) : Expr → Prop
  | .literal _ => True
  | .binary operator token _ _ => token ∈ tokens ∧ table.IsBinary token operator
  | .unary operator token _ => token ∈ tokens ∧ table.IsUnary token operator
  | .call name position _ => ∃ token ∈ tokens, token.kind = .identifier ∧
      token.text = name ∧ token.position = position

/-- So do all operations and calls in the expression. -/
def Expr.AllStandAmong (table : OperatorTable) (tokens : List Token) (e : Expr) : Prop :=
  ∀ node, Within node e → node.StandsAmong table tokens

theorem allStandAmong_of_operands (root : e.StandsAmong table tokens)
    (operands : ∀ operand ∈ e.operands, operand.AllStandAmong table tokens) : e.AllStandAmong table tokens := by
  intro node inside
  cases inside with
  | refl => exact root
  | operand member inside => exact operands _ member node inside

theorem Expr.AllStandAmong.mono (h : e.AllStandAmong table tokens) (subset : ∀ token ∈ tokens, token ∈ more) :
    e.AllStandAmong table more := by
  intro node inside
  have stands := h node inside
  cases node with
  | literal => trivial
  | binary | unary => exact ⟨subset _ stands.1, stands.2⟩
  | call =>
    obtain ⟨token, member, means⟩ := stands
    exact ⟨token, subset token member, means⟩

/-- Whatever is in the tree of some tokens stands at one that means it. -/
theorem Derives.allStandAmong (h : Derives table form tokens e) : e.AllStandAmong table tokens := by
  induction h using @Derives.rec table _ (fun tokens list _ => ∀ e ∈ list, e.AllStandAmong table tokens) with
  | tighter _ _ _ ih | ofPower _ ih | ofPrimary _ ih => exact ih
  | operation _ _ means _ _ _ l r | power means _ _ _ l r =>
    refine allStandAmong_of_operands ⟨by simp, means⟩
      (List.forall_mem_cons.mpr ⟨?_, List.forall_mem_singleton.mpr ?_⟩)
    · exact l.mono fun token member => List.mem_append_left _ member
    · exact r.mono fun token member => List.mem_append_right _ (List.mem_cons_of_mem _ member)
  | unary means _ ih =>
    refine allStandAmong_of_operands ⟨List.mem_cons_self, means⟩ (List.forall_mem_singleton.mpr ?_)
    exact ih.mono fun token member => List.mem_cons_of_mem _ member
  | number => exact allStandAmong_of_operands trivial nofun
  | constant kind => exact allStandAmong_of_operands ⟨_, List.mem_cons_self, kind, rfl, rfl⟩ nofun
  | emptyCall kind => exact allStandAmong_of_operands ⟨_, List.mem_cons_self, kind, rfl, rfl⟩ nofun
  | call kind _ _ _ ih =>
    refine allStandAmong_of_operands ⟨_, List.mem_cons_self, kind, rfl, rfl⟩ fun operand member => ?_
    refine (ih operand member).mono fun token member => ?_
    exact List.mem_cons_of_mem _ (List.mem_cons_of_mem _ (List.mem_append_left _ member))
  | parenthesized _ _ _ ih =>
    exact ih.mono fun token member => List.mem_cons_of_mem _ (List.mem_append_left _ member)
  | one _ ih => exact List.forall_mem_singleton.mpr ih _ ‹_›
  | more _ _ _ l r =>
    refine List.forall_mem_cons.mpr
      ⟨l.mono fun token member => List.mem_append_left _ member, fun e member => ?_⟩ _ ‹_›
    exact (r e member).mono fun token member => List.mem_append_right _ (List.mem_cons_of_mem _ member)

end

/-! ### Failures -/

namespace Evaluation

variable {context : Context} {e operand : Expr} {failure : Failure}

/-- The failure is what a part of the expression reports. -/
inductive Blames (context : Context) (e : Expr) (failure : Failure) : Prop
  | depth {node : Expr} (inside : Within node e)
      (same : failure = { cause := .evaluatedTooDeeply, position := node.position })
  | unary {operator : UnaryOperator} {token : Token} {operand : Expr} {x : Float}
      (inside : Within (.unary operator token operand) e)
      (fails : applyUnary operator x token.position = .error failure)
  | binary {operator : BinaryOperator} {token : Token} {left right : Expr} {x y : Float}
      (inside : Within (.binary operator token left right) e)
      (fails : applyBinary operator x y token.position = .error failure)
  | call {name : String} {position : Nat} {arguments : List Expr} {values : List Float}
      (inside : Within (.call name position arguments) e) (fails : call context name values position = .error failure)

theorem Blames.within (h : Blames context operand failure) (part : Within operand e) : Blames context e failure := by
  cases h with
  | depth inside same => exact .depth (inside.trans part) same
  | unary inside fails => exact .unary (inside.trans part) fails
  | binary inside fails => exact .binary (inside.trans part) fails
  | call inside fails => exact .call (inside.trans part) fails

theorem evaluateWithin_blames (context : Context) (levels : Nat) (e : Expr) :
    Reports (Blames context e) (evaluateWithin context levels e) := by
  induction levels generalizing e with
  | zero => exact .depth (.refl e) rfl
  | succ levels ih =>
    have part {operand : Expr} (inside : Within operand e) :
        Reports (Blames context e) (evaluateWithin context levels operand) :=
      (ih operand).mono (fun _ => id) fun failure blames => blames.within inside
    unfold evaluateWithin
    cases e with
    | literal => trivial
    | unary operator token operand =>
      apply reports_bind (part (.operand (List.mem_singleton_self operand) (.refl operand)))
      intro x
      exact ends_of_forall (fun _ _ => trivial) fun failure fails => .unary (.refl _) fails
    | call name position arguments =>
      apply reports_bind (reports_mapM fun argument member => part (.operand member (.refl argument)))
      intro values
      exact ends_of_forall (fun _ _ => trivial) fun failure fails => .call (.refl _) fails
    | binary operator token left right =>
      -- A chain is evaluated from its leftmost operand on, and all of its steps are at this level.
      obtain ⟨leftmost, steps⟩ := Expr.within_spine (.binary operator token left right)
      apply reports_bind (part leftmost)
      refine fun value => reports_foldlM fun value step member => ?_
      obtain ⟨operand, left, operation⟩ := steps step member
      apply reports_bind (part operand)
      intro y
      exact ends_of_forall (fun _ _ => trivial) fun failure fails => .binary operation fails

end Evaluation

end Calculator
