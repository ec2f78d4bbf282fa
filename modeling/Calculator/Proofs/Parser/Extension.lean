import Mathlib
import Calculator.Proofs.Operator.Extension
import Calculator.Proofs.Parser

/-!
# Parsing with more operators

What is accepted with one table is accepted with every table that extends it, and has the same tree. The checks also
act on meanings that a symbol does not have, but an operator that passes them has the meaning that its place asks for.
-/

namespace Calculator

open OperatorTable (Extends)

variable {small large : OperatorTable} {form : Form} {tokens : List Token} {token : Token} {e : Expr}
variable {earlier previous : Option Token}

namespace OperatorTable

variable (wider : large.Extends small)

include wider

theorem Extends.isBinary {operator : BinaryOperator} (means : small.IsBinary token operator) :
    large.IsBinary token operator :=
  ⟨means.1, wider.binary _ _ means.2⟩

theorem Extends.isUnary {operator : UnaryOperator} (means : small.IsUnary token operator) :
    large.IsUnary token operator :=
  ⟨means.1, wider.unary _ _ means.2⟩

theorem Extends.isSome_binary {symbol : String} (means : (small.binary? symbol).isSome = true) :
    (large.binary? symbol).isSome = true := by
  obtain ⟨operator, means⟩ := Option.isSome_iff_exists.mp means
  exact Option.isSome_of_eq_some (wider.binary symbol operator means)

theorem Extends.isSome_unary {symbol : String} (means : (small.unary? symbol).isSome = true) :
    (large.unary? symbol).isSome = true := by
  obtain ⟨operator, means⟩ := Option.isSome_iff_exists.mp means
  exact Option.isSome_of_eq_some (wider.unary symbol operator means)

end OperatorTable

theorem Derives.extend (wider : large.Extends small) (h : Derives small form tokens e) :
    Derives large form tokens e := by
  induction h using @Derives.rec small _ (fun tokens list _ => DerivesAll large tokens list) with
  | operation lower upper means binds _ _ l r => exact .operation lower upper (wider.isBinary means) binds l r
  | tighter lower upper _ ih => exact .tighter lower upper ih
  | unary means _ ih => exact .unary (wider.isUnary means) ih
  | ofPower _ ih => exact .ofPower ih
  | ofPrimary _ ih => exact .ofPrimary ih
  | power means binds _ _ b x => exact .power (wider.isBinary means) binds b x
  | number kind reads => exact .number kind reads
  | constant kind => exact .constant kind
  | emptyCall kind opens closes => exact .emptyCall kind opens closes
  | call kind opens closes _ ih => exact .call kind opens closes ih
  | parenthesized opens closes _ ih => exact .parenthesized opens closes ih
  | one _ ih => exact .one ih
  | more _ kind _ ih ihs => exact .more ih kind ihs

/-! ### The checks -/

namespace Adjacency

theorem checkOperator_extend {next : Option Token} (wider : large.Extends small)
    (h : checkOperator small earlier previous next token = .ok ()) :
    checkOperator large earlier previous next token = .ok () := by
  obtain ⟨follows, means⟩ := checkOperator_eq_ok.mp h
  refine checkOperator_eq_ok.mpr ⟨follows, ?_⟩
  by_cases place : Token.opensOperand previous = true
  · rw [if_pos place] at means ⊢
    exact ⟨wider.isSome_unary means.1, means.2⟩
  · rw [if_neg place] at means ⊢
    exact wider.isSome_binary means

theorem checkFrom_extend (wider : large.Extends small) (h : checkFrom small earlier previous tokens = .ok ()) :
    checkFrom large earlier previous tokens = .ok () := by
  induction tokens generalizing earlier previous with
  | nil => rfl
  | cons token rest ih =>
    obtain ⟨known, operator, h⟩ := checkFrom_cons.mp h
    exact checkFrom_cons.mpr ⟨known, fun kind => checkOperator_extend wider (operator kind), ih h⟩

end Adjacency

namespace Nesting

variable {nesting : Nesting}

/-- An operator that stands after an operand has a binary meaning, and so it opens a level in both tables or in none. -/
theorem step_extend (wider : large.Extends small)
    (means : token.kind = .operator → Token.opensOperand previous = false →
      (small.binary? token.text).isSome = true) :
    step large previous nesting token = step small previous nesting token := by
  have same (kind : token.kind = .operator) : opensLevel large previous token = opensLevel small previous token := by
    unfold opensLevel
    cases place : Token.opensOperand previous with
    | true => rfl
    | false =>
      obtain ⟨operator, found⟩ := Option.isSome_iff_exists.mp (means kind place)
      rw [found, wider.binary _ _ found]
  unfold step
  cases kind : token.kind with
  | operator => simp only [same kind]
  | _ => rfl

theorem checkFrom_extend (wider : large.Extends small)
    (adjacency : Adjacency.checkFrom small earlier previous tokens = .ok ())
    (h : checkFrom small previous nesting tokens = .ok ()) : checkFrom large previous nesting tokens = .ok () := by
  induction tokens generalizing earlier previous nesting with
  | nil => rfl
  | cons token rest ih =>
    obtain ⟨-, operator, adjacency⟩ := Adjacency.checkFrom_cons.mp adjacency
    have means (kind : token.kind = .operator) (place : Token.opensOperand previous = false) :
        (small.binary? token.text).isSome = true := by
      have passes := (Adjacency.checkOperator_eq_ok.mp (operator kind)).2
      rwa [place, if_neg Bool.false_ne_true] at passes
    unfold checkFrom at h ⊢
    rw [step_extend wider means]
    dsimp only at h ⊢
    split at h
    · cases h
    next room =>
      rw [if_neg room]
      exact ih adjacency h

end Nesting

/-! ### Both parsers -/

namespace ParserKind

theorem parse_extend (kind : ParserKind) (wider : large.Extends small) (h : kind.parse small tokens = .ok e) :
    kind.parse large tokens = .ok e := by
  obtain ⟨nesting, adjacency, derived⟩ := parse_sound kind h
  have nesting := Nesting.checkFrom_extend wider adjacency nesting
  have adjacency := Adjacency.checkFrom_extend wider adjacency
  have derived := derived.extend wider
  cases kind with
  | recursiveDescent => exact descent_eq_ok.mpr ⟨nesting, adjacency, derived⟩
  | shuntingYard => exact yard_complete nesting (balanced_of_yard h) adjacency derived

theorem convert_extend (kind : ParserKind) (wider : large.Extends small) {text : String}
    (h : kind.convert small text = .ok e) : kind.convert large text = .ok e := by
  obtain ⟨tokens, scanned, parsed⟩ := parse_of_convert h
  exact convert_of_parse scanned (kind.parse_extend wider parsed)

/-- A list that is accepted with a table has the same tree with every extension of the table. Therefore giving meanings
to more symbols or enabling unary operators leaves the trees of accepted texts as they are. -/
theorem extension_keeps_trees (kind : ParserKind) :
    (∀ small large, OperatorTable.Extends large small → ∀ tokens e,
      kind.parse small tokens = .ok e → kind.parse large tokens = .ok e) ∧
      ∀ table changes, OperatorTable.AddAll table changes → ∀ text e,
        kind.convert table text = .ok e → kind.convert (changes.foldl OperatorTable.apply table) text = .ok e :=
  ⟨fun _ _ wider _ _ => kind.parse_extend wider,
    fun _ _ add _ _ => kind.convert_extend (OperatorTable.extends_foldl add)⟩

/-- `x^y` with `&` as another operator and with signs. -/
theorem extension_keeps_trees_of_power :
    let small := OperatorTable.arithmetic.enableUnary false
    let changes : List OperatorTable.Change := [.binary "&" .bitwiseAnd, .enableUnary true]
    let x : Token := { kind := .identifier, text := "x", position := 0 }
    let power : Token := { kind := .operator, text := "^", position := 1 }
    let y : Token := { kind := .identifier, text := "y", position := 2 }
    let e : Expr := .binary .exponentiate power (.call "x" 0 []) (.call "y" 2 [])
    OperatorTable.AddAll small changes ∧ shuntingYard.parse .arithmetic [x, power, y, .stop 3] = .ok e ∧
      shuntingYard.convert (changes.foldl OperatorTable.apply small) "x^y" = .ok e := by
  intro small changes x power y e
  have add : OperatorTable.AddAll small changes := ⟨rfl, rfl, trivial⟩
  have wider : (small.enableUnary true).Extends small := OperatorTable.extends_enableUnary
  have parsed : shuntingYard.parse small [x, power, y, .stop 3] = .ok e := rfl
  have converted : shuntingYard.convert small "x^y" = .ok e := by cbv
  exact ⟨add, (extension_keeps_trees .shuntingYard).1 small .arithmetic wider _ e parsed,
    (extension_keeps_trees .shuntingYard).2 small changes add "x^y" e converted⟩

end ParserKind

end Calculator
