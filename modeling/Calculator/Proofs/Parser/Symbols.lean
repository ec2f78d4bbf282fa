import Calculator.Parser
import Calculator.Proofs.Descent.Pairing
import Calculator.Proofs.Operator.Agreement
import Calculator.Proofs.Token.Cover

/-!
# Parsing and the symbols that occur

Both parsers depend on the table only through the operators among the tokens, failures included. Therefore the bitwise
operators make no difference to a text without their characters.
-/

namespace Calculator

variable {table table' : OperatorTable} {q : String → Prop} {tokens : List Token} {token : Token}
variable {earlier previous next : Option Token} (agree : OperatorTable.AgreeOn q table table')

include agree

theorem Nesting.checkFrom_of_agree {nesting : Nesting}
    (known : ∀ token ∈ tokens, token.kind = .operator → q token.text) :
    checkFrom table previous nesting tokens = checkFrom table' previous nesting tokens := by
  induction tokens generalizing previous nesting with
  | nil => rfl
  | cons token rest ih =>
    obtain ⟨knownToken, knownRest⟩ := List.forall_mem_cons.mp known
    have same : step table previous nesting token = step table' previous nesting token := by
      unfold step opensLevel
      cases kind : token.kind with
      | operator => simp only [agree.binary _ (knownToken kind)]
      | _ => rfl
    unfold checkFrom
    simp only [same, ih knownRest]

namespace Adjacency

theorem checkOperator_of_agree (known : q token.text) :
    checkOperator table earlier previous next token = checkOperator table' earlier previous next token := by
  unfold checkOperator unaryRefusal binaryRefusal
  simp only [agree.unary known, agree.binary _ known, agree.knows known]

theorem checkFrom_of_agree (known : ∀ token ∈ tokens, token.kind = .operator → q token.text) :
    checkFrom table earlier previous tokens = checkFrom table' earlier previous tokens := by
  induction tokens generalizing earlier previous with
  | nil => rfl
  | cons token rest ih =>
    obtain ⟨knownToken, knownRest⟩ := List.forall_mem_cons.mp known
    unfold checkFrom
    rw [ih knownRest]
    by_cases operator : token.isOperator = true
    · rw [checkOperator_of_agree agree (knownToken (of_decide_eq_true operator))]
    · simp only [operator]
      rfl

end Adjacency

namespace Yard

theorem run_of_agree {yard : Yard} (known : ∀ token ∈ tokens, token.kind = .operator → q token.text) :
    run table previous yard tokens = run table' previous yard tokens := by
  induction tokens generalizing previous yard with
  | nil => rfl
  | cons token rest ih =>
    obtain ⟨knownToken, knownRest⟩ := List.forall_mem_cons.mp known
    have same : step table previous rest.head? token yard = step table' previous rest.head? token yard := by
      unfold step operator
      cases kind : token.kind with
      | operator => simp only [agree.unary (knownToken kind), agree.binary _ (knownToken kind)]
      | _ => rfl
    unfold run
    simp only [same, ih knownRest]

end Yard

namespace Descent

theorem alike_of_agree {stop : Token} (other : stop.kind ≠ .operator) :
    Setting.Alike (fun token => token.kind = .operator → q token.text)
      (fun _ => True) ⟨table, stop⟩ ⟨table', stop⟩ where
  stop := rfl
  stops kind := absurd kind other
  binary n token known := by
    unfold Setting.binaryAt?
    by_cases operator : token.isOperator = true
    · rw [if_pos operator, if_pos operator, agree.binary _ (known (of_decide_eq_true operator))]
    · rw [if_neg operator, if_neg operator]
  unary token known := by
    unfold Setting.unaryAt?
    by_cases operator : token.isOperator = true
    · rw [if_pos operator, if_pos operator, agree.unary (known (of_decide_eq_true operator))]
    · rw [if_neg operator, if_neg operator]
  refusal _ _ _ _ := trivial
  number _ _ _ := reports_any _

theorem parse_of_agree (known : ∀ token ∈ tokens, token.kind = .operator → q token.text) :
    parse table tokens = parse table' tokens := by
  have other : (stopOf tokens).kind ≠ .operator := by simp [stopOf_kind]
  have paired := parse_paired (alike_of_agree agree other) known trivial
  exact paired.eq_or_cut.resolve_right fun ⟨_, short, _⟩ => short

end Descent

namespace ParserKind

theorem parse_of_agree (kind : ParserKind) (known : ∀ token ∈ tokens, token.kind = .operator → q token.text) :
    kind.parse table tokens = kind.parse table' tokens := by
  have nesting : Nesting.check table tokens = Nesting.check table' tokens := Nesting.checkFrom_of_agree agree known
  have adjacency : Adjacency.check table tokens = Adjacency.check table' tokens :=
    Adjacency.checkFrom_of_agree agree known
  unfold parse
  rw [nesting, adjacency]
  cases kind with
  | recursiveDescent => simp only [Descent.parse_of_agree agree known]
  | shuntingYard => simp only [Postfix.ofTokens, Yard.run_of_agree agree known]

theorem convert_of_agree (kind : ParserKind) {text : String}
    (known : ∀ tokens, Token.scan text = .ok tokens →
      ∀ token ∈ tokens, token.kind = .operator → q token.text) :
    kind.convert table text = kind.convert table' text := by
  unfold convert
  cases scanned : Token.scan text with
  | error failure => rfl
  | ok tokens =>
    rw [ok_bind, ok_bind, parse_of_agree agree kind (known tokens scanned)]

end ParserKind

/-! ### The bitwise operators -/

omit agree

/-- The characters of the symbols that arithmetic does without or gives another meaning. -/
def bitwiseCharacters : List Char := ['^', '&', '|', '~', '<', '>']

theorem convert_of_arithmetic (kind : ParserKind)
    {text : String} (plain : ∀ c ∈ text.toList, c ∉ bitwiseCharacters) :
    kind.convert .arithmetic text = kind.convert .bitwise text := by
  refine kind.convert_of_agree OperatorTable.agreeOn_bitwise fun tokens scanned token member _ symbol => ?_
  obtain ⟨front, back, same, -⟩ := (Token.tiles_of_scan scanned).slice member
  have inside c (member : c ∈ token.text.toList) : c ∉ bitwiseCharacters := by
    refine plain c ?_
    rw [same]
    exact List.mem_append_right _ (List.mem_append_left _ member)
  have each : ∀ symbol ∈ OperatorTable.bitwiseSymbols, symbol.toList.any (· ∈ bitwiseCharacters) := by decide
  obtain ⟨c, member, special⟩ := List.any_eq_true.mp (each token.text symbol)
  exact inside c member (of_decide_eq_true special)

end Calculator
