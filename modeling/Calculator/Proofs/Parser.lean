import Calculator.Parser
import Calculator.Proofs.Descent.Language
import Calculator.Proofs.Postfix.Places
import Calculator.Proofs.Postfix.Simulation
import Calculator.Proofs.Token.Balance
import Calculator.Proofs.Token.Lexer

/-!
# The parsers and the grammar

Both parsers accept the checked lists of tokens that derive a tree, and return that tree.
-/

namespace Calculator

variable {table : OperatorTable} {tokens : List Token} {e : Expr}

/-- No stop token stands before the last place. -/
def Token.StopsLast (tokens : List Token) : Prop :=
  ∀ token ∈ tokens.dropLast, token.isStop = false

namespace Descent

theorem body_append (tokens : List Token) :
    ∃ rest, tokens = body tokens ++ rest ∧ ∀ token ∈ rest.head?, token.kind = .endOfInput := by
  refine ⟨tokens.dropWhile fun token => !token.isStop, List.takeWhile_append_dropWhile.symm, ?_⟩
  intro token head
  have := List.head?_dropWhile_not (fun token : Token => !token.isStop) tokens
  rw [head] at this
  simpa [Token.isStop] using this

theorem body_append_of_stopsLast (stops : Token.StopsLast tokens) :
    ∃ rest, tokens = body tokens ++ rest ∧ ∀ token ∈ rest, token.kind = .endOfInput := by
  obtain ⟨rest, same, stop⟩ := body_append tokens
  refine ⟨rest, same, ?_⟩
  rcases rest with _ | ⟨first, _ | ⟨second, rest⟩⟩
  · simp
  · simpa using stop
  · have := stops first (by rw [same]; simp)
    simp [Token.isStop, stop first rfl] at this

end Descent

namespace ParserKind

theorem descent_eq_ok : recursiveDescent.parse table tokens = .ok e ↔
    Nesting.check table tokens = .ok () ∧ Adjacency.check table tokens = .ok () ∧
      Derives table (.expression 1) (Descent.body tokens) e := by
  simp only [parse, check_bind_eq_ok, Descent.parse_eq_ok]

theorem balanced_of_derives (stops : Token.StopsLast tokens)
    (h : Derives table (.expression 1) (Descent.body tokens) e) : Balance.check tokens = .ok () := by
  obtain ⟨rest, same, stop⟩ := Descent.body_append_of_stopsLast stops
  rw [Balance.check]
  conv => lhs; rw [same]
  rw [Balance.checkFrom_derives h, Balance.checkFrom_stops stop]

theorem balanced_of_yard (h : shuntingYard.parse table tokens = .ok e) : Balance.check tokens = .ok () := by
  rw [parse, check_bind_eq_ok, check_bind_eq_ok] at h
  exact h.2.1

theorem yard_sound (h : shuntingYard.parse table tokens = .ok e) :
    Nesting.check table tokens = .ok () ∧ Adjacency.check table tokens = .ok () ∧
      Derives table (.expression 1) (Descent.body tokens) e := by
  rw [parse, check_bind_eq_ok, check_bind_eq_ok, check_bind_eq_ok, bind_eq_ok] at h
  obtain ⟨nesting, -, adjacency, entries, reordered, built⟩ := h
  obtain ⟨rest, same, stop⟩ := Descent.body_append tokens
  obtain ⟨tree, derived⟩ := (Yard.placed_of_toExpr adjacency reordered built).derives
  obtain ⟨others, reordered', built'⟩ := Postfix.toExpr_of_derives derived stop
  rw [← same, reordered] at reordered'
  cases reordered'
  rw [built] at built'
  cases built'
  exact ⟨nesting, adjacency, derived⟩

theorem yard_complete (nesting : Nesting.check table tokens = .ok ()) (balance : Balance.check tokens = .ok ())
    (adjacency : Adjacency.check table tokens = .ok ())
    (derived : Derives table (.expression 1) (Descent.body tokens) e) :
    shuntingYard.parse table tokens = .ok e := by
  obtain ⟨rest, same, stop⟩ := Descent.body_append tokens
  obtain ⟨entries, reordered, built⟩ := Postfix.toExpr_of_derives derived stop
  rw [← same] at reordered
  rw [parse, check_bind_eq_ok, check_bind_eq_ok, check_bind_eq_ok, bind_eq_ok]
  exact ⟨nesting, balance, adjacency, entries, reordered, built⟩

theorem yard_eq_ok (stops : Token.StopsLast tokens) : shuntingYard.parse table tokens = .ok e ↔
    Nesting.check table tokens = .ok () ∧ Adjacency.check table tokens = .ok () ∧
      Derives table (.expression 1) (Descent.body tokens) e := by
  constructor
  · exact yard_sound
  · rintro ⟨nesting, adjacency, derived⟩
    exact yard_complete nesting (balanced_of_derives stops derived) adjacency derived

theorem parse_sound (kind : ParserKind) (h : kind.parse table tokens = .ok e) :
    Nesting.check table tokens = .ok () ∧ Adjacency.check table tokens = .ok () ∧
      Derives table (.expression 1) (Descent.body tokens) e := by
  cases kind with
  | shuntingYard => exact yard_sound h
  | recursiveDescent => exact descent_eq_ok.mp h

theorem parse_eq_ok (kind : ParserKind) (stops : Token.StopsLast tokens) : kind.parse table tokens = .ok e ↔
    Nesting.check table tokens = .ok () ∧ Adjacency.check table tokens = .ok () ∧
      Derives table (.expression 1) (Descent.body tokens) e := by
  cases kind with
  | shuntingYard => exact yard_eq_ok stops
  | recursiveDescent => exact descent_eq_ok

theorem stopsLast_of_scan {text : String} (h : Token.scan text = .ok tokens) : Token.StopsLast tokens := by
  obtain ⟨more, last, rfl, -, known⟩ := Token.scanFrom_eq_ok h
  intro token member
  have member : token ∈ more := by simpa using member
  simp [Token.isStop, (known token member).1]

theorem body_of_scan {text : String} {last : Nat} (h : Token.scan text = .ok (tokens ++ [.stop last])) :
    Descent.body (tokens ++ [.stop last]) = tokens := by
  obtain ⟨more, _, same, -, known⟩ := Token.scanFrom_eq_ok h
  obtain ⟨rfl, -⟩ : tokens = more ∧ _ := by simpa using same
  rw [Descent.body, List.takeWhile_append_of_pos]
  · simp [Token.isStop, Token.stop]
  · exact fun token member => by simp [Token.isStop, (known token member).1]

theorem parse_of_convert {kind : ParserKind} {text : String} (h : kind.convert table text = .ok e) :
    ∃ tokens, Token.scan text = .ok tokens ∧ kind.parse table tokens = .ok e := by
  obtain ⟨tokens, scanned, h⟩ := bind_eq_ok.mp h
  refine ⟨tokens, scanned, ?_⟩
  dsimp only at h
  split at h
  · cases h
  · exact h

theorem convert_of_parse {kind : ParserKind} {text : String} (scanned : Token.scan text = .ok tokens)
    (h : kind.parse table tokens = .ok e) : kind.convert table text = .ok e := by
  have filled : ¬ tokens.all Token.isStop = true := by
    intro stops
    obtain ⟨-, -, derived⟩ := parse_sound kind h
    refine derived.ne_nil ?_
    cases tokens with
    | nil => rfl
    | cons token rest =>
      have stop := List.all_eq_true.mp stops token List.mem_cons_self
      simp [Descent.body, stop]
  rw [convert, scanned, ok_bind, if_neg filled]
  exact h

/-- The descent accepts a list exactly if it passes the checks, its numbers have values and the part before the
stop token derives a tree. There is at most one such tree. -/
theorem descent_parses_grammar (table : OperatorTable) (tokens : List Token) (stops : Token.StopsLast tokens) :
    (∀ e, recursiveDescent.parse table tokens = .ok e ↔
      Nesting.check table tokens = .ok () ∧ Adjacency.check table tokens = .ok () ∧ NumbersRead tokens ∧
        Derives table (.expression 1) (Descent.body tokens) e) ∧
      ∀ e e', Derives table (.expression 1) (Descent.body tokens) e →
        Derives table (.expression 1) (Descent.body tokens) e' → e = e' := by
  obtain ⟨rest, same, stop⟩ := Descent.body_append_of_stopsLast stops
  refine ⟨fun e => ?_, fun _ _ => Descent.derives_unique⟩
  have numbers (h : Derives table (.expression 1) (Descent.body tokens) e) : NumbersRead tokens := by
    rw [same]
    exact numbersRead_append.mpr ⟨h.numbersRead, fun token member kind => by simp [stop token member] at kind⟩
  rw [descent_eq_ok]
  constructor
  · rintro ⟨nesting, adjacency, derived⟩
    exact ⟨nesting, adjacency, numbers derived, derived⟩
  · rintro ⟨nesting, adjacency, -, derived⟩
    exact ⟨nesting, adjacency, derived⟩

/-- `x^-y` with a stop token after it. -/
theorem descent_parses_power :
    let x : Token := { kind := .identifier, text := "x", position := 0 }
    let power : Token := { kind := .operator, text := "^", position := 1 }
    let sign : Token := { kind := .operator, text := "-", position := 2 }
    let y : Token := { kind := .identifier, text := "y", position := 3 }
    Token.StopsLast [x, power, sign, y, .stop 4] ∧
      recursiveDescent.parse .arithmetic [x, power, sign, y, .stop 4] =
        .ok (.binary .exponentiate power (.call "x" 0 []) (.unary .negate sign (.call "y" 3 []))) := by
  intro x power sign y
  have stops : Token.StopsLast [x, power, sign, y, .stop 4] := by
    simp [Token.StopsLast, Token.isStop, x, power, sign, y]
  have exponent : Derives .arithmetic (.expression tightest) [sign, y] (.unary .negate sign (.call "y" 3 [])) :=
    .unary ⟨rfl, rfl⟩ (.ofPower (.ofPrimary (.constant rfl)))
  have derived : Derives .arithmetic .power [x, power, sign, y]
      (.binary .exponentiate power (.call "x" 0 []) (.unary .negate sign (.call "y" 3 []))) :=
    .power ⟨rfl, rfl⟩ rfl (.constant rfl) exponent
  refine ⟨stops, ((descent_parses_grammar .arithmetic _ stops).1 _).mpr ⟨rfl, rfl, ?_, ?_⟩⟩
  · simp [NumbersRead, Token.stop, x, power, sign, y]
  · exact (Derives.ofPower derived).loosen (Nat.le_refl _) (by decide) (Nat.le_refl _)

/-- Both parsers accept the same lists in which no token follows a stop token, and return the same tree. Texts
have no other lists. -/
theorem parsers_agree (table : OperatorTable) :
    (∀ tokens, Token.StopsLast tokens → ∀ e,
      shuntingYard.parse table tokens = .ok e ↔ recursiveDescent.parse table tokens = .ok e) ∧
      (∀ text tokens, Token.scan text = .ok tokens → Token.StopsLast tokens) ∧
        ∀ text e, shuntingYard.convert table text = .ok e ↔ recursiveDescent.convert table text = .ok e := by
  have agree tokens (stops : Token.StopsLast tokens) e :
      shuntingYard.parse table tokens = .ok e ↔ recursiveDescent.parse table tokens = .ok e :=
    (yard_eq_ok stops).trans descent_eq_ok.symm
  refine ⟨agree, fun _ _ => stopsLast_of_scan, fun text e => ?_⟩
  cases scanned : Token.scan text with
  | error => simp [convert, scanned]
  | ok tokens =>
    rw [convert, convert, scanned, ok_bind, ok_bind]
    split
    · rfl
    · exact agree tokens (stopsLast_of_scan scanned) e

/-- `x^-y` with a stop token after it. -/
theorem parsers_agree_on_power :
    let x : Token := { kind := .identifier, text := "x", position := 0 }
    let power : Token := { kind := .operator, text := "^", position := 1 }
    let sign : Token := { kind := .operator, text := "-", position := 2 }
    let y : Token := { kind := .identifier, text := "y", position := 3 }
    let e : Expr := .binary .exponentiate power (.call "x" 0 []) (.unary .negate sign (.call "y" 3 []))
    shuntingYard.parse .arithmetic [x, power, sign, y, .stop 4] = .ok e ∧
      recursiveDescent.parse .arithmetic [x, power, sign, y, .stop 4] = .ok e := by
  intro x power sign y e
  have stops : Token.StopsLast [x, power, sign, y, .stop 4] := by
    simp [Token.StopsLast, Token.isStop, x, power, sign, y]
  have accepted : shuntingYard.parse .arithmetic [x, power, sign, y, .stop 4] = .ok e := rfl
  exact ⟨accepted, ((parsers_agree .arithmetic).1 _ stops e).mp accepted⟩

end ParserKind

end Calculator
