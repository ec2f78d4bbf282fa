import Calculator.Proofs.Descent.Pairing
import Calculator.Proofs.Parser.Literals
import Calculator.Proofs.Postfix.Supply
import Calculator.Proofs.Token.Cover

/-!
# What parsing reports

A text that has no tree is refused for its syntax, at one of its tokens or at no place, or for a number in
it that has no value.
-/

namespace Calculator

/-- The failure is one of form, at one of the tokens or at no place. -/
structure MalformedAmong (tokens : List Token) (failure : Failure) : Prop where
  category : failure.category = .invalidSyntax
  place : failure.position = 0 ∨ ∃ token ∈ tokens, token.position = failure.position

/-- The failure is one of form or an operator without a meaning, at one of the tokens or at no place. -/
structure RefusedAmong (tokens : List Token) (failure : Failure) : Prop where
  category : failure.category = .invalidSyntax ∨ failure.category = .unexpectedToken
  place : failure.position = 0 ∨ ∃ token ∈ tokens, token.position = failure.position

theorem MalformedAmong.refused {tokens : List Token} {failure : Failure} (h : MalformedAmong tokens failure) :
    RefusedAmong tokens failure :=
  ⟨.inl h.category, h.place⟩

section

variable {bad : Failure → Prop} {places : List Token}
  (malformed : ∀ failure, MalformedAmong places failure → bad failure)

include malformed

theorem malformed_at {cause : Cause} {token : Token}
    (member : token ∈ places) (category : cause.category = .invalidSyntax) :
    bad { cause, position := token.position } :=
  malformed _ ⟨category, .inr ⟨token, member, rfl⟩⟩

/-! ### Checks of tokens -/

theorem Nesting.checkFrom_reports (table : OperatorTable)
    (previous : Option Token) (nesting : Nesting) {tokens : List Token}
    (inside : ∀ token ∈ tokens, token ∈ places) :
    Reports bad (Nesting.checkFrom table previous nesting tokens) := by
  induction tokens generalizing previous nesting with
  | nil => trivial
  | cons token rest ih =>
    obtain ⟨here, later⟩ := List.forall_mem_cons.mp inside
    unfold Nesting.checkFrom
    dsimp only
    split
    · exact malformed_at malformed here rfl
    · exact ih _ _ later

theorem Balance.checkFrom_reports {position : Nat} (depth : Nat) {tokens : List Token}
    (last : position = 0 ∨ ∃ token ∈ places, token.position = position)
    (inside : ∀ token ∈ tokens, token ∈ places) :
    Reports bad (Balance.checkFrom position depth tokens) := by
  fun_induction Balance.checkFrom position depth tokens with
  | case1 => exact malformed _ ⟨rfl, last⟩
  | case2 => trivial
  | case4 => exact malformed_at malformed (inside _ List.mem_cons_self) rfl
  | case3 _ _ _ _ ih | case5 _ _ _ _ ih | case6 _ _ _ _ _ _ ih => exact ih (List.forall_mem_cons.mp inside).2

theorem Balance.check_reports {tokens : List Token} (inside : ∀ token ∈ tokens, token ∈ places) :
    Reports bad (Balance.check tokens) := by
  refine Balance.checkFrom_reports malformed 0 ?_ inside
  cases last : tokens.getLast? with
  | none => exact .inl rfl
  | some token => exact .inr ⟨token, inside token (List.mem_of_getLast? last), rfl⟩

end

section

variable {bad : Failure → Prop} {places : List Token}
  (refusal : ∀ failure, RefusedAmong places failure → bad failure)

include refusal

theorem bad_at {cause : Cause} {token : Token} (member : token ∈ places)
    (category : cause.category = .invalidSyntax ∨ cause.category = .unexpectedToken) :
    bad { cause, position := token.position } :=
  refusal _ ⟨category, .inr ⟨token, member, rfl⟩⟩

theorem Adjacency.checkOperator_reports (table : OperatorTable) (earlier previous next : Option Token) {token : Token}
    (member : token ∈ places) : Reports bad (Adjacency.checkOperator table earlier previous next token) := by
  have unary : bad { cause := Adjacency.unaryRefusal table previous token, position := token.position } := by
    apply bad_at refusal member
    unfold Adjacency.unaryRefusal
    split
    · exact .inl rfl
    · split
      · exact .inl rfl
      · exact .inr rfl
  have binary : bad { cause := Adjacency.binaryRefusal table token, position := token.position } := by
    apply bad_at refusal member
    unfold Adjacency.binaryRefusal
    split
    · exact .inl rfl
    · exact .inr rfl
  have last : Reports bad (if !next.any Adjacency.opensOperand then
      failAt token.position (.noOperandAfter token.text) else pure ()) := by
    split
    · exact bad_at refusal member (.inl rfl)
    · trivial
  unfold Adjacency.checkOperator
  dsimp only
  split
  · split
    · exact unary
    · split
      · exact bad_at refusal member (.inl rfl)
      · exact last
  · split
    · exact binary
    · exact last

theorem Adjacency.checkFrom_reports (table : OperatorTable) (earlier previous : Option Token) {tokens : List Token}
    (inside : ∀ token ∈ tokens, token ∈ places) :
    Reports bad (Adjacency.checkFrom table earlier previous tokens) := by
  induction tokens generalizing earlier previous with
  | nil => trivial
  | cons token rest ih =>
    obtain ⟨here, later⟩ := List.forall_mem_cons.mp inside
    unfold Adjacency.checkFrom
    dsimp only
    split
    · exact bad_at refusal here (.inl rfl)
    · split
      · apply reports_bind (Adjacency.checkOperator_reports refusal _ _ _ _ here)
        exact fun _ => ih _ _ later
      · exact ih _ _ later

end

/-! ### The tree of postfix entries -/

def Pending.token : Pending → Token
  | binary _ token | unary _ token | call token | parenthesis token _ _ => token

/-- The number of the entry, if it has one, is one of the tokens. -/
def PostfixEntry.Among (tokens : List Token) (entry : PostfixEntry) : Prop :=
  ∀ token, entry = .number token → token ∈ tokens ∧ token.kind = .number

/-- What waits stands at the tokens, and the numbers that are written are among them. -/
structure Yard.Among (tokens : List Token) (yard : Yard) : Prop where
  stack : ∀ pending ∈ yard.stack, ∃ token ∈ tokens, token.position = pending.token.position
  output : ∀ entry ∈ yard.output, entry.Among tokens

section

variable {bad : Failure → Prop} {places : List Token}
  (malformed : ∀ failure, MalformedAmong places failure → bad failure)

namespace Yard

variable {table : OperatorTable} {earlier previous next : Option Token} {yard : Yard} {token : Token}

theorem among_start (places : List Token) : start.Among places :=
  ⟨by simp [start], by simp [start]⟩

theorem Among.write {entry : PostfixEntry} (h : yard.Among places) (among : entry.Among places) :
    (yard.write entry).Among places :=
  ⟨h.stack, List.forall_mem_cons.mpr ⟨among, h.output⟩⟩

theorem Among.push {pending : Pending} (h : yard.Among places)
    (place : ∃ token ∈ places, token.position = pending.token.position) : (yard.push pending).Among places :=
  ⟨List.forall_mem_cons.mpr ⟨place, h.stack⟩, h.output⟩

theorem among_entry {pending : Pending} {entry : PostfixEntry} (leaves : pending.entry? = some entry) :
    entry.Among places := by
  cases pending <;> cases leaves <;> exact nofun

theorem among_moveWhile (leaves : Pending → Bool) (stack : List Pending) (output : List PostfixEntry)
    (h : (Yard.mk stack output).Among places) : (moveWhile leaves stack output).Among places := by
  refine moveWhile_induct leaves h fun top entry stack output leaving h => ?_
  obtain ⟨-, later⟩ := List.forall_mem_cons.mp h.stack
  exact ⟨later, List.forall_mem_cons.mpr ⟨among_entry leaving, h.output⟩⟩

theorem Among.moveAll (h : yard.Among places) : yard.moveAll.Among places :=
  among_moveWhile _ _ _ h

/-- An operator whose neighbours are right means something where it stands. -/
theorem operator_ends (h : yard.Among places) (member : token ∈ places)
    (checked : Adjacency.checkOperator table earlier previous next token = .ok ()) :
    Ends (Among places) bad (yard.operator table previous token) := by
  have here : ∃ other ∈ places, other.position = token.position := ⟨token, member, rfl⟩
  obtain ⟨-, means⟩ := Adjacency.checkOperator_eq_ok.mp checked
  unfold operator
  split
  next due =>
    rw [if_pos due] at means
    obtain ⟨operator, means⟩ := Option.isSome_iff_exists.mp means.1
    simp only [means]
    exact h.push here
  next ended =>
    rw [if_neg ended] at means
    obtain ⟨operator, means⟩ := Option.isSome_iff_exists.mp means
    simp only [means]
    exact (among_moveWhile _ _ _ h).push here

include malformed

theorem comma_ends (previous next : Option Token) (h : yard.Among places) (member : token ∈ places) :
    Ends (Among places) bad (yard.comma previous next token) := by
  obtain ⟨waiting, written⟩ := h.moveAll
  unfold comma
  split
  · exact malformed_at malformed member rfl
  dsimp only
  split
  next top =>
    rw [top] at waiting
    exact ⟨List.forall_mem_cons.mpr (List.forall_mem_cons.mp waiting), written⟩
  next => exact malformed_at malformed member rfl

theorem closing_ends (previous : Option Token) (h : yard.Among places) (member : token ∈ places) :
    Ends (Among places) bad (yard.closing previous token) := by
  obtain ⟨waiting, written⟩ := h.moveAll
  unfold closing
  dsimp only
  split
  next top =>
    rw [top] at waiting
    split
    · exact malformed_at malformed member rfl
    · exact ⟨(List.forall_mem_cons.mp waiting).2, written⟩
  next top =>
    rw [top] at waiting
    obtain ⟨-, -, later⟩ := (List.forall_mem_cons.mp waiting).imp_right List.forall_mem_cons.mp
    exact Among.write ⟨later, written⟩ nofun
  · exact malformed_at malformed member rfl
  · exact malformed_at malformed member rfl

theorem step_ends (h : yard.Among places) (member : token ∈ places)
    (checked : token.kind = .operator → Adjacency.checkOperator table earlier previous next token = .ok ()) :
    Ends (Among places) bad (yard.step table previous next token) := by
  have here : ∃ other ∈ places, other.position = token.position := ⟨token, member, rfl⟩
  unfold step
  split
  next kind => exact h.write fun | _, rfl => ⟨member, kind⟩
  · split
    · exact h.push here
    · exact h.write nofun
  next kind => exact operator_ends h member (checked kind)
  · exact h.push here
  · exact comma_ends malformed _ _ h member
  · exact closing_ends malformed _ h member
  · exact malformed_at malformed member rfl
  · exact h

theorem run_ends {tokens : List Token} (h : yard.Among places) (inside : ∀ token ∈ tokens, token ∈ places)
    (checked : Adjacency.checkFrom table earlier previous tokens = .ok ()) :
    Ends (Among places) bad (run table previous yard tokens) := by
  induction tokens generalizing earlier previous yard with
  | nil => exact h
  | cons token rest ih =>
    obtain ⟨here, later⟩ := List.forall_mem_cons.mp inside
    obtain ⟨-, operator, checked⟩ := Adjacency.checkFrom_cons.mp checked
    have stepped := step_ends malformed h here operator
    unfold run
    split
    · exact h
    · split
      next same =>
        rw [same] at stepped
        exact ih stepped later checked
      next same =>
        rw [same] at stepped
        exact stepped

end Yard

namespace Postfix

include malformed

theorem ofTokens_ends {table : OperatorTable} (checked : Adjacency.check table places = .ok ()) :
    Ends (fun entries => ∀ entry ∈ entries, entry.Among places) bad (ofTokens table places) := by
  apply ends_bind (Yard.run_ends malformed (Yard.among_start places) (fun _ => id) checked)
  intro yard h
  obtain ⟨waiting, written⟩ := h.moveAll
  unfold Yard.finish
  dsimp only
  split
  next top =>
    rw [top] at waiting
    exact malformed _ ⟨rfl, .inr (waiting _ List.mem_cons_self)⟩
  next => exact fun entry member => written entry (List.mem_reverse.mp member)

/-- Tokens whose neighbours are right are refused for their form, with what a number among them reports, or because more
than one tree is left. -/
theorem ofTokens_bind_toExpr_reports {table : OperatorTable} (checked : Adjacency.check table places = .ok ())
    (numbers : ∀ token ∈ places, token.kind = .number → Reports bad token.numericValue)
    (surplus : NumbersRead (Descent.body places) → bad { cause := .tooManyOperands }) :
    Reports bad (ofTokens table places >>= toExpr) := by
  have among := ofTokens_ends malformed checked
  cases reordered : ofTokens table places with
  | error failure => exact among.error reordered
  | ok entries =>
    rw [reordered] at among
    have reports := toExpr_reports (Yard.supplied_of_check checked reordered)
    rw [List.reverse_reverse] at reports
    rw [ok_bind]
    refine reports.mono (fun _ => id) ?_
    rintro failure (⟨token, member, fails⟩ | ⟨-, rfl⟩ | ⟨-, rfl, read⟩)
    · obtain ⟨inside, kind⟩ := among _ (List.mem_reverse.mp member) token rfl
      exact (numbers token inside kind).error fails
    · exact malformed _ ⟨rfl, .inl rfl⟩
    · exact surplus fun token member kind =>
        read token (List.mem_reverse.mpr (Yard.number_of_leads reordered member kind))

end Postfix

end

/-! ### The descent -/

/-- The descent refuses tokens for their form, or reports what a number among them reports. -/
theorem Descent.parse_reports {bad : Failure → Prop} {places tokens : List Token}
    (malformed : ∀ failure, MalformedAmong places failure → bad failure)
    (numbers : ∀ token ∈ places, token.kind = .number → Reports bad token.numericValue) (table : OperatorTable)
    (inside : ∀ token ∈ tokens, token ∈ places) (stops : stopOf tokens ∈ places) :
    Reports bad (parse table tokens) := by
  have alike : Setting.Alike (· ∈ places) bad ⟨table, stopOf tokens⟩ ⟨table, stopOf tokens⟩ :=
    Setting.alike_self stops (fun token cause member => malformed_at malformed member) numbers
  exact (parse_paired alike inside (malformed _ ⟨rfl, .inl rfl⟩)).reports

/-! ### Parsers -/

/-- Tokens with a stop token that have no tree are refused for their syntax, or with what a number among
them reports. -/
theorem ParserKind.parse_reports {bad : Failure → Prop} {places : List Token}
    (refusal : ∀ failure, RefusedAmong places failure → bad failure)
    (numbers : ∀ token ∈ places, token.kind = .number → Reports bad token.numericValue) (kind : ParserKind)
    (table : OperatorTable) (stops : Descent.stopOf places ∈ places) : Reports bad (kind.parse table places) := by
  have malformed failure (h : MalformedAmong places failure) : bad failure := refusal failure h.refused
  unfold parse
  apply reports_bind (Nesting.checkFrom_reports malformed table none .start fun _ => id)
  intro _
  cases kind with
  | shuntingYard =>
    apply reports_bind (Balance.check_reports malformed fun _ => id)
    intro _
    cases checked : Adjacency.check table places with
    | error failure => exact (Adjacency.checkFrom_reports refusal table none none fun _ => id).error checked
    | ok _ =>
      rw [ok_bind]
      exact Postfix.ofTokens_bind_toExpr_reports malformed checked numbers fun _ => refusal _ ⟨.inr rfl, .inl rfl⟩
  | recursiveDescent =>
    apply reports_bind (Adjacency.checkFrom_reports refusal table none none fun _ => id)
    intro _
    exact Descent.parse_reports malformed numbers table (fun _ => id) stops

/-! ### Texts -/

namespace Token

variable {position : Nat} {text : List Char} {tokens : List Token}

theorem Tiles.blank_of_stops (h : Tiles position text tokens) (stops : tokens.all isStop = true) :
    ∀ c ∈ text, Text.isBlank c = true := by
  induction h with
  | stop => nofun
  | blank blank _ ih => exact List.forall_mem_cons.mpr ⟨blank, ih stops⟩
  | lexeme spelled =>
    have stop := of_decide_eq_true (List.all_eq_true.mp stops _ List.mem_cons_self)
    exact absurd stop spelled.kind_ne

theorem scanFrom_blank {before : List Token} (blank : ∀ c ∈ text, Text.isBlank c = true) :
    ∃ last, scanFrom position before text = .ok (stop last :: before).reverse := by
  induction text generalizing position with
  | nil => exact ⟨position, by rw [scanFrom]⟩
  | cons c text ih =>
    obtain ⟨first, rest⟩ := List.forall_mem_cons.mp blank
    rw [scanFrom, if_pos first]
    exact ih rest

theorem stopOf_mem {text : String} (scanned : scan text = .ok tokens) : Descent.stopOf tokens ∈ tokens := by
  obtain ⟨more, same, -⟩ := (tiles_of_scan scanned).stops
  unfold Descent.stopOf
  cases found : tokens.find? isStop with
  | some token => exact List.mem_of_find?_eq_some found
  | none =>
    have none := List.find?_eq_none.mp found _ (same ▸ List.mem_append_right more List.mem_cons_self)
    exact absurd rfl none

end Token

namespace ParserKind

/-- Why the text has no tree: its characters form no tokens, it is blank, its tokens are refused for their
syntax, or one of its numbers does not fit in 64 bits. -/
inductive Refuses (text : String) (failure : Failure) : Prop
  | characters (refused : Token.scan text = .error failure) (refuses : Token.Refuses text failure)
  | blank (blank : ∀ c ∈ text.toList, Text.isBlank c = true) (same : failure = { cause := .blankText })
  | tokens {tokens : List Token} (scanned : Token.scan text = .ok tokens) (among : RefusedAmong tokens failure)
  | number {tokens : List Token} {token : Token} (scanned : Token.scan text = .ok tokens) (member : token ∈ tokens)
      (kind : token.kind = .number) (wide : token.IsTooWide) (category : failure.category = .numericOverflow)
      (place : failure.position = token.position)

theorem numericValue_refuses {text : String} {tokens : List Token}
    (scanned : Token.scan text = .ok tokens) {token : Token}
    (member : token ∈ tokens) (kind : token.kind = .number) : Reports (Refuses text) token.numericValue := by
  rcases Token.value_of_scan scanned member (decide_eq_true kind) with
    ⟨-, value⟩ | ⟨wide, failure, value, category, place⟩ |
    ⟨-, -, x, value, -⟩
  · rw [value]
    trivial
  · rw [value]
    exact .number scanned member kind wide category place
  · rw [value]
    trivial

theorem refuses_of_scan {text : String} {failure : Failure} (refused : Token.scan text = .error failure) :
    Token.Refuses text failure :=
  Token.refuses_of_failsWithin ((Token.scanFrom_tiles 0 [] text.toList).error refused)

theorem convert_refuses (kind : ParserKind) (table : OperatorTable) (text : String) :
    Reports (Refuses text) (kind.convert table text) := by
  unfold convert
  cases scanned : Token.scan text with
  | error failure => exact .characters scanned (refuses_of_scan scanned)
  | ok tokens =>
    rw [ok_bind]
    dsimp only
    split
    next stops => exact .blank ((Token.tiles_of_scan scanned).blank_of_stops stops) rfl
    next =>
      exact parse_reports (fun failure among => .tokens scanned among) (fun _ => numericValue_refuses scanned)
        kind table (Token.stopOf_mem scanned)

theorem convert_blank {text : String} (kind : ParserKind) (table : OperatorTable)
    (blank : ∀ c ∈ text.toList, Text.isBlank c = true) :
    kind.convert table text = .error { cause := .blankText } := by
  obtain ⟨last, scanned⟩ := @Token.scanFrom_blank 0 _ [] blank
  unfold convert
  rw [Token.scan, scanned]
  rfl

theorem Refuses.category {text : String} {failure : Failure} (h : Refuses text failure) :
    failure.category.isSyntaxStage = true ∨ failure.category = .numericOverflow := by
  cases h with
  | characters _ refuses =>
    rw [refuses.category]
    exact .inl rfl
  | blank _ same =>
    rw [same]
    exact .inl rfl
  | tokens _ among =>
    rcases among.category with category | category <;> rw [category] <;> exact .inl rfl
  | number _ _ _ _ category => exact .inr category

/-- A text without a tree is refused for its syntax, or because a number in it is too large. -/
theorem convert_category (kind : ParserKind) (table : OperatorTable) (text : String) :
    Reports (fun failure => failure.category.isSyntaxStage = true ∨ failure.category = .numericOverflow)
      (kind.convert table text) :=
  (convert_refuses kind table text).mono (fun _ => id) fun _ => Refuses.category

end ParserKind

end Calculator
