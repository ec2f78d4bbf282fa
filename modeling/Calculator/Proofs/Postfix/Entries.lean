import Calculator.Proofs.Failure
import Calculator.Proofs.Postfix.Moves

/-!
# Nothing lost and nothing added

Reordering changes only the order: the entries are those of the numbers, names and operators up to the
first stop token, one for each, and operands keep their order. Neither the form of the list nor its
neighbours matter for that.
-/

namespace Calculator

def PostfixEntry.isOperand : PostfixEntry → Bool
  | number _ | constant _ => true
  | binary _ _ | unary _ _ | call _ => false

namespace Postfix

/-! ### What each token becomes -/

/-- The commas directly inside parentheses that are still open where `tokens` begin, with `depth` more
open inside them. -/
def commasInside : Nat → List Token → Nat
  | _, [] => 0
  | depth, token :: rest =>
    match token.kind, depth with
    | .opening, depth => commasInside (depth + 1) rest
    | .closing, 0 => 0
    | .closing, depth + 1 => commasInside depth rest
    | .comma, 0 => commasInside 0 rest + 1
    | _, depth => commasInside depth rest

/-- How many arguments the parentheses hold behind whose opening one `tokens` come. -/
def argumentsInside (tokens : List Token) : Nat :=
  if tokens.head?.any fun token => token.kind = .closing then 0 else commasInside 0 tokens + 1

/-- The entry that a token between `previous` and `rest` becomes. A mark becomes none. -/
inductive Becomes (table : OperatorTable) (previous : Option Token) (token : Token) (rest : List Token) :
    Option PostfixEntry → Prop
  | number (kind : token.kind = .number) : Becomes table previous token rest (some (.number token))
  | constant (kind : token.kind = .identifier) (free : ∀ next ∈ rest.head?, next.kind ≠ .opening) :
      Becomes table previous token rest (some (.constant token))
  | call {opening : Token} {inside : List Token} (kind : token.kind = .identifier) (follows : rest = opening :: inside)
      (opens : opening.kind = .opening) :
      Becomes table previous token rest (some (.call { token with argumentCount := argumentsInside inside }))
  | unary {operator : UnaryOperator} (kind : token.kind = .operator) (place : Token.opensOperand previous = true)
      (means : table.unary? token.text = some operator) :
        Becomes table previous token rest (some (.unary operator token))
  | binary {operator : BinaryOperator} (kind : token.kind = .operator) (place : Token.opensOperand previous = false)
      (means : table.binary? token.text = some operator) :
        Becomes table previous token rest (some (.binary operator token))
  | mark (kind : token.kind ∈ [.opening, .closing, .comma]) : Becomes table previous token rest none

/-- The entries that the tokens after `previous` become, one after the other, up to a stop token. -/
inductive Sources (table : OperatorTable) : Option Token → List Token → List PostfixEntry → Prop
  | stop {previous : Option Token} {tokens : List Token}
      (stops : ∀ token ∈ tokens.head?, token.kind = .endOfInput) :
      Sources table previous tokens []
  | next {previous : Option Token} {token : Token} {rest : List Token} {made : Option PostfixEntry}
      {entries : List PostfixEntry} (becomes : Becomes table previous token rest made)
      (others : Sources table (some token) rest entries) :
      Sources table previous (token :: rest) (made.toList ++ entries)

variable {token : Token} {rest : List Token} {depth : Nat}

theorem commasInside_opening (kind : token.kind = .opening) :
    commasInside depth (token :: rest) = commasInside (depth + 1) rest := by
  simp [commasInside, kind]

theorem commasInside_closing (kind : token.kind = .closing) :
    commasInside (depth + 1) (token :: rest) = commasInside depth rest := by
  simp [commasInside, kind]

theorem commasInside_closed (kind : token.kind = .closing) : commasInside 0 (token :: rest) = 0 := by
  simp [commasInside, kind]

theorem commasInside_comma (kind : token.kind = .comma) :
    commasInside depth (token :: rest) = commasInside depth rest + if depth = 0 then 1 else 0 := by
  cases depth <;> simp [commasInside, kind]

theorem commasInside_other (other : token.kind ∉ [.opening, .closing, .comma]) :
    commasInside depth (token :: rest) = commasInside depth rest := by
  cases kind : token.kind <;> simp_all [commasInside]

end Postfix

namespace Yard

open Postfix (commasInside argumentsInside Becomes Sources)

variable {table : OperatorTable} {previous next : Option Token} {yard after : Yard} {stack : List Pending}
  {output entries : List PostfixEntry} {token : Token} {tokens rest : List Token} {due : Bool}

/-! ### What waits -/

/-- Calls wait in pairs with the parentheses of their arguments. `due` tells that such a parenthesis comes next. -/
def Paired : Bool → List Pending → Prop
  | true, .call _ :: stack => Paired false stack
  | true, _ => False
  | false, [] => True
  | false, .parenthesis _ holdsArguments _ :: stack => Paired holdsArguments stack
  | false, .call _ :: _ => False
  | false, .binary _ _ :: stack | false, .unary _ _ :: stack => Paired false stack

/-- The entries of all that waits. A call gets its count from the parenthesis above it: `counts depth commas` for a
parenthesis with `commas` so far around `depth` others, and `count` if its parenthesis is still to come. -/
def entriesOf (counts : Nat → Nat → Nat) (count : Nat) : List Pending → List PostfixEntry
  | [] => []
  | .binary operator token :: stack => .binary operator token :: entriesOf counts count stack
  | .unary operator token :: stack => .unary operator token :: entriesOf counts count stack
  | .parenthesis _ _ commas :: stack => entriesOf (fun depth => counts (depth + 1)) (counts 0 commas) stack
  | .call name :: stack => .call { name with argumentCount := count } :: entriesOf counts count stack

/-- How many arguments a parenthesis with so many commas will hold, if `tokens` follow after `previous`. -/
def countWith (previous : Option Token) (tokens : List Token) (depth commas : Nat) : Nat :=
  if depth = 0 ∧ previous.any (fun token => token.kind = .opening) = true ∧
    tokens.head?.any (fun token => token.kind = .closing) = true then 0
  else commas + commasInside depth tokens + 1

/-- The entries written so far and those of what waits. -/
def contents (previous : Option Token) (tokens : List Token) (yard : Yard) : List PostfixEntry :=
  entriesOf (countWith previous tokens) (argumentsInside tokens.tail) yard.stack ++ yard.output

/-- Whether the parenthesis of a call comes next. -/
def callsNext (previous next : Option Token) : Bool :=
  previous.any Token.isIdentifier && next.any fun token => token.kind = .opening

theorem entriesOf_count {counts : Nat → Nat → Nat} (count other : Nat) (paired : Paired false stack) :
    entriesOf counts count stack = entriesOf counts other stack := by
  induction stack with
  | nil => rfl
  | cons top stack ih =>
    cases top with
    | binary | unary => rw [entriesOf, entriesOf, ih paired]
    | call => exact paired.elim
    | parenthesis => rfl

theorem callsNext_of_opens (kind : token.kind = .opening) :
    callsNext previous (some token) = previous.any Token.isIdentifier := by
  simp [callsNext, kind]

theorem callsNext_of_not_opens (other : token.kind ≠ .opening) : callsNext previous (some token) = false := by
  simp [callsNext, other]

theorem callsNext_of_other (other : token.kind ≠ .identifier) : callsNext (some token) next = false := by
  simp [callsNext, Token.isIdentifier, other]

/-! ### How counts go on -/

theorem countWith_other (other : token.kind ∉ [.opening, .closing, .comma]) :
    countWith (some token) rest = countWith previous (token :: rest) := by
  simp only [List.mem_cons, List.not_mem_nil, or_false, not_or] at other
  funext depth commas
  simp [countWith, Postfix.commasInside_other, other]

theorem countWith_opening (kind : token.kind = .opening) :
    (fun depth => countWith (some token) rest (depth + 1)) = countWith previous (token :: rest) := by
  funext depth commas
  simp [countWith, Postfix.commasInside_opening kind, kind]

theorem countWith_opened (kind : token.kind = .opening) : countWith (some token) rest 0 0 = argumentsInside rest := by
  simp [countWith, argumentsInside, kind]

theorem countWith_closing (kind : token.kind = .closing) :
    (fun depth => countWith previous (token :: rest) (depth + 1)) = countWith (some token) rest := by
  funext depth commas
  simp [countWith, Postfix.commasInside_closing kind, kind]

theorem countWith_closed (kind : token.kind = .closing) (commas : Nat) : countWith previous (token :: rest) 0 commas =
    if previous.any (fun token => token.kind = .opening) = true then 0 else commas + 1 := by
  simp [countWith, Postfix.commasInside_closed kind, kind]

theorem countWith_comma (kind : token.kind = .comma) (depth commas : Nat) :
    countWith (some token) rest depth (commas + if depth = 0 then 1 else 0) =
      countWith previous (token :: rest) depth commas := by
  have first : ¬ (depth = 0 ∧ previous.any (fun token => token.kind = .opening) = true ∧
      (token :: rest).head?.any (fun token => token.kind = .closing) = true) := by simp [kind]
  have second : ¬ (depth = 0 ∧ (some token).any (fun token => token.kind = .opening) = true ∧
      rest.head?.any (fun token => token.kind = .closing) = true) := by simp [kind]
  rw [countWith, countWith, if_neg first, if_neg second, Postfix.commasInside_comma kind]
  omega

/-! ### Moving -/

/-- Moving has changed the order of the entries at most. -/
structure Moves (yard moved : Yard) : Prop where
  paired : Paired false moved.stack
  entries : ∀ counts count, (entriesOf counts count moved.stack ++ moved.output).Perm
    (entriesOf counts count yard.stack ++ yard.output)
  operands : moved.output.filter PostfixEntry.isOperand = yard.output.filter PostfixEntry.isOperand

theorem moves_moveWhile (leaves : Pending → Bool) (output : List PostfixEntry) (paired : Paired false stack) :
    Moves ⟨stack, output⟩ (moveWhile leaves stack output) := by
  refine moveWhile_induct leaves ⟨paired, fun _ _ => .refl _, rfl⟩ ?_
  rintro top entry stack output leaving ⟨paired, entries, operands⟩
  cases top with
  | call => exact paired.elim
  | parenthesis => cases leaving
  | binary operator token | unary operator token =>
    cases leaving
    exact ⟨paired, fun counts count => List.perm_middle.trans (entries counts count), operands⟩

/-! ### One token -/

/-- The failure is not that arguments lack their function. -/
abbrev Attached (failure : Failure) : Prop :=
  failure.cause ≠ .argumentsWithoutFunction

/-- What a token does to a yard: it adds the entry that it becomes, an operand as the last one written. -/
structure Advances (table : OperatorTable) (previous : Option Token) (token : Token) (rest : List Token)
    (yard after : Yard) : Prop where
  paired : Paired (callsNext (some token) rest.head?) after.stack
  adds : ∃ made, Becomes table previous token rest made ∧
    (contents (some token) rest after).Perm (made.toList ++ contents previous (token :: rest) yard) ∧
    after.output.filter PostfixEntry.isOperand =
      made.toList.filter PostfixEntry.isOperand ++ yard.output.filter PostfixEntry.isOperand

/-- Where the next token changes no count, all that waits keeps its entries. -/
theorem entriesOf_other (other : token.kind ∉ [.opening, .closing, .comma]) (paired : Paired false stack) :
    entriesOf (countWith (some token) rest) (argumentsInside rest.tail) stack =
      entriesOf (countWith previous (token :: rest)) (argumentsInside rest) stack := by
  rw [countWith_other other]
  exact entriesOf_count _ _ paired

theorem advances_write {entry : PostfixEntry} (other : token.kind ∉ [.opening, .closing, .comma])
    (operand : entry.isOperand = true) (becomes : Becomes table previous token rest (some entry))
    (alone : callsNext (some token) rest.head? = false) (paired : Paired false yard.stack) :
    Advances table previous token rest yard (yard.write entry) := by
  refine ⟨alone ▸ paired, some entry, becomes, ?_, by simp [write, operand]⟩
  rw [contents, write, entriesOf_other other paired]
  exact List.perm_middle

theorem advances_push {pending : Pending} {entry : PostfixEntry} (other : token.kind ∉ [.opening, .closing, .comma])
    (complex : entry.isOperand = false) (becomes : Becomes table previous token rest (some entry))
    (paired : Paired false stack) (pairs : Paired (callsNext (some token) rest.head?) (pending :: stack))
    (entries : ∀ counts, entriesOf counts (argumentsInside rest.tail) (pending :: stack) =
      entry :: entriesOf counts (argumentsInside rest.tail) stack) (moved : Moves yard ⟨stack, output⟩) :
    Advances table previous token rest yard ⟨pending :: stack, output⟩ := by
  refine ⟨pairs, some entry, becomes, ?_, by simp [complex, moved.operands]⟩
  rw [contents, entries, entriesOf_other other paired]
  exact (moved.entries _ _).cons entry

theorem moves_self (paired : Paired false yard.stack) : Moves yard yard :=
  ⟨paired, fun _ _ => .refl _, rfl⟩

theorem moves_moveAll (paired : Paired false yard.stack) : Moves yard yard.moveAll :=
  moves_moveWhile _ _ paired

theorem operator_advances (kind : token.kind = .operator) (paired : Paired false yard.stack) :
    Ends (Advances table previous token rest yard) Attached (yard.operator table previous token) := by
  have other : token.kind ∉ [.opening, .closing, .comma] := by simp [kind]
  have alone : callsNext (some token) rest.head? = false := callsNext_of_other (by simp [kind])
  unfold operator
  split
  next place =>
    split
    next operator means =>
      exact advances_push other rfl (.unary kind place means) paired
        (alone ▸ paired) (fun _ => rfl) (moves_self paired)
    next => rintro ⟨⟩
  next place =>
    split
    next operator means =>
      have moved := moves_moveWhile (Pending.precedes operator) yard.output paired
      exact advances_push other rfl (.binary kind (by simpa using place) means) moved.paired (alone ▸ moved.paired)
        (fun _ => rfl) moved
    next => rintro ⟨⟩

theorem opening_advances (kind : token.kind = .opening) (paired : Paired (previous.any Token.isIdentifier) yard.stack) :
    Advances table previous token rest yard (yard.push (.parenthesis token (previous.any Token.isIdentifier) 0)) := by
  refine ⟨?_, none, .mark (by simp [kind]), ?_, rfl⟩
  · rw [callsNext_of_other (by simp [kind])]
    exact paired
  · rw [contents, push, entriesOf, countWith_opening kind, countWith_opened kind]
    exact .refl _

theorem comma_advances (kind : token.kind = .comma) (paired : Paired false yard.stack) :
    Ends (Advances table previous token rest yard) Attached (yard.comma previous rest.head? token) := by
  obtain ⟨pairs, entries, operands⟩ := moves_moveAll paired
  unfold comma
  split
  · rintro ⟨⟩
  dsimp only
  split
  next opening commas stack top =>
    rw [top] at pairs entries
    refine ⟨?_, none, .mark (by simp [kind]), ?_, operands⟩
    · rw [callsNext_of_other (by simp [kind])]
      exact pairs
    · refine .trans ?_ (entries _ _)
      rw [contents, entriesOf, entriesOf, ← countWith_comma kind]
      -- The comma counts for the innermost parenthesis, and it is there already.
      have deeper : (fun depth => countWith (some token) rest (depth + 1)) =
          fun depth => countWith previous (token :: rest) (depth + 1) := by
        funext depth commas
        exact countWith_comma kind (depth + 1) commas
      rw [deeper]
      exact .refl _
  next => rintro ⟨⟩

theorem closing_advances (kind : token.kind = .closing) (paired : Paired false yard.stack) :
    Ends (Advances table previous token rest yard) Attached (yard.closing previous token) := by
  have alone : callsNext (some token) rest.head? = false := callsNext_of_other (by simp [kind])
  obtain ⟨pairs, entries, operands⟩ := moves_moveAll paired
  unfold closing
  dsimp only
  split
  next opening commas stack top =>
    rw [top] at pairs entries
    split
    · rintro ⟨⟩
    · have waits : Paired false stack := pairs
      refine ⟨alone ▸ waits, none, .mark (by simp [kind]), .trans ?_ (entries _ _), operands⟩
      rw [contents, entriesOf, countWith_closing kind, entriesOf_count _ _ waits]
  next opening commas name stack top =>
    rw [top] at pairs entries
    have waits : Paired false stack := pairs
    refine ⟨alone ▸ waits, none, .mark (by simp [kind]), .trans ?_ (entries _ _), operands⟩
    rw [contents, entriesOf, entriesOf, countWith_closing kind, countWith_closed kind, write, entriesOf_count _ _ waits]
    exact List.perm_middle
  next opening commas stack other top =>
    rw [top] at pairs
    rcases stack with _ | ⟨_ | _ | name | _, stack⟩
    case cons.call => exact absurd rfl (other name stack)
    all_goals exact pairs.elim
  next => rintro ⟨⟩

theorem step_advances (other : token.kind ≠ .endOfInput)
    (paired : Paired (callsNext previous (some token)) yard.stack) :
    Ends (Advances table previous token rest yard) Attached (yard.step table previous rest.head? token) := by
  by_cases opens : token.kind = .opening
  · rw [callsNext_of_opens opens] at paired
    simp only [step, opens]
    exact opening_advances opens paired
  rw [callsNext_of_not_opens opens] at paired
  cases kind : token.kind <;> simp only [step, kind]
  case number =>
    exact advances_write (by simp [kind]) rfl (.number kind) (callsNext_of_other (by simp [kind])) paired
  case identifier =>
    split
    next calls =>
      obtain ⟨opening, head, opens⟩ := (Option.any_eq_true ..).mp calls
      obtain ⟨inside, rfl⟩ := List.head?_eq_some_iff.mp head
      have due : callsNext (some token) (some opening) = true := by simp_all [callsNext, Token.isIdentifier]
      have begins : opening.kind = .opening := by simpa using opens
      refine advances_push (by simp [kind]) rfl (.call kind rfl begins) paired ?_ (fun _ => rfl) (moves_self paired)
      rw [List.head?_cons, due]
      exact paired
    next free =>
      have alone : callsNext (some token) rest.head? = false := by simp_all [callsNext]
      refine advances_write (by simp [kind]) rfl (.constant kind fun next head opens => free ?_) alone paired
      simp [Option.mem_def.mp head, opens]
  case operator => exact operator_advances kind paired
  case opening => exact absurd kind opens
  case closing => exact closing_advances kind paired
  case comma => exact comma_advances kind paired
  case endOfInput => exact absurd kind other
  case unknown => rintro ⟨⟩

/-! ### All tokens -/

/-- The entries account for the tokens that are left and for what the yard holds. -/
def Accounts (table : OperatorTable) (previous : Option Token) (yard : Yard) (tokens : List Token)
    (entries : List PostfixEntry) : Prop :=
  ∃ source, Sources table previous tokens source ∧ entries.Perm (source ++ contents previous tokens yard) ∧
    entries.filter PostfixEntry.isOperand =
      (yard.output.filter PostfixEntry.isOperand).reverse ++ source.filter PostfixEntry.isOperand

theorem finish_accounts (stops : ∀ token ∈ tokens.head?, token.kind = .endOfInput)
    (paired : Paired false yard.stack) :
    Ends (Accounts table previous yard tokens) Attached yard.finish := by
  obtain ⟨-, entries, operands⟩ := moves_moveAll paired
  refine ends_of_forall (fun found finished => ?_) fun failure refused => ?_
  · obtain ⟨top, rfl⟩ := finish_eq_ok finished
    have same := entries (countWith previous tokens) (argumentsInside tokens.tail)
    rw [top] at same
    exact ⟨[], .stop stops, (List.reverse_perm _).trans same, by simp [List.filter_reverse, operands]⟩
  · unfold finish at refused
    dsimp only at refused
    split at refused <;> cases refused
    rintro ⟨⟩

theorem Advances.accounts (advances : Advances table previous token rest yard after)
    (later : Accounts table (some token) after rest entries) :
    Accounts table previous yard (token :: rest) entries := by
  obtain ⟨-, made, becomes, adds, operands⟩ := advances
  obtain ⟨source, sources, same, order⟩ := later
  refine ⟨made.toList ++ source, .next becomes sources, ?_, ?_⟩
  · rw [List.append_assoc]
    exact same.trans ((adds.append_left source).trans (List.perm_append_comm_assoc ..))
  · rw [order, operands]
    cases made with
    | none => rfl
    | some entry => cases operand : entry.isOperand <;> simp [operand]

theorem run_accounts (paired : Paired (callsNext previous tokens.head?) yard.stack) :
    Ends (Accounts table previous yard tokens) Attached ((run table previous yard tokens).bind finish) := by
  -- The entries of what the yard holds and of the tokens that are left, together, only change their order.
  induction tokens generalizing previous yard with
  | nil =>
    have alone : callsNext previous none = false := by simp [callsNext]
    exact finish_accounts nofun (alone ▸ paired)
  | cons token rest ih =>
    by_cases stop : token.kind = .endOfInput
    · have stops : ∀ first ∈ (token :: rest).head?, first.kind = .endOfInput := by simp [stop]
      rw [List.head?_cons, callsNext_of_not_opens (by simp [stop])] at paired
      rw [run_stop stops]
      exact finish_accounts stops paired
    · have stepped : Ends (Advances table previous token rest yard) Attached
          (yard.step table previous rest.head? token) :=
        step_advances stop paired
      rw [run]
      simp only [Token.isStop, stop, decide_false, Bool.false_eq_true, if_false]
      cases next : yard.step table previous rest.head? token with
      | error failure => exact stepped.error next
      | ok after =>
        rw [next] at stepped
        exact (ih stepped.paired).mono (fun _ => stepped.accounts) fun _ => id

end Yard

/-- Reordering keeps the tokens: each number, name and operator in front of the first stop token becomes
one entry, there are no others, and operands stay in order. Arguments never lack their function. -/
theorem Postfix.entries_of_tokens (table : OperatorTable) (tokens : List Token) :
    (∀ entries, ofTokens table tokens = .ok entries →
      ∃ source, Sources table none tokens source ∧ entries.Perm source ∧
        entries.filter PostfixEntry.isOperand = source.filter PostfixEntry.isOperand) ∧
      ∀ failure, ofTokens table tokens = .error failure → failure.cause ≠ .argumentsWithoutFunction := by
  have accounts : Ends (Yard.Accounts table none .start tokens) Yard.Attached (ofTokens table tokens) :=
    Yard.run_accounts trivial
  constructor
  · intro entries reordered
    rw [reordered] at accounts
    obtain ⟨source, sources, same, order⟩ := accounts
    rw [Yard.contents] at same
    exact ⟨source, sources, by simpa [Yard.start, Yard.entriesOf] using same, by simpa [Yard.start] using order⟩
  · exact fun failure refused => accounts.error refused

/-- `f(g(), -1 + x)` with a number after the stop token, and `()`. -/
theorem Postfix.entries_of_tokens_nested :
    let f : Token := { kind := .identifier, text := "f", position := 0 }
    let g : Token := { kind := .identifier, text := "g", position := 2 }
    let sign : Token := { kind := .operator, text := "-", position := 7 }
    let one : Token := { kind := .number, text := "1", position := 8 }
    let plus : Token := { kind := .operator, text := "+", position := 10 }
    let x : Token := { kind := .identifier, text := "x", position := 12 }
    let opening : Token := { kind := .opening, text := "(", position := 0 }
    let closing : Token := { kind := .closing, text := ")", position := 1 }
    let comma : Token := { kind := .comma, text := ",", position := 5 }
    let tokens := [f, opening, g, opening, closing, comma, sign, one, plus, x, closing, .stop 14, one]
    let entries : List PostfixEntry :=
      [.call { g with argumentCount := 0 }, .number one, .unary .negate sign, .constant x,
        .binary .add plus, .call { f with argumentCount := 2 }]
    let failure : Failure := { cause := .emptyParentheses, position := 1 }
    (ofTokens .arithmetic tokens = .ok entries ∧
      ∃ source, Sources .arithmetic none tokens source ∧ entries.Perm source ∧
        entries.filter PostfixEntry.isOperand = source.filter PostfixEntry.isOperand) ∧
      ofTokens .arithmetic [opening, closing] = .error failure ∧ failure.cause ≠ .argumentsWithoutFunction := by
  intro f g sign one plus x opening closing comma tokens entries failure
  have reordered : ofTokens .arithmetic tokens = .ok entries := rfl
  have refused : ofTokens .arithmetic [opening, closing] = .error failure := rfl
  exact ⟨⟨reordered, (entries_of_tokens .arithmetic tokens).1 entries reordered⟩, refused,
    (entries_of_tokens .arithmetic [opening, closing]).2 failure refused⟩

end Calculator
