import Calculator.Proofs.Postfix.Places

/-!
# Operands in supply

The check of neighbours looks only at what stands beside an operator. Yet the entries of checked tokens never run out of
operands: those written so far, with the one that is due, suffice for all that waits.
-/

namespace Calculator

def PostfixEntry.arity : PostfixEntry → Nat
  | number _ | constant _ => 0
  | unary _ _ => 1
  | binary _ _ => 2
  | call token => token.argumentCount

theorem PostfixEntry.weight_eq (entry : PostfixEntry) : entry.weight = 1 - entry.arity := by
  cases entry <;> rfl

/-- Whether an entry has not found its operands. -/
def Cause.isShortage : Cause → Bool
  | unaryWithoutOperand _ | tooFewOperands _ | tooFewArguments _ => true
  | _ => false

namespace Postfix

/-- Each entry, the last first, finds the operands that it takes: with its own at least one is left. -/
def Supplied : List PostfixEntry → Prop
  | [] => True
  | entry :: before => 1 ≤ weight (entry :: before) ∧ Supplied before

variable {output : List PostfixEntry} {operands : List Expr} {entry : PostfixEntry}

theorem Supplied.weight_nonneg (h : Supplied output) : 0 ≤ weight output := by
  cases output with
  | nil => exact Int.le_refl 0
  | cons entry before => exact Int.le_trans (by decide) h.1

theorem take?_of_le {count : Nat} (taken : List Expr) (enough : count ≤ operands.length) :
    ∃ pair, take? count taken operands = some pair := by
  induction count generalizing taken operands with
  | zero => exact ⟨_, rfl⟩
  | succ count ih =>
    cases operands with
    | nil => cases enough
    | cons top operands => exact ih (top :: taken) (Nat.le_of_succ_le_succ enough)

/-- An entry that finds its operands fails at most for the value of its number. -/
theorem build_reports (enough : entry.arity ≤ operands.length) :
    Reports (fun failure => ∃ token, entry = .number token ∧ token.numericValue = .error failure)
      (build operands entry) := by
  cases entry with
  | number token =>
    have value : Reports (fun failure => ∃ other, PostfixEntry.number token = .number other ∧
        other.numericValue = .error failure) token.numericValue :=
      ends_of_forall (fun _ _ => trivial) fun failure fails => ⟨token, rfl, fails⟩
    exact ends_map value fun _ _ => trivial
  | constant => trivial
  | unary =>
    cases operands with
    | nil => cases enough
    | cons => trivial
  | binary =>
    rcases operands with _ | ⟨right, _ | ⟨left, operands⟩⟩
    · cases enough
    · exact absurd enough (Nat.not_succ_le_self 1)
    · trivial
  | call token =>
    have count : token.argumentCount ≤ operands.length := enough
    obtain ⟨pair, taken⟩ := take?_of_le [] count
    unfold build
    simp only [taken]
    trivial

theorem Supplied.of_append {after before : List PostfixEntry} (h : Supplied (after ++ before)) : Supplied before := by
  induction after with
  | nil => exact h
  | cons entry after ih => exact ih h.2

/-- The operands for an entry have been built from those before it. -/
theorem Supplied.enough {before : List PostfixEntry} (h : Supplied (entry :: before))
    (built : before.reverse.foldlM build [] = .ok operands) : entry.arity ≤ operands.length := by
  have height := foldlM_length built
  rw [weight_reverse, List.length_nil, Int.natCast_zero, Int.zero_add] at height
  have least := h.1
  rw [weight, entry.weight_eq] at least
  omega

/-- Entries that find their operands fail at most for the value of a number. -/
theorem foldlM_reports (h : Supplied output) :
    Reports (fun failure => ∃ token, .number token ∈ output ∧ token.numericValue = .error failure)
      (output.reverse.foldlM build []) := by
  induction output with
  | nil => trivial
  | cons entry before ih =>
    rw [List.reverse_cons, List.foldlM_append]
    have earlier := ih h.2
    cases built : before.reverse.foldlM build [] with
    | error failure =>
      obtain ⟨token, member, fails⟩ := earlier.error built
      exact ⟨token, List.mem_cons_of_mem _ member, fails⟩
    | ok operands =>
      rw [ok_bind, List.foldlM_cons]
      refine reports_bind ((build_reports (h.enough built)).mono (fun _ => id) ?_) fun _ => trivial
      rintro failure ⟨token, rfl, fails⟩
      exact ⟨token, List.mem_cons_self, fails⟩

/-- What is left to go wrong: the value of a number, no entry at all, and more than one tree. -/
theorem toExpr_reports (h : Supplied output) : Reports (fun failure =>
    (∃ token, .number token ∈ output ∧ token.numericValue = .error failure) ∨
      output = [] ∧ failure = { cause := .emptyExpression } ∨
        1 < weight output ∧ failure = { cause := .tooManyOperands } ∧
        ∀ token, .number token ∈ output → ∃ value, token.numericValue = .ok value) (toExpr output.reverse) := by
  unfold toExpr
  cases built : output.reverse.foldlM build [] with
  | error failure => exact .inl ((foldlM_reports h).error built)
  | ok operands =>
    rw [ok_bind]
    have height := foldlM_length built
    rw [weight_reverse, List.length_nil, Int.natCast_zero, Int.zero_add] at height
    rcases operands with _ | ⟨e, _ | ⟨second, operands⟩⟩
    · refine .inr (.inl ⟨?_, rfl⟩)
      cases output with
      | nil => rfl
      | cons entry before =>
        have least : 1 ≤ weight (entry :: before) := h.1
        rw [← height] at least
        exact absurd least (by decide)
    · trivial
    · refine .inr (.inr ⟨?_, rfl, fun token member => number_of_build built (List.mem_reverse.mpr member)⟩)
      rw [← height, List.length_cons, List.length_cons]
      omega

end Postfix

namespace Yard

open Postfix (Supplied)

/-- So many operands suffice for all that waits. A call waits only below the parenthesis of its arguments. -/
def Ready : List Pending → Int → Prop
  | [], _ => True
  | .binary _ _ :: stack, n => 2 ≤ n ∧ Ready stack (n - 1)
  | .unary _ _ :: stack, n => 1 ≤ n ∧ Ready stack n
  | .parenthesis _ false _ :: stack, n => Ready stack n
  | .parenthesis _ true commas :: .call _ :: stack, n => commas + 1 ≤ n ∧ Ready stack (n - commas)
  | .parenthesis _ true _ :: _, _ | .call _ :: _, _ => False

variable {table : OperatorTable} {previous next : Option Token} {yard after : Yard} {stack : List Pending}
  {output entries : List PostfixEntry} {token : Token} {tokens rest : List Token} {n m : Int}

theorem Ready.mono (h : Ready stack n) (le : n ≤ m) : Ready stack m := by
  fun_induction Ready stack n generalizing m with
  | case1 => trivial
  | case2 _ _ _ _ ih => exact ⟨Int.le_trans h.1 le, ih h.2 (Int.sub_le_sub_right le 1)⟩
  | case3 _ _ _ _ ih => exact ⟨Int.le_trans h.1 le, ih h.2 le⟩
  | case4 _ _ _ _ ih => exact ih h le
  | case5 _ commas _ _ _ ih => exact ⟨Int.le_trans h.1 le, ih h.2 (Int.sub_le_sub_right le commas)⟩
  | case6 | case7 => exact h.elim

/-- Where an operand has just ended, what is written suffices for what is written and for what waits. -/
structure Stands (yard : Yard) : Prop where
  supplied : Supplied yard.output
  ready : Ready yard.stack (Postfix.weight yard.output)
  filled : 1 ≤ Postfix.weight yard.output

theorem stands_write {entry : PostfixEntry} (supplied : Supplied yard.output)
    (ready : Ready yard.stack (Postfix.weight yard.output + 1)) (operand : entry.weight = 1) :
    Stands (yard.write entry) := by
  have weight : Postfix.weight (yard.write entry).output = Postfix.weight yard.output + 1 := by
    rw [write, Postfix.weight, operand, Int.add_comm]
  have filled : 1 ≤ Postfix.weight (yard.write entry).output := by
    have := supplied.weight_nonneg
    omega
  exact ⟨⟨filled, supplied⟩, weight ▸ ready, filled⟩

theorem stands_moveWhile (leaves : Pending → Bool) (h : Stands ⟨stack, output⟩) :
    Stands (moveWhile leaves stack output) := by
  refine moveWhile_induct leaves h ?_
  rintro top entry stack output leaving ⟨supplied, ready, filled⟩
  cases top with
  | call => exact ready.elim
  | parenthesis => cases leaving
  | binary operator token =>
    cases leaving
    have weight : Postfix.weight (.binary operator token :: output) = Postfix.weight output - 1 := by
      simp only [Postfix.weight, PostfixEntry.weight]
      omega
    have least : 1 ≤ Postfix.weight (.binary operator token :: output) := by
      have := ready.1
      simp only at this
      omega
    exact ⟨⟨least, supplied⟩, weight ▸ ready.2, least⟩
  | unary operator token =>
    cases leaving
    have weight : Postfix.weight (.unary operator token :: output) = Postfix.weight output := Int.zero_add _
    exact ⟨⟨weight ▸ ready.1, supplied⟩, weight ▸ ready.2, weight ▸ ready.1⟩

theorem stands_moveAll (h : Stands yard) : Stands yard.moveAll :=
  stands_moveWhile _ h

theorem Ready.call {opening : Token} {commas : Nat} (h : Ready (.parenthesis opening true commas :: stack) n) :
    ∃ name rest, stack = .call name :: rest ∧ commas + 1 ≤ n ∧ Ready rest (n - commas) := by
  rcases stack with _ | ⟨_ | _ | name | _, stack⟩
  case cons.call => exact ⟨name, stack, rfl, h⟩
  all_goals exact h.elim

/-- Nothing has been read of what is open last, or nothing is open. -/
def Untouched (previous : Option Token) (yard : Yard) : Prop :=
  yard.stack = [] ∨ previous.any (fun token => token.kind = .opening) = true ∧
    ∃ opening holdsArguments commas stack, yard.stack = .parenthesis opening holdsArguments commas :: stack

/-- What holds of a yard between two tokens. -/
structure Stocked (previous next : Option Token) (yard : Yard) : Prop where
  supplied : Supplied yard.output
  /-- The operand that is due is counted as if it were there. -/
  ready : Ready yard.stack (Postfix.weight yard.output + if Token.opensOperand previous then 1 else 0)
  filled : Token.opensOperand previous = false → 1 ≤ Postfix.weight yard.output
  /-- The parenthesis of a call has been read together with its name. -/
  alone : previous.any Token.isIdentifier = true → next.any (fun token => token.kind = .opening) = false
  /-- An operand that is due may be left out only in empty parentheses. -/
  empty : Token.opensOperand previous = true → closesArgument next = true → Untouched previous yard

theorem stocked_start : Stocked none next start :=
  ⟨trivial, trivial, nofun, nofun, fun _ _ => .inl rfl⟩

theorem Stocked.stands (h : Stocked previous next yard) (ended : Token.opensOperand previous = false) :
    Stands yard := by
  have ready := h.ready
  rw [ended] at ready
  exact ⟨h.supplied, by simpa using ready, h.filled ended⟩

theorem Stands.stocked (h : Stands yard) (ended : Token.opensOperand previous = false)
    (alone : previous.any Token.isIdentifier = true → next.any (fun token => token.kind = .opening) = false) :
    Stocked previous next yard where
  supplied := h.supplied
  ready := by simpa [ended] using h.ready
  filled _ := h.filled
  alone := alone
  empty place := by simp [ended] at place

theorem stocked_due (due : Token.opensOperand previous = true) (supplied : Supplied yard.output)
    (ready : Ready yard.stack (Postfix.weight yard.output + 1))
    (empty : closesArgument next = true → Untouched previous yard) : Stocked previous next yard where
  supplied := supplied
  ready := by rwa [if_pos due]
  filled ended := by simp [due] at ended
  alone := by simp [not_identifier_of_opens due]
  empty _ := empty

/-- The operand that is due, or none, makes room for one more that waits. -/
theorem Stocked.ready_succ (h : Stocked previous next yard) : Ready yard.stack (Postfix.weight yard.output + 1) := by
  refine h.ready.mono ?_
  split <;> omega

/-! ### One token -/

theorem Stocked.operator (h : Stocked previous (some token) yard) (kind : token.kind = .operator)
    (follows : next.any Adjacency.opensOperand = true) (step : yard.operator table previous token = .ok after) :
    Stocked (some token) next after := by
  have place : Token.opensOperand (some token) = true := Token.opensOperand_after (by simp [kind])
  have begins : closesArgument next = false := by
    cases next with
    | none => cases follows
    | some first => cases kind : first.kind <;> simp_all [closesArgument, Adjacency.opensOperand]
  unfold Yard.operator at step
  split at step
  next due =>
    split at step <;> cases step
    refine stocked_due place h.supplied ⟨?_, h.ready_succ⟩ (by simp [begins])
    exact Int.le_add_of_nonneg_left h.supplied.weight_nonneg
  next ended =>
    split at step <;> cases step
    next operator means =>
    obtain ⟨supplied, ready, filled⟩ :=
      stands_moveWhile (Pending.precedes operator) (h.stands (by simpa using ended))
    refine stocked_due place supplied ⟨Int.add_le_add_right filled 1, ?_⟩ (by simp [begins])
    rwa [Int.add_sub_cancel]

theorem Stocked.opening (h : Stocked previous (some token) yard) (kind : token.kind = .opening) :
    Stocked (some token) next (yard.push (.parenthesis token false 0)) := by
  have place : Token.opensOperand (some token) = true := Token.opensOperand_after (by simp [kind])
  exact stocked_due place h.supplied h.ready_succ fun _ => .inr ⟨by simp [kind], _, _, _, _, rfl⟩

theorem Stocked.call {opening : Token} (h : Stocked previous (some token) yard) (opens : opening.kind = .opening) :
    Stocked (some opening) next ((yard.push (.call token)).push (.parenthesis opening true 0)) := by
  have place : Token.opensOperand (some opening) = true := Token.opensOperand_after (by simp [opens])
  refine stocked_due place h.supplied ⟨?_, ?_⟩ fun _ => .inr ⟨by simp [opens], _, _, _, _, rfl⟩
  · exact Int.le_add_of_nonneg_left h.supplied.weight_nonneg
  · exact h.ready_succ.mono (by simp [push])

theorem moveAll_empty (none : yard.stack = []) : yard.moveAll.stack = [] := by
  rw [moveAll, none]
  rfl

theorem Stocked.comma (h : Stocked previous (some token) yard) (kind : token.kind = .comma)
    (step : yard.comma previous next token = .ok after) : Stocked (some token) next after := by
  have place : Token.opensOperand (some token) = true := Token.opensOperand_after (by simp [kind])
  obtain ⟨begins, opening, commas, stack, top, same⟩ := comma_eq_ok step
  have ended : Token.opensOperand previous = false := by
    refine Bool.eq_false_iff.mpr fun due => ?_
    obtain none | ⟨last, -⟩ := h.empty due (by simp [closesArgument, kind])
    · simp [moveAll_empty none] at top
    · have missing : opensArgument previous = true := by
        cases previous <;> simp_all [opensArgument]
      simp [Yard.comma, missing, failAt] at step
  obtain ⟨supplied, ready, -⟩ := stands_moveAll (h.stands ended)
  rw [top] at ready
  obtain ⟨name, below, rfl, enough, waits⟩ := ready.call
  subst same
  exact stocked_due place supplied ⟨by dsimp only; omega, waits.mono (by dsimp only; omega)⟩ (by simp [begins])

theorem Stocked.closing (h : Stocked previous (some token) yard) (kind : token.kind = .closing)
    (step : yard.closing previous token = .ok after) : Stands after := by
  cases place : Token.opensOperand previous with
  | false =>
    obtain ⟨supplied, ready, filled⟩ := stands_moveAll (h.stands place)
    obtain ⟨opening, commas, stack, ⟨top, rfl⟩ | ⟨name, count, top, rfl, counts⟩⟩ := closing_eq_ok step
    · rw [top] at ready
      exact ⟨supplied, ready, filled⟩
    · rw [top] at ready
      obtain rfl := counts (Token.ends_of_opensOperand place)
      have weight : Postfix.weight (.call { name with argumentCount := commas + 1 } :: yard.moveAll.output) =
          Postfix.weight yard.moveAll.output - commas := by
        simp only [Postfix.weight, PostfixEntry.weight]
        omega
      have least : 1 ≤ Postfix.weight yard.moveAll.output - commas := by
        have := ready.1
        omega
      exact ⟨⟨weight ▸ least, supplied⟩, weight ▸ ready.2, weight ▸ least⟩
  | true =>
    obtain none | ⟨last, opening, holdsArguments, commas, stack, top⟩ :=
      h.empty place (by simp [closesArgument, kind])
    · simp [Yard.closing, moveAll_empty none, failAt] at step
    · have ready := h.ready
      have stays : yard.moveAll = yard := by
        obtain ⟨_, output⟩ := yard
        cases top
        rfl
      rw [top, if_pos place] at ready
      cases holdsArguments with
      | false => simp [Yard.closing, stays, top, last, failAt] at step
      | true =>
        obtain ⟨name, below, rfl, -, waits⟩ := ready.call
        simp only [Yard.closing, stays, top, last, if_true, Except.ok.injEq] at step
        subst step
        exact stands_write h.supplied (waits.mono (by dsimp only; omega)) rfl

theorem Stocked.step (h : Stocked previous (some token) yard) (other : token.kind ≠ .endOfInput)
    (operand : token.kind = .operator → next.any Adjacency.opensOperand = true)
    (name : token.kind = .identifier → next.any (fun token => token.kind = .opening) = false)
    (step : yard.step table previous next token = .ok after) : Stocked (some token) next after := by
  cases kind : token.kind <;> simp only [Yard.step, kind] at step
  case number =>
    cases step
    exact (stands_write h.supplied h.ready_succ rfl).stocked (by simp [Token.opensOperand, Token.endsOperand, kind])
      (by simp [Token.isIdentifier, kind])
  case identifier =>
    rw [name kind] at step
    cases step
    exact (stands_write h.supplied h.ready_succ rfl).stocked (by simp [Token.opensOperand, Token.endsOperand, kind])
      fun _ => name kind
  case operator => exact h.operator kind (operand kind) step
  case opening =>
    have alone : previous.any Token.isIdentifier = false := by
      refine Bool.eq_false_iff.mpr fun called => ?_
      simpa [kind] using h.alone called
    rw [alone] at step
    cases step
    exact h.opening kind
  case closing =>
    exact (h.closing kind step).stocked (by simp [Token.opensOperand, Token.endsOperand, kind])
      (by simp [Token.isIdentifier, kind])
  case comma => exact h.comma kind step
  case endOfInput => exact absurd kind other
  case unknown => cases step

/-! ### The entries -/

theorem Stocked.finish (h : Stocked previous next yard) (last : closesArgument next = true)
    (finished : yard.finish = .ok entries) : Supplied entries.reverse := by
  obtain ⟨top, rfl⟩ := finish_eq_ok finished
  rw [List.reverse_reverse]
  cases place : Token.opensOperand previous with
  | false => exact (stands_moveAll (h.stands place)).supplied
  | true =>
    obtain ⟨stack, output⟩ := yard
    obtain none | ⟨-, opening, holdsArguments, commas, stack, rfl⟩ := h.empty place last
    · cases none
      exact h.supplied
    · cases top

/-- The entries of tokens whose neighbours are right find their operands. -/
theorem supplied_of_leads (followed : Followed tokens) (h : Leads table previous yard tokens entries)
    (stocked : Stocked previous tokens.head? yard) : Supplied entries.reverse := by
  induction size : tokens.length using Nat.strongRecOn generalizing previous yard tokens with
  | _ size ih =>
    subst size
    by_cases stop : ∀ token ∈ tokens.head?, token.kind = .endOfInput
    · refine stocked.finish ?_ ((leads_stop stop).mp h)
      cases tokens with
      | nil => rfl
      | cons token rest => simp [closesArgument, stop token rfl]
    cases tokens with
    | nil => exact absurd (by simp) stop
    | cons token rest =>
      have other : token.kind ≠ .endOfInput := by simpa using stop
      obtain ⟨-, operand, later⟩ := followed
      by_cases name : token.kind = .identifier → rest.head?.any (fun token => token.kind = .opening) = false
      · obtain ⟨next, step, leads⟩ := (leads_cons other).mp h
        exact ih rest.length (Nat.lt_succ_self _) later leads (stocked.step other operand name step) rfl
      · -- the parenthesis of a call is read with its name, for a call waits only below it
        cases rest with
        | nil => simp at name
        | cons opening rest =>
          obtain ⟨kind, opens⟩ : token.kind = .identifier ∧ opening.kind = .opening := by simpa using name
          rw [Leads, run_call kind opens] at h
          exact ih rest.length (by simp only [List.length_cons]; omega) later.2.2 h (stocked.call opens) rfl

theorem supplied_of_check (check : Adjacency.check table tokens = .ok ())
    (reordered : Postfix.ofTokens table tokens = .ok entries) : Supplied entries.reverse :=
  supplied_of_leads (followed_of_check check) reordered stocked_start

theorem number_of_leads (h : Leads table previous yard tokens entries) (member : token ∈ Descent.body tokens)
    (kind : token.kind = .number) : .number token ∈ entries := by
  induction tokens generalizing previous yard with
  | nil => cases member
  | cons first rest ih =>
    by_cases stop : first.kind = .endOfInput
    · rw [body_stop (by simp [stop])] at member
      cases member
    obtain ⟨next, step, leads⟩ := (leads_cons stop).mp h
    rw [body_cons stop] at member
    rcases List.mem_cons.mp member with rfl | member
    · rw [Yard.step, kind] at step
      cases step
      exact leads_output leads List.mem_cons_self
    · exact ih leads member

end Yard

namespace Postfix

variable {table : OperatorTable} {tokens : List Token} {entries : List PostfixEntry}

/-- The entries of tokens whose neighbours are right, wherever the tokens stop and even where operands
stand side by side, are built with the operands that they take. They have no tree only if a number has no
value, if there is no entry at all, or if more than one tree is left. -/
theorem operands_suffice (checked : Adjacency.check table tokens = .ok ())
    (reordered : ofTokens table tokens = .ok entries) :
    (∀ before entry after operands, entries = before ++ entry :: after → before.foldlM build [] = .ok operands →
      entry.arity ≤ operands.length) ∧
      ∀ failure, toExpr entries = .error failure → failure.cause.isShortage = false ∧
        ((∃ token, .number token ∈ entries ∧ token.numericValue = .error failure) ∨
          entries = [] ∧ failure = { cause := .emptyExpression } ∨
          1 < weight entries ∧ failure = { cause := .tooManyOperands }) := by
  have supplied := Yard.supplied_of_check checked reordered
  refine ⟨?_, fun failure fails => ?_⟩
  · rintro before entry after operands rfl built
    rw [List.reverse_append, List.reverse_cons, List.append_assoc] at supplied
    have here : Supplied (entry :: before.reverse) := supplied.of_append
    exact here.enough (by rwa [List.reverse_reverse])
  · have reports := toExpr_reports supplied
    rw [List.reverse_reverse, weight_reverse, List.reverse_eq_nil_iff] at reports
    rcases reports.error fails with ⟨token, member, value⟩ | ⟨none, rfl⟩ | ⟨surplus, rfl, -⟩
    · refine ⟨?_, .inl ⟨token, List.mem_reverse.mp member, value⟩⟩
      have numeric := Token.numericValue_cause value
      cases cause : failure.cause <;> simp_all [Cause.isShortage, Cause.isOfNumber]
    · exact ⟨rfl, .inr (.inl ⟨none, rfl⟩)⟩
    · exact ⟨rfl, .inr (.inr ⟨surplus, rfl⟩)⟩

/-- In `x-f() y`, with more tokens after the end, each entry finds its operands, but two trees are left. -/
theorem operands_suffice_side_by_side :
    let x : Token := { kind := .identifier, text := "x", position := 0 }
    let minus : Token := { kind := .operator, text := "-", position := 1 }
    let f : Token := { kind := .identifier, text := "f", position := 2 }
    let opening : Token := { kind := .opening, text := "(", position := 3 }
    let closing : Token := { kind := .closing, text := ")", position := 4 }
    let y : Token := { kind := .identifier, text := "y", position := 6 }
    let tokens := [x, minus, f, opening, closing, y, .stop 7, y]
    let entries := [.constant x, .call f, .constant y, .binary .subtract minus]
    Adjacency.check .arithmetic tokens = .ok () ∧ ofTokens .arithmetic tokens = .ok entries ∧
      (∀ before entry after operands, entries = before ++ entry :: after → before.foldlM build [] = .ok operands →
        entry.arity ≤ operands.length) ∧
      toExpr entries = .error { cause := .tooManyOperands } ∧ 1 < weight entries := by
  intro x minus f opening closing y tokens entries
  have checked : Adjacency.check .arithmetic tokens = .ok () := by rfl
  have reordered : ofTokens .arithmetic tokens = .ok entries := by rfl
  have fails : toExpr entries = .error { cause := .tooManyOperands } := by rfl
  obtain ⟨enough, left⟩ := operands_suffice checked reordered
  obtain ⟨-, ⟨token, member, -⟩ | ⟨none, -⟩ | ⟨surplus, -⟩⟩ := left _ fails
  · simp [entries] at member
  · exact absurd none (List.cons_ne_nil _ _)
  · exact ⟨checked, reordered, enough, fails, surplus⟩

end Postfix

end Calculator
