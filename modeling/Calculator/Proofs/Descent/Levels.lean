import Calculator.Proofs.Descent.Language
import Calculator.Proofs.Token.Nesting

/-!
# The levels that the descent opens

The scan for nesting opens the same levels at the same tokens as the descent, also in lists that the descent goes
on to refuse. Each parser of the descent is run beside the scan of the tokens that it reads.
-/

namespace Calculator.Descent

open Nesting (checkWithin)

variable {α β : Type} {setting : Setting} {limit levels n : Nat} {previous : Option Token} {token : Token}
variable {nesting middle : Nesting} {after goal : Nesting → Prop} {chain depth : Nat} {outer : List Nat}
variable {given others tokens rest : List Token}

/-! ### The scan beside a parser -/

/-- Where the parser goes on, the scan of the `tokens` that it was given does so with a nesting that is `after`.
Where the parser is refused a level, the scan fails in the same way. -/
def Follows (setting : Setting) (limit : Nat) (previous : Option Token) (nesting : Nesting) (tokens : List Token)
    (after : Nesting → Prop) (outcome : Except Failure (Parsed α given)) : Prop :=
  Ends
    (fun parsed => ∃ last middle, last.endsOperand = true ∧ after middle ∧
      checkWithin setting.table limit previous nesting tokens =
        checkWithin setting.table limit (some last) middle parsed.rest)
    (fun failure => failure.cause = .nestedTooDeeply →
      checkWithin setting.table limit previous nesting tokens = .error failure)
    outcome

theorem follows_ok {a : α} {shorter : rest.length < given.length} (ends : token.endsOperand = true)
    (h : after nesting) : Follows setting limit (some token) nesting rest after (.ok ⟨a, rest, shorter⟩) :=
  ⟨token, nesting, ends, h, rfl⟩

theorem follows_of_cause {failure : Failure} (other : failure.cause ≠ .nestedTooDeeply) :
    Follows setting limit previous nesting tokens after (.error failure : Except Failure (Parsed α given)) :=
  fun same => absurd same other

theorem Follows.after_step {outcome : Except Failure (Parsed α given)}
    (h : Follows setting limit (some token) middle rest after outcome)
    (step : nesting.step setting.table previous token = middle) (room : middle.depth ≤ limit) :
    Follows setting limit previous nesting (token :: rest) after outcome := by
  unfold Follows
  rwa [Nesting.checkWithin_cons step room]

theorem Follows.bind {x : Except Failure (Parsed α given)} {f : Parsed α given → Except Failure (Parsed β others)}
    (h : Follows setting limit previous nesting tokens after x)
    (next : ∀ parsed last middle, last.endsOperand = true → after middle →
      Follows setting limit (some last) middle parsed.rest goal (f parsed)) :
    Follows setting limit previous nesting tokens goal (x >>= f) := by
  apply ends_bind h
  rintro parsed ⟨last, middle, ends, reached, same⟩
  have := next parsed last middle ends reached
  unfold Follows at this
  rwa [← same] at this

theorem Follows.mapError {outcome : Except Failure (Parsed α given)} {position : Nat}
    (h : Follows setting limit previous nesting tokens after outcome)
    (other : ∀ failure, outcome = .error failure → failure.cause ≠ .nestedTooDeeply) :
    Follows setting limit previous nesting tokens after (outcome.mapError (·.withPosition position)) := by
  cases outcome with
  | ok parsed => exact h
  | error failure =>
    apply follows_of_cause
    rw [Failure.withPosition_cause]
    exact other failure rfl

/-- The nesting with some more operators in its innermost chain. -/
def Grown (chain depth : Nat) (outer : List Nat) (nesting : Nesting) : Prop :=
  ∃ more, nesting = ⟨(chain + more) :: outer, depth + more⟩

theorem grown_self : Grown chain depth outer ⟨chain :: outer, depth⟩ := ⟨0, rfl⟩

theorem grown_succ (h : Grown (chain + 1) (depth + 1) outer nesting) : Grown chain depth outer nesting := by
  obtain ⟨more, rfl⟩ := h
  refine ⟨more + 1, ?_⟩
  rw [Nat.add_right_comm, Nat.add_right_comm depth]
  rfl

/-- The parser opens levels as the scan does, where the innermost chain may already have `operators` operators. -/
def Tracks (setting : Setting) (levels : Nat) (operators : Nat → Prop) (parser : Parser Expr) : Prop :=
  ∀ ⦃previous chain depth outer given⦄, Token.opensOperand previous = true → operators chain →
    Follows setting (depth + levels) previous ⟨chain :: outer, depth⟩ given (Grown chain depth outer) (parser given)

/-! ### Chains, arguments and parentheses -/

section

variable {operand : Parser Expr} (tracks : Tracks setting levels (· = 0) operand)

include tracks

theorem chainFrom_follows (upper : n < tightest) {left : Expr} {shorter : tokens.length < given.length} {last : Token}
    (ends : last.endsOperand = true) :
    Follows setting (depth + levels) (some last) ⟨chain :: outer, depth + chain⟩ tokens (Grown 0 depth outer)
      (chainFrom setting n operand left tokens shorter) := by
  fun_induction chainFrom setting n operand left tokens shorter generalizing last chain with
  | case1 => exact follows_ok ends ⟨chain, by rw [Nat.zero_add]⟩
  | case2 => exact follows_ok ends ⟨chain, by rw [Nat.zero_add]⟩
  | case3 left token tokens shorter operator means _ ih =>
    obtain ⟨means, binds⟩ := binaryAt?_eq_some.mp means
    have ended : Token.opensOperand (some last) = false := by simp [Token.opensOperand, ends]
    have step : Nesting.step setting.table (some last) ⟨chain :: outer, depth + chain⟩ token =
        ⟨0 :: outer, depth⟩ := by
      rw [Nesting.step_binary means (binds ▸ upper) ended, Nat.add_sub_cancel]
    refine Follows.after_step ?_ step (Nat.le_add_right _ _)
    have opens : Token.opensOperand (some token) = true := Token.opensOperand_after (by simp [means.1])
    refine (tracks opens rfl).bind fun right last middle ends grown => ?_
    obtain ⟨more, rfl⟩ := grown
    rw [Nat.zero_add]
    exact ih right ends

theorem chain_tracks (upper : n < tightest) : Tracks setting levels (· = 0) (Descent.chain setting n operand) := by
  rintro previous _ depth outer given opens rfl
  refine (tracks opens rfl).bind fun left last middle ends grown => ?_
  obtain ⟨more, rfl⟩ := grown
  rw [Nat.zero_add]
  exact chainFrom_follows tracks upper ends

theorem level_tracks (upper : n ≤ tightest) : Tracks setting levels (· = 0) (level setting operand n) := by
  obtain ⟨k, hk⟩ := Nat.exists_eq_add_of_le upper
  induction k generalizing n with
  | zero =>
    obtain rfl : n = tightest := hk.symm
    exact tracks
  | succ k ih =>
    have below : n < tightest := by omega
    rw [level_of_lt below]
    exact chain_tracks (ih below (by omega)) below

theorem expression_tracks : Tracks setting levels (· = 0) (expression setting operand) :=
  level_tracks tracks (show 1 ≤ tightest by decide)

end

theorem follows_closing {a : α} {more : Nat} {shorter : rest.length < given.length} (kind : token.kind = .closing)
    (room : depth ≤ limit) :
    Follows setting limit previous ⟨more :: chain :: outer, depth + 1 + more⟩ (token :: rest)
      (· = ⟨chain :: outer, depth⟩) (.ok ⟨a, rest, shorter⟩) := by
  have step : Nesting.step setting.table previous ⟨more :: chain :: outer, depth + 1 + more⟩ token =
      ⟨chain :: outer, depth⟩ := by
    rw [Nesting.step_closing kind, show depth + 1 + more - (more + 1) = depth by omega]
  have ends : token.endsOperand = true := by simp [Token.endsOperand, kind]
  exact Follows.after_step (follows_ok ends rfl) step room

theorem closing_cause {cause : Token → Cause} {a : α} {shorter : tokens.length < given.length} {failure : Failure}
    (h : closing setting cause a tokens shorter = .error failure) : ∃ found, failure.cause = cause found := by
  unfold closing at h
  split at h
  · cases h
    exact ⟨_, rfl⟩
  · split at h
    · cases h
    · cases h
      exact ⟨_, rfl⟩

theorem closing_follows {cause : Token → Cause}
    (other : ∀ found, cause found ≠ .nestedTooDeeply) {a : α} {more : Nat}
    {shorter : tokens.length < given.length} (room : depth ≤ limit) :
    Follows setting limit previous ⟨more :: chain :: outer, depth + 1 + more⟩ tokens
      (· = ⟨chain :: outer, depth⟩)
      (closing setting cause a tokens shorter) := by
  cases tokens with
  | nil => exact follows_of_cause (other _)
  | cons token tokens =>
    unfold closing
    by_cases kind : token.kind = .closing
    · simp only [kind, if_true]
      exact follows_closing kind room
    · simp only [kind, if_false]
      exact follows_of_cause (other _)

section

variable {argument : Parser Expr} (tracks : Tracks setting levels (· = 0) argument)

include tracks

theorem argumentsFrom_follows {before : List Expr}
    {shorter : tokens.length < given.length} {last : Token} {more : Nat} :
    Follows setting (depth + 1 + levels) (some last) ⟨more :: chain :: outer, depth + 1 + more⟩ tokens
      (· = ⟨chain :: outer, depth⟩) (argumentsFrom setting argument before tokens shorter) := by
  fun_induction argumentsFrom setting argument before tokens shorter generalizing last more with
  | case1 => exact follows_of_cause (by simp)
  | case2 before comma tokens shorter kind _ ih =>
    have step : Nesting.step setting.table (some last) ⟨more :: chain :: outer, depth + 1 + more⟩ comma =
        ⟨0 :: chain :: outer, depth + 1⟩ := by
      rw [Nesting.step_comma kind, Nat.add_sub_cancel]
    refine Follows.after_step ?_ step (Nat.le_add_right _ _)
    have opens : Token.opensOperand (some comma) = true := Token.opensOperand_after (by simp [kind])
    refine (tracks opens rfl).bind fun next last middle ends grown => ?_
    obtain ⟨more, rfl⟩ := grown
    rw [Nat.zero_add]
    exact ih next
  | case3 before token tokens shorter =>
    exact closing_follows (by simp) (by omega)

theorem someArguments_follows (opens : Token.opensOperand previous = true) :
    Follows setting (depth + 1 + levels) previous ⟨0 :: chain :: outer, depth + 1⟩ given
      (· = ⟨chain :: outer, depth⟩) (someArguments setting argument given) := by
  refine (tracks opens rfl).bind fun first last middle ends grown => ?_
  obtain ⟨more, rfl⟩ := grown
  rw [Nat.zero_add]
  exact argumentsFrom_follows tracks

theorem arguments_follows (opens : Token.opensOperand previous = true) :
    Follows setting (depth + 1 + levels) previous ⟨0 :: chain :: outer, depth + 1⟩ given
      (· = ⟨chain :: outer, depth⟩) (arguments setting argument given) := by
  cases given with
  | nil => exact someArguments_follows tracks opens
  | cons token rest =>
    unfold arguments
    by_cases kind : token.kind = .closing
    · simp only [kind, if_true]
      exact follows_closing kind (by omega)
    · simp only [kind, if_false]
      exact someArguments_follows tracks opens

theorem parenthesized_follows {opening : Token} (opens : Token.opensOperand previous = true) :
    Follows setting (depth + 1 + levels) previous ⟨0 :: chain :: outer, depth + 1⟩ given
      (· = ⟨chain :: outer, depth⟩) (parenthesized setting argument opening given) := by
  unfold parenthesized
  by_cases empty : (setting.peek given).kind = .closing
  · rw [if_pos empty]
    exact follows_of_cause (by simp)
  rw [if_neg empty]
  refine (tracks opens rfl).bind fun inner last middle ends grown => ?_
  obtain ⟨more, rfl⟩ := grown
  rw [Nat.zero_add]
  apply Follows.mapError
  · exact closing_follows (by simp) (by omega)
  · intro failure h
    obtain ⟨found, same⟩ := closing_cause h
    simp [same]

end

/-! ### Operands -/

theorem enter_bind_follows {opening : Token} {f : Parser Expr → Except Failure (Parsed α given)}
    (step : nesting.step setting.table previous opening = middle) (opens : middle.depth = depth + 1)
    (next : ∀ lower, levels = lower + 1 →
      Follows setting (depth + 1 + lower) (some opening) middle rest after (f (operand setting lower))) :
    Follows setting (depth + levels) previous nesting (opening :: rest) after
      (enter (nested setting levels) opening >>= f) := by
  cases levels with
  | zero =>
    intro _
    exact Nesting.checkWithin_full step (by omega)
  | succ lower =>
    have room : depth + 1 + lower = depth + (lower + 1) := by omega
    have entered := next lower rfl
    rw [room] at entered
    exact entered.after_step step (by omega)

theorem step_operand (kind : token.kind ∈ [.number, .identifier]) :
    nesting.step setting.table previous token = nesting :=
  Nesting.step_other (by cases same : token.kind <;> simp_all)

theorem follows_operand {a : α} {shorter : rest.length < given.length} (kind : token.kind ∈ [.number, .identifier]) :
    Follows setting (depth + levels) previous ⟨chain :: outer, depth⟩ (token :: rest)
      (· = ⟨chain :: outer, depth⟩) (.ok ⟨a, rest, shorter⟩) := by
  have ends : token.endsOperand = true := by
    unfold Token.endsOperand
    cases same : token.kind <;> simp_all
  exact Follows.after_step (follows_ok ends rfl) (step_operand kind) (Nat.le_add_right _ _)

theorem follows_unread {failure : Failure} (reads : token.numericValue = .error failure) :
    Follows setting limit previous nesting tokens after (.error failure : Except Failure (Parsed α given)) := by
  have numeric := Token.numericValue_cause reads
  exact follows_of_cause fun deep => by simp [deep, Cause.isOfNumber] at numeric

section

variable (deeper : ∀ lower, levels = lower + 1 → Tracks setting lower (fun _ => True) (operand setting lower))

include deeper

theorem inner_tracks (lower : Nat) (room : levels = lower + 1) :
    Tracks setting lower (· = 0) (expression setting (operand setting lower)) :=
  expression_tracks fun _ _ _ _ _ opens _ => deeper lower room opens trivial

theorem call_follows (kind : token.kind = .identifier) :
    Follows setting (depth + levels) previous ⟨chain :: outer, depth⟩ (token :: tokens)
      (· = ⟨chain :: outer, depth⟩) (primary setting (nested setting levels) (token :: tokens)) := by
  have constant : token.kind ∈ [.number, .identifier] := by simp [kind]
  unfold primary
  cases tokens with
  | nil =>
    simp only [kind]
    exact follows_operand constant
  | cons next tokens =>
    simp only [kind]
    by_cases kind : next.kind = .opening
    · simp only [kind, if_true]
      refine Follows.after_step ?_ (step_operand constant) (Nat.le_add_right _ _)
      refine enter_bind_follows (Nesting.step_opening kind) rfl fun lower room => ?_
      have opens : Token.opensOperand (some next) = true := Token.opensOperand_after (by simp [kind])
      refine (arguments_follows (inner_tracks deeper lower room) opens).bind ?_
      rintro list last _ ends rfl
      exact follows_ok ends rfl
    · simp only [kind, if_false]
      exact follows_operand constant

theorem primary_follows :
    Follows setting (depth + levels) previous ⟨chain :: outer, depth⟩ given (· = ⟨chain :: outer, depth⟩)
      (primary setting (nested setting levels) given) := by
  cases given with
  | nil => exact follows_of_cause (by simp)
  | cons token tokens =>
    cases kind : token.kind with
    | number =>
      simp only [primary, kind]
      cases reads : token.numericValue with
      | error => exact follows_unread reads
      | ok value => exact follows_operand (by simp [kind])
    | identifier => exact call_follows deeper kind
    | opening =>
      simp only [primary, kind]
      refine enter_bind_follows (Nesting.step_opening kind) rfl fun lower room => ?_
      have opens : Token.opensOperand (some token) = true := Token.opensOperand_after (by simp [kind])
      refine (parenthesized_follows (inner_tracks deeper lower room) opens).bind ?_
      rintro e last _ ends rfl
      exact follows_ok ends rfl
    | operator | closing | comma | endOfInput | unknown =>
      simp only [primary, kind]
      exact follows_of_cause (by simp)

theorem power_tracks : Tracks setting levels (fun _ => True) (power setting (nested setting levels)) := by
  intro previous chain depth outer given opens _
  unfold power
  refine (primary_follows deeper).bind ?_
  rintro ⟨base, left, shorter⟩ last _ ends rfl
  cases left with
  | nil => exact follows_ok ends grown_self
  | cons token rest =>
    dsimp only
    cases means : setting.binaryAt? tightest token with
    | none => exact follows_ok ends grown_self
    | some operator =>
      obtain ⟨means, binds⟩ := binaryAt?_eq_some.mp means
      refine enter_bind_follows (Nesting.step_tightest means binds) rfl fun lower room => ?_
      have opens : Token.opensOperand (some token) = true := Token.opensOperand_after (by simp [means.1])
      refine (deeper lower room opens trivial).bind fun exponent last middle ends grown => ?_
      exact follows_ok ends (grown_succ grown)

theorem operandOver_tracks : Tracks setting levels (fun _ => True) (operandOver setting (nested setting levels)) := by
  intro previous chain depth outer given opens _
  cases given with
  | nil => exact power_tracks deeper opens trivial
  | cons token tokens =>
    unfold operandOver
    cases means : setting.unaryAt? token with
    | none =>
      simp only [means]
      exact power_tracks deeper opens trivial
    | some operator =>
      simp only [means]
      have kind : token.kind = .operator := (unaryAt?_eq_some.mp means).1
      refine enter_bind_follows (Nesting.step_unary kind opens) rfl fun lower room => ?_
      have opens : Token.opensOperand (some token) = true := Token.opensOperand_after (by simp [kind])
      refine (deeper lower room opens trivial).bind fun e last middle ends grown => ?_
      exact follows_ok ends (grown_succ grown)

end

theorem operand_tracks (levels : Nat) : Tracks setting levels (fun _ => True) (operand setting levels) := by
  induction levels with
  | zero => exact operandOver_tracks nofun
  | succ levels ih =>
    apply operandOver_tracks
    rintro _ ⟨⟩
    exact ih

end Calculator.Descent
