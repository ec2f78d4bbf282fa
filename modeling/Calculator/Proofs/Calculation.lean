import Calculator.Proofs.Evaluation.Blame
import Calculator.Proofs.Parser.Failures

/-!
# What a calculation reports

A text that is not calculated is refused at no place or at one of its tokens, and what it is refused for
shows whether its form or its values are at fault.
-/

namespace Calculator

open ParserKind (convert_refuses)

variable {table : OperatorTable} {context : Context}
  {tokens : List Token} {e : Expr} {failure : Failure} {text : String}

namespace Evaluation

/-! ### Failures of evaluations -/

/-- Whether a call of the name can fail for the cause. -/
def failsCall (name : String) : Cause → Bool
  | .unknownName other | .unknownFunction other => other = name
  | cause => cause.isOfFunction

theorem failsCall_of_isOfFunction {name : String} {cause : Cause} (h : cause.isOfFunction = true) :
    failsCall name cause = true := by
  cases cause <;> first | exact h | cases h

theorem call_fails (context : Context) (name : String) (values : List Float) (position : Nat) :
    Reports (FailsAt (failsCall name) position) (call context name values position) := by
  unfold call
  split
  · trivial
  · exact (call_reports _ _ _).mono (fun _ => id) fun _ fails => ⟨failsCall_of_isOfFunction fails.1, fails.2⟩
  · split
    · exact ⟨decide_eq_true rfl, rfl⟩
    · exact ⟨decide_eq_true rfl, rfl⟩

theorem applyUnary_overflow {operator : UnaryOperator} {x : Float} {position : Nat}
    (fails : applyUnary operator x position = .error failure) : FailsAt (· = .overflow) position failure :=
  (applyUnary_reports (decide_eq_true rfl) operator x position).error fails

/-- A failure that blames a part of the expression has one of the causes of values, or is due to the depth. -/
theorem Blames.cause (h : Blames context e failure) :
    failure.cause = .evaluatedTooDeeply ∨ failure.cause.isOfValue = true := by
  cases h with
  | depth _ same =>
    rw [same]
    exact .inl rfl
  | unary _ fails => exact .inr ((applyUnary_reports rfl _ _ _).error fails).1
  | binary _ fails => exact .inr (BinaryOperator.isOfValue_of_failsFor ((applyBinary_reports _ _ _ _).error fails).1)
  | call _ fails =>
    obtain ⟨causes, -⟩ := (call_fails _ _ _ _).error fails
    refine .inr ?_
    cases cause : failure.cause <;> rw [cause] at causes <;> first | rfl | cases causes

/-- Such a failure is reported at no place or at the token of an operation or call. -/
theorem Blames.place (h : Blames context e failure) (standing : e.AllStandAmong table tokens) :
    failure.position = 0 ∨ ∃ token ∈ tokens, token.position = failure.position := by
  cases h with
  | @depth node inside same =>
    have stands := standing node inside
    rw [same]
    cases node with
    | literal => exact .inl rfl
    | binary _ token | unary _ token => exact .inr ⟨token, stands.1, rfl⟩
    | call =>
      obtain ⟨token, member, -, -, place⟩ := stands
      exact .inr ⟨token, member, place⟩
  | @unary _ token _ _ inside fails =>
    exact .inr ⟨token, (standing _ inside).1, (applyUnary_overflow fails).2.symm⟩
  | @binary _ token _ _ _ _ inside fails =>
    exact .inr ⟨token, (standing _ inside).1, ((applyBinary_reports _ _ _ _).error fails).2.symm⟩
  | call inside fails =>
    have place := (call_fails _ _ _ _).error fails
    obtain ⟨token, member, -, -, same⟩ := standing _ inside
    exact .inr ⟨token, member, same.trans place.2.symm⟩

theorem eq_divisionByZero {cause : Cause} (value : cause.isOfValue = true)
    (category : cause.category = .divisionByZero) :
    cause = .divisionByZero := by
  cases cause <;> first | rfl | (cases value; done) | cases category

theorem eq_unknown {cause : Cause} (value : cause.isOfValue = true) (category : cause.category = .invalidFunction) :
    ∃ name, cause = .unknownName name ∨ cause = .unknownFunction name := by
  cases cause <;> first | exact ⟨_, .inl rfl⟩ | exact ⟨_, .inr rfl⟩ | (cases value; done) | cases category

/-- A division by zero is reported at an operator that divides. -/
theorem Blames.division (h : Blames context e failure) (standing : e.AllStandAmong table tokens)
    (category : failure.category = .divisionByZero) : ∃ token ∈ tokens, token.position = failure.position ∧
      ∃ operator ∈ [BinaryOperator.divide, .modulo], table.IsBinary token operator := by
  have cause : failure.cause = .divisionByZero := by
    rcases h.cause with deep | value
    · rw [Failure.category, deep] at category
      cases category
    · exact eq_divisionByZero value category
  cases h with
  | depth _ same =>
    rw [same] at cause
    cases cause
  | unary _ fails =>
    have overflow := (applyUnary_overflow fails).1
    rw [cause] at overflow
    cases overflow
  | @binary operator token _ _ _ _ inside fails =>
    obtain ⟨causes, place⟩ := (applyBinary_reports _ _ _ _).error fails
    obtain ⟨member, means⟩ := standing _ inside
    rw [cause] at causes
    exact ⟨token, member, place.symm, operator, by simpa [BinaryOperator.failsFor] using causes, means⟩
  | call _ fails =>
    obtain ⟨causes, -⟩ := (call_fails _ _ _ _).error fails
    rw [cause] at causes
    cases causes

/-- An unknown name is reported at the identifier that is the name. -/
theorem Blames.name (h : Blames context e failure) (standing : e.AllStandAmong table tokens)
    (category : failure.category = .invalidFunction) : ∃ token ∈ tokens, token.position = failure.position ∧
      token.kind = .identifier ∧
        (failure.cause = .unknownName token.text ∨ failure.cause = .unknownFunction token.text) := by
  obtain ⟨name, cause⟩ : ∃ name, failure.cause = .unknownName name ∨ failure.cause = .unknownFunction name := by
    rcases h.cause with deep | value
    · rw [Failure.category, deep] at category
      cases category
    · exact eq_unknown value category
  cases h with
  | depth _ same =>
    rw [same] at cause
    rcases cause with cause | cause <;> cases cause
  | unary _ fails =>
    have overflow := (applyUnary_overflow fails).1
    rcases cause with cause | cause <;> rw [cause] at overflow <;> cases overflow
  | binary _ fails =>
    obtain ⟨causes, -⟩ := (applyBinary_reports _ _ _ _).error fails
    rcases cause with cause | cause <;> rw [cause] at causes <;> cases causes
  | call inside fails =>
    obtain ⟨causes, place⟩ := (call_fails _ _ _ _).error fails
    obtain ⟨token, member, kind, text, same⟩ := standing _ inside
    refine ⟨token, member, same.trans place.symm, kind, ?_⟩
    rw [text]
    rcases cause with cause | cause <;> rw [cause] at causes ⊢ <;> cases of_decide_eq_true causes
    · exact .inl rfl
    · exact .inr rfl

/-! ### Failures of texts -/

/-- Why the text has no value: it has no tree, or a part of its tree is blamed. -/
inductive Faults (context : Context) (text : String) (failure : Failure) : Prop
  | form (refuses : ParserKind.Refuses text failure)
  | value {tokens : List Token} {e : Expr} (scanned : Token.scan text = .ok tokens)
      (standing : e.AllStandAmong context.table tokens) (blames : Blames context e failure)

theorem calculate_faults (context : Context) (kind : ParserKind) (text : String) :
    Reports (Faults context text) (calculate context kind text) := by
  have converted : Ends (fun e => kind.convert context.table text = .ok e) (ParserKind.Refuses text)
      (kind.convert context.table text) :=
    ends_of_forall (fun _ => id) fun failure => (ParserKind.convert_refuses kind context.table text).error
  apply ends_bind (converted.mono (fun _ => id) fun failure => .form)
  intro e converted
  obtain ⟨tokens, scanned, parsed⟩ := ParserKind.parse_of_convert converted
  obtain ⟨-, -, derived⟩ := ParserKind.parse_sound kind parsed
  have standing := derived.allStandAmong.mono fun token member => List.takeWhile_subset _ member
  exact (evaluateWithin_blames context _ e).mono (fun _ _ => trivial) fun failure => .value scanned standing

/-! ### Places -/

theorem Faults.place (h : Faults context text failure) (scanned : Token.scan text = .ok tokens) :
    failure.position = 0 ∨ ∃ token ∈ tokens, token.position = failure.position := by
  cases h with
  | form refuses =>
    cases refuses with
    | characters refused => cases scanned.symm.trans refused
    | blank _ same =>
      rw [same]
      exact .inl rfl
    | tokens scanned' among =>
      cases scanned.symm.trans scanned'
      exact among.place
    | number scanned' member _ _ _ place =>
      cases scanned.symm.trans scanned'
      exact .inr ⟨_, member, place.symm⟩
  | value scanned' standing blames =>
    cases scanned.symm.trans scanned'
    exact blames.place standing

/-- Only the values of a text that has a tree fail in other ways than by its syntax or by an overflow. -/
theorem Faults.value_of_category (h : Faults context text failure)
    (category : failure.category.isSyntaxStage = false ∧ failure.category ≠ .numericOverflow) : ∃ tokens e,
      Token.scan text = .ok tokens ∧ e.AllStandAmong context.table tokens ∧ Blames context e failure := by
  cases h with
  | form refuses =>
    rcases refuses.category with stage | overflow
    · rw [category.1] at stage
      cases stage
    · exact absurd overflow category.2
  | value scanned standing blames => exact ⟨_, _, scanned, standing, blames⟩

/-- The failure of a calculation is reported at a character of the text or at its end, and if the text has
tokens, at the first byte or at a token. A division by zero is reported at an operator that divides, and
an unknown name at that name. -/
theorem failures_in_text (context : Context) (kind : ParserKind) (text : String) (failure : Failure)
    (h : calculate context kind text = .error failure) :
    (failure.position ≤ text.utf8ByteSize ∧ String.Pos.Raw.IsValid text ⟨failure.position⟩) ∧
      (∀ tokens, Token.scan text = .ok tokens →
        failure.position = 0 ∨ ∃ token ∈ tokens, token.position = failure.position) ∧
      (failure.category = .divisionByZero → ∃ tokens, Token.scan text = .ok tokens ∧
        ∃ token ∈ tokens, token.position = failure.position ∧ token.kind = .operator ∧
          (context.table.binary? token.text = some .divide ∨ context.table.binary? token.text = some .modulo)) ∧
      (failure.category = .invalidFunction → ∃ tokens, Token.scan text = .ok tokens ∧
        ∃ token ∈ tokens, token.position = failure.position ∧ token.kind = .identifier ∧
          (failure.message = s!"Unknown function or constant: {token.text}" ∨
            failure.message = s!"Unknown function: {token.text}")) := by
  have faults := (calculate_faults context kind text).error h
  have boundary : String.Pos.Raw.IsValid text ⟨failure.position⟩ := by
    cases scanned : Token.scan text with
    | error refused =>
      have same : kind.convert context.table text = .error refused := by
        rw [ParserKind.convert, scanned, error_bind]
      rw [calculate, same, error_bind] at h
      cases h
      exact (ParserKind.refuses_of_scan scanned).boundary
    | ok tokens =>
      rcases faults.place scanned with none | ⟨token, member, place⟩
      · rw [none]
        exact String.Pos.Raw.isValid_zero
      · rw [← place]
        exact (Token.tiles_of_scan scanned).covers_text.boundary token member
  refine ⟨⟨boundary.le_utf8ByteSize, boundary⟩,
    fun tokens => faults.place, fun category => ?_, fun category => ?_⟩
  · obtain ⟨tokens, e, scanned, standing, blames⟩ := faults.value_of_category (by rw [category]; decide)
    obtain ⟨token, member, place, operator, divides, kind, means⟩ := blames.division standing category
    refine ⟨tokens, scanned, token, member, place, kind, ?_⟩
    simpa [means] using divides
  · obtain ⟨tokens, e, scanned, standing, blames⟩ := faults.value_of_category (by rw [category]; decide)
    obtain ⟨token, member, place, kind, cause⟩ := blames.name standing category
    refine ⟨tokens, scanned, token, member, place, kind, ?_⟩
    rcases cause with cause | cause
    · exact .inl (congrArg Cause.message cause)
    · exact .inr (congrArg Cause.message cause)

/-- In `2 % x` the name is unknown, and in `2 % 0` the remainder is undefined. -/
theorem failures_in_text_of_remainder :
    let context := Context.ofTable .arithmetic
    let unknown : Failure := { cause := .unknownName "x", position := 4 }
    let division : Failure := { cause := .divisionByZero, position := 2 }
    (calculate context .shuntingYard "2 % x" = .error unknown ∧ String.Pos.Raw.IsValid "2 % x" ⟨4⟩ ∧
      ∃ tokens, Token.scan "2 % x" = .ok tokens ∧
        ∃ token ∈ tokens, token.position = 4 ∧ token.kind = .identifier ∧
        (unknown.message = s!"Unknown function or constant: {token.text}" ∨
          unknown.message = s!"Unknown function: {token.text}")) ∧
      calculate context .shuntingYard "2 % 0" = .error division ∧
        ∃ tokens, Token.scan "2 % 0" = .ok tokens ∧
          ∃ token ∈ tokens, token.position = 2 ∧ token.kind = .operator ∧
          (context.table.binary? token.text = some .divide ∨ context.table.binary? token.text = some .modulo) := by
  intro context unknown division
  have scannedName : Token.scan "2 % x" = .ok [{ kind := .number, text := "2", position := 0 },
      { kind := .operator, text := "%", position := 2 },
        { kind := .identifier, text := "x", position := 4 }, .stop 5] := by cbv
  have scannedZero : Token.scan "2 % 0" = .ok [{ kind := .number, text := "2", position := 0 },
      { kind := .operator, text := "%", position := 2 },
        { kind := .number, text := "0", position := 4 }, .stop 5] := by cbv
  have convertedName : ParserKind.shuntingYard.convert context.table "2 % x" = .ok (.binary .modulo
      { kind := .operator, text := "%", position := 2 } (.literal 2) (.call "x" 4 [])) :=
    ParserKind.convert_of_parse scannedName rfl
  have convertedZero : ParserKind.shuntingYard.convert context.table "2 % 0" = .ok (.binary .modulo
      { kind := .operator, text := "%", position := 2 } (.literal 2) (.literal 0)) :=
    ParserKind.convert_of_parse scannedZero rfl
  have failsName : calculate context .shuntingYard "2 % x" = .error unknown := by
    rw [calculate, convertedName, ok_bind]
    rfl
  have failsZero : calculate context .shuntingYard "2 % 0" = .error division := by
    rw [calculate, convertedZero, ok_bind]
    rfl
  obtain ⟨⟨-, boundary⟩, -, -, name⟩ := failures_in_text context .shuntingYard "2 % x" unknown failsName
  obtain ⟨-, -, operator, -⟩ := failures_in_text context .shuntingYard "2 % 0" division failsZero
  exact ⟨⟨failsName, boundary, name rfl⟩, failsZero, operator rfl⟩

/-! ### Categories -/

theorem category_of_value {cause : Cause} (value : cause.isOfValue = true) : cause.category ∈
    [.divisionByZero, .invalidFunction, .domainError, .numericOverflow, .numericUnderflow, .evaluationError] := by
  cases cause <;> first | (cases value; done) | simp [Cause.category]

theorem Blames.category (h : Blames context e failure) : failure.category ∈
    [.divisionByZero, .invalidFunction, .domainError, .numericOverflow, .numericUnderflow, .evaluationError] := by
  rcases h.cause with deep | value
  · rw [Failure.category, deep]
    simp [Cause.category]
  · exact category_of_value value

theorem Blames.known (h : Blames context e failure) (operator : BinaryOperator) :
    failure.cause ≠ .unknownArithmetic operator ∧ failure.cause ≠ .unknownBitwise operator := by
  constructor <;> intro unknown <;> rcases h.cause with deep | value
  all_goals first | (rw [unknown] at deep; cases deep) | (rw [unknown] at value; cases value)

theorem refuses_category (h : ParserKind.Refuses text failure) :
    failure.category ∈ [.invalidSyntax, .unexpectedToken, .parseError, .numericOverflow] := by
  cases h with
  | characters _ refuses => simp [refuses.category]
  | blank _ same => simp [same, Failure.category, Cause.category]
  | tokens _ among => rcases among.category with category | category <;> simp [category]
  | number _ _ _ _ category => simp [category]

theorem blank_of_refuses (h : ParserKind.Refuses text failure) (parse : failure.category = .parseError) :
    ∀ c ∈ text.toList, Text.isBlank c = true := by
  cases h with
  | characters _ refuses => simp [refuses.category] at parse
  | blank blank => exact blank
  | tokens _ among => rcases among.category with category | category <;> simp [category] at parse
  | number _ _ _ _ category => simp [category] at parse

theorem tooWide_of_refuses (h : ParserKind.Refuses text failure) (overflow : failure.category = .numericOverflow) :
    ∃ tokens, Token.scan text = .ok tokens ∧ ∃ token ∈ tokens, token.kind = .number ∧ token.IsTooWide := by
  cases h with
  | characters _ refuses => simp [refuses.category] at overflow
  | blank _ same => simp [same, Failure.category, Cause.category] at overflow
  | tokens _ among => rcases among.category with category | category <;> simp [category] at overflow
  | number scanned member kind wide => exact ⟨_, scanned, _, member, kind, wide⟩

/-- Before a text is evaluated it is refused for its syntax or for a number in a base that does not fit in
64 bits; only blank texts are refused as such. An evaluation fails for its values, its names or its depth,
and never at an operator that it does not know. -/
theorem failures_by_stage :
    (∀ (kind : ParserKind) table text failure, kind.convert table text = .error failure →
      failure.category ∈ [.invalidSyntax, .unexpectedToken, .parseError, .numericOverflow] ∧
        (failure.category = .numericOverflow → ∃ tokens, Token.scan text = .ok tokens ∧
          ∃ token ∈ tokens, token.kind = .number ∧ token.IsTooWide)) ∧
      (∀ (kind : ParserKind) table text, (∃ failure, kind.convert table text = .error failure ∧
        failure.category = .parseError) ↔ ∀ c ∈ text.toList, Text.isBlank c = true) ∧
      (∀ context e failure, evaluate context e = .error failure →
        failure.category ∈ [.divisionByZero, .invalidFunction, .domainError, .numericOverflow, .numericUnderflow,
          .evaluationError] ∧
          ∀ operator, failure.cause ≠ .unknownArithmetic operator ∧
            failure.cause ≠ .unknownBitwise operator) ∧
      ∀ context kind text failure, calculate context kind text = .error failure →
        failure.category ≠ .invalidBase ∧ failure.category ≠ .unknownError := by
  refine ⟨fun kind table text failure h => ?_, fun kind table text => ?_, fun context e failure h => ?_,
    fun context kind text failure h => ?_⟩
  · have refuses := (ParserKind.convert_refuses kind table text).error h
    exact ⟨refuses_category refuses, tooWide_of_refuses refuses⟩
  · constructor
    · rintro ⟨failure, h, parse⟩
      exact blank_of_refuses ((ParserKind.convert_refuses kind table text).error h) parse
    · exact fun blank => ⟨_, ParserKind.convert_blank kind table blank, rfl⟩
  · have blames := (evaluateWithin_blames context _ e).error h
    exact ⟨blames.category, blames.known⟩
  · have faults := (calculate_faults context kind text).error h
    cases faults with
    | form refuses =>
      have category := refuses_category refuses
      constructor <;> intro same <;> simp [same] at category
    | value _ _ blames =>
      have category := blames.category
      constructor <;> intro same <;> simp [same] at category

/-- `0x8000000000000000` does not fit in 64 bits, and `2 % x` has a name without a meaning. -/
theorem failures_by_stage_of_wide :
    let wide : Failure := { cause := .unreadableLiteral "0x8000000000000000" (.tooWide "8000000000000000") }
    let unknown : Failure := { cause := .unknownName "x", position := 4 }
    let e : Expr := .binary .modulo { kind := .operator, text := "%", position := 2 } (.literal 2) (.call "x" 4 [])
    (ParserKind.shuntingYard.convert .bitwise "0x8000000000000000" = .error wide ∧
      wide.category = .numericOverflow ∧
      ∃ tokens, Token.scan "0x8000000000000000" = .ok tokens ∧
        ∃ token ∈ tokens, token.kind = .number ∧ token.IsTooWide) ∧
      evaluate (Context.ofTable .arithmetic) e = .error unknown ∧
        ∀ operator, unknown.cause ≠ .unknownArithmetic operator ∧ unknown.cause ≠ .unknownBitwise operator := by
  intro wide unknown e
  obtain ⟨form, blank, value, calculated⟩ := failures_by_stage
  have scanned : Token.scan "0x8000000000000000" = .ok [
      { kind := .number, text := "0x8000000000000000", position := 0, base := .hexadecimal }, .stop 18] := by cbv
  have converted : ParserKind.shuntingYard.convert .bitwise "0x8000000000000000" = .error wide := by
    rw [ParserKind.convert, scanned, ok_bind]
    rfl
  have evaluated : evaluate (Context.ofTable .arithmetic) e = .error unknown := rfl
  exact ⟨⟨converted, rfl, (form _ _ _ _ converted).2 rfl⟩, evaluated, (value _ _ _ evaluated).2⟩

end Evaluation

end Calculator
