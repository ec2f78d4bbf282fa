import Std.Data.TreeMap.Lemmas
import Calculator.Mode.Basic
import Calculator.Proofs.Evaluation.Names
import Calculator.Proofs.Parser.Places
import Calculator.Proofs.Parser.Symbols

/-!
# New modes that agree

A new mode of the programmer differs from a standard one only on texts with bitwise operators, and a scientific one only
on texts with one of five names. Whatever has a value in a standard mode has it in a scientific one.
-/

namespace Calculator

open Evaluation (AgreeOn plain calculate)

variable {context context' : Context} {name : String} {fs : List Function}

namespace Context

theorem function?_addFunction (context : Context) (f : Function) (name : String) :
    (context.addFunction f).function? name = if f.name = name then some f else context.function? name := by
  simp [function?, addFunction, Std.TreeMap.getElem?_insert]

theorem constant?_addConstant (context : Context) (other : String) (value : Float) (name : String) :
    (context.addConstant other value).constant? name = if other = name then some value else context.constant? name := by
  simp [constant?, addConstant, Std.TreeMap.getElem?_insert]

theorem constant?_addFunction (context : Context) (f : Function) (name : String) :
    (context.addFunction f).constant? name = context.constant? name := rfl

theorem constant?_addFunctions (context : Context) (name : String) :
    (fs.foldl addFunction context).constant? name = context.constant? name := by
  induction fs generalizing context with
  | nil => rfl
  | cons f fs ih => exact ih (context.addFunction f)

theorem function?_addFunctions (absent : ∀ f ∈ fs, f.name ≠ name) :
    (fs.foldl addFunction context).function? name = context.function? name := by
  induction fs generalizing context with
  | nil => rfl
  | cons f fs ih =>
    obtain ⟨other, others⟩ := List.forall_mem_cons.mp absent
    rw [List.foldl_cons, ih others, function?_addFunction, if_neg other]

theorem table_addFunctions (context : Context) : (fs.foldl addFunction context).table = context.table := by
  induction fs generalizing context with
  | nil => rfl
  | cons f fs ih => exact ih (context.addFunction f)

theorem table_addConstants (context : Context) : (Builtin.addConstants context).table = context.table := rfl

theorem function?_addConstants (context : Context) (name : String) :
    (Builtin.addConstants context).function? name = context.function? name := rfl

theorem constant?_addConstants (other : name ∉ Builtin.constants.map Prod.fst) :
    (Builtin.addConstants context).constant? name = context.constant? name := by
  have kept (constants : List (String × Float)) (other : name ∉ constants.map Prod.fst) (context : Context) :
      (constants.foldl (fun context constant => context.addConstant constant.1 constant.2) context).constant? name =
        context.constant? name := by
    induction constants generalizing context with
    | nil => rfl
    | cons constant constants ih =>
      rw [List.map_cons, List.mem_cons, not_or] at other
      rw [List.foldl_cons, ih other.2, constant?_addConstant, if_neg (Ne.symm other.1)]
  exact kept Builtin.constants other context

end Context

/-- Adding functions to contexts that agree leaves them in agreement. -/
theorem agreeOn_addFunctions (agree : AgreeOn context context' name) :
    AgreeOn (fs.foldl Context.addFunction context) (fs.foldl Context.addFunction context') name := by
  induction fs generalizing context context' with
  | nil => exact agree
  | cons f fs ih =>
    refine ih ⟨agree.1, ?_⟩
    rw [Context.function?_addFunction, Context.function?_addFunction, agree.2]

/-! ### The contexts of new modes -/

namespace Flavour

/-- The names that a new scientific mode knows and a standard one does not. -/
def scientificNames : List String := ["PI", "pi", "E", "e", "ln"]

theorem standard_constant? (name : String) : standard.context.constant? name = none := by
  rw [context, Builtin.addFunctions, Context.constant?_addFunctions]
  exact Std.TreeMap.getElem?_emptyc

theorem standard_function? (member : name ∈ scientificNames) : standard.context.function? name = none := by
  have absent : ∀ name ∈ scientificNames, ∀ f ∈ Builtin.functions, f.name ≠ name := by decide
  rw [context, Builtin.addFunctions, Context.function?_addFunctions (absent name member)]
  exact Std.TreeMap.getElem?_emptyc

theorem standard_table : standard.context.table = .arithmetic := by
  rw [context, Builtin.addFunctions, Context.table_addFunctions]
  rfl

theorem programmer_table : programmer.context.table = .bitwise := by
  rw [context, Builtin.addFunctions, Context.table_addFunctions]
  rfl

theorem agreeOn_programmer (name : String) : AgreeOn standard.context programmer.context name := by
  rw [context, context]
  exact agreeOn_addFunctions ⟨rfl, rfl⟩

/-- The scientific context is the standard one with constants, and perhaps with a function called `ln`. -/
theorem scientific_context : scientific.context = Builtin.addConstants standard.context ∨
    ∃ f : Function, f.name = "ln" ∧ scientific.context = (Builtin.addConstants standard.context).addFunction f := by
  rw [context, context]
  generalize Builtin.addConstants _ = context
  rw [Context.addAlias?]
  cases context.function? "log" with
  | none => exact .inl rfl
  | some f => exact .inr ⟨f.renamed "ln", rfl, rfl⟩

theorem scientific_table : scientific.context.table = standard.context.table := by
  rcases scientific_context with same | ⟨f, -, same⟩
  · rw [same, Context.table_addConstants]
  · rw [same, Context.addFunction, Context.table_addConstants]

theorem scientific_constant? (other : name ∉ scientificNames) : scientific.context.constant? name = none := by
  have constants : name ∉ Builtin.constants.map Prod.fst := fun member => other (List.mem_append_left ["ln"] member)
  have absent : (Builtin.addConstants standard.context).constant? name = none := by
    rw [Context.constant?_addConstants constants, standard_constant?]
  rcases scientific_context with same | ⟨f, -, same⟩
  · rw [same, absent]
  · rw [same, Context.constant?_addFunction, absent]

theorem scientific_function? (other : name ≠ "ln") :
    scientific.context.function? name = standard.context.function? name := by
  rcases scientific_context with same | ⟨f, ln, same⟩
  · rw [same, Context.function?_addConstants]
  · rw [same, Context.function?_addFunction, ln, if_neg (Ne.symm other), Context.function?_addConstants]

theorem agreeOn_scientific (other : name ∉ scientificNames) : AgreeOn standard.context scientific.context name := by
  have known : name ≠ "ln" := by
    rintro rfl
    exact other (by decide)
  exact ⟨(standard_constant? name).trans (scientific_constant? other).symm, (scientific_function? known).symm⟩

theorem extends_scientific : Evaluation.Extends scientific.context standard.context := by
  have other {name : String} {f : Function} (function : standard.context.function? name = some f) :
      name ∉ scientificNames := by
    intro member
    rw [standard_function? member] at function
    cases function
  refine ⟨fun name value constant => ?_, fun name f function => ?_, fun name f function _ => ?_⟩
  · rw [standard_constant?] at constant
    cases constant
  · rw [← (agreeOn_scientific (other function)).2]
    exact function
  · exact scientific_constant? (other function)

end Flavour

/-! ### Results -/

variable {kind : ParserKind} {text : String} {flavour flavour' : Flavour}

theorem evaluate_new (flavour : Flavour) (kind : ParserKind) (text : String) :
    ((Mode.ofFlavour flavour).setParser kind).evaluate text = calculate flavour.context kind text := by
  unfold Mode.evaluate
  show (calculate flavour.context kind text >>= fun value => .ok value) = _
  cases calculate flavour.context kind text <;> rfl

/-- Where parsing is the same and so are the values of trees, so are those of texts. -/
theorem calculate_of_agree
    (converted : kind.convert flavour.context.table text = kind.convert flavour'.context.table text)
    (same : ∀ e, kind.convert flavour.context.table text = .ok e →
      plain flavour.context e = plain flavour'.context e) :
    calculate flavour.context kind text = calculate flavour'.context kind text := by
  cases outcome : kind.convert flavour.context.table text with
  | error failure => rw [calculate, calculate, ← converted, outcome, error_bind, error_bind]
  | ok e =>
    rw [Evaluation.calculate_eq_plain flavour.table_eq outcome,
      Evaluation.calculate_eq_plain flavour'.table_eq (converted ▸ outcome), same e outcome]

theorem names_of_convert {table : OperatorTable} {e : Expr} (converted : kind.convert table text = .ok e) :
    ∀ name ∈ e.names, ∃ tokens, Token.scan text = .ok tokens ∧
      ∃ token ∈ tokens, token.kind = .identifier ∧ token.text = name := by
  intro name member
  obtain ⟨tokens, scanned, parsed⟩ := ParserKind.parse_of_convert converted
  obtain ⟨-, -, derived⟩ := ParserKind.parse_sound kind parsed
  rw [← derived.names] at member
  obtain ⟨token, kept, rfl⟩ := List.mem_map.mp member
  obtain ⟨inside, identifier⟩ := List.mem_filter.mp kept
  exact ⟨tokens, scanned, token, List.takeWhile_subset _ inside, of_decide_eq_true identifier, rfl⟩

/-- With the same parser, new modes have the same results: a standard and a programmer's one on texts without bitwise
operators, a standard and a scientific one on texts without the names that only the latter knows. What has a value in a
standard mode has the same value in a scientific one. -/
theorem new_modes_agree (kind : ParserKind) (text : String) :
    let result (flavour : Flavour) : Outcome := ((Mode.ofFlavour flavour).setParser kind).evaluate text
    ((∀ c ∈ text.toList, c ∉ bitwiseCharacters) → result .standard = result .programmer) ∧
      ((∀ tokens, Token.scan text = .ok tokens → ∀ token ∈ tokens, token.kind = .identifier →
        token.text ∉ Flavour.scientificNames) → result .standard = result .scientific) ∧
        ∀ value, result .standard = .ok value → result .scientific = .ok value := by
  intro result
  have evaluated flavour : result flavour = calculate (Flavour.context flavour) kind text :=
    evaluate_new flavour kind text
  have sameText : kind.convert Flavour.standard.context.table text =
      kind.convert Flavour.scientific.context.table text := by
    rw [Flavour.scientific_table]
  refine ⟨fun characters => ?_, fun names => ?_, fun value h => ?_⟩
  · rw [evaluated, evaluated]
    refine calculate_of_agree ?_ fun e _ => Evaluation.plain_of_agree e fun name _ => Flavour.agreeOn_programmer name
    rw [Flavour.standard_table, Flavour.programmer_table]
    exact convert_of_arithmetic kind characters
  · rw [evaluated, evaluated]
    refine calculate_of_agree sameText fun e converted => Evaluation.plain_of_agree e fun name member => ?_
    obtain ⟨tokens, scanned, token, inside, identifier, rfl⟩ := names_of_convert converted name member
    exact Flavour.agreeOn_scientific (names tokens scanned token inside identifier)
  · rw [evaluated] at h ⊢
    obtain ⟨e, converted, -⟩ := bind_eq_ok.mp h
    rw [Evaluation.calculate_eq_plain Flavour.standard.table_eq converted] at h
    rw [Evaluation.calculate_eq_plain Flavour.scientific.table_eq (sameText ▸ converted)]
    exact Evaluation.plain_extend Flavour.extends_scientific e value h

/-- The three modes give `-1.5` for the text `-1.5`, in which there are neither bitwise operators nor names. -/
theorem new_modes_agree_on_signed :
    let result (flavour : Flavour) : Outcome := ((Mode.ofFlavour flavour).setParser .shuntingYard).evaluate "-1.5"
    (∀ c ∈ "-1.5".toList, c ∉ bitwiseCharacters) ∧
      Token.scan "-1.5" = .ok [{ kind := .operator, text := "-", position := 0 },
        { kind := .number, text := "1.5", position := 1 }, .stop 4] ∧
      result .standard = .ok (-1.5) ∧ result .programmer = .ok (-1.5) ∧ result .scientific = .ok (-1.5) ∧
        result .standard = result .scientific := by
  intro result
  obtain ⟨programmer, scientific, kept⟩ := new_modes_agree .shuntingYard "-1.5"
  have usual : ∀ c ∈ "-1.5".toList, c ∉ bitwiseCharacters := by simp [bitwiseCharacters]
  have scanned : Token.scan "-1.5" = .ok [{ kind := .operator, text := "-", position := 0 },
      { kind := .number, text := "1.5", position := 1 }, .stop 4] := by cbv
  have nameless : ∀ tokens, Token.scan "-1.5" = .ok tokens → ∀ token ∈ tokens, token.kind = .identifier →
      token.text ∉ Flavour.scientificNames := by
    intro tokens scannedAs
    rw [scanned] at scannedAs
    cases scannedAs
    decide
  have converted : ParserKind.shuntingYard.convert Flavour.standard.context.table "-1.5" =
      .ok (.unary .negate { kind := .operator, text := "-", position := 0 } (.literal 1.5)) := by
    rw [Flavour.standard_table]
    exact ParserKind.convert_of_parse scanned rfl
  have standard : result .standard = .ok (-1.5) := by
    refine (evaluate_new .standard .shuntingYard "-1.5").trans ?_
    rw [Evaluation.calculate_eq_plain Flavour.standard.table_eq converted]
    rfl
  exact ⟨usual, scanned, standard, (programmer usual).symm.trans standard,
    kept (-1.5) standard, scientific nameless⟩

end Calculator
