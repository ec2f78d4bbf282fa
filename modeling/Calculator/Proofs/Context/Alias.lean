import Calculator.Proofs.Mode

/-!
# Functions under other names

Whatever is added to a new context, every function stands under its own name. An alias is a function of
its own: it gives what the function under the first name gives, in words that use the other name, and
stays when that one is replaced.
-/

namespace Calculator

variable {f : Function} {name other : String} {arguments : List Float} {position : Nat} {fs : List Function}

/-! ### Domains and names -/

/-- The check of the arguments uses the name only in its words. -/
def Function.IgnoresName (f : Function) : Prop :=
  ∀ name other arguments, (f.violation? name arguments).isSome = (f.violation? other arguments).isSome

theorem Function.IgnoresName.renamed (ignores : f.IgnoresName) (name : String) : (f.renamed name).IgnoresName :=
  ignores

namespace Builtin

/-- The checks of the builtin functions decide by the arguments alone. -/
theorem isSome_check : ∀ check ∈ [unitInterval, positive, nonNegative, nonZeroDivisor, realPower],
    ∀ name other arguments, (check name arguments).isSome = (check other arguments).isSome := by
  simp only [List.forall_mem_cons, List.not_mem_nil, false_implies, implies_true, and_true]
  and_intros
  all_goals
    intro name other arguments
    rcases arguments with _ | ⟨x, _ | ⟨y, rest⟩⟩ <;>
      simp [unitInterval, positive, nonNegative, nonZeroDivisor, realPower, apply_ite Option.isSome]

theorem ignoresName : ∀ f ∈ functions, f.IgnoresName := by
  have everywhere {f : Function} (none : f.violation? = fun _ _ => .none) : f.IgnoresName := by
    intro name other arguments
    rw [none]
  have checked {f : Function}
      (check : f.violation? ∈ [unitInterval, positive, nonNegative, nonZeroDivisor, realPower]) : f.IgnoresName :=
    isSome_check f.violation? check
  simp only [functions, List.forall_mem_cons, List.not_mem_nil, false_implies, implies_true, and_true]
  and_intros
  all_goals first
    | exact everywhere rfl
    | exact checked (by simp)

end Builtin

/-! ### Calls by two names -/

/-- The outcomes of a call by two names: the same value, or the same failure at the same position in the words for each
name. -/
inductive Rephrased (f : Function) (name other : String) (arguments : List Float) (position : Nat) :
    Except Failure Float → Except Failure Float → Prop
  | value (x : Float) : Rephrased f name other arguments position (.ok x) (.ok x)
  | arity : Rephrased f name other arguments position
      (failAt position (.wrongArity name f.arity)) (failAt position (.wrongArity other f.arity))
  | domain {violation violation' : String} (words : f.violation? name arguments = some violation)
      (words' : f.violation? other arguments = some violation') : Rephrased f name other arguments position
      (failAt position (.outsideDomain violation)) (failAt position (.outsideDomain violation'))
  | undefined : Rephrased f name other arguments position
      (failAt position (.undefinedFor name arguments)) (failAt position (.undefinedFor other arguments))
  | overflow : Rephrased f name other arguments position (failAt position .overflow) (failAt position .overflow)

theorem renamed_call (f : Function) (name : String) (arguments : List Float) (position : Nat) :
    (f.renamed name).call arguments position =
      if !f.arity.accepts arguments.length then failAt position (.wrongArity name f.arity)
      else
        match f.violation? name arguments with
        | some violation => failAt position (.outsideDomain violation)
        | none =>
          if (f.body arguments).isNaN then failAt position (.undefinedFor name arguments)
          else if (f.body arguments).isInf && arguments.all Float.isFinite then failAt position .overflow
          else .ok (f.body arguments) := rfl

theorem rephrased_renamed (ignores : f.IgnoresName) (name other : String) (arguments : List Float) (position : Nat) :
    Rephrased f name other arguments position ((f.renamed name).call arguments position)
      ((f.renamed other).call arguments position) := by
  have decides := ignores name other arguments
  rw [renamed_call, renamed_call]
  by_cases refused : (!f.arity.accepts arguments.length) = true
  · rw [if_pos refused, if_pos refused]
    exact .arity
  rw [if_neg refused, if_neg refused]
  cases words : f.violation? name arguments with
  | some violation =>
    rw [words, Option.isSome_some] at decides
    obtain ⟨violation', words'⟩ := Option.isSome_iff_exists.mp decides.symm
    rw [words']
    exact .domain words words'
  | none =>
    rw [words, Option.isSome_none] at decides
    rw [Option.not_isSome_iff_eq_none.mp (Bool.eq_false_iff.mp decides.symm)]
    dsimp only
    by_cases undefined : (f.body arguments).isNaN = true
    · rw [if_pos undefined, if_pos undefined]
      exact .undefined
    rw [if_neg undefined, if_neg undefined]
    split
    · exact .overflow
    · exact .value _

/-! ### What a context is told -/

/-- Something that is added to a context. -/
inductive Registration where
  | function (f : Function)
  | constant (name : String) (value : Float)
  | builtinFunctions
  | builtinConstants
  | otherName (other name : String)

namespace Registration

/-- The context with the addition. An alias of an unknown name adds nothing. -/
def apply (context : Context) : Registration → Context
  | function f => context.addFunction f
  | constant name value => context.addConstant name value
  | builtinFunctions => Builtin.addFunctions context
  | builtinConstants => Builtin.addConstants context
  | otherName other name => (context.addAlias? other name).getD context

/-- The names whose functions the addition may replace. -/
def names : Registration → List String
  | function f => [f.name]
  | constant _ _ | builtinConstants => []
  | builtinFunctions => Builtin.functions.map Function.name
  | otherName other _ => [other]

end Registration

namespace Context

variable {context changed : Context}

/-- Every function stands under its own name, which its check uses only in its words. -/
structure Tidy (context : Context) : Prop where
  named : ∀ name f, context.function? name = some f → f.name = name
  ignores : ∀ name f, context.function? name = some f → f.IgnoresName

theorem tidy_ofTable (table : OperatorTable) : (ofTable table).Tidy := by
  have empty name : (ofTable table).function? name = none := Std.TreeMap.getElem?_emptyc
  constructor
  all_goals
    intro name f found
    rw [empty] at found
    cases found

theorem Tidy.addFunction (tidy : context.Tidy) (ignores : f.IgnoresName) : (context.addFunction f).Tidy := by
  constructor
  all_goals
    intro name g found
    rw [function?_addFunction] at found
    split at found
  · cases found
    assumption
  · exact tidy.named name g found
  · cases found
    exact ignores
  · exact tidy.ignores name g found

theorem Tidy.addFunctions (tidy : context.Tidy) (ignores : ∀ f ∈ fs, f.IgnoresName) :
    (fs.foldl Context.addFunction context).Tidy := by
  induction fs generalizing context with
  | nil => exact tidy
  | cons f fs ih =>
    obtain ⟨first, rest⟩ := List.forall_mem_cons.mp ignores
    exact ih (tidy.addFunction first) rest

theorem addAlias?_eq_some : context.addAlias? other name = some changed ↔
    ∃ f, context.function? name = some f ∧ context.addFunction (f.renamed other) = changed :=
  Option.map_eq_some_iff

theorem addAlias?_eq_none : context.addAlias? other name = none ↔ context.function? name = none :=
  Option.map_eq_none_iff

theorem Tidy.apply (tidy : context.Tidy) (registration : Registration)
    (ignores : ∀ f, registration = .function f → f.IgnoresName) : (registration.apply context).Tidy := by
  cases registration with
  | function f => exact tidy.addFunction (ignores f rfl)
  | constant | builtinConstants => exact ⟨tidy.named, tidy.ignores⟩
  | builtinFunctions => exact tidy.addFunctions Builtin.ignoresName
  | otherName other name =>
    rw [Registration.apply]
    cases known : context.addAlias? other name with
    | none => exact tidy
    | some changed =>
      obtain ⟨f, found, rfl⟩ := addAlias?_eq_some.mp known
      exact tidy.addFunction ((tidy.ignores name f found).renamed other)

/-- Additions keep a context tidy. -/
theorem Tidy.applyAll (tidy : context.Tidy) {registrations : List Registration}
    (ignores : ∀ f, .function f ∈ registrations → f.IgnoresName) :
    (registrations.foldl Registration.apply context).Tidy := by
  induction registrations generalizing context with
  | nil => exact tidy
  | cons registration rest ih =>
    refine ih (tidy.apply registration fun f same => ignores f ?_) fun f member =>
      ignores f (List.mem_cons_of_mem _ member)
    rw [same]
    exact List.mem_cons_self

theorem function?_apply {registration : Registration} (kept : name ∉ registration.names) :
    (registration.apply context).function? name = context.function? name := by
  cases registration with
  | function f =>
    have different : f.name ≠ name := fun same => kept (List.mem_singleton.mpr same.symm)
    exact (function?_addFunction context f name).trans (if_neg different)
  | constant | builtinConstants => rfl
  | builtinFunctions =>
    exact function?_addFunctions fun f member same => kept (List.mem_map.mpr ⟨f, member, same⟩)
  | otherName other original =>
    have different : other ≠ name := fun same => kept (List.mem_singleton.mpr same.symm)
    rw [Registration.apply]
    cases known : context.addAlias? other original with
    | none => rfl
    | some changed =>
      obtain ⟨f, -, rfl⟩ := addAlias?_eq_some.mp known
      exact (function?_addFunction context (f.renamed other) name).trans (if_neg different)

theorem function?_applyAll {registrations : List Registration}
    (kept : ∀ registration ∈ registrations, name ∉ registration.names) :
    (registrations.foldl Registration.apply context).function? name = context.function? name := by
  induction registrations generalizing context with
  | nil => rfl
  | cons registration rest ih =>
    obtain ⟨first, others⟩ := List.forall_mem_cons.mp kept
    rw [List.foldl_cons, ih others, function?_apply first]

/-- In a context made by additions every function stands under its own name. An alias of an unknown name
is refused and changes nothing. Any other alias gives what the function gives that it was made of, in
words with its own name. The other names keep their functions, and the alias keeps its own whatever is
added later under other names. -/
theorem alias_calls_alike (table : OperatorTable) (registrations : List Registration)
    (ignores : ∀ f, .function f ∈ registrations → f.IgnoresName) :
    let context := registrations.foldl Registration.apply (ofTable table)
    (∀ name f, context.function? name = some f → f.name = name) ∧
      ∀ other name,
        (context.addAlias? other name = none ↔ context.function? name = none) ∧
          (context.addAlias? other name = none → Registration.apply context (.otherName other name) = context) ∧
            ∀ changed, context.addAlias? other name = some changed →
              Registration.apply context (.otherName other name) = changed ∧
                (∃ f g, context.function? name = some f ∧ changed.function? other = some g ∧ g.name = other ∧
                  ∀ arguments position, Rephrased f name other arguments position (f.call arguments position)
                    (g.call arguments position)) ∧
                (∀ another, another ≠ other → changed.function? another = context.function? another) ∧
                ∀ later : List Registration, (∀ registration ∈ later, other ∉ registration.names) →
                  (later.foldl Registration.apply changed).function? other = changed.function? other := by
  intro context
  have tidy : context.Tidy := (tidy_ofTable table).applyAll ignores
  refine ⟨tidy.named, fun other name => ⟨addAlias?_eq_none, fun refused => ?_, fun changed known => ?_⟩⟩
  · rw [Registration.apply, refused, Option.getD_none]
  refine ⟨by rw [Registration.apply, known, Option.getD_some], ?_, ?_, fun later kept => function?_applyAll kept⟩
  · obtain ⟨f, found, rfl⟩ := addAlias?_eq_some.mp known
    have own : f.renamed name = f := by rw [← tidy.named name f found, Function.renamed]
    refine ⟨f, f.renamed other, found, ?_, rfl, fun arguments position => ?_⟩
    · exact (function?_addFunction context (f.renamed other) other).trans (if_pos rfl)
    · have rephrased := rephrased_renamed (tidy.ignores name f found) name other arguments position
      rwa [own] at rephrased
  · intro another different
    obtain ⟨f, -, rfl⟩ := addAlias?_eq_some.mp known
    exact (function?_addFunction context (f.renamed other) another).trans (if_neg (Ne.symm different))

/-- The alias of an alias refuses a negative argument in its own words, also when the first alias is replaced. -/
theorem alias_calls_alike_twice :
    let root : Function := { Builtin.one "root" Float.sqrt with violation? := Builtin.nonNegative }
    let registrations : List Registration := [.function root, .otherName "r" "root"]
    let context := registrations.foldl Registration.apply (ofTable .arithmetic)
    (∀ f, .function f ∈ registrations → f.IgnoresName) ∧
      ∃ changed g, context.addAlias? "q" "r" = some changed ∧ g.name = "q" ∧
        ([Registration.function (Builtin.one "r" Float.sin)].foldl Registration.apply changed).function?
          "q" = some g ∧
          g.call [-Double.ofInt 1] 3 = failAt 3 (.outsideDomain "q argument must be non-negative") := by
  intro root registrations context
  have ignores : ∀ f, .function f ∈ registrations → f.IgnoresName := by
    intro f member
    have same : f = root := by simpa [registrations] using member
    rw [same]
    exact Builtin.isSome_check Builtin.nonNegative (by simp)
  have known : context.function? "r" = some (root.renamed "r") := by
    simp [context, registrations, Registration.apply,
      addAlias?, function?_addFunction, root, Builtin.one, Function.renamed]
  obtain ⟨-, calls⟩ := alias_calls_alike .arithmetic registrations ignores
  obtain ⟨refused, -, answers⟩ := calls "q" "r"
  cases added : context.addAlias? "q" "r" with
  | none =>
    rw [refused.mp added] at known
    cases known
  | some changed =>
    obtain ⟨-, ⟨f, g, found, under, named, alike⟩, -, kept⟩ := answers changed added
    refine ⟨ignores, changed, g, rfl, named, ?_, ?_⟩
    · rw [kept _ (by simp [Registration.names, Builtin.one]), under]
    · rw [known] at found
      cases found
      have outcome := alike [-Double.ofInt 1] 3
      have first : (root.renamed "r").call [-Double.ofInt 1] 3 =
          failAt 3 (.outsideDomain "r argument must be non-negative") := by rfl
      have words : (root.renamed "r").violation? "q" [-Double.ofInt 1] =
          some "q argument must be non-negative" := by rfl
      rw [first] at outcome
      generalize g.call [-Double.ofInt 1] 3 = last at outcome ⊢
      cases outcome with
      | domain _ words' =>
        rw [words] at words'
        cases words'
        rfl

end Context

end Calculator
