import Calculator.Proofs.Mode
import Calculator.Session

/-!
# What a session remembers of a mode

A mode of a session changes by the steps that are addressed to it and by nothing else, and the values that it gives do
not depend on its precision. All other steps can be left out, and so can those that only ask or that were refused.
-/

namespace Calculator

variable {context context' : Context} {name : String} {registry registry' : Registry} {s : Step} {answer : Answer}
variable {mode mode' : Mode} {precision : Nat}

/-! ### Steps that leave no trace -/

def Action.isReadOnly : Action → Bool
  | .evaluate _ | .format _ | .check _ | .describe | .lookUp _ | .lookUpSymbol _ => true
  | _ => false

namespace Step

def isReadOnly : Step → Bool
  | .listModes | .hasMode _ => true
  | .onMode _ action => action.isReadOnly
  | .clear | .register _ => false

def setsPrecision : Step → Bool
  | .onMode _ (.setPrecision _) => true
  | _ => false

/-- The name of the mode that the step is addressed to, if it is addressed to one. -/
def target? : Step → Option String
  | .hasMode name | .onMode name _ => some name
  | .register mode => some mode.name
  | .listModes | .clear => none

end Step

/-- Whether the answer is a failure or a no. -/
def Answer.isNegative : Answer → Bool
  | .refused _ | .noSuchMode | .registered false | .aliased false | .hasMode false _ => true
  | .evaluated outcome _ => !outcome.isSuccess
  | _ => false

/-- The value or failure of an evaluation that was answered. -/
def Answer.outcome? : Answer → Option Outcome
  | .evaluated outcome _ => some outcome
  | _ => none

/-- Why a step with its answer can be left out where only the values of the mode called `name` matter. -/
inductive Removable (name : String) (s : Step) (answer : Answer) : Prop
  | elsewhere {other : String} (target : s.target? = some other) (different : other ≠ name)
  | readOnly (asks : s.isReadOnly = true)
  | precision (sets : s.setsPrecision = true)
  | refused (negative : answer.isNegative = true)

/-! ### Precision -/

namespace Evaluation

theorem call_of_agree (agree : ∀ name, AgreeOn context context' name) : call context = call context' := by
  funext name values position
  unfold call
  rw [(agree name).1, (agree name).2]

theorem evaluateWithin_of_agree (agree : ∀ name, AgreeOn context context' name) (levels : Nat) :
    evaluateWithin context levels = evaluateWithin context' levels := by
  induction levels with
  | zero => rfl
  | succ levels ih =>
    funext e
    simp only [evaluateWithin, ih, call_of_agree agree]

end Evaluation

namespace Mode

theorem evaluate_setPrecision (mode : Mode) (precision : Nat) (text : String) :
    (mode.setPrecision precision).evaluate text = mode.evaluate text := by
  have agree name : Evaluation.AgreeOn (mode.setPrecision precision).context mode.context name := ⟨rfl, rfl⟩
  have same : Evaluation.calculate (mode.setPrecision precision).context = Evaluation.calculate mode.context := by
    unfold Evaluation.calculate Evaluation.evaluate
    rw [Evaluation.evaluateWithin_of_agree agree]
    rfl
  unfold evaluate
  rw [same]
  rfl

/-- The mode as it would be with no decimal places: what its values depend on. -/
def core (mode : Mode) : Mode := mode.setPrecision 0

theorem changed_core {change change' : Except Failure Mode} (same : mode.core = mode'.core)
    (changes : change.map core = change'.map core) :
    (mode.changed change).1.core = (mode'.changed change').1.core := by
  cases change <;> cases change' <;> simp_all [changed, Except.map]

/-- No action looks at the precision to change anything else. -/
theorem act_core (mode : Mode) (action : Action) : (mode.core.act action).1.core = (mode.act action).1.core := by
  cases action with
  | evaluate | format | check | describe | lookUp | lookUpSymbol => rfl
  | setPrecision | addConstant | addFunction | changeTable => rfl
  | setParser name =>
    refine changed_core rfl ?_
    cases ParserKind.ofName name <;> rfl
  | setDisplayBase radix =>
    refine changed_core rfl ?_
    have same : mode.core.flavour = mode.flavour := rfl
    unfold setDisplayBase
    rw [same]
    cases mode.flavour with
    | programmer => cases NumberBase.ofRadix radix <;> rfl
    | standard | scientific =>
      dsimp only
      split <;> rfl
  | addAlias other name =>
    unfold act Context.addAlias?
    have same : mode.core.context.function? name = mode.context.function? name := rfl
    dsimp only
    rw [same]
    cases mode.context.function? name <;> rfl

theorem changed_name {change : Except Failure Mode} (kept : ∀ mode', change = .ok mode' → mode'.name = mode.name) :
    (mode.changed change).1.name = mode.name := by
  cases change with
  | error failure => rfl
  | ok mode' => exact kept mode' rfl

theorem act_name (mode : Mode) (action : Action) : (mode.act action).1.name = mode.name := by
  cases action with
  | setParser name =>
    refine changed_name fun mode' h => ?_
    obtain ⟨kind, -, rfl⟩ := map_eq_ok.mp h
    rfl
  | setDisplayBase radix =>
    refine changed_name fun mode' h => ?_
    unfold setDisplayBase at h
    split at h
    next =>
      obtain ⟨base, -, rfl⟩ := map_eq_ok.mp h
      rfl
    next =>
      split at h <;> cases h
      rfl
  | addAlias other name =>
    unfold act
    dsimp only
    split <;> rfl
  | _ => rfl

theorem act_readOnly {action : Action} (asks : action.isReadOnly = true) : (mode.act action).1 = mode := by
  cases action with
  | evaluate | format | check | describe | lookUp | lookUpSymbol => rfl
  | _ => cases asks

theorem changed_refused {change : Except Failure Mode} (negative : (mode.changed change).2.isNegative = true) :
    (mode.changed change).1 = mode := by
  cases change with
  | error failure => rfl
  | ok mode' => cases negative

theorem act_refused {action : Action} (negative : (mode.act action).2.isNegative = true) :
    (mode.act action).1 = mode := by
  cases action with
  | evaluate | format | check | describe | lookUp | lookUpSymbol => rfl
  | setPrecision | addConstant | addFunction | changeTable => cases negative
  | setParser | setDisplayBase => exact changed_refused negative
  | addAlias other name =>
    unfold act at negative ⊢
    dsimp only at negative ⊢
    split at negative
    next => cases negative
    next => rfl

end Mode

/-! ### One mode of a registry -/

namespace Registry

/-- Every mode is found under its own name. -/
def Named (registry : Registry) : Prop :=
  ∀ name mode, registry.get? name = some mode → mode.name = name

theorem get?_replace (registry : Registry) (mode : Mode) (name : String) :
    (registry.replace mode).get? name = if mode.name = name then some mode else registry.get? name := by
  simp [get?, replace, Std.TreeMap.getElem?_insert]

theorem get?_empty (name : String) : empty.get? name = none :=
  Std.TreeMap.getElem?_emptyc

theorem contains_eq (registry : Registry) (name : String) : registry.contains name = (registry.get? name).isSome :=
  Std.TreeMap.isSome_getElem?_eq_contains.symm

theorem register?_eq (registry : Registry) (mode : Mode) :
    registry.register? mode = if (registry.get? mode.name).isSome then none else some (registry.replace mode) := by
  rw [register?, contains_eq]
  rfl

theorem named_replace (named : registry.Named) (mode : Mode) : (registry.replace mode).Named := by
  intro name found h
  rw [get?_replace] at h
  split at h
  next same =>
    cases h
    exact same
  next => exact named name found h

theorem named_empty : empty.Named := by
  intro name mode h
  rw [get?_empty] at h
  cases h

theorem named_register (named : registry.Named) (mode : Mode) : ((registry.register? mode).getD registry).Named := by
  rw [register?_eq]
  split
  · exact named
  · exact named_replace named mode

theorem named_initial : initial.Named := by
  have registers (flavours : List Flavour) {registry : Registry} (named : registry.Named) : (flavours.foldl
      (fun registry flavour => (registry.register? (.ofFlavour flavour)).getD registry) registry).Named := by
    induction flavours generalizing registry with
    | nil => exact named
    | cons flavour flavours ih => exact ih (named_register named _)
  exact registers _ named_empty

theorem get?_initial (flavour : Flavour) : initial.get? flavour.name = some (.ofFlavour flavour) := by
  have itself flavour : (Mode.ofFlavour flavour).name = flavour.name := rfl
  unfold initial
  simp only [List.foldl_cons, List.foldl_nil, register?_eq, get?_empty, itself]
  cases flavour <;> simp [get?_replace, get?_empty, itself, Flavour.name]

/-- What the values of the mode called `name` depend on. -/
def core? (registry : Registry) (name : String) : Option Mode :=
  (registry.get? name).map Mode.core

/-- Putting back what is there changes nothing. -/
theorem get?_replace_self {target : String} (named : registry.Named) (found : registry.get? target = some mode) :
    (registry.replace mode).get? name = registry.get? name := by
  rw [get?_replace, named target mode found]
  split
  next same => rw [← same, found]
  next => rfl

end Registry

/-- What a step makes of the mode called `name`. -/
def Step.onOne (name : String) (s : Step) (mode? : Option Mode) : Option Mode :=
  match s with
  | .listModes | .hasMode _ => mode?
  | .clear => none
  | .register mode => if mode.name = name then mode?.or (some mode) else mode?
  | .onMode target action => if target = name then mode?.map fun mode => (mode.act action).1 else mode?

namespace Session

theorem named_step (named : registry.Named) (s : Step) : (step registry s).1.Named := by
  cases s with
  | listModes | hasMode => exact named
  | clear => exact Registry.named_empty
  | register mode =>
    have registered := Registry.named_register named mode
    unfold step
    dsimp only
    split
    next new =>
      rw [new] at registered
      exact registered
    next => exact named
  | onMode target action =>
    unfold step
    dsimp only
    split
    · exact Registry.named_replace named _
    · exact named

/-- A mode changes as if it were alone in the registry. -/
theorem get?_step (named : registry.Named) (s : Step) (name : String) :
    (step registry s).1.get? name = s.onOne name (registry.get? name) := by
  cases s with
  | listModes | hasMode => rfl
  | clear => exact Registry.get?_empty name
  | register mode =>
    unfold step Step.onOne
    dsimp only
    rw [Registry.register?_eq]
    by_cases same : mode.name = name
    · rw [if_pos same, same]
      cases found : registry.get? name with
      | some => exact found
      | none => exact (Registry.get?_replace ..).trans (if_pos same)
    · rw [if_neg same]
      cases (registry.get? mode.name).isSome with
      | true => rfl
      | false => exact (Registry.get?_replace ..).trans (if_neg same)
  | onMode target action =>
    unfold step Step.onOne
    dsimp only
    cases found : registry.get? target with
    | some mode =>
      dsimp only
      rw [Registry.get?_replace, Mode.act_name, named target mode found]
      split
      next same =>
        rw [← same, found]
        rfl
      next => rfl
    | none =>
      dsimp only
      split
      next same =>
        rw [← same, found]
        rfl
      next => rfl

/-- What a mode gives after a step depends on what it gave before. -/
theorem core?_step (named : registry.Named) (named' : registry'.Named)
    (same : registry.core? name = registry'.core? name)
    (s : Step) : (step registry s).1.core? name = (step registry' s).1.core? name := by
  unfold Registry.core? at same ⊢
  rw [get?_step named, get?_step named']
  revert same
  generalize registry.get? name = mode?
  generalize registry'.get? name = mode'?
  intro same
  cases s with
  | listModes | hasMode => exact same
  | clear => rfl
  | register mode =>
    unfold Step.onOne
    dsimp only
    split
    · cases mode? <;> cases mode'? <;> first | rfl | exact same | cases same
    · exact same
  | onMode target action =>
    unfold Step.onOne
    dsimp only
    split
    · cases mode? with
      | none =>
        cases mode'? with
        | none => rfl
        | some mode' => cases same
      | some mode =>
        cases mode'? with
        | none => cases same
        | some mode' =>
          have same : mode.core = mode'.core := Option.some.inj same
          show some _ = some _
          rw [← Mode.act_core mode, same, Mode.act_core mode']
    · exact same

theorem get?_elsewhere (named : registry.Named)
    {other : String} (target : s.target? = some other) (different : other ≠ name) :
    (step registry s).1.get? name = registry.get? name := by
  rw [get?_step named]
  cases s with
  | listModes | clear => cases target
  | hasMode => rfl
  | register | onMode =>
    cases target
    rw [Step.onOne, if_neg different]

theorem get?_readOnly (named : registry.Named) (asks : s.isReadOnly = true) (name : String) :
    (step registry s).1.get? name = registry.get? name := by
  cases s with
  | listModes | hasMode => rfl
  | clear | register => cases asks
  | onMode target action =>
    unfold step
    dsimp only
    cases found : registry.get? target with
    | none => rfl
    | some mode =>
      dsimp only
      rw [Mode.act_readOnly asks, Registry.get?_replace_self named found]

theorem get?_refused (named : registry.Named) (negative : (step registry s).2.isNegative = true) (name : String) :
    (step registry s).1.get? name = registry.get? name := by
  cases s with
  | listModes | hasMode => rfl
  | clear => cases negative
  | register mode =>
    unfold step at negative ⊢
    dsimp only at negative ⊢
    split at negative
    next => cases negative
    next => rfl
  | onMode target action =>
    unfold step at negative ⊢
    dsimp only at negative ⊢
    cases found : registry.get? target with
    | none => rfl
    | some mode =>
      rw [found] at negative
      dsimp only
      rw [Mode.act_refused negative, Registry.get?_replace_self named found]

theorem core?_setsPrecision (named : registry.Named) (sets : s.setsPrecision = true) (name : String) :
    (step registry s).1.core? name = registry.core? name := by
  unfold Registry.core?
  rw [get?_step named]
  unfold Step.setsPrecision at sets
  split at sets
  next target precision =>
    unfold Step.onOne
    dsimp only
    split
    · cases registry.get? name <;> rfl
    · rfl
  next => cases sets

/-- A removable step leaves everything that the values of the mode depend on. -/
theorem core?_removable (named : registry.Named) (removable : Removable name s (step registry s).2) :
    (step registry s).1.core? name = registry.core? name := by
  cases removable with
  | elsewhere target different => exact congrArg (Option.map Mode.core) (get?_elsewhere named target different)
  | readOnly asks => exact congrArg (Option.map Mode.core) (get?_readOnly named asks name)
  | precision sets => exact core?_setsPrecision named sets name
  | refused negative => exact congrArg (Option.map Mode.core) (get?_refused named negative name)

/-! ### Runs -/

/-- The steps, each with its answer. -/
def record (registry : Registry) (steps : List Step) : List (Step × Answer) :=
  steps.zip (run registry steps)

/-- The texts that are evaluated in the mode called `name`, each with the value or failure that is answered. -/
def evaluations (name : String) (entries : List (Step × Answer)) : List (String × Option Outcome) :=
  entries.filterMap fun
    | (.onMode target (.evaluate text), answer) => if target = name then some (text, answer.outcome?) else none
    | _ => none

/-- A step, and whether it stays when others are left out. -/
structure Choice where
  step : Step
  stays : Bool

def remaining (choices : List Choice) : List Step :=
  (choices.filter Choice.stays).map Choice.step

/-- The steps that stay, each with the answer that it has among all steps. -/
def recordRemaining (registry : Registry) (choices : List Choice) : List (Step × Answer) :=
  ((choices.zip (run registry (choices.map Choice.step))).filter fun entry => entry.1.stays).map fun entry =>
    (entry.1.step, entry.2)

/-- Each step that does not stay is removable, with the answer that it has among all steps. -/
def LeavesOut (name : String) (registry : Registry) (choices : List Choice) : Prop :=
  ∀ entry ∈ choices.zip (run registry (choices.map Choice.step)), entry.1.stays = false →
    Removable name entry.1.step entry.2

theorem outcome?_evaluate (registry : Registry) (name text : String) :
    (step registry (.onMode name (.evaluate text))).2.outcome? = (registry.core? name).map (Mode.evaluate · text) := by
  unfold step Registry.core?
  dsimp only
  cases registry.get? name with
  | none => rfl
  | some mode => exact congrArg some (Mode.evaluate_setPrecision mode 0 text).symm

theorem outcome?_of_core (same : registry.core? name = registry'.core? name) (text : String) :
    (step registry (.onMode name (.evaluate text))).2.outcome? =
      (step registry' (.onMode name (.evaluate text))).2.outcome? := by
  rw [outcome?_evaluate, outcome?_evaluate, same]

theorem evaluations_cons_congr {answer' : Answer} {entries entries' : List (Step × Answer)}
    (outcome : ∀ text, s = .onMode name (.evaluate text) → answer.outcome? = answer'.outcome?)
    (rest : evaluations name entries = evaluations name entries') :
    evaluations name ((s, answer) :: entries) = evaluations name ((s, answer') :: entries') := by
  cases s with
  | onMode target action =>
    cases action with
    | evaluate text =>
      unfold evaluations at rest ⊢
      rw [List.filterMap_cons, List.filterMap_cons, rest]
      by_cases same : target = name
      · subst same
        simp only [if_pos, outcome text rfl]
      · simp only [if_neg same]
    | _ => exact rest
  | _ => exact rest

theorem run_cons (registry : Registry) (s : Step) (rest : List Step) :
    run registry (s :: rest) = (step registry s).2 :: run (step registry s).1 rest := rfl

theorem evaluations_of_core (choices : List Choice) (named : registry.Named) (named' : registry'.Named)
    (same : registry.core? name = registry'.core? name) (removable : LeavesOut name registry choices) :
    evaluations name (recordRemaining registry choices) = evaluations name (record registry' (remaining choices)) := by
  -- The two registries differ in other modes and in precisions, so only the cores of the one mode are kept equal.
  induction choices generalizing registry registry' with
  | nil => rfl
  | cons choice choices ih =>
    obtain ⟨s, stays⟩ := choice
    unfold LeavesOut at removable
    rw [List.map_cons, run_cons, List.zip_cons_cons, List.forall_mem_cons] at removable
    obtain ⟨first, others⟩ := removable
    have next := named_step named s
    cases stays with
    | true =>
      refine evaluations_cons_congr (fun text evaluates => ?_) ?_
      · obtain rfl : s = _ := evaluates
        exact outcome?_of_core same text
      · exact ih next (named_step named' s) (core?_step named named' same s) others
    | false =>
      exact ih next named' ((core?_removable named (first rfl)).trans same) others

/-- Steps that are addressed to other modes, that only ask, that set a precision, or that were refused can
be left out of a session in any number: the other evaluations in the mode called `name` have the values
and failures that they had. -/
theorem evaluations_remaining (name : String) (choices : List Choice) (removable : LeavesOut name .initial choices) :
    evaluations name (recordRemaining .initial choices) = evaluations name (record .initial (remaining choices)) :=
  evaluations_of_core choices Registry.named_initial Registry.named_initial rfl removable

/-- Of five steps only a change of the base and an evaluation stay. -/
theorem evaluations_remaining_of_base :
    let choices : List Choice := [
      ⟨.onMode "programmer" (.setDisplayBase 7), false⟩,
      ⟨.onMode "programmer" (.setDisplayBase 16), true⟩,
      ⟨.onMode "standard" (.addConstant "x" 0.5), false⟩,
      ⟨.onMode "programmer" (.setPrecision 0), false⟩,
      ⟨.onMode "programmer" (.evaluate "7.5"), true⟩]
    LeavesOut "programmer" .initial choices ∧
      evaluations "programmer" (recordRemaining .initial choices) =
        evaluations "programmer" (record .initial (remaining choices)) := by
  intro choices
  have refused : (step .initial (.onMode "programmer" (.setDisplayBase 7))).2.isNegative = true := by
    have found : Registry.initial.get? "programmer" = some (Mode.ofFlavour .programmer) :=
      Registry.get?_initial .programmer
    unfold step
    dsimp only
    rw [found]
    rfl
  have removable : LeavesOut "programmer" .initial choices := by
    unfold LeavesOut
    simp only [choices, List.map_cons, List.map_nil,
      run_cons, List.zip_cons_cons, List.forall_mem_cons, Bool.true_eq_false,
      false_imp_iff, true_and]
    refine ⟨fun _ => .refused refused, fun _ => .elsewhere rfl (by decide), fun _ => .precision rfl, ?_⟩
    simp only [run, List.zip_nil_left, List.not_mem_nil, false_imp_iff, implies_true]
  exact ⟨removable, evaluations_remaining "programmer" choices removable⟩

end Session

end Calculator
