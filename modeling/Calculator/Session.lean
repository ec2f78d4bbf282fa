import Calculator.Mode.Registry

/-!
# Sessions

A session is a list of steps on a registry of modes. A step may change the registry, and always has an
answer; a step that fails changes nothing.
-/

namespace Calculator

inductive Action where
  | evaluate (text : String)
  | format (value : Float)
  | check (value : Float)
  | describe
  | setPrecision (precision : Nat)
  | setParser (name : String)
  | setDisplayBase (radix : Nat)
  | addConstant (name : String) (value : Float)
  | addFunction (f : Function)
  | addAlias (other name : String)
  | changeTable (change : OperatorTable.Change)
  | lookUp (name : String)
  | lookUpSymbol (symbol : String)

inductive Step where
  | listModes
  | hasMode (name : String)
  | clear
  | register (mode : Mode)
  | onMode (name : String) (action : Action)

inductive Answer where
  | done
  | refused (failure : Failure)
  | noSuchMode
  | modes (names : List String) (default? : Option String)
  | hasMode (isRegistered isFound : Bool)
  | registered (isNew : Bool)
  | evaluated (outcome : Outcome) (shown : Except Failure String)
  | shown (text : String)
  | checked (value : Float)
  | described (mode : Mode)
  | found (constant? : Option Float) (hasFunction : Bool)
  | aliased (isKnown : Bool)
  | meaning (binary? : Option BinaryOperator) (unary? : Option UnaryOperator) (knows : Bool)

def Answer.ofResult (make : α → Answer) : Except Failure α → Answer
  | .ok result => make result
  | .error failure => .refused failure

namespace Mode

/-- The value of a text and how the mode shows it. -/
def answer (mode : Mode) (text : String) : Answer :=
  let outcome := mode.evaluate text
  .evaluated outcome (outcome.bind mode.formatValue)

/-- A changed mode, or the mode as it was with the reason why it could not be changed. -/
def changed (mode : Mode) (change : Except Failure Mode) : Mode × Answer :=
  match change with
  | .ok mode => (mode, .done)
  | .error failure => (mode, .refused failure)

def act (mode : Mode) : Action → Mode × Answer
  | .evaluate text => (mode, mode.answer text)
  | .format value => (mode, .ofResult .shown (mode.formatValue value))
  | .check value => (mode, .ofResult .checked (mode.checkValue value))
  | .describe => (mode, .described mode)
  | .setPrecision precision => (mode.setPrecision precision, .done)
  | .setParser name => mode.changed ((ParserKind.ofName name).map mode.setParser)
  | .setDisplayBase radix => mode.changed (mode.setDisplayBase radix)
  | .addConstant name value =>
    ({ mode with context := mode.context.addConstant name value }, .done)
  | .addFunction f => ({ mode with context := mode.context.addFunction f }, .done)
  | .addAlias other name =>
    match mode.context.addAlias? other name with
    | some context => ({ mode with context }, .aliased true)
    | none => (mode, .aliased false)
  | .changeTable change => (mode.changeTable change, .done)
  | .lookUp name =>
    (mode, .found (mode.context.constant? name) (mode.context.function? name).isSome)
  | .lookUpSymbol symbol =>
    let table := mode.context.table
    (mode, .meaning (table.binary? symbol) (table.unary? symbol) (table.knows symbol))

end Mode

namespace Session

def step (registry : Registry) : Step → Registry × Answer
  | .listModes => (registry, .modes registry.names (registry.default?.map Mode.name))
  | .hasMode name => (registry, .hasMode (registry.contains name) (registry.get? name).isSome)
  | .clear => (.empty, .done)
  | .register mode =>
    match registry.register? mode with
    | some registry => (registry, .registered true)
    | none => (registry, .registered false)
  | .onMode name action =>
    match registry.get? name with
    | some mode =>
      let (mode, answer) := mode.act action
      (registry.replace mode, answer)
    | none => (registry, .noSuchMode)

/-- The answers to steps from the given registry on. -/
def run (registry : Registry) : List Step → List Answer
  | [] => []
  | s :: rest =>
    let (registry, answer) := step registry s
    answer :: run registry rest

/-- The answers to the steps of a session, which begins with a new mode of each flavour. -/
def answers (steps : List Step) : List Answer :=
  run .initial steps

end Session

end Calculator
