import Calculator.Expr.Outline
import Calculator.Mode.Registry
import Calculator.Token.Layout

/-!
# The command line

A run evaluates one expression and prints the result. Before it, the tokens and the tree of the expression
can be printed. `run` is the whole run as a function from options to what is printed, and `runWith` is the
same for any way to draw trees.
-/

namespace Calculator.CommandLine

structure Options where
  expression : Option String := none
  mode : String := Registry.defaultName
  precision : Option Nat := none
  parser : Option String := none
  base : Option Nat := none
  tree : Bool := false
  tokens : Bool := false
  listModes : Bool := false

/-- Why a run failed, and what it was doing. -/
structure Complaint where
  message : String
  doing : Option String := none

def Complaint.text (complaint : Complaint) : String :=
  match complaint.doing with
  | none => s!"Error: {complaint.message}\n"
  | some doing => s!"Error: {doing}\n\nCaused by:\n    {complaint.message}\n"

/-- The exit code of a run and what it printed. -/
structure Report where
  code : Nat
  output : String
  errors : String

/-- A failure as a complaint, with what was being done if that is told. -/
def complain (result : Except Failure α) (doing : Option String := none) : Except Complaint α :=
  result.mapError fun failure => ⟨failure.text, doing⟩

/-- A name in a column of twelve characters, and the description behind it. -/
def modeLine (mode : Mode) : String :=
  let blanks := String.ofList (List.replicate (12 - mode.name.length) ' ')
  mode.name ++ blanks ++ mode.flavour.description ++ "\n"

def selectMode (registry : Registry) (name : String) : Except Complaint Mode :=
  match registry.get? name with
  | some mode => .ok mode
  | none =>
    let names := String.intercalate ", " registry.names
    .error { message := s!"unknown mode '{name}', expected one of: {names}" }

def choosePrecision (precision : Option Nat) (mode : Mode) : Mode :=
  (precision.map mode.setPrecision).getD mode

def chooseParser (parser : Option String) (mode : Mode) : Except Complaint Mode :=
  match parser with
  | some name => (complain (ParserKind.ofName name)).map mode.setParser
  | none => .ok mode

def chooseBase (base : Option Nat) (mode : Mode) : Except Complaint Mode :=
  match base with
  | some radix => complain (mode.setDisplayBase radix) s!"cannot display results in base {radix}"
  | none => .ok mode

def configure (options : Options) (mode : Mode) : Except Complaint Mode := do
  chooseBase options.base (← chooseParser options.parser (choosePrecision options.precision mode))

def tokenLine (expression : String) : Except Complaint String := do
  return Token.layout (← complain (Token.scan expression) "could not tokenize expression") ++ "\n"

def treeText (draw : Expr → String) (mode : Mode) (expression : String) : Except Complaint String := do
  let tree ← complain (mode.parser.convert mode.context.table expression) "could not parse expression"
  return tree.outlineBy draw

def resultLine (mode : Mode) (expression : String) : Except Complaint String := do
  return (← complain (mode.formatValue (← complain (mode.evaluate expression)))) ++ "\n"

/-- The texts to be printed one after the other. -/
def stages (draw : Expr → String) (options : Options) (mode : Mode) (expression : String) :
    List (Except Complaint String) :=
  (if options.tokens then [tokenLine expression] else []) ++
    (if options.tree then [treeText draw mode expression] else []) ++ [resultLine mode expression]

/-- Prints texts after `output`, up to the first that cannot be made. -/
def print (output : String) : List (Except Complaint String) → Report
  | [] => ⟨0, output, ""⟩
  | .ok text :: rest => print (output ++ text) rest
  | .error complaint :: _ => ⟨1, output, complaint.text⟩

def prepare (options : Options) (registry : Registry) : Except Complaint (String × Mode) := do
  match options.expression with
  | none => .error { message := "no expression given" }
  | some expression =>
    return (expression, ← configure options (← selectMode registry options.mode))

/-- A run in which trees are drawn by `draw`. -/
def runWith (draw : Expr → String) (options : Options) : Report :=
  let registry := Registry.initial
  if options.listModes then
    ⟨0, String.join ((registry.names.filterMap registry.get?).map modeLine), ""⟩
  else
    match prepare options registry with
    | .ok (expression, mode) => print "" (stages draw options mode expression)
    | .error complaint => ⟨1, "", complaint.text⟩

def run (options : Options) : Report :=
  runWith Expr.drawing options

end Calculator.CommandLine
