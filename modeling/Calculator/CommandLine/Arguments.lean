import Calculator.CommandLine

/-!
# Arguments of the command line

Options are written `--name value` or `--name=value`, some also by one letter; flags stand alone. The
first argument that is no option is the expression, and after `--` no argument is an option.
-/

namespace Calculator.CommandLine

/-- Sets the option with the given name, if there is one and the value fits. -/
def Options.set? (options : Options) (name value : String) : Option Options :=
  match name with
  | "--mode" | "-m" => some { options with mode := value }
  | "--parser" => some { options with parser := value }
  | "--precision" | "-p" => value.toNat?.map fun precision => { options with precision := precision }
  | "--base" | "-b" => value.toNat?.map fun base => { options with base := base }
  | _ => none

/-- Sets the flag with the given name, if there is one. -/
def Options.setFlag? (options : Options) (name : String) : Option Options :=
  match name with
  | "--tree" => some { options with tree := true }
  | "--tokens" => some { options with tokens := true }
  | "--list-modes" => some { options with listModes := true }
  | _ => none

/-- Takes an argument as the expression, unless there is one already. -/
def Options.setExpression? (options : Options) (text : String) : Option Options :=
  if options.expression.isSome then none else some { options with expression := text }

/-- Splits `--name=value` at the first equals sign. -/
def splitOption? (argument : String) : Option (String × String) :=
  let text := argument.toList
  let name := text.takeWhile (· ≠ '=')
  if argument.startsWith "--" && name.length < text.length then
    some (String.ofList name, String.ofList (text.drop (name.length + 1)))
  else none

/-- Adds the arguments to the options, or gives the first that cannot be understood. -/
def Options.addArguments (options : Options) : List String → Except String Options
  | [] => .ok options
  | ["--", expression] =>
    match options.setExpression? expression with
    | some options => .ok options
    | none => .error expression
  | argument :: rest =>
    match splitOption? argument with
    | some (name, value) =>
      match options.set? name value with
      | some options => options.addArguments rest
      | none => .error argument
    | none =>
      match options.setFlag? argument with
      | some options => options.addArguments rest
      | none =>
        if argument.startsWith "-" then
          match rest with
          | value :: rest =>
            match options.set? argument value with
            | some options => options.addArguments rest
            | none => .error argument
          | [] => .error argument
        else
          match options.setExpression? argument with
          | some options => options.addArguments rest
          | none => .error argument

def Options.ofArguments (arguments : List String) : Except String Options :=
  Options.addArguments {} arguments

end Calculator.CommandLine
