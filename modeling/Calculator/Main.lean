import Calculator.CommandLine.Arguments

/-!
# The program

Reads the arguments, prints the report of the run, and exits with its code.
-/

open Calculator

def main (arguments : List String) : IO UInt32 := do
  match CommandLine.Options.ofArguments arguments with
  | .ok options =>
    let report := CommandLine.run options
    IO.print report.output
    IO.eprint report.errors
    return report.code.toUInt32
  | .error argument =>
    IO.eprintln s!"error: unexpected argument '{argument}'"
    return 2
