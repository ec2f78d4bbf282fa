import Calculator.Mode.Basic

/-!
# Registries of modes

The modes by their names.
-/

namespace Calculator

structure Registry where
  modes : Std.TreeMap String Mode

namespace Registry

/-- The name of the mode that is used when none is chosen. -/
def defaultName : String := "standard"

def empty : Registry := ⟨∅⟩

def get? (registry : Registry) (name : String) : Option Mode :=
  registry.modes[name]?

def contains (registry : Registry) (name : String) : Bool :=
  registry.modes.contains name

/-- Adds a mode under its own name, unless the name is taken. -/
def register? (registry : Registry) (mode : Mode) : Option Registry :=
  if registry.contains mode.name then none else some ⟨registry.modes.insert mode.name mode⟩

/-- Puts a mode in the place of the one that has its name. -/
def replace (registry : Registry) (mode : Mode) : Registry :=
  ⟨registry.modes.insert mode.name mode⟩

def initial : Registry :=
  [Flavour.standard, .scientific, .programmer].foldl
    (fun registry flavour => (registry.register? (.ofFlavour flavour)).getD registry) empty

def names (registry : Registry) : List String :=
  registry.modes.keys

def default? (registry : Registry) : Option Mode :=
  registry.get? defaultName

end Registry

end Calculator
