import ScriptServer.Dictionary
import ScriptServer.Text.Basic

/-!
# Command line flags

A flag is `-name=value`, `-name value` or a bare `-name`, with any positive number of dashes. A
value in an argument of its own does not begin with a dash. Arguments that belong to no flag are
passed over, and of two flags with one name the later one counts.
-/

namespace ScriptServer.Flags

def isDashed (arg : String) : Bool := arg.toList.head? == some '-'

/-- The part of an argument behind its dashes. -/
def body (arg : String) : List Char := arg.toList.dropWhile (· == '-')

/-- The flag that an argument begins, and its value if the argument holds one. -/
def flag? (arg : String) : Option (String × Option String) :=
  let name := body arg
  if !isDashed arg || name.isEmpty then none
  else
    match Text.splitOnce '=' name with
    | some (name, value) => some (String.ofList name, some (String.ofList value))
    | none => some (String.ofList name, none)

def items : List String → List (String × String)
  | [] => []
  | [arg] =>
    match flag? arg with
    | none => []
    | some (name, value) => [(name, value.getD "")]
  | arg :: next :: rest =>
    match flag? arg with
    | none => items (next :: rest)
    | some (name, some value) => (name, value) :: items (next :: rest)
    | some (name, none) =>
      if isDashed next then (name, "") :: items (next :: rest) else (name, next) :: items rest

def read (args : List String) : Dictionary String := Dictionary.ofList (items args)

end ScriptServer.Flags
