import ScriptServer.Text.Basic

/-!
# Levels of the log

Four levels from quiet to verbose. A filter is the most verbose level that is printed, or nothing.
-/

namespace ScriptServer.Log

inductive Level where
  | error
  | warn
  | info
  | debug
  deriving DecidableEq, Repr

namespace Level

def rank : Level → Nat
  | error => 1
  | warn => 2
  | info => 3
  | debug => 4

def tag : Level → String
  | error => "error"
  | warn => "warn"
  | info => "info"
  | debug => "debug"

/-- The filter that a word sets. -/
def filter? (raw : String) : Option Level :=
  let word := Text.toLower (Text.trim raw)
  if word = "1" ∨ word = "true" ∨ word = "info" then some info
  else if word = "debug" ∨ word = "trace" then some debug
  else if word = "warn" ∨ word = "warning" then some warn
  else if word = "error" then some error
  else none

def passes (l : Level) (filter : Option Level) : Bool :=
  match filter with
  | some most => l.rank ≤ most.rank
  | none => false

end Level

/-- The text that a message leaves in the log: one line, or nothing. -/
def line (filter : Option Level) (l : Level) (message : String) : String :=
  if l.passes filter then "[" ++ l.tag ++ "] " ++ message ++ "\n" else ""

end ScriptServer.Log
