/-!
# Reports of crashed tasks

A task that crashes leaves a payload. A report names the kind of payload and its text.
-/

namespace ScriptServer.Log

/-- What a crashed task leaves behind. -/
inductive Panic where
  /-- A text that is part of the program. -/
  | fixed (text : String)
  /-- A text made when the task crashed. -/
  | built (text : String)
  | opaquePayload
  deriving DecidableEq, Repr

namespace Panic

def kind : Panic → String
  | fixed _ => "panic_static_str"
  | built _ => "panic_string"
  | opaquePayload => "panic_non_string"

def message : Panic → String
  | fixed text => text
  | built text => text
  | opaquePayload => "panic"

def report (p : Panic) : String :=
  if p.message.isEmpty then "panic_kind=" ++ p.kind
  else "panic_kind=" ++ p.kind ++ " " ++ p.message

end Panic

end ScriptServer.Log
