/-!
# Faults of scripts

What went wrong in an interpreter, with the wording that a script's author is shown: the innermost
message, without the trace of calls that may follow it.
-/

namespace ScriptServer.Script

inductive Fault where
  /-- The script failed while it ran. -/
  | runtime (text : String)
  /-- The script is malformed. -/
  | malformed (text : String)
  /-- The interpreter has no memory left. -/
  | memory (text : String)
  /-- A function that the script called failed. -/
  | inCall (cause : Fault)
  deriving DecidableEq, Repr

/-- What comes before the trace of calls. -/
def cutTraceChars : List Char → List Char
  | [] => []
  | c :: cs =>
    if "\nstack traceback:".toList.isPrefixOf (c :: cs) then [] else c :: cutTraceChars cs

def cutTrace (text : String) : String := String.ofList (cutTraceChars text.toList)

def Fault.message : Fault → String
  | runtime text => cutTrace text
  | malformed text => "syntax error: " ++ text
  | memory text => "out of memory: " ++ text
  | inCall cause => cause.message

end ScriptServer.Script
