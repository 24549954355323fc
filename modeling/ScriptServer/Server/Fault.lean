import ScriptServer.Host.Files
import ScriptServer.Route.Registry
import ScriptServer.Script.Eval

/-!
# Faults of a server

What can go wrong between starting a server and answering a request, with the wording that is shown
and logged.
-/

namespace ScriptServer.Server

/-- Where the handlers of an interpreter differ from those that the server has published. -/
inductive Divergence where
  /-- The first handler that has another key. -/
  | key (id : Nat) (own published : Route.Key)
  | count (own published : Nat)
  deriving DecidableEq, Repr

def Divergence.message : Divergence → String
  | key id own published =>
    "handler " ++ Text.number id ++ " is " ++ own.text ++ " instead of " ++ published.text
  | count own published =>
    Text.number own ++ " handlers registered, expected " ++ Text.number published

/-- The first difference between two lists of keys. -/
def divergence? (own published : List Route.Key) : Option Divergence :=
  if own = published then none
  else
    match ((own.zip published).zipIdx).find? fun e => e.1.1 ≠ e.1.2 with
    | some ((a, b), id) => some (.key id a b)
    | none => some (.count own.length published.length)

inductive Fault where
  /-- A script failed, or its interpreter. -/
  | script (fault : Script.Fault)
  | route (fault : Route.Fault)
  | reservedModule (name : String)
  | noHandler (id : Nat)
  /-- A handler ran longer than so many milliseconds. -/
  | timeout (limit : Nat)
  | unpublished
  /-- The entry script failed in an interpreter that was to serve. -/
  | entryFailed (fault : Script.Fault)
  | diverged (d : Divergence)
  /-- A route or module was registered after the routes were published. -/
  | routesFrozen
  | unreadable (path : String) (cause : Files.Fault)
  deriving DecidableEq, Repr

def Fault.message : Fault → String
  | script fault => fault.message
  | route fault => fault.message
  | reservedModule name => "module name '" ++ name ++ "' is reserved"
  | noHandler id => "no handler registered under id " ++ Text.number id
  | timeout limit => "handler timed out after " ++ Text.number limit ++ "ms"
  | unpublished => "bootstrap failed: routes have not been published"
  | entryFailed fault => "bootstrap failed: " ++ fault.message
  | diverged d =>
    "bootstrap failed: entry script registered different routes on replay: " ++ d.message
  | routesFrozen => "routes cannot be registered after the server has started"
  | unreadable path cause => "failed to read " ++ path ++ ": " ++ cause.message

end ScriptServer.Server
