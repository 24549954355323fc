import ScriptServer.Config.Environment
import ScriptServer.Json.Writer
import ScriptServer.Log.Level

/-!
# The access log

One record for every request that was answered. Records are written as JSON objects when the
variable `LUME_REQUEST_LOG` asks for it, and otherwise as plain lines of level `info`.
-/

namespace ScriptServer.Log

/-- What is noted about a request that was answered. -/
structure Access where
  requestId : String
  method : String
  path : String
  route : Option String
  status : Nat
  micros : Nat
  responseBytes : Nat
  deriving DecidableEq, Repr

namespace Access

/-- The time that the request took, in whole milliseconds. -/
def millis (r : Access) : Nat := r.micros / 1000

/-- A count as a JSON number. -/
def count (n : Nat) : Json.Tree := .number (Binary64.ofInt n)

def tree (r : Access) : Json.Tree :=
  .object (Dictionary.ofList
    ([("duration_ms", count r.millis), ("event", .string "http.request"),
      ("method", .string r.method), ("path", .string r.path), ("request_id", .string r.requestId),
      ("response_bytes", count r.responseBytes), ("status", count r.status)] ++
      match r.route with
      | some route => [("route", .string route)]
      | none => []))

def structured (r : Access) : String :=
  match Json.encode r.tree with
  | .ok text => text
  | .error _ => ""

def plain (r : Access) : String :=
  r.method ++ " " ++ r.path ++ " -> " ++ Text.number r.status ++ " (" ++
    Text.number r.millis ++ "ms, " ++ r.requestId ++ ")"

def wantsStructured (env : Environment) : Bool :=
  match env.text? "LUME_REQUEST_LOG" with
  | none => false
  | some raw => ["1", "true", "structured", "json"].contains (Text.toLower (Text.trim raw))

/-- The text that a record leaves in the log. -/
def entry (env : Environment) (filter : Option Level) (r : Access) : String :=
  if wantsStructured env then r.structured ++ "\n" else line filter .info r.plain

end Access

end ScriptServer.Log
