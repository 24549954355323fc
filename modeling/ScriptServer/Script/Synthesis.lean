import ScriptServer.Dictionary
import ScriptServer.Http.Header
import ScriptServer.Script.Display

/-!
# Responses from handler results

A handler answers with a table that has a status, headers and a body, or with any other value, which
is the body then. Fields are read as they stand in the table, without its metatable. Header names
get their canonical spelling, and the content type and the server are added where the script gives
none.
-/

namespace ScriptServer.Script

/-- The parts of a response that a handler's result determines. -/
structure Synthesis where
  status : Nat
  headers : Dictionary String
  body : String
  deriving DecidableEq, Repr

def defaultContentType : String := "text/html;charset=UTF-8"

def defaultStatus : Nat := 200

/-- A number of three digits up to 599 as a status, any other as the default. -/
def statusOf (code : Int) : Nat :=
  if 100 ≤ code ∧ code < 600 then code.toNat else defaultStatus

/-- The status that a value stands for. A fraction is cut off. -/
def clampStatus : Value → Nat
  | .integer i => statusOf i.toInt
  | .float x => if x.isFinite then statusOf x.truncate else defaultStatus
  | _ => defaultStatus

/-- The headers that every response has. -/
def defaultHeaders (serverName : String) : Dictionary String :=
  Dictionary.ofList [("Content-Type", defaultContentType), ("Server", serverName)]

def mergeHeaders (entries : List (Value × Value)) (headers : Dictionary String) :
    Dictionary String :=
  entries.foldl (fun hs (key, v) => hs.insert (Http.canonical key.display) v.display) headers

/-- The response of a handler's result. -/
def synthesize (h : Heap) (serverName : String) (v : Value) : Synthesis :=
  match v with
  | .table id =>
    let t := h.table id
    let headers :=
      match t.field "headers" with
      | .table extra => mergeHeaders (h.table extra).entries (defaultHeaders serverName)
      | _ => defaultHeaders serverName
    let body :=
      match t.field "body" with
      | .nil => ""
      | body => body.display
    { status := clampStatus (t.field "status"), headers, body }
  | v => { status := defaultStatus, headers := defaultHeaders serverName, body := v.display }

end ScriptServer.Script
