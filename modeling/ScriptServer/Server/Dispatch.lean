import ScriptServer.Route.Table
import ScriptServer.Script.Synthesis
import ScriptServer.Server.Pool
import ScriptServer.Server.Static

/-!
# Answering requests

The route of a request decides what answers it: a handler, files, or nobody. A handler runs in an
interpreter of its own. What it gives back is made into a response; if it fails or runs too long,
the response says so.
-/

namespace ScriptServer.Server

open Http (Request Response)
open Script (Ending)

inductive Phase where
  | matched
  | executing
  | completed
  | failed
  deriving DecidableEq, Repr

structure Execution where
  handler : Nat
  method : String
  path : String
  params : Dictionary String
  phase : Phase
  deriving DecidableEq, Repr

def Execution.start (handler : Nat) (method path : String) (params : Dictionary String) :
    Execution :=
  ⟨handler, method, path, params, .matched⟩

structure Reply where
  response : Response
  /-- The key of the route that was found. -/
  route : Option String
  /-- How a request to a handler ended. -/
  phase : Option Phase
  deriving DecidableEq, Repr

def responseOf (s : Script.Synthesis) : Response :=
  s.headers.foldl (fun r (name, value) => r.setHeader name value)
    { Response.ofStatus s.status with body := Utf8.ofText s.body }

def failureResponse (e : Fault) : Response :=
  let status := match e with
    | .timeout _ => 504
    | _ => 500
  .ofText status e.message

/-- Calls the handler of a request. There may be no memory for the table of its parameters, or for
one of them. -/
def callHandler (p : Pool) (e : Execution) (i : Interpreter) :
    Ending Fault Script.Value × Interpreter :=
  if refusesTable p.settings.memoryLimitBytes e.params.length i.machine.world then
    (.error (.script Script.noMemory), i)
  else
    let (params, i) := i.addTexts e.params
    i.invoke p.context e.handler [.ofText e.method, .ofText e.path, params]
      p.settings.handlerTimeoutMs

/-- Runs a handler in an interpreter that was acquired for it, and releases that. -/
def runHandler (e : Execution) (i : Interpreter) (s : Server) :
    Ending Fault Script.Synthesis × Server :=
  let (result, i) := callHandler s.pool e (i.enter s.world)
  let s := { s with world := i.machine.world.afterCall }
  match result with
  | .ok v => (.ok (Script.synthesize i.machine.heap s.pool.settings.serverName v), s.release)
  | .error e => (.error e, s.release)
  | .panic text => (.panic text, s.release)
  | .endless => (.endless, s)

def runScript (e : Execution) (s : Server) : Ending Fault Script.Synthesis × Server :=
  match s.acquire with
  | (.ok i, s) => runHandler e i s
  | (.error e, s) => (.error e, s)
  | (.panic text, s) => (.panic text, s)
  | (.endless, s) => (.endless, s)

def execute (e : Execution) (s : Server) : Ending Empty (Response × Execution) × Server :=
  match runScript e s with
  | (.ok synthesis, s) => (.ok (responseOf synthesis, { e with phase := .completed }), s)
  | (.error fault, s) =>
    (.ok (failureResponse fault, { e with phase := .failed }),
      s.log .error ("handler for " ++ e.method ++ " " ++ e.path ++ " failed: " ++ fault.message))
  | (.panic text, s) => (.panic text, s)
  | (.endless, s) => (.endless, s)

def handle (table : Route.Table) (request : Request) (s : Server) :
    Ending Empty Reply × Server :=
  match table.resolve request.method request.path with
  | .notFound => (.ok ⟨Static.notFound, none, none⟩, s)
  | .methodNotAllowed allowed => (.ok ⟨Static.notAllowed allowed, none, none⟩, s)
  | .found key target params =>
    let route := some key.text
    match target with
    | .file path => (.ok ⟨Static.serveFile s.world.files request path, route, none⟩, s)
    | .directory dir =>
      let rest := (params.get? Route.restName).getD ""
      (.ok ⟨Static.serveDirectory s.world.files request dir rest, route, none⟩, s)
    | .handler id =>
      match execute (.start id request.method request.path params) s with
      | (.ok (response, e), s) => (.ok ⟨response, route, some e.phase⟩, s)
      | (.panic text, s) => (.panic text, s)
      | (.endless, s) => (.endless, s)

end ScriptServer.Server
