import ScriptServer.Server.Listener

/-!
# Starting a server

The entry script runs once in a startup interpreter. There the `router` module registers routes with
the pool, and `listen` publishes them and serves until the server stops.
-/

namespace ScriptServer.Server

open Script (Context Ending Services StaticKind)

namespace Startup

def addHandler (method pattern : String) (p : Pool) : Except String Nat × Pool :=
  match p.registerHandler method pattern with
  | .error e => (.error e.message, p)
  | .ok (id, p) => (.ok id, p)

def staticTarget (kind : StaticKind) (path : String) : Route.Target :=
  match kind with
  | .file => .file path
  | .directory => .directory path

def addStatic (kind : StaticKind) (pattern path : String) (p : Pool) : Except String Unit × Pool :=
  match p.registerRoute Route.anyMethod pattern (staticTarget kind (p.entry.resolvePath path)) with
  | .error e => (.error e.message, p)
  | .ok (_, p) => (.ok (), p)

def listen (addr : String) (p : Pool) (w : World) : Script.Outcome Unit × Pool × World :=
  if p.table?.isSome then (.failed (.message "server is already running"), p, w)
  else
    let (table, s) := Server.publish ⟨p, w⟩
    let s := s.scheduleRefill.log .info
      ("starting server on " ++ addr ++ " with " ++ Text.number table.entries.length ++ " routes")
    match s.serve addr with
    | (.ok (), s) => (.ok (), s.pool, s.world)
    | (.error text, s) => (.failed (.message text), s.pool, s.world)
    | (.panic text, s) => (.failed (.panic text), s.pool, s.world)
    | (.endless, s) => (.failed .endless, s.pool, s.world)

def services : Services Pool := ⟨addHandler, addStatic, listen⟩

end Startup

/-- Runs the entry script, which for a script that listens ends when the server stops. -/
def runEntry (s : Server) : Ending Fault Unit × Server :=
  if isStarved s.pool.settings.memoryLimitBytes then (.error (.script Script.noMemory), s)
  else
    let c : Context Pool := ⟨Startup.services, s.pool.modules, s.pool.entry.searchPath⟩
    let (result, m) :=
      Script.runSource c s.pool.entry.source (freshMachine s.pool.entry.args s.pool s.world)
    let s : Server := ⟨m.place, m.world⟩
    match result with
    | .ok () => (.ok (), s)
    | .error e => (.error (.script e), s)
    | .panic text => (.panic text, s)
    | .endless => (.endless, s)

end ScriptServer.Server
