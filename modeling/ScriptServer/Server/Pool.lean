import ScriptServer.Config.Settings
import ScriptServer.Log.Panic
import ScriptServer.Route.Table
import ScriptServer.Server.Replica
import ScriptServer.Server.Slots

/-!
# The pool of interpreters

Routes are collected until they are published, and then stay as they are. From then on interpreters
can be acquired: one that is ready, or else a new replica. An interpreter serves one request, and
releasing it gives back its slot and not the interpreter, so nothing that one request leaves behind
reaches another.
-/

namespace ScriptServer

open Script (Context Loader Ending)

namespace Server

inductive Routes where
  | collecting (registry : Route.Registry)
  | published (table : Route.Table)
  deriving Repr

/-- What a server is set up with, its routes and its interpreters. -/
structure Pool where
  entry : EntryScript
  settings : Settings
  /-- The modules that the program around the server provides. -/
  modules : Dictionary Loader
  routes : Routes
  slots : Slots Interpreter

namespace Pool

def ofEntry (entry : EntryScript) (settings : Settings) : Pool :=
  ⟨entry, settings, [], .collecting .empty, .empty⟩

/-- The routes, once they are published. -/
def table? (p : Pool) : Option Route.Table :=
  match p.routes with
  | .collecting _ => none
  | .published table => some table

/-- Provides a module to every interpreter that is made from now on. -/
def registerModule (p : Pool) (name : String) (loader : Loader) : Except Fault Pool :=
  if Script.builtinModules.contains name then .error (.reservedModule name)
  else
    match p.routes with
    | .published _ => .error .routesFrozen
    | .collecting _ => .ok { p with modules := p.modules.insert name loader }

/-- Registers a handler and gives its number. -/
def registerHandler (p : Pool) (method pattern : String) : Except Fault (Nat × Pool) :=
  match p.routes with
  | .published _ => .error .routesFrozen
  | .collecting registry =>
    match registry.registerHandler method pattern with
    | .error e => .error (.route e)
    | .ok (id, registry) => .ok (id, { p with routes := .collecting registry })

/-- Registers a route and gives its key. -/
def registerRoute (p : Pool) (method pattern : String) (target : Route.Target) :
    Except Fault (Route.Key × Pool) :=
  match p.routes with
  | .published _ => .error .routesFrozen
  | .collecting registry =>
    match registry.register method pattern target with
    | .error e => .error (.route e)
    | .ok (key, registry) => .ok (key, { p with routes := .collecting registry })

def context (p : Pool) : Context Replica := ⟨Replica.services, p.modules, p.entry.searchPath⟩

def build (p : Pool) (table : Route.Table) (w : World) : Ending Fault Interpreter × World :=
  Interpreter.build p.context p.entry p.settings.memoryLimitBytes table.handlerKeys w

end Pool

end Server

open Server in
/-- A pool of interpreters and its surroundings. -/
structure Server where
  pool : Pool
  world : World

namespace Server

def onSlots (change : Slots Interpreter → Slots Interpreter) (s : Server) : Server :=
  { s with pool := { s.pool with slots := change s.pool.slots } }

def log (level : Log.Level) (message : String) (s : Server) : Server :=
  { s with world := s.world.log level message }

/-- Publishes the routes, or gives those that are published already. -/
def publish (s : Server) : Route.Table × Server :=
  match s.pool.routes with
  | .published table => (table, s)
  | .collecting registry =>
    let table := registry.freeze
    (table,
      Server.log .debug
        ("published " ++ Text.number table.entries.length ++ " routes (" ++
          Text.number table.handlerKeys.length ++ " script handlers)")
        { s with pool := { s.pool with routes := .published table } })

/-- Makes up to so many interpreters and keeps them ready. The task ends early if one cannot be
made. If it crashes it never notes that it is over. -/
def refill (table : Route.Table) : Nat → Server → Server
  | 0, s => s.onSlots Slots.endRefill
  | n + 1, s =>
    match s.pool.build table s.world with
    | (.ok i, w) => refill table n ({ s with world := w }.onSlots (Slots.store i))
    | (.error e, w) =>
      ({ s with world := w }.log .warn ("interpreter prewarm failed: " ++ e.message)).onSlots
        Slots.endRefill
    | (.panic text, w) =>
      { s with world := w }.log .error ("task panicked: " ++ (Log.Panic.built text).report)
    | (.endless, w) => { s with world := w }

/-- Starts a task that makes the interpreters that are lacking. It runs at once. -/
def scheduleRefill (s : Server) : Server :=
  match s.pool.table? with
  | none => s
  | some table =>
    let prewarm := s.pool.settings.prewarm
    match s.pool.slots.startRefill? prewarm with
    | none => s
    | some slots =>
      refill table (prewarm - slots.free.length) { s with pool := { s.pool with slots } }

/-- Checks out an interpreter that has served nothing yet. While all slots are taken this waits, and
nothing else happens that could end the wait. A crash of the entry script keeps the slot. -/
def acquire (s : Server) : Ending Fault Interpreter × Server :=
  match s.pool.table? with
  | none => (.error .unpublished, s)
  | some table =>
    match s.pool.slots.take? s.pool.settings.maxInterpreters with
    | none => (.endless, s)
    | some (some i, slots) => (.ok i, { s with pool := { s.pool with slots } })
    | some (none, slots) =>
      let s := { s with pool := { s.pool with slots } }
      match s.pool.build table s.world with
      | (.ok i, w) => (.ok i, { s with world := w })
      | (.error e, w) => (.error e, { s with world := w }.onSlots Slots.release)
      | (.panic text, w) => (.panic text, { s with world := w })
      | (.endless, w) => (.endless, { s with world := w })

def release (s : Server) : Server := (s.onSlots Slots.release).scheduleRefill

end Server

end ScriptServer
