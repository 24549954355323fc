import ScriptServer.Server.EntryScript

/-!
# Interpreters that serve

A function of a script cannot move from one interpreter to another, so every interpreter that serves
is a replica: it runs the entry script itself, registers the same handlers under the same numbers,
and stops at `router.listen`. After that it is sealed and registers nothing more. A replica whose
handlers differ from the published ones is not used.
-/

namespace ScriptServer.Server

open Script (Context Machine Services Value Ending)

/-- The place of a replica in the server. -/
structure Replica where
  registry : Route.Registry
  listenReached : Bool
  /-- The entry script is over. -/
  isSealed : Bool
  deriving DecidableEq, Repr

namespace Replica

def fresh : Replica := ⟨.empty, false, false⟩

def finished (r : Replica) : Replica := { r with isSealed := true }

/-- Registers a handler under the number that it has in every replica. -/
def addHandler (method pattern : String) (r : Replica) : Except String Nat × Replica :=
  if r.isSealed then (.error Fault.routesFrozen.message, r)
  else
    match r.registry.registerHandler method pattern with
    | .error e => (.error e.message, r)
    | .ok (id, registry) => (.ok id, { r with registry })

/-- Checks a route to files. Where the files are is known to the server already. -/
def addStatic (_ : Script.StaticKind) (pattern path : String) (r : Replica) :
    Except String Unit × Replica :=
  if r.isSealed then (.error Fault.routesFrozen.message, r)
  else
    match r.registry.register Route.anyMethod pattern (.file path) with
    | .error e => (.error e.message, r)
    | .ok (_, registry) => (.ok (), { r with registry })

def listen (_ : String) (r : Replica) (w : World) : Script.Outcome Unit × Replica × World :=
  if r.isSealed then (.failed (.message Fault.routesFrozen.message), r, w)
  else
    (.failed (.message "router.listen reached"),
      { r with listenReached := true, isSealed := true }, w)

def services : Services Replica := ⟨addHandler, addStatic, listen⟩

end Replica

def standardLibraries : List String :=
  ["_G", "package", "coroutine", "table", "io", "os", "string", "math", "utf8"]

def addModule (name : String) (h : Script.Heap) : Value × Script.Heap :=
  let (fields, h) := (Script.moduleFunctions name).foldl
    (fun (fields, h) (field, b) =>
      let (f, h) := h.addFunction (.builtin b)
      ((Value.ofText field, f) :: fields, h))
    ([], h)
  h.addTable ⟨fields.reverse, none⟩

/-- The modules that are loaded from the start, and the objects that they are made of. -/
def firstObjects (base : Nat) : List (Bytes × Value) × Script.Heap :=
  (Script.builtinModules ++ standardLibraries).foldl
    (fun (loaded, h) name =>
      let (v, h) := addModule name h
      ((Utf8.ofText name, v) :: loaded, h))
    ([], .startingAt base)

/-- An interpreter that has run nothing yet. Its objects begin at the next base. -/
def freshMachine {ρ : Type} (args : Dictionary String) (place : ρ) (w : World) : Machine ρ :=
  let made := firstObjects (w.bases 0)
  let arg := made.2.addTable
    ⟨args.map fun (key, v) => (Value.ofText key, Value.ofText v), none⟩
  let named := Script.builtinModules.map fun name =>
    (name, (made.1.lookup (Utf8.ofText name)).getD .nil)
  { heap := arg.2.arrangedFrom w.arrangement (w.bases 0)
    globals := Dictionary.ofList (("arg", arg.1) :: named)
    loaded := made.1
    handlers := []
    labels := []
    params := []
    place
    world := w.afterMaking }

def leastMemory : Nat := 16 * 1024

/-- A limit of zero is none. -/
def isLimited (limit : Option Nat) : Bool := limit.any (· != 0)

/-- A limit that leaves too little memory for an interpreter. -/
def isStarved (limit : Option Nat) : Bool := isLimited limit && limit.any (· < leastMemory)

/-- A limit leaves no memory for a table and so many entries. -/
def refusesTable (limit : Option Nat) (entries : Nat) (w : World) : Bool :=
  isLimited limit && (w.calls 0).room.any (· ≤ entries)

/-- An interpreter that is ready to serve. -/
structure Interpreter where
  machine : Machine Replica

namespace Interpreter

/-- Checks the handlers of a replica that has run the entry script, and seals it. -/
def ofMachine (published : List Route.Key) (m : Machine Replica) : Ending Fault Interpreter :=
  match divergence? m.place.registry.handlerKeys published with
  | some d => .error (.diverged d)
  | none => .ok ⟨{ m with place := m.place.finished }⟩

/-- Runs the entry script in a new interpreter and checks the handlers that it registers. An error
after `router.listen` does no harm. -/
def build (c : Context Replica) (e : EntryScript) (memory : Option Nat)
    (published : List Route.Key) (w : World) : Ending Fault Interpreter × World :=
  if isStarved memory then (.error (.script Script.noMemory), w)
  else
    match Script.runSource c e.source (freshMachine e.args Replica.fresh w) with
    | (.ok (), m) => (ofMachine published m, m.world)
    | (.error fault, m) =>
      (if m.place.listenReached then ofMachine published m else .error (.entryFailed fault),
        m.world)
    | (.panic text, m) => (.panic text, m.world)
    | (.endless, m) => (.endless, m.world)

/-- How a run ended, as a handler's. -/
def ofRun : Ending Script.Fault Value → Ending Fault Value
  | .ok v => .ok v
  | .error fault => .error (.script fault)
  | .panic text => .panic text
  | .endless => .endless

/-- What a call comes to. If it has taken longer than its limit it does not matter how it ended, and
what never ends takes longer than any limit. -/
def withLimit (limit : Option Nat) (expired : Bool) (result : Ending Script.Fault Value) :
    Ending Fault Value :=
  match limit with
  | some ms => if expired || result.isEndless then .error (.timeout ms) else ofRun result
  | none => ofRun result

/-- Calls a handler. With a limit of milliseconds it is stopped once its time is up. -/
def invoke (c : Context Replica) (id : Nat) (args : List Value) (limit : Option Nat)
    (i : Interpreter) : Ending Fault Value × Interpreter :=
  match i.machine.handlers.lookup id with
  | none => (.error (.noHandler id), i)
  | some f =>
    let m := i.machine.timed (.start (i.machine.world.deadline limit))
    let (result, m) := Script.finish c (Script.callClosure c c.run f args) m
    (withLimit limit m.world.timer.exceeded?.isSome result, ⟨m.timed (.start none)⟩)

/-- The interpreter in other surroundings. -/
def enter (w : World) (i : Interpreter) : Interpreter := ⟨{ i.machine with world := w }⟩

def addTexts (texts : Dictionary String) (i : Interpreter) : Value × Interpreter :=
  let h := i.machine.heap
  let (v, heap) := h.addTable
    ⟨texts.map fun (key, v) => (Value.ofText key, Value.ofText v), none⟩
  (v, ⟨{ i.machine with
    heap := heap.arrangedFrom i.machine.world.arrangement h.tables.size }⟩)

end Interpreter

end ScriptServer.Server
