import ScriptServer.Host.World
import ScriptServer.Script.Interchange

/-!
# Script interpreters

The state of one interpreter: its objects, its globals, the modules it has loaded and the handlers
it has registered. What the `router` module does depends on where the interpreter stands in the
server, so that part of the state has a type of its own, `ρ`, and comes with the operations on it. A
run changes the state and gives a result or fails, and a failure leaves the changes in place.
-/

namespace ScriptServer.Script

/-- Why a run has no result. -/
inductive Failure where
  /-- The script failed with a value. -/
  | value (v : Value)
  /-- A function of the server failed with a message. -/
  | message (text : String)
  /-- A function of the program around the server crashed. -/
  | panic (text : String)
  /-- The script never ends by itself. No script can catch this. -/
  | endless
  deriving DecidableEq, Repr, Inhabited

inductive Outcome (α : Type) where
  | ok (a : α)
  | failed (f : Failure)
  deriving Repr

/-- How the table of a module is made that the program around the server provides: from texts, or
not at all. -/
inductive Loader where
  | fields (texts : Dictionary Bytes)
  | failing (text : String)
  | panicking (text : String)
  deriving Repr

/-- What the `router` module does to an interpreter's place in the server, and the messages with
which it refuses. -/
structure Services (ρ : Type) where
  /-- Adds a route with the next handler number. -/
  addHandler : (method pattern : String) → ρ → Except String Nat × ρ
  /-- Adds a route to files. -/
  addStatic : StaticKind → (pattern path : String) → ρ → Except String Unit × ρ
  /-- Serves requests until the server stops. -/
  listen : (addr : String) → ρ → World → Outcome Unit × ρ × World

/-- An interpreter. -/
structure Machine (ρ : Type) where
  heap : Heap
  globals : Dictionary Value
  /-- The modules that were loaded, under their names. -/
  loaded : List (Bytes × Value)
  /-- The functions of the handlers, under their numbers. -/
  handlers : List (Nat × Closure)
  /-- The tables that have a label. -/
  labels : List (Nat × Value)
  /-- The parameters of the function that is running. -/
  params : List Value
  place : ρ
  world : World

def Machine.timed {ρ : Type} (m : Machine ρ) (t : Timer) : Machine ρ :=
  { m with world := { m.world with timer := t } }

def Run (ρ α : Type) := Machine ρ → Outcome α × Machine ρ

namespace Run

variable {ρ α β : Type}

protected def pure (a : α) : Run ρ α := fun m => (.ok a, m)

protected def bind (r : Run ρ α) (next : α → Run ρ β) : Run ρ β := fun m =>
  match r m with
  | (.ok a, m) => next a m
  | (.failed f, m) => (.failed f, m)

instance : Monad (Run ρ) where
  pure := Run.pure
  bind := Run.bind

def fail (f : Failure) : Run ρ α := fun m => (.failed f, m)

def failWith (text : String) : Run ρ α := fail (.message text)

def get : Run ρ (Machine ρ) := fun m => (.ok m, m)

def modify (change : Machine ρ → Machine ρ) : Run ρ Unit := fun m => (.ok (), change m)

def onHeap (change : Heap → α × Heap) : Run ρ α := fun m =>
  let (a, heap) := change m.heap
  (.ok a, { m with heap })

/-- Makes objects. The entries of new tables lie as the world has it. -/
def making (change : Heap → α × Heap) : Run ρ α := fun m =>
  let (a, heap) := change m.heap
  (.ok a, { m with heap := heap.arrangedFrom m.world.arrangement m.heap.tables.size })

/-- What a script is told whose time is up. -/
def expired (milliseconds : Nat) : Failure :=
  .message ("handler exceeded " ++ Text.number milliseconds ++ "ms")

/-- Takes a step. Once the deadline has passed every step fails, so a script that catches the
failure gets no further. -/
def tick : Run ρ Unit := fun m =>
  let timer := m.world.timer.next
  match timer.exceeded? with
  | some milliseconds => (.failed (expired milliseconds), m.timed timer)
  | none => (.ok (), m.timed timer)

def withParams (params : List Value) (r : Run ρ α) : Run ρ α := fun m =>
  let (o, m') := r { m with params }
  (o, { m' with params := m.params })

/-- Runs, and gives whether that succeeded. What never ends is not caught. -/
def attempt (r : Run ρ α) : Run ρ Bool := fun m =>
  match r m with
  | (.ok _, m) => (.ok true, m)
  | (.failed .endless, m) => (.failed .endless, m)
  | (.failed _, m) => (.ok false, m)

end Run

end ScriptServer.Script
