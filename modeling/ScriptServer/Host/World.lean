import ScriptServer.Config.Environment
import ScriptServer.Host.Files
import ScriptServer.Http.Reader
import ScriptServer.Log.Level
import ScriptServer.Script.Value

/-!
# The world of a server

What scripts and the server can see and change outside themselves: files, which they only read,
environment variables, what was printed on the two output streams, the clock, and the clients that
connect. The world also has what nobody decides: where the objects of an interpreter lie and how its
tables are enumerated, and how much time and memory is there when a handler is called. Time is
counted in the steps that a script takes.
-/

namespace ScriptServer

structure Deadline where
  /-- The limit that was set. -/
  milliseconds : Nat
  /-- How many steps the handler can take until then. -/
  steps : Nat

/-- The steps that a script has taken. -/
structure Timer where
  steps : Nat
  deadline : Option Deadline

namespace Timer

def start (deadline : Option Deadline) : Timer := ⟨0, deadline⟩

def next (t : Timer) : Timer := { t with steps := t.steps + 1 }

/-- The limit, once the deadline has passed. -/
def exceeded? (t : Timer) : Option Nat :=
  match t.deadline with
  | some d => if d.steps < t.steps then some d.milliseconds else none
  | none => none

end Timer

/-- What a request meets when a handler is called for it. -/
structure Circumstances where
  /-- The number of objects that still fit into a limited memory, if that is not enough for all. -/
  room : Option Nat
  /-- The number of steps in the time of a limit, if that is not enough for all that ends. -/
  time : Option Nat

def Circumstances.ample : Circumstances := ⟨none, none⟩

/-- The surroundings of a server process. -/
structure World where
  files : Files
  env : Environment
  /-- The most verbose level that the log prints. -/
  logFilter : Option Log.Level
  stdout : Bytes
  stderr : String
  /-- The number of the next request identifier that is generated. -/
  nextRequest : UInt64
  /-- What the clients send that have not connected yet, in the order in which they do. -/
  clients : List Http.Stream
  /-- What was written to the clients that have connected. -/
  replies : List Bytes
  /-- The date as a response states it. -/
  date : String
  /-- The microseconds that it takes to answer a request. -/
  elapsed : Nat
  /-- The numbers with which the objects of the interpreters begin that are still to be made. -/
  bases : Nat → Nat
  arrangement : Script.Arrangement
  /-- The timer of the script that is running. -/
  timer : Timer
  /-- What the requests meet that are still to come to a handler. -/
  calls : Nat → Circumstances

namespace World

/-- Files and variables, with nothing printed yet and no clients. -/
def ofFiles (files : Files) (env : Environment) (logFilter : Option Log.Level) : World where
  files := files
  env := env
  logFilter := logFilter
  stdout := []
  stderr := ""
  nextRequest := 1
  clients := []
  replies := []
  date := ""
  elapsed := 0
  bases := id
  arrangement := .asMade
  timer := .start none
  calls := fun _ => .ample

def print (w : World) (bs : Bytes) : World :=
  { w with stdout := w.stdout ++ bs }

def report (w : World) (text : String) : World :=
  { w with stderr := w.stderr ++ text }

def log (w : World) (level : Log.Level) (message : String) : World :=
  w.report (Log.line w.logFilter level message)

/-- The world in which an interpreter starts, with its objects at the next base. -/
def afterMaking (w : World) : World :=
  { w with bases := fun n => w.bases (n + 1), timer := .start none }

def afterCall (w : World) : World := { w with calls := fun n => w.calls (n + 1) }

def deadline (w : World) (limit : Option Nat) : Option Deadline :=
  limit.bind fun milliseconds => (w.calls 0).time.map fun steps => ⟨milliseconds, steps⟩

end World

end ScriptServer
