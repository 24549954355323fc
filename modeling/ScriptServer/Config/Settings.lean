import ScriptServer.Config.Environment

/-!
# Settings of the server

`Settings.Valid` is what a pool relies on: at least one interpreter, at least one worker, and a time
limit that is not zero. `applyEnvironment` puts the overrides of the environment in place one
variable after the other and checks the result; where it fails, the settings keep the overrides that
came before the failure.
-/

namespace ScriptServer

def serverName : String := "lume/0.1.0"

/-- The settings of the server. -/
structure Settings where
  /-- The number of threads that serve connections. -/
  workers : Option Nat
  /-- How many interpreters may be in use at once. -/
  maxInterpreters : Nat
  /-- How many unused interpreters are kept ready. -/
  prewarm : Nat
  /-- How many milliseconds a handler may take. -/
  handlerTimeoutMs : Option Nat
  /-- How many bytes an interpreter may allocate; zero sets no limit. -/
  memoryLimitBytes : Option Nat
  /-- After how many connections the server stops; after none if this is zero. -/
  maxRequests : Nat
  /-- The value of the `Server` header. -/
  serverName : String
  deriving DecidableEq, Repr

def Settings.standard : Settings where
  workers := none
  maxInterpreters := 64
  prewarm := 2
  handlerTimeoutMs := none
  memoryLimitBytes := none
  maxRequests := 0
  serverName := ScriptServer.serverName

inductive ConfigError where
  | unreadable (u : Config.Unreadable)
  | noInterpreters
  | noWorkers
  | noTime
  deriving DecidableEq, Repr

def ConfigError.message : ConfigError → String
  | .unreadable u => u.message
  | .noInterpreters => "server.max_interpreters must be at least 1"
  | .noWorkers => "server.workers must be at least 1"
  | .noTime => "server.handler_timeout_ms must be positive"

namespace Settings

/-- Settings with which a server can run. -/
structure Valid (s : Settings) : Prop where
  maxInterpreters : s.maxInterpreters ≠ 0
  workers : s.workers ≠ some 0
  handlerTimeoutMs : s.handlerTimeoutMs ≠ some 0

def validate (s : Settings) : Except ConfigError Unit :=
  if s.maxInterpreters = 0 then .error .noInterpreters
  else if s.workers = some 0 then .error .noWorkers
  else if s.handlerTimeoutMs = some 0 then .error .noTime
  else .ok ()

theorem validate_eq_ok_iff {s : Settings} : s.validate = .ok () ↔ s.Valid := by
  unfold validate
  by_cases hi : s.maxInterpreters = 0
  · have hn : ¬s.Valid := fun h => h.maxInterpreters hi
    simp [hi, hn]
  by_cases hw : s.workers = some 0
  · have hn : ¬s.Valid := fun h => h.workers hw
    simp [hi, hw, hn]
  by_cases ht : s.handlerTimeoutMs = some 0
  · have hn : ¬s.Valid := fun h => h.handlerTimeoutMs ht
    simp [hi, hw, ht, hn]
  · simp only [hi, hw, ht, if_false, true_iff]
    exact ⟨hi, hw, ht⟩

end Settings

/-- A change of the settings that may fail on the way. -/
abbrev Settings.Change := ExceptT ConfigError (StateM Settings)

namespace Settings

/-- The number by which a variable overrides a setting. -/
def number? (env : Environment) (key : String) : Change (Option Nat) :=
  match Config.overriding Config.natural? env key with
  | .ok n => pure n
  | .error u => throw (.unreadable u)

def assign (set : Nat → Settings → Settings) : Option Nat → Change Unit
  | some n => modify (set n)
  | none => pure ()

def variableName (field : String) : String := Config.variableName "server" field

/-- Puts the overrides of the environment in place and checks the settings. The short names
`LUME_WORKERS` and `LUME_MAX_REQUESTS` give way to the long ones. -/
def applyEnvironment (env : Environment) : Change Unit := do
  let long ← number? env (variableName "workers")
  let short ← number? env "LUME_WORKERS"
  assign (fun n s => { s with workers := some n }) (long.or short)
  let n ← number? env (variableName "max_interpreters")
  assign (fun n s => { s with maxInterpreters := n }) n
  let n ← number? env (variableName "prewarm")
  assign (fun n s => { s with prewarm := n }) n
  let n ← number? env (variableName "handler_timeout_ms")
  assign (fun n s => { s with handlerTimeoutMs := some n }) n
  let n ← number? env (variableName "memory_limit_bytes")
  assign (fun n s => { s with memoryLimitBytes := some n }) n
  let long ← number? env (variableName "max_requests")
  let short ← number? env "LUME_MAX_REQUESTS"
  assign (fun n s => { s with maxRequests := n }) (long.or short)
  match (← get).validate with
  | .ok () => pure ()
  | .error e => throw e

/-- The outcome of the overrides, and the settings after them. -/
def withEnvironment (env : Environment) (s : Settings) : Except ConfigError Unit × Settings :=
  ((applyEnvironment env).run).run s

end Settings

end ScriptServer
