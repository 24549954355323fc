import ScriptServer.Config.Settings
import ScriptServer.Host.Files
import ScriptServer.Toml.Reader

/-!
# The manifest

A manifest is a TOML document whose table `server` holds settings. What it leaves out keeps its
standard value, and names it does not know are passed over. The settings may also stand as the items
of an array, in the order in which `fields` lists them.
-/

namespace ScriptServer.Manifest

/-- A setting with a natural number for its value, or none. -/
abbrev Field := String × (Nat → Settings → Settings)

def fields : List Field :=
  [("workers", fun n s => { s with workers := some n }),
    ("max_interpreters", fun n s => { s with maxInterpreters := n }),
    ("prewarm", fun n s => { s with prewarm := n }),
    ("handler_timeout_ms", fun n s => { s with handlerTimeoutMs := some n }),
    ("memory_limit_bytes", fun n s => { s with memoryLimitBytes := some n }),
    ("max_requests", fun n s => { s with maxRequests := n })]

def assign (field : Field) (v : Toml.Value) (s : Settings) : Option Settings :=
  match v with
  | .integer i => if 0 ≤ i then some (field.2 i.toNat s) else none
  | _ => none

def ofTable (entries : Dictionary Toml.Value) : Option Settings :=
  fields.foldlM
    (fun s field =>
      match Dictionary.get? entries field.1 with
      | some v => assign field v s
      | none => some s)
    Settings.standard

def ofItems (items : List Toml.Value) : Option Settings :=
  (fields.zip items).foldlM (fun s (field, v) => assign field v s) Settings.standard

def ofValue : Toml.Value → Option Settings
  | .table _ entries => ofTable entries
  | .array items => ofItems items
  | .tables items => ofItems items.reverse
  | .date => some Settings.standard
  | _ => none

inductive Fault where
  /-- It is no TOML document, or a setting has a value of the wrong kind. -/
  | malformed
  | settings (e : ConfigError)
  deriving DecidableEq, Repr

def Fault.message : Fault → String
  | .malformed => "invalid manifest: no settings in TOML"
  | .settings e => e.message

def read (text : String) : Except Fault (Option Settings) :=
  match Toml.read text with
  | none => .error .malformed
  | some doc =>
    match Dictionary.get? doc.entries "server" with
    | none => .ok none
    | some v =>
      match ofValue v with
      | none => .error .malformed
      | some s =>
        match s.validate with
        | .ok () => .ok (some s)
        | .error e => .error (.settings e)

def fileName : String := "lume.toml"

/-- The path of the manifest: the one that was asked for, or the one in the directory of the entry
script if it is there. -/
def path? (fs : Files) (requested dir : Option String) : Option String :=
  match requested with
  | some path => some (if fs.isDirectory path then Path.join path fileName else path)
  | none =>
    let path :=
      match dir with
      | some dir => Path.join dir fileName
      | none => fileName
    if fs.doesExist path then some path else none

/-- Finds and reads the manifest. The outer option is empty if there is none, the inner one if it
holds no settings. -/
def load (fs : Files) (requested dir : Option String) : Except String (Option (Option Settings)) :=
  match path? fs requested dir with
  | none => .ok none
  | some path =>
    match fs.readText path with
    | .error e => .error ("failed to read " ++ path ++ ": " ++ e.message)
    | .ok text =>
      match read text with
      | .error e => .error e.message
      | .ok settings => .ok (some settings)

end ScriptServer.Manifest
