import ScriptServer.Config.Dotenv
import ScriptServer.Config.Flags
import ScriptServer.Config.Manifest
import ScriptServer.Server.Startup

/-!
# The command line

The flags name the entry script and the manifest, and the script sees all of them. Variables from a
file next to the entry script are added to the environment before the settings are read, and the
environment overrides the manifest.
-/

namespace ScriptServer.CommandLine

open Script (Ending)

/-- How the program was built, and the directory that it is in. -/
structure Installation where
  directory : String
  target : String
  compiler : String
  deriving Repr

def usage : String :=
  "usage: lume [-file <entry.lua>] [-config <lume.toml>] [-v] [-<name> <value>...]\n\n" ++
    "Runs the entry script (default: main.lua next to the executable).\n" ++
    "Every flag is visible to the script through the global table `arg`.\n\n" ++
    "Options:\n" ++
    "  -file <path>     Entry script\n" ++
    "  -config <path>   Manifest with a [server] table " ++
    "(default: lume.toml next to the entry)\n" ++
    "  -v               Print build information\n"

def buildLine (i : Installation) : String :=
  "lume 0.1.0 target=" ++ i.target ++ " rustc=" ++ i.compiler

/-- The name of the entry script that is run if no other one is asked for. -/
def defaultEntry : String := "main.lua"

def requestedEntry (i : Installation) (flags : Dictionary String) : String :=
  match flags.get? "file" with
  | some file => if file.isEmpty then Path.join i.directory defaultEntry else file
  | none => Path.join i.directory defaultEntry

/-- Where a file is looked for: at its path, and a relative path also from the directory of the
program. -/
def candidates (i : Installation) (path : String) : List String :=
  path :: if Path.isAbsolute path then [] else [Path.join i.directory path]

def findEntry (i : Installation) (fs : Files) (path : String) : Except String String :=
  match (candidates i path).find? fs.isFile with
  | some path => .ok path
  | none => .error ("file not found: " ++ path)

def directoryOf? (path : String) : Option String :=
  (Path.parent? path).filter fun dir => !dir.isEmpty

/-- The paths that are read before the entry script runs, if they are there. -/
def startupPaths (i : Installation) (args : List String) : List String :=
  let flags := Flags.read args
  let entries := candidates i (requestedEntry i flags)
  let dirs := entries.map fun e => (directoryOf? e).getD "."
  let manifests := match flags.get? "config" with
    | some path => [path, Path.join path Manifest.fileName]
    | none => dirs.map fun dir => Path.join dir Manifest.fileName
  entries ++ manifests ++ dirs.map fun dir => Path.join dir ".env"

/-- The settings of the server: those of the manifest with the overrides of the environment. -/
def settings (fs : Files) (env : Environment) (manifest entryDir : Option String) :
    Except String Settings :=
  match Manifest.load fs manifest entryDir with
  | .error e => .error e
  | .ok found =>
    match ((found.getD none).getD Settings.standard).withEnvironment env with
    | (.ok (), s) => .ok s
    | (.error e, _) => .error e.message

def loadVariables (entryDir : Option String) (w : World) : World :=
  let (env, warning) := Dotenv.load w.files entryDir w.env
  let w := { w with env }
  match warning with
  | some text => w.report ("warning: " ++ text ++ "\n")
  | none => w

def start (i : Installation) (flags : Dictionary String) (w : World) : Ending String Unit × World :=
  match findEntry i w.files (requestedEntry i flags) with
  | .error e => (.error e, w)
  | .ok path =>
    let dir := directoryOf? path
    let w := loadVariables dir w
    match settings w.files w.env (flags.get? "config") dir with
    | .error e => (.error e, w)
    | .ok settings =>
      let w := w.log .debug ("entry script " ++ path)
      match Server.EntryScript.ofFile w.files path with
      | .error e => (.error e.message, w)
      | .ok entry =>
        match Server.runEntry ⟨.ofEntry { entry with args := flags } settings, w⟩ with
        | (.ok (), s) => (.ok (), s.world)
        | (.error e, s) => (.error e.message, s.world)
        | (.panic text, s) => (.panic text, s.world)
        | (.endless, s) => (.endless, s.world)

/-- Runs the program and gives its exit code. Without a value it never ends. -/
def run (i : Installation) (args : List String) (w : World) : Option Nat × World :=
  let flags := Flags.read args
  if flags.contains "v" then (some 0, w.print (Utf8.ofText (buildLine i ++ "\n")))
  else if flags.contains "h" || flags.contains "help" then (some 0, w.report (usage ++ "\n"))
  else
    match start i flags w with
    | (.ok (), w) => (some 0, w)
    | (.error e, w) => (some 1, w.report ("error: " ++ e ++ "\n"))
    | (.panic text, w) => (some 101, w.report (text ++ "\n"))
    | (.endless, w) => (none, w)

end ScriptServer.CommandLine
