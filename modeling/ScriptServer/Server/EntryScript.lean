import ScriptServer.Host.Files
import ScriptServer.Script.Source
import ScriptServer.Server.Fault

/-!
# Entry scripts

What every interpreter of a server runs before it can serve: a script, the directory that its
modules and files are in, and the command line flags that it sees.
-/

namespace ScriptServer.Server

/-- The script that sets up an interpreter. -/
structure EntryScript where
  source : Script.Source
  /-- Where modules and files are looked for that the script names by relative paths. -/
  searchDir : Option String
  args : Dictionary String
  deriving Repr

namespace EntryScript

/-- A script that is no file. -/
def ofText (name text : String) : EntryScript := ⟨⟨name, text⟩, none, []⟩

def ofFile (fs : Files) (path : String) : Except Fault EntryScript :=
  match fs.readText path with
  | .error cause => .error (.unreadable path cause)
  | .ok text =>
    let dir := match Path.parent? path with
      | some dir => if dir.isEmpty then "." else dir
      | none => "."
    .ok ⟨Script.Source.ofFile path text, some dir, []⟩

/-- A path that the script names, as seen from the working directory. -/
def resolvePath (e : EntryScript) (path : String) : String :=
  match e.searchDir with
  | some dir => Path.join dir path
  | none => path

def searchPath (e : EntryScript) : List String :=
  Script.standardSearchPath ++
    match e.searchDir with
    | some dir => [dir ++ "/?.lua"]
    | none => []

end EntryScript

end ScriptServer.Server
