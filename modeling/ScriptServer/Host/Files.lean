import ScriptServer.Host.Path
import ScriptServer.Text.Utf8

/-!
# Files

A file system is a list of places, each the list of names that lead to it from the root, with a file
or a directory at each. A path is followed name by name, and every name but the last one has to lead
to a directory.
-/

namespace ScriptServer

/-- What stands at a place. -/
inductive FileNode where
  | file (content : Bytes)
  | directory
  deriving DecidableEq, Repr

/-- A file system as seen from a working directory. -/
structure Files where
  nodes : List (List String × FileNode)
  workDir : List String
  deriving Repr

namespace Files

inductive Fault where
  | missing
  | notDirectory
  | isDirectory
  | notText
  deriving DecidableEq, Repr

def Fault.message : Fault → String
  | missing => "No such file or directory (os error 2)"
  | notDirectory => "Not a directory (os error 20)"
  | isDirectory => "Is a directory (os error 21)"
  | notText => "stream did not contain valid UTF-8"

/-- No files, seen from the root. -/
def empty : Files := ⟨[], []⟩

/-- Puts something at a place, and directories on the way to it. -/
def add (fs : Files) (place : List String) (node : FileNode) : Files :=
  let above := (List.range place.length).map fun n => (place.take n, FileNode.directory)
  let new := above.filter fun e => !fs.nodes.any fun e' => e'.1 == e.1
  { fs with nodes := (place, node) :: (new ++ fs.nodes) }

/-- The place that a path names if everything on the way is a directory. -/
def namedPlace (fs : Files) (path : String) : List String :=
  (Path.parts path).foldl
    (fun place name =>
      if name.isEmpty || name == "." then place
      else if name == ".." then place.dropLast
      else place ++ [name])
    (if Path.isAbsolute path then [] else fs.workDir)

/-- What stands at a place. The root is a directory. -/
def node? (fs : Files) (place : List String) : Option FileNode :=
  if place.isEmpty then some .directory else fs.nodes.lookup place

def follow (fs : Files) : List String → List String → Except Fault (List String)
  | place, [] => .ok place
  | place, name :: names =>
    match fs.node? place with
    | none => .error .missing
    | some (.file _) => .error .notDirectory
    | some .directory =>
      if name.isEmpty || name == "." then follow fs place names
      else if name == ".." then follow fs place.dropLast names
      else follow fs (place ++ [name]) names

def place (fs : Files) (path : String) : Except Fault (List String) :=
  if path.isEmpty then .error .missing
  else fs.follow (if Path.isAbsolute path then [] else fs.workDir) (Path.parts path)

def at? (fs : Files) (path : String) : Except Fault FileNode :=
  match fs.place path with
  | .error e => .error e
  | .ok place =>
    match fs.node? place with
    | none => .error .missing
    | some node => .ok node

def doesExist (fs : Files) (path : String) : Bool :=
  (fs.at? path).isOk

def isFile (fs : Files) (path : String) : Bool :=
  match fs.at? path with
  | .ok (.file _) => true
  | _ => false

def isDirectory (fs : Files) (path : String) : Bool :=
  match fs.at? path with
  | .ok .directory => true
  | _ => false

def read (fs : Files) (path : String) : Except Fault Bytes :=
  match fs.at? path with
  | .ok (.file content) => .ok content
  | .ok .directory => .error .isDirectory
  | .error e => .error e

def readText (fs : Files) (path : String) : Except Fault String :=
  match fs.read path with
  | .error e => .error e
  | .ok content =>
    match Utf8.toText? content with
    | some text => .ok text
    | none => .error .notText

end Files

end ScriptServer
