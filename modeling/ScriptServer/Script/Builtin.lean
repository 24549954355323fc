/-!
# Functions of the server's modules

What the modules `json` and `router` offer to a script, by name.
-/

namespace ScriptServer.Script

/-- The part of a route that says where its files are. -/
inductive StaticKind where
  | file
  | directory
  deriving DecidableEq, Repr

inductive Builtin where
  | jsonEncode
  | jsonDecode
  /-- Registers a handler for a method that is the first parameter. -/
  | handle
  /-- Registers a handler for this method. -/
  | on (method : String)
  | serve (kind : StaticKind)
  | listen
  deriving DecidableEq, Repr

/-- The functions of the `router` module that register handlers, and their methods. -/
def methodFunctions : List (String × String) :=
  [("all", "*"), ("connect", "CONNECT"), ("delete", "DELETE"), ("get", "GET"), ("head", "HEAD"),
    ("options", "OPTIONS"), ("patch", "PATCH"), ("post", "POST"), ("put", "PUT"),
    ("trace", "TRACE")]

def builtinModules : List String := ["json", "router"]

def moduleFunctions : String → List (String × Builtin)
  | "json" => [("encode", .jsonEncode), ("decode", .jsonDecode)]
  | "router" =>
    [("handle", .handle), ("serveFile", .serve .file), ("serveDir", .serve .directory),
      ("listen", .listen)] ++ methodFunctions.map fun (name, method) => (name, .on method)
  | _ => []

end ScriptServer.Script
