import ScriptServer.Host.World
import ScriptServer.Http.Response

/-!
# Serving files

Files answer GET and HEAD requests. A path below a directory that leads out of it is treated as one
that is missing, and a directory is answered with its index file. Files have a content that can be
read, so the response 500 with `failed to read file`, to a file that is there but cannot be read,
does not occur.
-/

namespace ScriptServer.Server.Static

open Http (Request Response)

def indexFile : String := "index.html"

def notFoundBody : String := "404 page not found"

def notAllowedBody : String := "405 method not allowed"

def notFound : Response := .ofText 404 notFoundBody

def notAllowed (methods : List String) : Response :=
  (Response.ofText 405 notAllowedBody).setHeader "Allow" (", ".intercalate methods)

def methods : List String := ["GET", "HEAD"]

def contentType (path : String) : String :=
  match Path.extension? path with
  | some "html" | some "htm" => "text/html; charset=utf-8"
  | some "css" => "text/css; charset=utf-8"
  | some "js" | some "mjs" => "application/javascript; charset=utf-8"
  | some "json" => "application/json; charset=utf-8"
  | some "lua" | some "txt" => "text/plain; charset=utf-8"
  | some "svg" => "image/svg+xml"
  | some "png" => "image/png"
  | some "jpg" | some "jpeg" => "image/jpeg"
  | some "gif" => "image/gif"
  | some "ico" => "image/x-icon"
  | some "wasm" => "application/wasm"
  | _ => "application/octet-stream"

def readFile (fs : Files) (path : String) : Response :=
  match fs.at? path with
  | .ok (.file content) =>
    { (Response.ofStatus 200).setHeader "Content-Type" (contentType path) with body := content }
  | _ => notFound

def serveFile (fs : Files) (request : Request) (path : String) : Response :=
  if methods.contains request.method then readFile fs path else notAllowed methods

def leavesDirectory (path : String) : Bool :=
  Path.isAbsolute path || (Path.parts path).contains ".."

def serveDirectory (fs : Files) (request : Request) (dir rest : String) : Response :=
  if !methods.contains request.method then notAllowed methods
  else
    let path := if rest.isEmpty || rest.toList.getLast? = some '/' then rest ++ indexFile else rest
    if leavesDirectory path then notFound
    else
      let full := Path.join dir path
      readFile fs (if fs.isDirectory full then Path.join full indexFile else full)

end ScriptServer.Server.Static
