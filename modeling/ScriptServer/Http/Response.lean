import ScriptServer.Http.Header
import ScriptServer.Text.Utf8

/-!
# Responses

A response is written as a status line, its headers in order, and a head that always ends with the
length of the body and the end of the connection. A header whose name is no token is left out, and
a line break inside a value is written as spaces, so that a header stays one line.
-/

namespace ScriptServer.Http

structure Response where
  status : Nat
  headers : List (String × String)
  body : Bytes
  deriving DecidableEq, Repr

def plainText : String := "text/plain; charset=utf-8"

def reasonPhrase : Nat → String
  | 100 => "Continue"
  | 101 => "Switching Protocols"
  | 200 => "OK"
  | 201 => "Created"
  | 202 => "Accepted"
  | 204 => "No Content"
  | 206 => "Partial Content"
  | 301 => "Moved Permanently"
  | 302 => "Found"
  | 303 => "See Other"
  | 304 => "Not Modified"
  | 307 => "Temporary Redirect"
  | 308 => "Permanent Redirect"
  | 400 => "Bad Request"
  | 401 => "Unauthorized"
  | 403 => "Forbidden"
  | 404 => "Not Found"
  | 405 => "Method Not Allowed"
  | 409 => "Conflict"
  | 413 => "Content Too Large"
  | 418 => "I'm a teapot"
  | 422 => "Unprocessable Content"
  | 429 => "Too Many Requests"
  | 500 => "Internal Server Error"
  | 501 => "Not Implemented"
  | 502 => "Bad Gateway"
  | 503 => "Service Unavailable"
  | 504 => "Gateway Timeout"
  | _ => ""

namespace Response

def ofStatus (status : Nat) : Response := ⟨status, [], []⟩

/-- Puts a header at the end, in place of any that has the same name. -/
def setHeader (r : Response) (name value : String) : Response :=
  { r with
    headers := (r.headers.filter fun h => !Text.sameLetters h.1 name) ++ [(name, value)] }

def header? (r : Response) (name : String) : Option String :=
  (r.headers.find? fun h => Text.sameLetters h.1 name).map (·.2)

def ofText (status : Nat) (text : String) : Response :=
  { (ofStatus status).setHeader "Content-Type" plainText with body := Utf8.ofText text }

/-- A header value as it is written. -/
def sanitize (value : String) : String :=
  String.ofList (value.toList.map fun c => if c = '\r' ∨ c = '\n' then ' ' else c)

/-- The header is written where it stands. The head's own lines say how long the body is and what
becomes of the connection. -/
def isWritten (name : String) : Bool :=
  isToken name && !Text.sameLetters name "content-length" && !Text.sameLetters name "connection"

def headLines (r : Response) : List String :=
  ("HTTP/1.1 " ++ Text.number r.status ++ " " ++ reasonPhrase r.status) ::
    ((r.headers.filter fun h => isWritten h.1).map fun h => h.1 ++ ": " ++ sanitize h.2) ++
    ["Content-Length: " ++ Text.number r.body.length, "Connection: close"]

/-- The head, and the empty line that ends it. -/
def head (r : Response) : String :=
  String.join (r.headLines.map (· ++ "\r\n")) ++ "\r\n"

def toBytes (includeBody : Bool) (r : Response) : Bytes :=
  Utf8.ofText r.head ++ if includeBody then r.body else []

end Response

end ScriptServer.Http
