import ScriptServer.Dictionary
import ScriptServer.Http.Percent
import ScriptServer.Number.Literal

/-!
# Requests

A request as its head describes it. The head is the request line, of which the first two words
count, and header lines; a later line replaces an earlier one with the same name, and a line without
a colon says nothing.
-/

namespace ScriptServer.Http

structure Request where
  method : String
  /-- The decoded path without the query. -/
  path : String
  query : Option String
  /-- The values of the headers under their names in lower case. -/
  headers : Dictionary String
  body : Bytes
  deriving DecidableEq, Repr

/-- The greatest number of bytes in which the head of a request must end. -/
def maxHead : Nat := 1024 * 1024

def maxBody : Nat := 16 * 1024 * 1024

/-- One more than the greatest length that a header can declare. -/
def lengthBound : Nat := 1 <<< 64

inductive RequestError where
  | headFailed (cause : String)
  | headTooLarge
  | missingHead
  | requestLine (line : String)
  | contentLength (value : String)
  | bodyTooLarge
  | bodyFailed (cause : String)
  deriving DecidableEq, Repr

def RequestError.message : RequestError → String
  | .headFailed cause => "failed to read request: " ++ cause
  | .headTooLarge => "request header too large"
  | .missingHead => "invalid HTTP request: missing headers"
  | .requestLine line => "invalid HTTP request line: " ++ line
  | .contentLength value => "invalid Content-Length: " ++ value
  | .bodyTooLarge => "request body too large"
  | .bodyFailed cause => "failed to read body: " ++ cause

namespace Request

/-- The request for a target, which is a path and a query behind the first question mark. -/
def ofTarget (method target : String) : Request :=
  let (path, query) :=
    match Text.splitOnce '?' target.toList with
    | some (path, query) => (String.ofList path, some (String.ofList query))
    | none => (target, none)
  { method := Text.toUpper method, path := percentDecode path, query, headers := [], body := [] }

def header? (r : Request) (name : String) : Option String :=
  Dictionary.get? r.headers (Text.toLower name)

def addLine (r : Request) (line : List Char) : Request :=
  match Text.splitOnce ':' line with
  | none => r
  | some (name, value) =>
    { r with
      headers := r.headers.insert (Text.toLower (Text.trim (String.ofList name)))
        (Text.trim (String.ofList value)) }

def lines : List Char → List (List Char)
  | [] => [[]]
  | '\r' :: '\n' :: cs => [] :: lines cs
  | c :: cs =>
    match lines cs with
    | [] => [[c]]
    | line :: rest => (c :: line) :: rest

/-- The request that a head describes, without its body. -/
def ofHead (head : Bytes) : Except RequestError Request :=
  match lines (Utf8.toTextLossy head).toList with
  | [] => .error (.requestLine "")
  | line :: rest =>
    match Text.words line with
    | method :: target :: _ =>
      .ok (rest.foldl addLine (ofTarget (String.ofList method) (String.ofList target)))
    | _ => .error (.requestLine (String.ofList line))

/-- The length of the body that the headers declare; no body if they do not. -/
def contentLength (r : Request) : Except RequestError Nat :=
  match Dictionary.get? r.headers "content-length" with
  | none => .ok 0
  | some value =>
    match Text.natural? lengthBound value.toList with
    | none => .error (.contentLength value)
    | some n => if maxBody < n then .error .bodyTooLarge else .ok n

end Request

end ScriptServer.Http
