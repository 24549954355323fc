import ScriptServer.Http.Request

/-!
# Reading a request from a connection

Bytes arrive in pieces of any size, and each read takes at most `bufferSize` of the next one. The
head ends at the first empty line, wherever the pieces are cut. What was read behind the head is the
beginning of the body.
-/

namespace ScriptServer.Http

/-- What a connection has to give next. -/
inductive Arrival where
  | data (bytes : Bytes)
  | failure (cause : String)
  deriving DecidableEq, Repr

/-- A connection: what it gives, and then nothing more. -/
abbrev Stream := List Arrival

namespace Stream

/-- The most bytes that one read takes. -/
def bufferSize : Nat := 1024

/-- One read. It takes no bytes at the end of the stream. -/
def read : Stream → Except String Bytes × Stream
  | [] => (.ok [], [])
  | .failure cause :: rest => (.error cause, rest)
  | .data bytes :: rest =>
    let later := bytes.drop bufferSize
    if later.isEmpty then (.ok bytes, rest) else (.ok (bytes.take bufferSize), .data later :: rest)

/-- No more reads than this give bytes. -/
def weight : Stream → Nat
  | [] => 0
  | .data bytes :: rest => bytes.length + 1 + weight rest
  | .failure _ :: rest => 1 + weight rest

end Stream

/-- The bytes before and after the first empty line. -/
def splitHead : Bytes → Option (Bytes × Bytes)
  | [] => none
  | b :: bs =>
    match b, bs with
    | 13, 10 :: 13 :: 10 :: rest => some ([], rest)
    | b, bs => (splitHead bs).map fun (head, rest) => (b :: head, rest)

/-- Reads up to the end of the head. `seen` has been read already and `fuel` bounds the reads. -/
def readHead : Nat → Bytes → Stream → Except RequestError (Bytes × Bytes × Stream)
  | 0, _, _ => .error .missingHead
  | fuel + 1, seen, s =>
    match s.read with
    | (.error cause, _) => .error (.headFailed cause)
    | (.ok [], _) => .error .missingHead
    | (.ok bytes, s) =>
      let seen := seen ++ bytes
      match splitHead seen with
      | some (head, rest) => .ok (head, rest, s)
      | none => if maxHead < seen.length then .error .headTooLarge else readHead fuel seen s

/-- Reads until `missing` bytes are there or the stream ends. `fuel` bounds the reads. -/
def readBody : Nat → Nat → Stream → Except RequestError Bytes
  | 0, _, _ => .ok []
  | fuel + 1, missing, s =>
    if missing = 0 then .ok []
    else
      match s.read with
      | (.error cause, _) => .error (.bodyFailed cause)
      | (.ok [], _) => .ok []
      | (.ok bytes, s) =>
        match readBody fuel (missing - bytes.length) s with
        | .ok more => .ok (bytes ++ more)
        | .error e => .error e

def readRequest (s : Stream) : Except RequestError Request :=
  match readHead (s.weight + 1) [] s with
  | .error e => .error e
  | .ok (head, rest, s) =>
    match Request.ofHead head with
    | .error e => .error e
    | .ok request =>
      match request.contentLength with
      | .error e => .error e
      | .ok length =>
        match readBody (s.weight + 1) (length - rest.length) s with
        | .error e => .error e
        | .ok more => .ok { request with body := (rest ++ more).take length }

end ScriptServer.Http
