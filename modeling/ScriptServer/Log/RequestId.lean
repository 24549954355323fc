import ScriptServer.Dictionary
import ScriptServer.Text.Basic

/-!
# Request identifiers

A request is known by the identifier that its client sent, if that is short and of harmless
characters only, and by a generated one otherwise. Generated identifiers are numbered by a counter
of 64 bits.
-/

namespace ScriptServer.Log.RequestId

/-- The characters of an identifier. -/
def isIdentifying (c : Char) : Bool :=
  Text.isAlphanumeric c || c == '-' || c == '_' || c == '.' || c == ':' || c == '/' || c == '@'

/-- The longest identifier, in bytes. -/
def maxLength : Nat := 128

/-- An identifier as a client may send it. -/
def accept? (raw : String) : Option String :=
  let value := Text.trim raw
  if value.isEmpty || maxLength < value.utf8ByteSize then none
  else if value.toList.all isIdentifying then some value
  else none

def sent? (headers : Dictionary String) : Option String :=
  let under (name : String) := (Dictionary.get? headers name).bind accept?
  (under "x-request-id").or (under "x-correlation-id")

def generated (n : UInt64) : String :=
  "req-" ++ String.ofList (Text.hexadecimal 16 n.toNat)

/-- The identifier of a request, and the number of the next generated one. -/
def resolve (headers : Dictionary String) (next : UInt64) : String × UInt64 :=
  match sent? headers with
  | some id => (id, next)
  | none => (generated next, next + 1)

end ScriptServer.Log.RequestId
