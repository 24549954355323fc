import ScriptServer.Json.Tree
import ScriptServer.Number.Decimal

/-!
# Writing JSON

A tree is written without white space, its numbers with the fewest digits that read back and never
with an exponent. Numbers that are not finite have no JSON text; writing fails at the first of them
in document order.
-/

namespace ScriptServer.Json

/-- Why a tree has no text. -/
inductive EncodeError where
  | nan
  | infinite (negative : Bool)
  deriving DecidableEq, Repr

def EncodeError.message : EncodeError → String
  | .nan => "unsupported value: NaN"
  | .infinite negative => "unsupported value: " ++ (if negative then "-" else "+") ++ "Inf"

def escape (c : Char) : List Char :=
  if c = '"' then ['\\', '"']
  else if c = '\\' then ['\\', '\\']
  else if c = '\n' then ['\\', 'n']
  else if c = '\r' then ['\\', 'r']
  else if c = '\t' then ['\\', 't']
  else if c = '\x08' then ['\\', 'b']
  else if c = '\x0c' then ['\\', 'f']
  else if c.toNat < 0x20 then '\\' :: 'u' :: Text.hexadecimal 4 c.toNat
  else [c]

def quote (s : String) : List Char :=
  '"' :: (s.toList.flatMap escape ++ ['"'])

/-- A number, if it is finite. -/
def encodeNumber (x : Binary64) : Except EncodeError (List Char) :=
  if x.isNaN then .error .nan
  else if x.isInfinite then .error (.infinite x.negative)
  else .ok x.shortest

def commas : List (List Char) → List Char
  | [] => []
  | [part] => part
  | part :: parts => part ++ ',' :: commas parts

mutual

def encodeTree : Tree → Except EncodeError (List Char)
  | .null => .ok "null".toList
  | .bool b => .ok (if b then "true" else "false").toList
  | .number x => encodeNumber x
  | .string s => .ok (quote s)
  | .array items =>
    match encodeItems items with
    | .ok parts => .ok ('[' :: (commas parts ++ [']']))
    | .error e => .error e
  | .object members =>
    match encodeMembers members with
    | .ok parts => .ok ('\x7b' :: (commas parts ++ ['\x7d']))
    | .error e => .error e

def encodeItems : List Tree → Except EncodeError (List (List Char))
  | [] => .ok []
  | item :: items =>
    match encodeTree item with
    | .error e => .error e
    | .ok part =>
      match encodeItems items with
      | .error e => .error e
      | .ok parts => .ok (part :: parts)

def encodeMembers : List (String × Tree) → Except EncodeError (List (List Char))
  | [] => .ok []
  | (key, value) :: members =>
    match encodeTree value with
    | .error e => .error e
    | .ok part =>
      match encodeMembers members with
      | .error e => .error e
      | .ok parts => .ok ((quote key ++ ':' :: part) :: parts)

end

def encode (t : Tree) : Except EncodeError String :=
  (encodeTree t).map String.ofList

end ScriptServer.Json
