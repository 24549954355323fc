import ScriptServer.Json.Reader
import ScriptServer.Script.Code

/-!
# Script texts

A script is written as a JSON array of statements. A statement or an expression is an object that is
known by the keys it has; null, booleans and strings stand for themselves. A byte string is a
string, an array of byte strings, `{"hex": digits}`, or `{"rep": [bytes, count]}`. A text of which
nothing is left without its white space is a script without statements.
-/

namespace ScriptServer.Script.Notation

open Json (Tree)

/-- Reads something off a tree, if the tree has the form of it. -/
abbrev Reader (α : Type) := Tree → Option α

def member? (t : Tree) (key : String) : Option Tree :=
  match t with
  | .object ms => Dictionary.get? ms key
  | _ => none

def natural? : Reader Nat
  | .number x => if x.isIntegral && !x.negative then some x.truncate.toNat else none
  | _ => none

def text? : Reader String
  | .string s => some s
  | _ => none

def items? : Reader (List Tree)
  | .array items => some items
  | _ => none

def unhex : List Char → Option Bytes
  | [] => some []
  | [_] => none
  | a :: b :: cs => do
    let high ← Text.hexValue? a
    let low ← Text.hexValue? b
    return (high * 16 + low).toUInt8 :: (← unhex cs)

/-- A byte string, of which parts lie at most `depth` deep. -/
def bytesAt : Nat → Reader Bytes
  | 0, _ => none
  | depth + 1, t =>
    match t with
    | .string s => some (Utf8.ofText s)
    | .array parts => (parts.mapM (bytesAt depth)).map List.flatten
    | t =>
      match member? t "hex", member? t "rep" with
      | some digits, _ => (text? digits).bind fun ds => unhex ds.toList
      | none, some (.array [part, count]) => do
        let bs ← bytesAt depth part
        let n ← natural? count
        return (List.replicate n bs).flatten
      | _, _ => none

def bytes? : Reader Bytes := bytesAt (Json.maxDepth + 1)

def integer? (t : Tree) : Option Int64 :=
  (text? t).bind fun s => (Text.integer? (1 <<< 63) s.toList).map Int64.ofInt

/-- A floating point number as the sixteen hexadecimal digits of its pattern. -/
def float? (t : Tree) : Option Binary64 :=
  (text? t).bind fun s =>
    if s = "nan" then some ⟨0x7ff8000000000000⟩
    else (s.toList.mapM Text.hexValue?).map fun ds =>
      ⟨UInt64.ofNat (ds.foldl (fun n d => n * 16 + d) 0)⟩

/-- The name of a function, with the name of its module in front of a point. -/
def callee (name : String) : Callee :=
  match Text.splitOnce '.' name.toList with
  | some (module, name) => ⟨some (String.ofList module), String.ofList name⟩
  | none => ⟨none, name⟩

def listFields (items : List Expr) : List Field :=
  (items.zipIdx 1).map fun (e, n) => .mk (.integer (Int64.ofNat n)) e

def fields (expr : Reader Expr) (pairs : List Tree) : Option (List Field) :=
  pairs.mapM fun
    | .array [key, value] => do return .mk (← expr key) (← expr value)
    | _ => none

/-- Reads an expression that is an object, by the key that tells what it is. -/
def objectExpr (expr : Reader Expr) (block : Reader Block) (t : Tree) : Option Expr :=
  let label := (member? t "id").bind natural?
  let metatable := ((member? t "meta").bind items?).bind (fields expr)
  let table (fs : List Field) := Expr.table label fs metatable
  let forms : List (String × (Tree → Option Expr)) :=
    [("i", fun v => (integer? v).map .integer),
      ("f", fun v => (float? v).map .float),
      ("s", fun v => (bytes? v).map .string),
      ("arr", fun v => ((items? v).bind fun items => items.mapM expr).map fun es =>
        table (listFields es)),
      ("t", fun v => ((items? v).bind (fields expr)).map table),
      ("nest", fun v => do
        let key ←
          match member? t "key" with
          | some key => expr key
          | none => some (.integer 1)
        return .nested (← natural? v) key (← (member? t "of").bind expr)),
      ("fn", fun _ => some .newFunction),
      ("thread", fun _ => some .newThread),
      ("ref", fun v => (natural? v).map .labelled),
      ("handler", fun v => (block v).map .handler),
      ("arg", fun v => ((text? v).bind Parameter.ofName?).map .parameter),
      ("param", fun v => (bytes? v).map .captured),
      ("cat", fun v => ((items? v).bind fun items => items.mapM expr).map .concat),
      ("call", fun v => do
        let args ← (((member? t "args").bind items?).getD []).mapM expr
        let result := ((member? t "ret").bind natural?).getD 1
        return .call (callee (← text? v)) args result),
      ("global", fun v => (text? v).map .global),
      ("require", fun v => do
        return .require (← expr v) (((member? t "field").bind bytes?).getD [])),
      ("argv", fun v => (expr v).map .argument),
      ("env", fun v => (expr v).map .environment)]
  forms.findSome? fun (key, read) => (member? t key).bind read

def statement (expr : Reader Expr) (block : Reader Block) (t : Tree) : Option Stmt :=
  let blockAt (key : String) := ((member? t key).map block).getD (some [])
  let forms : List (String × (Tree → Option Stmt)) :=
    [("set", fun v => do return .set (← text? v) (← (member? t "to").bind expr)),
      ("incr", fun v => (text? v).map .increment),
      ("return", fun v => (expr v).map .return),
      ("error", fun v => (expr v).map .error),
      ("error_at", fun v => (expr v).map .errorHere),
      ("call", fun v => do
        let args ← (((member? t "args").bind items?).getD []).mapM expr
        return .call (callee (← text? v)) args),
      ("try", fun v => do
        return .attempt (← block v) ((member? t "ok").bind text? |>.getD "")),
      ("print", fun v => (expr v).map .print),
      ("if_env", fun v => do
        return .ifVariable (← bytes? v) (← blockAt "then") (← blockAt "else")),
      ("spin", fun _ => some .spin),
      ("spin_pcall", fun _ => some .spin)]
  forms.findSome? fun (key, read) => (member? t key).bind read

mutual

def expr (depth : Nat) (t : Tree) : Option Expr :=
  match depth with
  | 0 => none
  | depth + 1 =>
    match t with
    | .null => some .nil
    | .bool b => some (.bool b)
    | .string s => some (.string (Utf8.ofText s))
    | t => objectExpr (expr depth) (block depth) t

def block (depth : Nat) (t : Tree) : Option Block :=
  match depth with
  | 0 => none
  | depth + 1 =>
    (items? t).bind fun items => items.mapM (statement (expr depth) (block depth))

end

def read (text : String) : Option Block :=
  if (Text.trim text).isEmpty then some []
  else
    match Json.decode text with
    | .ok tree => block (Json.maxDepth + 1) tree
    | .error _ => none

end ScriptServer.Script.Notation
