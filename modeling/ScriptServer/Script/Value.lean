import ScriptServer.Script.Builtin
import ScriptServer.Script.Code
import ScriptServer.Text.Basic

/-!
# Script values

A value is a scalar or refers to an object of the heap: a table, a function or a thread. The objects
of an interpreter are numbered from a base on that differs from one interpreter to the next, and an
object's address is where its number puts it. The entries of a table are kept in the order in which
the script can enumerate them, one entry a key; that order is not the script's but that of an
`Arrangement`, by the number of the table. A key is neither nil nor a number that is no number, and
a floating point key with an integer value is that integer.
-/

namespace ScriptServer.Script

/-- A value. -/
inductive Value where
  | nil
  | bool (b : Bool)
  | integer (i : Int64)
  | float (x : Binary64)
  | string (bs : Bytes)
  | table (id : Nat)
  | function (id : Nat)
  | thread (id : Nat)
  deriving DecidableEq, Repr, Inhabited

namespace Value

def ofText (s : String) : Value := .string (Utf8.ofText s)

def ofNat (n : Nat) : Value := .integer (Int64.ofNat n)

/-- Neither nil nor false. -/
def isTrue : Value → Bool
  | nil => false
  | bool b => b
  | _ => true

/-- The name of the kind of value, integers apart from other numbers. -/
def kind : Value → String
  | nil => "nil"
  | bool _ => "boolean"
  | integer _ => "integer"
  | float _ => "number"
  | string _ => "string"
  | table _ => "table"
  | function _ => "function"
  | thread _ => "thread"

def typeName (v : Value) : String :=
  match v with
  | integer _ => "number"
  | v => v.kind

/-- The address of an object, zero for a value that is none. Strings have a place of their own. -/
def address : Value → Nat
  | table id => 0x10000 + 192 * id
  | function id => 0x10040 + 192 * id
  | thread id => 0x10080 + 192 * id
  | string _ => 0x8000
  | _ => 0

/-- The text that stands for a value without any other. -/
def opaqueText (v : Value) : String :=
  v.kind ++ ": 0x" ++ String.ofList (Text.hexadecimal 1 v.address)

/-- The integers of 64 bits lie below this bound and not below its negative. -/
def integerBound : Nat := 1 <<< 63

/-- A float whose value is an integer of 64 bits. -/
def exactInteger? (x : Binary64) : Option Int64 :=
  if x.isIntegral then
    let i := x.truncate
    if -(integerBound : Int) ≤ i ∧ i < integerBound then some (Int64.ofInt i) else none
  else none

def tableId : Value → Nat
  | table id => id
  | _ => 0

/-- A value as a key: a float that is an integer becomes one. -/
def asKey : Value → Value
  | float x =>
    match exactInteger? x with
    | some i => integer i
    | none => float x
  | v => v

end Value

/-- A table. -/
structure Table where
  entries : List (Value × Value)
  metatable : Option Nat
  deriving Repr, Inhabited

namespace Table

def empty : Table := ⟨[], none⟩

def get (t : Table) (key : Value) : Value :=
  (t.entries.lookup key.asKey).getD .nil

def field (t : Table) (name : String) : Value := t.get (.ofText name)

/-- Replaces what stands under a key that has an entry, or adds an entry at the end. -/
def put (key value : Value) : List (Value × Value) → List (Value × Value)
  | [] => [(key, value)]
  | e :: entries => if e.1 = key then (key, value) :: entries else e :: put key value entries

/-- Assigns a value to a key. Nil takes the entry away. -/
def set (t : Table) (key value : Value) : Table :=
  let key := key.asKey
  { t with
    entries :=
      if value = .nil then t.entries.filter fun e => e.1 ≠ key else put key value t.entries }

/-- `n` is a length that the table may report: its last position is filled and the next is not. -/
def IsBorder (t : Table) (n : Nat) : Prop :=
  (n = 0 ∨ t.get (.ofNat n) ≠ .nil) ∧ t.get (.ofNat (n + 1)) = .nil

/-- The first position from `n` on that is not filled, not counting more than `fuel` of them. -/
def borderFrom (t : Table) : Nat → Nat → Nat
  | 0, n => n
  | fuel + 1, n => if t.get (.ofNat (n + 1)) = .nil then n else borderFrom t fuel (n + 1)

/-- The length that the table reports: the least one it may report. -/
def border (t : Table) : Nat := t.borderFrom t.entries.length 0

end Table

/-- The order in which the entries of tables are enumerated. It may differ from table to table, and
so from interpreter to interpreter, as their tables have other numbers. -/
structure Arrangement where
  order : Nat → List (Value × Value) → List (Value × Value)
  perm : ∀ id entries, (order id entries).Perm entries

def Arrangement.asMade : Arrangement := ⟨fun _ entries => entries, fun _ entries => .refl entries⟩

def Table.arranged (t : Table) (a : Arrangement) (id : Nat) : Table :=
  { t with entries := a.order id t.entries }

/-- A function. -/
inductive Closure where
  /-- One of the script: its statements, and how a place in it is named in front of a message. -/
  | script (body : Block) (place : String)
  /-- One of the server's modules. -/
  | builtin (b : Builtin)

def Closure.idle : Closure := .script [] ""

/-- The objects of an interpreter. -/
structure Heap where
  tables : Array Table
  functions : Array Closure
  threads : Nat
  deriving Inhabited

namespace Heap

def empty : Heap := ⟨#[], #[], 0⟩

/-- No objects of the interpreter's own. Its first ones will have the number `base`; what lies in
front of them belongs to others. -/
def startingAt (base : Nat) : Heap :=
  ⟨Array.replicate base .empty, Array.replicate base .idle, base⟩

def table (h : Heap) (id : Nat) : Table := h.tables[id]?.getD .empty

def function (h : Heap) (id : Nat) : Closure := h.functions[id]?.getD .idle

/-- The heap with the entries of its tables arranged from the one numbered `start` on. -/
def arrangedFrom (h : Heap) (a : Arrangement) (start : Nat) : Heap :=
  { h with tables := h.tables.mapIdx fun id t => if start ≤ id then t.arranged a id else t }

def addTable (h : Heap) (t : Table) : Value × Heap :=
  (.table h.tables.size, { h with tables := h.tables.push t })

def addFunction (h : Heap) (f : Closure) : Value × Heap :=
  (.function h.functions.size, { h with functions := h.functions.push f })

def addThread (h : Heap) : Value × Heap :=
  (.thread h.threads, { h with threads := h.threads + 1 })

def modifyTable (h : Heap) (id : Nat) (change : Table → Table) : Heap :=
  { h with tables := h.tables.modify id change }

/-- The metatable's value under a name, nil if there is none. -/
def metafield (h : Heap) (v : Value) (name : String) : Value :=
  match v with
  | .table id =>
    match (h.table id).metatable with
    | some m => (h.table m).field name
    | none => .nil
  | _ => .nil

end Heap

end ScriptServer.Script
