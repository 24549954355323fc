import ScriptServer.Json.Tree
import ScriptServer.Script.Display

/-!
# Values as JSON trees

`toTree` unfolds a value. A table is nothing, an array or an object by its keys alone; one that is
open already on the way from the root, or lies inside `maxDepth` others, is replaced by its address
text, so unfolding ends for every heap. `ofTree` builds the value of a tree, in which integers that
a float holds exactly become integers.
-/

namespace ScriptServer.Script

/-- How a table appears in a tree. -/
inductive Shape where
  | empty
  /-- The keys are the integers from one to this length. -/
  | array (length : Nat)
  | object
  deriving DecidableEq, Repr

/-- The key is an integer from one to `length`. -/
def inArray (length : Nat) : Value → Bool
  | .integer i => 1 ≤ i.toInt && i.toInt ≤ length
  | _ => false

/-- The shape of a table with these entries that reports this length. -/
def classify (length : Nat) (entries : List (Value × Value)) : Shape :=
  if entries.isEmpty then .empty
  else if entries.all (fun e => inArray length e.1) && entries.length == length then .array length
  else .object

def Table.shape (t : Table) : Shape := classify t.border t.entries

/-- The number of tables that may enclose a table. -/
def maxDepth : Nat := 128

/-- Unfolds a value. `room` is the number of tables that may still be opened and `path` holds those
that are open. -/
def unfold (h : Heap) : Nat → List Nat → Value → Json.Tree
  | room, path, .table id =>
    match room with
    | 0 => .string (Value.table id).opaqueText
    | room + 1 =>
      if path.contains id then .string (Value.table id).opaqueText
      else
        let t := h.table id
        match t.shape with
        | .empty => .null
        | .array n =>
          .array ((List.range n).map fun i => unfold h room (id :: path) (t.get (.ofNat (i + 1))))
        | .object =>
          .object (Dictionary.ofList
            (t.entries.map fun (key, v) => (key.keyText, unfold h room (id :: path) v)))
  | _, _, .nil => .null
  | _, _, .bool b => .bool b
  | _, _, .integer i => .number (Binary64.ofInt i.toInt)
  | _, _, .float x => .number x
  | _, _, .string bs => .string (Utf8.toTextLossy bs)
  | _, _, v => .string v.opaqueText

def toTree (h : Heap) (v : Value) : Json.Tree := unfold h maxDepth [] v

def ofNumber (x : Binary64) : Value :=
  if x.isIntegral && x.absAtMost Value.safeInteger then .integer (Int64.ofInt x.truncate)
  else .float x

mutual

def ofTree : Json.Tree → Heap → Value × Heap
  | .null, h => (.nil, h)
  | .bool b, h => (.bool b, h)
  | .number x, h => (ofNumber x, h)
  | .string s, h => (.ofText s, h)
  | .array items, h =>
    let (v, h) := h.addTable .empty
    (v, fillItems v.tableId items 1 h)
  | .object members, h =>
    let (v, h) := h.addTable .empty
    (v, fillMembers v.tableId members h)

def fillItems (id : Nat) : List Json.Tree → Nat → Heap → Heap
  | [], _, h => h
  | item :: items, n, h =>
    let (v, h) := ofTree item h
    fillItems id items (n + 1) (h.modifyTable id fun t => t.set (.ofNat n) v)

def fillMembers (id : Nat) : List (String × Json.Tree) → Heap → Heap
  | [], h => h
  | (key, member) :: members, h =>
    let (v, h) := ofTree member h
    fillMembers id members (h.modifyTable id fun t => t.set (.ofText key) v)

end

end ScriptServer.Script
