import ScriptServer.Dictionary

/-!
# TOML tables

A document is a table that its lines build up: an entry puts a value under a dotted key of the
current table, and a header makes another table the current one. A table remembers how it came
about, since that decides what later lines may do to it: one that was written in braces is closed,
one with a header cannot get a second header or grow by a dotted key of its parent, and one that a
dotted key made can have no header. Floating point numbers and dates are kept without their value.
-/

namespace ScriptServer.Toml

/-- How a table came about. -/
inductive Origin where
  /-- It was written in braces. -/
  | braces
  /-- It has a header, or it is the document. -/
  | header
  /-- It stands on the way to the table of a header. -/
  | path
  /-- It stands on the way to the last word of a dotted key. -/
  | dotted
  deriving DecidableEq, Repr, Inhabited

inductive Value where
  | string (s : String)
  | integer (i : Int)
  | float
  | bool (b : Bool)
  | date
  | array (items : List Value)
  | table (origin : Origin) (entries : List (String × Value))
  /-- The tables that share one doubly bracketed header, the last one first. -/
  | tables (items : List Value)
  deriving Inhabited, Repr

/-- A table: how it came about, and its entries. -/
structure Table where
  origin : Origin
  entries : Dictionary Value
  deriving Inhabited, Repr

/-- A key of one or more words: those before the last one, and the last one. -/
structure Key where
  path : List String
  last : String
  deriving DecidableEq, Repr

/-- A line of a document that says something. -/
inductive Line where
  | entry (key : Key) (value : Value)
  | header (key : Key)
  /-- A header in double brackets, which adds one more table to a list. -/
  | listHeader (key : Key)
  deriving Repr

namespace Table

def value (t : Table) : Value := .table t.origin t.entries

/-- Puts a value under one word. -/
def put (t : Table) (word : String) (v : Value) : Table :=
  { t with entries := t.entries.insert word v }

/-- Changes the table at the end of a path, making the tables on the way that are not there yet. A
header's path goes through the last table of a list, and through any table that is not closed; a
dotted key's path does not enter a table that has a header. -/
def changeAt (dotted : Bool) (change : Table → Option Table) : List String → Table → Option Table
  | [], t => change t
  | word :: path, t =>
    match Dictionary.get? t.entries word with
    | none =>
      (changeAt dotted change path ⟨if dotted then .dotted else .path, []⟩).map fun inner =>
        t.put word inner.value
    | some (.table .braces _) => none
    | some (.table origin entries) =>
      if dotted && origin == .header then none
      else (changeAt dotted change path ⟨origin, entries⟩).map fun inner => t.put word inner.value
    | some (.tables (.table origin entries :: others)) =>
      (changeAt dotted change path ⟨origin, entries⟩).map fun inner =>
        t.put word (.tables (inner.value :: others))
    | some _ => none

/-- Puts a value under a key of the table. The table that directly holds the last word has to be the
one that the line belongs to, or one that dotted keys made. -/
def assign (key : Key) (v : Value) : Table → Option Table :=
  changeAt true
    (fun t =>
      if (t.origin == .dotted) == key.path.isEmpty then none
      else if t.entries.contains key.last then none
      else some (t.put key.last v))
    key.path

/-- Opens the table of a header. It may stand there already if only the headers of tables inside it
came before. -/
def open? (key : Key) : Table → Option Table :=
  changeAt false
    (fun t =>
      match Dictionary.get? t.entries key.last with
      | none => some (t.put key.last (.table .header []))
      | some (.table .path entries) => some (t.put key.last (.table .header entries))
      | some _ => none)
    key.path

/-- Adds an empty table to the list of tables of a doubly bracketed header. -/
def append? (key : Key) : Table → Option Table :=
  changeAt false
    (fun t =>
      match Dictionary.get? t.entries key.last with
      | none => some (t.put key.last (.tables [.table .header []]))
      | some (.tables items) => some (t.put key.last (.tables (.table .header [] :: items)))
      | some _ => none)
    key.path

def ofEntries (entries : List (Key × Value)) : Option Table :=
  (entries.foldlM (fun t (key, v) => assign key v t) ⟨.header, []⟩).map fun (t : Table) =>
    ⟨.braces, t.entries⟩

/-- Adds lines to a document whose current table lies at the end of the path `current`. -/
def addLines : List Line → List String → Table → Option Table
  | [], _, doc => some doc
  | .entry key v :: lines, current, doc =>
    match changeAt false (assign key v) current doc with
    | some doc => addLines lines current doc
    | none => none
  | .header key :: lines, _, doc =>
    match open? key doc with
    | some doc => addLines lines (key.path ++ [key.last]) doc
    | none => none
  | .listHeader key :: lines, _, doc =>
    match append? key doc with
    | some doc => addLines lines (key.path ++ [key.last]) doc
    | none => none

def ofLines (lines : List Line) : Option Table :=
  addLines lines [] ⟨.header, []⟩

end Table

end ScriptServer.Toml
