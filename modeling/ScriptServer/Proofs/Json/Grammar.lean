import ScriptServer.Json.Tree
import ScriptServer.Json.Reader
import ScriptServer.Proofs.Number.Rounding
import ScriptServer.Proofs.Text.Digits

/-!
# The JSON grammar of RFC 8259

A `Document` is what a JSON text says before it is evaluated: a number is still its literal, a
string still its escapes, and an object may have a key twice. `Spells` relates documents to the
texts that write them, and `Document.meaning` gives the tree that a document stands for. Nothing
here reads bytes or says where reading stops.
-/

namespace ScriptServer.Json

/-! ## White space -/

def isBlank (c : Char) : Bool := c == ' ' || c == '\t' || c == '\n' || c == '\r'

/-- White space, maybe none. -/
def Blank (cs : List Char) : Prop := ∀ c ∈ cs, isBlank c = true

/-! ## Numbers -/

/-- The exponent of a number literal. -/
structure Exponent where
  marker : Char
  sign : Option Char
  digits : List Char

/-- A number literal in its parts. -/
structure Literal where
  minus : Bool
  whole : List Char
  fraction : Option (List Char)
  exponent : Option Exponent

namespace Exponent

variable (e : Exponent)

structure WellFormed : Prop where
  marker : e.marker = 'e' ∨ e.marker = 'E'
  sign : ∀ s ∈ e.sign, s = '+' ∨ s = '-'
  digits : Text.IsNumeral e.digits

def text : List Char := e.marker :: (e.sign.toList ++ e.digits)

def value : Int :=
  if e.sign = some '-' then -(Text.digitsValue e.digits : Int) else Text.digitsValue e.digits

end Exponent

namespace Literal

variable (l : Literal)

/-- The whole part has no zero in front of other digits, and no part is without digits. -/
structure WellFormed : Prop where
  whole : Text.IsWhole l.whole
  fraction : ∀ ds ∈ l.fraction, Text.IsNumeral ds
  exponent : ∀ e ∈ l.exponent, e.WellFormed

def text : List Char :=
  (if l.minus then ['-'] else []) ++ l.whole ++ (l.fraction.elim [] fun ds => '.' :: ds) ++
    l.exponent.elim [] Exponent.text

def digits : List Char := l.whole ++ l.fraction.getD []

/-- The power of ten of the last digit. -/
def scale : Int := l.exponent.elim 0 Exponent.value - (l.fraction.getD []).length

/-- The absolute value in the units of `Binary64.unitsOf`. -/
def units : ℚ := Binary64.decimalUnits (Text.digitsValue l.digits) l.scale

/-- The number that is nearest to the literal, infinity included. -/
def value : Binary64 := Binary64.ofDecimal l.minus (Text.digitsValue l.digits) l.scale

end Literal

/-! ## Strings -/

/-- A character of a string literal or an escape in it. -/
inductive Piece where
  | char (c : Char)
  | escape (c : Char)
  | unicode (digits : List Char)

/-- The letters behind a backslash and what they stand for. -/
def escapes : List (Char × Char) :=
  [('"', '"'), ('\\', '\\'), ('/', '/'), ('b', '\x08'), ('f', '\x0c'), ('n', '\n'), ('r', '\r'),
    ('t', '\t')]

def hexValue (ds : List Char) : Nat :=
  ds.foldl (fun n c => n * 16 + (Text.hexValue? c).getD 0) 0

namespace Piece

def WellFormed : Piece → Prop
  | .char c => c ≠ '"' ∧ c ≠ '\\' ∧ 0x20 ≤ c.toNat
  | .escape c => (escapes.lookup c).isSome = true
  | .unicode ds => ds.length = 4 ∧ ∀ c ∈ ds, (Text.hexValue? c).isSome = true

def text : Piece → List Char
  | .char c => [c]
  | .escape c => ['\\', c]
  | .unicode ds => '\\' :: 'u' :: ds

end Piece

/-- What a hexadecimal escape stands for on its own; half a pair is no character. -/
def loneUnit (n : Nat) : Char :=
  if isHighSurrogate n || isLowSurrogate n then '\uFFFD' else Char.ofNat n

/-- What two hexadecimal escapes stand for that are the halves of a pair. -/
def pairedUnits (high low : Nat) : Char :=
  Char.ofNat (0x10000 + (high - 0xD800) * 0x400 + (low - 0xDC00))

/-- The characters that a string literal stands for. Escapes are taken from left to right, and only
a first half that a second half follows makes a pair. -/
def content : List Piece → List Char
  | [] => []
  | .char c :: ps => c :: content ps
  | .escape c :: ps => (escapes.lookup c).getD c :: content ps
  | .unicode ds :: .unicode es :: ps =>
    if isHighSurrogate (hexValue ds) && isLowSurrogate (hexValue es) then
      pairedUnits (hexValue ds) (hexValue es) :: content ps
    else loneUnit (hexValue ds) :: content (.unicode es :: ps)
  | .unicode ds :: ps => loneUnit (hexValue ds) :: content ps

def quoted (ps : List Piece) : List Char := '"' :: (ps.flatMap Piece.text ++ ['"'])

/-! ## Values -/

/-- What a JSON text says. -/
inductive Document where
  | null
  | bool (b : Bool)
  | number (l : Literal)
  | string (ps : List Piece)
  | array (items : List Document)
  | object (members : List (List Piece × Document))

namespace Document

mutual

/-- The text writes the document. -/
def Spells : Document → List Char → Prop
  | .null, cs => cs = "null".toList
  | .bool b, cs => cs = (if b then "true" else "false").toList
  | .number l, cs => l.WellFormed ∧ cs = l.text
  | .string ps, cs => (∀ p ∈ ps, p.WellFormed) ∧ cs = quoted ps
  | .array items, cs => ∃ inner, cs = '[' :: (inner ++ [']']) ∧
      ((items = [] ∧ Blank inner) ∨ SpellsItems items inner)
  | .object members, cs => ∃ inner, cs = '\x7b' :: (inner ++ ['\x7d']) ∧
      ((members = [] ∧ Blank inner) ∨ SpellsMembers members inner)

/-- The text writes items, at least one, with commas between them. -/
def SpellsItems : List Document → List Char → Prop
  | [], _ => False
  | item :: items, cs => ∃ before text after rest, cs = before ++ text ++ after ++ rest ∧
      Blank before ∧ Spells item text ∧ Blank after ∧
      ((items = [] ∧ rest = []) ∨ ∃ more, rest = ',' :: more ∧ SpellsItems items more)

/-- The text writes members, at least one, with commas between them. -/
def SpellsMembers : List (List Piece × Document) → List Char → Prop
  | [], _ => False
  | (key, value) :: members, cs => ∃ before colon text after rest,
      cs = before ++ quoted key ++ colon ++ text ++ after ++ rest ∧
      Blank before ∧ (∀ p ∈ key, p.WellFormed) ∧
      (∃ left right, colon = left ++ ':' :: right ∧ Blank left ∧ Blank right) ∧
      Spells value text ∧ Blank after ∧
      ((members = [] ∧ rest = []) ∨ ∃ more, rest = ',' :: more ∧ SpellsMembers members more)

end

mutual

/-- The tree that a document stands for. A later member takes the place of an earlier one with its
key. -/
def meaning : Document → Tree
  | .null => .null
  | .bool b => .bool b
  | .number l => .number l.value
  | .string ps => .string (String.ofList (content ps))
  | .array items => .array (meaningItems items)
  | .object members => .object (Dictionary.ofList (meaningMembers members))

def meaningItems : List Document → List Tree
  | [] => []
  | item :: items => meaning item :: meaningItems items

def meaningMembers : List (List Piece × Document) → List (String × Tree)
  | [] => []
  | (key, value) :: members =>
    (String.ofList (content key), meaning value) :: meaningMembers members

end

mutual

/-- The greatest number of arrays and objects around a value. -/
def depth : Document → Nat
  | .array items => depthItems items
  | .object members => depthMembers members
  | _ => 0

def depthItems : List Document → Nat
  | [] => 0
  | item :: items => max (depth item + 1) (depthItems items)

def depthMembers : List (List Piece × Document) → Nat
  | [] => 0
  | (_, value) :: members => max (depth value + 1) (depthMembers members)

end

mutual

def literals : Document → List Literal
  | .number l => [l]
  | .array items => literalsItems items
  | .object members => literalsMembers members
  | _ => []

def literalsItems : List Document → List Literal
  | [] => []
  | item :: items => literals item ++ literalsItems items

def literalsMembers : List (List Piece × Document) → List Literal
  | [] => []
  | (_, value) :: members => literals value ++ literalsMembers members

end

/-- The text is the document with white space around it. -/
def IsTextOf (doc : Document) (cs : List Char) : Prop :=
  ∃ before text after, cs = before ++ text ++ after ∧ Blank before ∧ doc.Spells text ∧ Blank after

end Document

end ScriptServer.Json
