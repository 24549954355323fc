import ScriptServer.Json.Tree
import ScriptServer.Number.Literal
import ScriptServer.Text.Utf8

/-!
# Reading JSON

A recursive descent over the bytes of a text. A cursor is the rest of the input and the number of
bytes before it, and every failure names the byte at which reading stopped. A value may lie inside
`maxDepth` containers. Of two members with one key the later one counts. A surrogate escape that is
not the first half of a pair stands for U+FFFD.
-/

namespace ScriptServer.Json

/-- The number of containers that may enclose a value. -/
def maxDepth : Nat := 512

/-- What the reader was at when it met a byte that does not fit. -/
inductive Place where
  | value
  | literal (word : String)
  | numeral
  | fraction
  | exponent
  | stringStart
  | stringBody
  | escapeCode
  | hexEscape
  | key
  | afterKey
  | afterElement
  | afterMember
  deriving DecidableEq, Repr

def Place.message : Place → String
  | .value => "looking for beginning of value"
  | .literal word => "in literal " ++ word
  | .numeral => "in numeric literal"
  | .fraction => "after decimal point in numeric literal"
  | .exponent => "in exponent of numeric literal"
  | .stringStart => "looking for beginning of string"
  | .stringBody => "in string literal"
  | .escapeCode => "in string escape code"
  | .hexEscape => "in \\u hexadecimal character escape"
  | .key => "looking for beginning of object key string"
  | .afterKey => "after object key"
  | .afterElement => "after array element"
  | .afterMember => "after object key:value pair"

inductive Cause where
  | unexpectedEnd
  | unexpectedByte (b : UInt8) (place : Place)
  | afterTopLevel
  | tooDeep
  | unterminatedString
  | invalidUtf8
  | invalidNumber (literal : String)
  | outOfRange (literal : String)
  deriving DecidableEq, Repr

/-- A byte as it is named in a message: a visible ASCII character or a space in quotes, any other
byte by its number. -/
def describeByte (b : UInt8) : String :=
  if 0x20 ≤ b ∧ b ≤ 0x7E then String.ofList ['\'', Char.ofNat b.toNat, '\'']
  else "0x" ++ String.ofList (Text.hexadecimal 2 b.toNat)

def Cause.message : Cause → String
  | .unexpectedEnd => "unexpected end of JSON input"
  | .unexpectedByte b place => "invalid character " ++ describeByte b ++ " " ++ place.message
  | .afterTopLevel => "invalid character after top-level value"
  | .tooDeep => "exceeded max nesting depth"
  | .unterminatedString => "unterminated string literal"
  | .invalidUtf8 => "invalid UTF-8 in string"
  | .invalidNumber literal => "invalid number " ++ literal
  | .outOfRange literal => "number " ++ literal ++ " out of range"

/-- A failure to read, and the number of bytes before the place where it happened. -/
structure DecodeError where
  cause : Cause
  offset : Nat
  deriving DecidableEq, Repr

def DecodeError.message (e : DecodeError) : String := e.cause.message

def DecodeError.display (e : DecodeError) : String :=
  e.message ++ " (offset " ++ Text.number e.offset ++ ")"

/-- The rest of the input, and the number of bytes before it. -/
structure Cursor where
  pos : Nat
  rest : Bytes
  deriving DecidableEq, Repr

namespace Cursor

def peek (c : Cursor) : Option UInt8 := c.rest.head?

/-- Behind the next byte. -/
def step (c : Cursor) : Cursor := ⟨c.pos + 1, c.rest.tail⟩

/-- The failure at a byte that does not fit, or at the end of the input. -/
def unexpected (c : Cursor) (place : Place) : DecodeError :=
  match c.peek with
  | some b => ⟨.unexpectedByte b place, c.pos⟩
  | none => ⟨.unexpectedEnd, c.pos⟩

def skipWhile (p : UInt8 → Bool) (pos : Nat) : Bytes → Cursor
  | [] => ⟨pos, []⟩
  | b :: rest => if p b then skipWhile p (pos + 1) rest else ⟨pos, b :: rest⟩

/-- The bytes between a cursor and a later one. -/
def upTo (start stop : Cursor) : Bytes :=
  start.rest.take (stop.pos - start.pos)

end Cursor

/-- Reads something at a cursor and gives the cursor behind it. -/
abbrev Reader (α : Type) := Cursor → Except DecodeError (α × Cursor)

def byte (c : Char) : UInt8 := c.toNat.toUInt8

def isBlankByte (b : UInt8) : Bool :=
  b == byte ' ' || b == byte '\n' || b == byte '\t' || b == byte '\r'

def isDigitByte (b : UInt8) : Bool := byte '0' ≤ b && b ≤ byte '9'

def skipBlank (c : Cursor) : Cursor := Cursor.skipWhile isBlankByte c.pos c.rest

def skipDigits (c : Cursor) : Cursor := Cursor.skipWhile isDigitByte c.pos c.rest

/-- Reads the bytes of `word` one after the other. An input that ends among them is reported where
the word begins. -/
def readWord (word : String) (start : Nat) : Bytes → Cursor → Except DecodeError Cursor
  | [], c => .ok c
  | w :: ws, c =>
    match c.peek with
    | none => .error ⟨.unexpectedEnd, start⟩
    | some b =>
      if b = w then readWord word start ws c.step else .error (c.unexpected (.literal word))

def readLiteral (word : String) (value : Tree) : Reader Tree := fun c =>
  match readWord word c.pos (Utf8.ofText word) c with
  | .ok c => .ok (value, c)
  | .error e => .error e

/-- Reads digits, at least one. -/
def readDigits (place : Place) (c : Cursor) : Except DecodeError Cursor :=
  let c' := skipDigits c
  if c'.pos = c.pos then .error (c'.unexpected place) else .ok c'

/-- Reads the part of a number before the point: a zero, or digits that begin with another one. -/
def readWhole (c : Cursor) : Except DecodeError Cursor :=
  match c.peek with
  | some b =>
    if b = byte '0' then .ok c.step
    else if byte '1' ≤ b ∧ b ≤ byte '9' then .ok (skipDigits c)
    else .error (c.unexpected .numeral)
  | none => .error (c.unexpected .numeral)

def readFraction (c : Cursor) : Except DecodeError Cursor :=
  if c.peek = some (byte '.') then readDigits .fraction c.step else .ok c

def readExponent (c : Cursor) : Except DecodeError Cursor :=
  if c.peek = some (byte 'e') ∨ c.peek = some (byte 'E') then
    let c := c.step
    let c := if c.peek = some (byte '+') ∨ c.peek = some (byte '-') then c.step else c
    readDigits .exponent c
  else .ok c

/-- Goes behind a number without looking at its value. -/
def skipNumber (c : Cursor) : Except DecodeError Cursor := do
  let c := if c.peek = some (byte '-') then c.step else c
  let c ← readWhole c
  let c ← readFraction c
  readExponent c

/-- Reads a number as the nearest floating point number, which has to be finite. -/
def readNumber : Reader Tree := fun start =>
  match skipNumber start with
  | .error e => .error e
  | .ok c =>
    let text := Utf8.toTextLossy (start.upTo c)
    match Binary64.ofLiteral? text.toList with
    | none => .error ⟨.invalidNumber text, start.pos⟩
    | some x =>
      if x.isFinite then .ok (.number x, c) else .error ⟨.outOfRange text, start.pos⟩

/-- Reads `k` hexadecimal digits behind the value `acc`. -/
def readHex : Nat → Nat → Reader Nat
  | 0, acc, c => .ok (acc, c)
  | k + 1, acc, c =>
    match c.peek with
    | none => .error (c.unexpected .hexEscape)
    | some b =>
      match Text.hexByte? b with
      | none => .error (c.unexpected .hexEscape)
      | some d => readHex k (acc * 16 + d) c.step

/-- The first half of a surrogate pair. -/
def isHighSurrogate (n : Nat) : Bool := 0xD800 ≤ n && n < 0xDC00

/-- The second half of a surrogate pair. -/
def isLowSurrogate (n : Nat) : Bool := 0xDC00 ≤ n && n < 0xE000

/-- The cursor stands at the two bytes that introduce a hexadecimal escape. -/
def atHexEscape (c : Cursor) : Bool :=
  c.rest.take 2 == [byte '\\', byte 'u']

/-- Reads what follows the introduction of a hexadecimal escape, and with a first half of a pair the
second one. -/
def readUnicode : Reader Char := fun c =>
  match readHex 4 0 c with
  | .error e => .error e
  | .ok (first, c) =>
    if isHighSurrogate first then
      if atHexEscape c then
        match readHex 4 0 c.step.step with
        | .error e => .error e
        | .ok (second, c') =>
          if isLowSurrogate second then
            .ok (Char.ofNat (0x10000 + (first - 0xD800) * 0x400 + (second - 0xDC00)), c')
          else .ok ('\uFFFD', c)
      else .ok ('\uFFFD', c)
    else if isLowSurrogate first then .ok ('\uFFFD', c)
    else .ok (Char.ofNat first, c)

def simpleEscape? (b : UInt8) : Option Char :=
  if b = byte '"' then some '"'
  else if b = byte '\\' then some '\\'
  else if b = byte '/' then some '/'
  else if b = byte 'b' then some '\x08'
  else if b = byte 'f' then some '\x0c'
  else if b = byte 'n' then some '\n'
  else if b = byte 'r' then some '\r'
  else if b = byte 't' then some '\t'
  else none

def readEscape : Reader Char := fun c =>
  match c.peek with
  | none => .error (c.unexpected .escapeCode)
  | some b =>
    match simpleEscape? b with
    | some ch => .ok (ch, c.step)
    | none => if b = byte 'u' then readUnicode c.step else .error (c.unexpected .escapeCode)

/-- Reads the bytes of a string up to its closing quote, which is at most `fuel` bytes away. `start`
is where the string began. -/
def readStringBody (start : Nat) : Nat → Reader Bytes
  | 0, _ => .error ⟨.unterminatedString, start⟩
  | fuel + 1, c =>
    match c.peek with
    | none => .error ⟨.unterminatedString, start⟩
    | some b =>
      if b = byte '"' then .ok ([], c.step)
      else if b = byte '\\' then
        match readEscape c.step with
        | .error e => .error e
        | .ok (ch, c) =>
          match readStringBody start fuel c with
          | .error e => .error e
          | .ok (bs, c) => .ok (String.utf8EncodeChar ch ++ bs, c)
      else if b < 0x20 then .error (c.unexpected .stringBody)
      else
        match readStringBody start fuel c.step with
        | .error e => .error e
        | .ok (bs, c) => .ok (b :: bs, c)

def readString : Reader String := fun c =>
  if c.peek = some (byte '"') then
    match readStringBody c.pos c.rest.length c.step with
    | .error e => .error e
    | .ok (bs, c') =>
      match Utf8.toText? bs with
      | some s => .ok (s, c')
      | none => .error ⟨.invalidUtf8, c.pos⟩
  else .error (c.unexpected .stringStart)

/-- Reads the items of an array up to its closing bracket, of which at most `fuel` follow. -/
def readItems (item : Reader Tree) : Nat → Reader (List Tree)
  | 0, c => .error (c.unexpected .afterElement)
  | fuel + 1, c =>
    match item c with
    | .error e => .error e
    | .ok (x, c) =>
      let c := skipBlank c
      if c.peek = some (byte ',') then
        match readItems item fuel c.step with
        | .error e => .error e
        | .ok (xs, c) => .ok (x :: xs, c)
      else if c.peek = some (byte ']') then .ok ([x], c.step)
      else .error (c.unexpected .afterElement)

def readArray (item : Reader Tree) : Reader Tree := fun c =>
  let c := skipBlank c
  if c.peek = some (byte ']') then .ok (.array [], c.step)
  else
    match readItems item (c.rest.length + 1) c with
    | .error e => .error e
    | .ok (items, c) => .ok (.array items, c)

/-- Reads a member of an object: a key, a colon, a value. -/
def readMember (item : Reader Tree) : Reader (String × Tree) := fun c =>
  let c := skipBlank c
  if c.peek = some (byte '"') then
    match readString c with
    | .error e => .error e
    | .ok (key, c) =>
      let c := skipBlank c
      if c.peek = some (byte ':') then
        match item c.step with
        | .error e => .error e
        | .ok (value, c) => .ok ((key, value), c)
      else .error (c.unexpected .afterKey)
  else .error (c.unexpected .key)

/-- Reads the members of an object up to its closing brace, of which at most `fuel` follow. -/
def readMembers (item : Reader Tree) : Nat → Reader (List (String × Tree))
  | 0, c => .error (c.unexpected .afterMember)
  | fuel + 1, c =>
    match readMember item c with
    | .error e => .error e
    | .ok (m, c) =>
      let c := skipBlank c
      if c.peek = some (byte ',') then
        match readMembers item fuel c.step with
        | .error e => .error e
        | .ok (ms, c) => .ok (m :: ms, c)
      else if c.peek = some (byte '\x7d') then .ok ([m], c.step)
      else .error (c.unexpected .afterMember)

def readObject (item : Reader Tree) : Reader Tree := fun c =>
  let c := skipBlank c
  if c.peek = some (byte '\x7d') then .ok (.object [], c.step)
  else
    match readMembers item (c.rest.length + 1) c with
    | .error e => .error e
    | .ok (members, c) => .ok (.object (Dictionary.ofList members), c)

/-- Reads a value that may have `depth` levels of containers, itself included. -/
def readValue : Nat → Reader Tree
  | 0, c => .error ⟨.tooDeep, c.pos⟩
  | depth + 1, c =>
    let c := skipBlank c
    match c.peek with
    | none => .error (c.unexpected .value)
    | some b =>
      if b = byte 'n' then readLiteral "null" .null c
      else if b = byte 't' then readLiteral "true" (.bool true) c
      else if b = byte 'f' then readLiteral "false" (.bool false) c
      else if b = byte '"' then
        match readString c with
        | .error e => .error e
        | .ok (s, c) => .ok (.string s, c)
      else if b = byte '[' then readArray (readValue depth) c.step
      else if b = byte '\x7b' then readObject (readValue depth) c.step
      else if b = byte '-' ∨ isDigitByte b = true then readNumber c
      else .error (c.unexpected .value)

/-- Reads a text that is one JSON value and white space around it. -/
def decode (text : String) : Except DecodeError Tree :=
  match readValue (maxDepth + 1) ⟨0, Utf8.ofText text⟩ with
  | .error e => .error e
  | .ok (t, c) =>
    let c := skipBlank c
    if c.rest.isEmpty then .ok t else .error ⟨.afterTopLevel, c.pos⟩

end ScriptServer.Json
