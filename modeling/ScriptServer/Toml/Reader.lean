import ScriptServer.Number.Literal
import ScriptServer.Toml.Table

/-!
# Reading TOML

A reader takes something off the front of a text and gives the rest, or refuses. Values nest within
arrays and braces fewer than `maxDepth` deep, and a key has fewer than `maxDepth` words. Nothing is
reported about a refused document but that it was refused.
-/

namespace ScriptServer.Toml

/-- The bound on the nesting of values and on the words of a key. -/
def maxDepth : Nat := 80

/-- Takes something off the front of a text. -/
abbrev Reader (α : Type) := List Char → Option (α × List Char)

/-! ### Characters and white space -/

def isSpace (c : Char) : Bool := c == ' ' || c == '\t'

def isComment (c : Char) : Bool := c == '\t' || (0x20 ≤ c.toNat && c.toNat != 0x7F)

/-- A character of a key without quotes. -/
def isBare (c : Char) : Bool := Text.isAlphanumeric c || c == '_' || c == '-'

/-- Behind the spaces and tabs. -/
def skipSpace (cs : List Char) : List Char := cs.dropWhile isSpace

/-- Behind a line break, if one stands here. -/
def lineBreak? : List Char → Option (List Char)
  | '\n' :: cs => some cs
  | '\r' :: '\n' :: cs => some cs
  | _ => none

def skipComment : List Char → List Char
  | '#' :: cs => cs.dropWhile isComment
  | cs => cs

/-- Behind white space, line breaks and comments that end with their line. -/
def skipLines : Nat → List Char → Option (List Char)
  | 0, cs => some cs
  | fuel + 1, cs =>
    let cs := skipSpace cs
    match cs with
    | '#' :: rest => (lineBreak? (rest.dropWhile isComment)).bind (skipLines fuel)
    | _ =>
      match lineBreak? cs with
      | some rest => skipLines fuel rest
      | none => some cs

/-- Behind all that may stand between the items of an array. -/
def skipBetween (cs : List Char) : Option (List Char) := skipLines (cs.length + 1) cs

/-! ### Strings -/

/-- The character with this hexadecimal number. -/
def scalar? (digits : List Char) : Option Char :=
  (digits.mapM Text.hexValue?).bind fun ds =>
    let n := ds.foldl (fun n d => n * 16 + d) 0
    if n.isValidChar then some (Char.ofNat n) else none

def simpleEscape? (c : Char) : Option Char :=
  if c = '"' then some '"'
  else if c = '\\' then some '\\'
  else if c = 'b' then some '\x08'
  else if c = 'f' then some '\x0c'
  else if c = 'n' then some '\n'
  else if c = 'r' then some '\r'
  else if c = 't' then some '\t'
  else none

/-- Reads what follows the backslash of an escape. -/
def readEscape : Reader Char
  | 'u' :: cs => if cs.length < 4 then none else (scalar? (cs.take 4)).map fun c => (c, cs.drop 4)
  | 'U' :: cs => if cs.length < 8 then none else (scalar? (cs.take 8)).map fun c => (c, cs.drop 8)
  | c :: cs => (simpleEscape? c).map fun c => (c, cs)
  | [] => none

def readBasic : Nat → Reader (List Char)
  | 0, _ => none
  | fuel + 1, cs =>
    match cs with
    | '"' :: cs => some ([], cs)
    | '\\' :: cs =>
      (readEscape cs).bind fun (c, cs) => (readBasic fuel cs).map fun (s, cs) => (c :: s, cs)
    | c :: cs =>
      if isComment c then (readBasic fuel cs).map fun (s, cs) => (c :: s, cs) else none
    | [] => none

def readPlain : Reader (List Char)
  | '\'' :: cs => some ([], cs)
  | c :: cs => if isComment c then (readPlain cs).map fun (s, cs) => (c :: s, cs) else none
  | [] => none

/-- Behind a line break, if one stands here, and else where the text begins. -/
def skipLineBreak (cs : List Char) : List Char := (lineBreak? cs).getD cs

/-- Reads the end of a string of several lines: its closing three quotes, and up to two more in
front of them that belong to the string. -/
def readClosing (quote : Char) (cs : List Char) : Option (List Char × List Char) :=
  let run := (cs.takeWhile (· == quote)).length
  if run < 3 then none
  else
    let extra := min (run - 3) 2
    some (List.replicate extra quote, cs.drop (extra + 3))

/-- Behind the white space and line breaks that a backslash at the end of a line takes away; it has
to stand at the end of its line. -/
def skipContinuation? (cs : List Char) : Option (List Char) :=
  (lineBreak? (skipSpace cs)).map fun cs => skip (cs.length + 1) cs
where
  skip : Nat → List Char → List Char
    | 0, cs => cs
    | fuel + 1, cs =>
      let cs := skipSpace cs
      match lineBreak? cs with
      | some cs => skip fuel cs
      | none => cs

/-- Reads a string of several lines behind its opening quotes. Only one in double quotes has
escapes. -/
def readLong (quote : Char) : Nat → Reader (List Char)
  | 0, _ => none
  | fuel + 1, cs =>
    match readClosing quote cs with
    | some closing => some closing
    | none =>
      match lineBreak? cs with
      | some rest => (readLong quote fuel rest).map fun (s, cs) => ('\n' :: s, cs)
      | none =>
        match cs with
        | [] => none
        | c :: rest =>
          if c = '\\' ∧ quote = '"' then
            match skipContinuation? rest with
            | some rest => readLong quote fuel rest
            | none =>
              (readEscape rest).bind fun (c, rest) =>
                (readLong quote fuel rest).map fun (s, cs) => (c :: s, cs)
          else if isComment c then (readLong quote fuel rest).map fun (s, cs) => (c :: s, cs)
          else none

def readString : Reader String := fun cs =>
  match cs with
  | '"' :: '"' :: '"' :: cs => text (readLong '"' (cs.length + 1) (skipLineBreak cs))
  | '\'' :: '\'' :: '\'' :: cs => text (readLong '\'' (cs.length + 1) (skipLineBreak cs))
  | '"' :: cs => text (readBasic (cs.length + 1) cs)
  | '\'' :: cs => text (readPlain cs)
  | _ => none
where
  text (r : Option (List Char × List Char)) : Option (String × List Char) :=
    r.map fun (s, cs) => (String.ofList s, cs)

/-! ### Keys -/

def readWord : Reader String
  | '"' :: cs => (readBasic (cs.length + 1) cs).map fun (s, cs) => (String.ofList s, cs)
  | '\'' :: cs => (readPlain cs).map fun (s, cs) => (String.ofList s, cs)
  | cs =>
    let word := cs.takeWhile isBare
    if word.isEmpty then none else some (String.ofList word, cs.dropWhile isBare)

/-- Reads at most `fuel` words with dots between them and white space around them. -/
def readWords : Nat → Reader (List String)
  | 0, _ => none
  | fuel + 1, cs =>
    (readWord (skipSpace cs)).bind fun (word, cs) =>
      match skipSpace cs with
      | '.' :: cs => (readWords fuel cs).map fun (words, cs) => (word :: words, cs)
      | cs => some ([word], cs)

def readKey : Reader Key := fun cs =>
  (readWords (maxDepth - 1) cs).map fun (words, cs) =>
    (⟨words.dropLast, words.getLast?.getD ""⟩, cs)

/-! ### Numbers and dates -/

/-- Reads digits, between each two of which one underscore may stand. -/
def readDigits (isDigit : Char → Bool) : Reader (List Char)
  | [] => none
  | c :: cs =>
    if isDigit c then
      match cs with
      | '_' :: cs => (readDigits isDigit cs).map fun (ds, cs) => (c :: ds, cs)
      | cs =>
        match readDigits isDigit cs with
        | some (ds, cs) => some (c :: ds, cs)
        | none => some ([c], cs)
    else none

/-- Reads a whole number in decimal notation: a sign, and digits that do not begin with a needless
zero. -/
def readWhole : Reader (Bool × List Char) := fun cs =>
  let (minus, cs) := Binary64.takeSign cs
  match cs with
  | '0' :: cs => some ((minus, ['0']), cs)
  | cs => (readDigits Text.isDigit cs).map fun (ds, cs) => ((minus, ds), cs)

def readExponent : Reader Int
  | c :: cs =>
    if c = 'e' ∨ c = 'E' then
      let (minus, cs) := Binary64.takeSign cs
      (readDigits Text.isDigit cs).map fun (ds, cs) =>
        let n : Int := Text.digitsValue ds
        (if minus then -n else n, cs)
    else none
  | [] => none

/-- Reads a fraction and an exponent, of which one may be missing. -/
def readFraction : Reader (List Char × Int)
  | '.' :: cs =>
    (readDigits Text.isDigit cs).map fun (ds, cs) =>
      match readExponent cs with
      | some (exp, cs) => ((ds, exp), cs)
      | none => ((ds, 0), cs)
  | cs => (readExponent cs).map fun (exp, cs) => (([], exp), cs)

/-- Reads one of the words for numbers that are not finite, after an optional sign. -/
def readSpecial : Reader Value := fun cs =>
  match (Binary64.takeSign cs).2 with
  | 'i' :: 'n' :: 'f' :: cs => some (.float, cs)
  | 'n' :: 'a' :: 'n' :: cs => some (.float, cs)
  | _ => none

/-- One more than the greatest integer. -/
def integerBound : Nat := 1 <<< 63

def integer? (minus : Bool) (n : Nat) : Option Value :=
  if minus then if n ≤ integerBound then some (.integer (-(n : Int))) else none
  else if n < integerBound then some (.integer n) else none

/-- Reads an integer in another base behind what introduces it. -/
def readBased (base : Nat) : Reader Value := fun cs =>
  let isDigit (c : Char) :=
    match Text.hexValue? c with
    | some d => d < base
    | none => false
  (readDigits isDigit cs).bind fun (ds, cs) =>
    let n := ds.foldl (fun n c => n * base + (Text.hexValue? c).getD 0) 0
    (integer? false n).map fun v => (v, cs)

/-- Reads a number in decimal notation. A number with a fraction or an exponent may not be so great
that it would be read as positive infinity. -/
def readDecimal : Reader Value := fun cs =>
  (readWhole cs).bind fun ((minus, whole), cs) =>
    match readFraction cs with
    | some ((fraction, exp), cs) =>
      let x :=
        Binary64.ofDecimal minus (Text.digitsValue (whole ++ fraction)) (exp - fraction.length)
      if x.isInfinite && !minus then none else some (.float, cs)
    | none => (integer? minus (Text.digitsValue whole)).map fun v => (v, cs)

def readNumber : Reader Value := fun cs =>
  match cs with
  | '0' :: 'x' :: cs => readBased 16 cs
  | '0' :: 'o' :: cs => readBased 8 cs
  | '0' :: 'b' :: cs => readBased 2 cs
  | cs => (readSpecial cs).orElse fun _ => readDecimal cs

/-- Reads a number of exactly `width` digits between `low` and `high`. -/
def readField (width low high : Nat) : Reader Nat := fun cs =>
  let ds := cs.take width
  let n := Text.digitsValue ds
  if ds.length = width ∧ ds.all Text.isDigit = true ∧ low ≤ n ∧ n ≤ high then
    some (n, cs.drop width)
  else none

def expect (c : Char) : List Char → Option (List Char)
  | c' :: cs => if c' = c then some cs else none
  | [] => none

def daysOf (year month : Nat) : Nat :=
  if month = 2 then
    if year % 4 = 0 ∧ (year % 100 ≠ 0 ∨ year % 400 = 0) then 29 else 28
  else if month = 4 ∨ month = 6 ∨ month = 9 ∨ month = 11 then 30
  else 31

def skipDay (cs : List Char) : Option (List Char) := do
  let (year, cs) ← readField 4 0 9999 cs
  let cs ← expect '-' cs
  let (month, cs) ← readField 2 1 12 cs
  let cs ← expect '-' cs
  let (_, cs) ← readField 2 1 (daysOf year month) cs
  return cs

def skipTime (cs : List Char) : Option (List Char) := do
  let (_, cs) ← readField 2 0 23 cs
  let cs ← expect ':' cs
  let (_, cs) ← readField 2 0 59 cs
  let cs ← expect ':' cs
  let (_, cs) ← readField 2 0 60 cs
  match cs with
  | '.' :: rest =>
    if (rest.takeWhile Text.isDigit).isEmpty then none else some (rest.dropWhile Text.isDigit)
  | cs => some cs

def skipOffset : List Char → Option (List Char)
  | 'Z' :: cs => some cs
  | 'z' :: cs => some cs
  | c :: cs =>
    if c = '+' ∨ c = '-' then do
      let (_, cs) ← readField 2 0 23 cs
      let cs ← expect ':' cs
      let (_, cs) ← readField 2 0 59 cs
      return cs
    else some (c :: cs)
  | [] => some []

/-- Reads a date, a time, or both. -/
def readDate : Reader Value := fun cs =>
  match skipDay cs with
  | some cs =>
    match cs with
    | c :: rest =>
      if c = 'T' ∨ c = 't' ∨ c = ' ' then
        match skipTime rest with
        | some rest => (skipOffset rest).map fun rest => (.date, rest)
        | none => some (.date, cs)
      else some (.date, cs)
    | [] => some (.date, cs)
  | none => (skipTime cs).map fun cs => (.date, cs)

/-! ### Values and lines -/

/-- Reads the items of an array behind its bracket or a comma, at most `fuel` of them. -/
def readItems (item : Reader Value) : Nat → Reader (List Value)
  | 0, _ => none
  | fuel + 1, cs =>
    (skipBetween cs).bind fun cs =>
      match cs with
      | ']' :: cs => some ([], cs)
      | cs =>
        (item cs).bind fun (v, cs) =>
          (skipBetween cs).bind fun cs =>
            match cs with
            | ']' :: cs => some ([v], cs)
            | ',' :: cs => (readItems item fuel cs).map fun (vs, cs) => (v :: vs, cs)
            | _ => none

def readEntry (item : Reader Value) : Reader (Key × Value) := fun cs =>
  (readKey cs).bind fun (key, cs) =>
    (expect '=' cs).bind fun cs =>
      (item (skipSpace cs)).map fun (v, cs) => ((key, v), skipSpace cs)

/-- Reads the entries of a table in braces behind the brace or a comma, at most `fuel` of them. -/
def readEntries (item : Reader Value) : Nat → Reader (List (Key × Value))
  | 0, _ => none
  | fuel + 1, cs =>
    (readEntry item cs).bind fun (e, cs) =>
      match cs with
      | '\x7d' :: cs => some ([e], cs)
      | ',' :: cs => (readEntries item fuel cs).map fun (es, cs) => (e :: es, cs)
      | _ => none

def readBraces (item : Reader Value) : Reader Value := fun cs =>
  match skipSpace cs with
  | '\x7d' :: cs => some (.table .braces [], cs)
  | cs =>
    (readEntries item (cs.length + 1) cs).bind fun (entries, cs) =>
      (Table.ofEntries entries).map fun t => (t.value, cs)

def readSimple : Reader Value := fun cs =>
  match cs with
  | 't' :: 'r' :: 'u' :: 'e' :: cs => some (.bool true, cs)
  | 'f' :: 'a' :: 'l' :: 's' :: 'e' :: cs => some (.bool false, cs)
  | c :: _ =>
    if c = '"' ∨ c = '\'' then (readString cs).map fun (s, cs) => (.string s, cs)
    else (readDate cs).orElse fun _ => readNumber cs
  | [] => none

/-- Reads a value with fewer than `depth` levels of brackets and braces. -/
def readValue : Nat → Reader Value
  | 0, _ => none
  | 1, cs =>
    match cs with
    | '[' :: _ => none
    | '\x7b' :: _ => none
    | cs => readSimple cs
  | depth + 2, cs =>
    match cs with
    | '[' :: cs =>
      (readItems (readValue (depth + 1)) (cs.length + 1) cs).map fun (vs, cs) => (.array vs, cs)
    | '\x7b' :: cs => readBraces (readValue (depth + 1)) cs
    | cs => readSimple cs

/-- Behind the end of a line or of the text, after white space and a comment. -/
def endLine (cs : List Char) : Option (List Char) :=
  match skipComment (skipSpace cs) with
  | [] => some []
  | cs => lineBreak? cs

def readLine : Reader Line := fun cs =>
  match cs with
  | '[' :: '[' :: cs =>
    (readKey cs).bind fun (key, cs) =>
      match cs with
      | ']' :: ']' :: cs => (endLine cs).map fun cs => (.listHeader key, cs)
      | _ => none
  | '[' :: cs =>
    (readKey cs).bind fun (key, cs) =>
      match cs with
      | ']' :: cs => (endLine cs).map fun cs => (.header key, cs)
      | _ => none
  | cs =>
    (readEntry (readValue maxDepth) cs).bind fun ((key, v), cs) =>
      (endLine cs).map fun cs => (.entry key v, cs)

/-- Reads the lines of a text, at most `fuel` of them. Lines that are blank but for a comment say
nothing. -/
def readLines : Nat → List Char → Option (List Line)
  | 0, _ => none
  | fuel + 1, cs =>
    match skipSpace cs with
    | [] => some []
    | c :: rest =>
      if c = '#' ∨ (lineBreak? (c :: rest)).isSome then (endLine (c :: rest)).bind (readLines fuel)
      else
        (readLine (c :: rest)).bind fun (line, rest) =>
          (readLines fuel rest).map fun lines => line :: lines

def read (text : String) : Option Table :=
  let cs :=
    match text.toList with
    | '\uFEFF' :: cs => cs
    | cs => cs
  (readLines (cs.length + 1) cs).bind Table.ofLines

end ScriptServer.Toml
