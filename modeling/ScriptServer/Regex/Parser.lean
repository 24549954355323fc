import ScriptServer.Regex.Basic
import ScriptServer.Regex.Fold

/-!
# Reading regular expressions

`Regex.parse?` reads the written form of a regular expression; what is no expression has no value.
Flags such as `(?i)` hold up to the end of the group that they stand in, across alternatives. A
character class is a union of members, nested classes among them, and of unions that `&&`, `--` and
`~~` combine from left to right. The nesting of an expression is bounded by `maxDepth`, its size
by `maxWeight`.
-/

namespace ScriptServer.Regex

structure Flags where
  /-- `i`: letters stand for both of their cases. -/
  ignoreCase : Bool := false
  /-- `m`: the anchors hold at lines. -/
  multiLine : Bool := false
  /-- `s`: a dot stands for a line break too. -/
  dotAll : Bool := false
  /-- `R`: a carriage return breaks lines. -/
  carriage : Bool := false
  /-- `u`: classes and letter case are those of all characters. -/
  unicode : Bool := true
  /-- `x`: blanks and comments between the parts are skipped. -/
  spaced : Bool := false
  deriving DecidableEq, Repr

/-- What is left to read, and the names of the groups so far. -/
structure Parser.State where
  rest : List Char
  names : List (List Char)

/-- Reads a part of an expression; without a value, what is read is no expression. -/
abbrev Parser := StateT Parser.State Option

namespace Parser

def peek? : Parser (Option Char) := do return (← get).rest.head?

def advance (n : Nat) : Parser Unit := modify fun s => { s with rest := s.rest.drop n }

def next : Parser Char := do
  match (← get).rest with
  | [] => failure
  | c :: rest => modify fun s => { s with rest }; return c

/-- The text after blanks and comments; a comment goes from `#` to the end of the line. -/
def dropSpace (comment : Bool) : List Char → List Char
  | [] => []
  | c :: cs =>
    if comment then dropSpace (c != '\n') cs
    else if Text.isBlank c then dropSpace false cs
    else if c = '#' then dropSpace true cs
    else c :: cs

def skip (f : Flags) : Parser Unit :=
  if f.spaced then modify fun s => { s with rest := dropSpace false s.rest } else pure ()

def accept (text : String) : Parser Bool := do
  match Text.dropStart? text.toList (← get).rest with
  | some rest => modify fun s => { s with rest }; return true
  | none => return false

def expect (text : String) : Parser Unit := do
  unless ← accept text do failure

/-- Takes the characters that meet a condition, and skips what follows each of them. -/
def takeSpaced (f : Flags) (p : Char → Bool) : Nat → Parser (List Char)
  | 0 => return []
  | n + 1 => do
    match ← peek? with
    | none => return []
    | some c =>
      if p c then
        advance 1
        skip f
        return c :: (← takeSpaced f p n)
      else return []

/-- The number of characters left, a bound for the steps of a loop. -/
def size : Parser Nat := do return (← get).rest.length

def foldSet (f : Flags) (s : CharSet) : CharSet :=
  if f.ignoreCase then (if f.unicode then Fold.closure s else Fold.asciiClosure s) else s

/-- The set of all characters but those of `s` if `negated`. Without the flag `u` there is none,
since the other characters are not all characters of ASCII. -/
def negate (f : Flags) (negated : Bool) (s : CharSet) : Parser CharSet :=
  if !negated then pure s else if f.unicode then pure s.complement else failure

/-- What an escape or a single character stands for. -/
inductive Primitive where
  | char (c : Char)
  | set (s : CharSet)
  | dot
  | look (l : Look)

def literal (f : Flags) (c : Char) : Parser Primitive :=
  if f.unicode || c.toNat < 0x80 then pure (.char c) else failure

def charOf (f : Flags) (digits : List Char) : Parser Primitive :=
  let n := CharSet.codePoint digits
  if n.isValidChar then literal f (Char.ofNat n) else failure

/-- The digits of a code point of fixed length, without the first of them skipped to. -/
def hexDigits (f : Flags) : Nat → Parser (List Char)
  | 0 => return []
  | n + 1 => do
    let c ← next
    if (Text.hexValue? c).isNone then failure
    skip f
    return c :: (← hexDigits f n)

/-- What follows `\x`, `\u` or `\U`: as many digits as the letter says, or any number of them in
braces. -/
def hexEscape (f : Flags) (digits : Nat) : Parser Primitive := do
  skip f
  if (← peek?) == some '\x7b' then
    advance 1
    skip f
    let ds ← takeSpaced f (· != '\x7d') (← size)
    expect "\x7d"
    skip f
    if ds.isEmpty || ds.any fun c => (Text.hexValue? c).isNone then failure
    charOf f ds
  else charOf f (← hexDigits f digits)

/-- The parts of a text before and after `!=`. -/
def splitNotEqual : List Char → Option (List Char × List Char)
  | [] => none
  | '!' :: '=' :: rest => some ([], rest)
  | c :: rest => (splitNotEqual rest).map fun (a, b) => (c :: a, b)

def propertySet? (name : List Char) : Option CharSet :=
  match (splitNotEqual name).or ((Text.splitOnce ':' name).or (Text.splitOnce '=' name)) with
  | some (property, value) => Property.valued? property value
  | none => Property.named? name

def propertyEscape (f : Flags) (negated : Bool) : Parser Primitive := do
  skip f
  let name ← do
    if (← peek?) == some '\x7b' then
      advance 1
      skip f
      let name ← takeSpaced f (· != '\x7d') (← size)
      expect "\x7d"
      pure name
    else
      let c ← next
      if c = '\\' then failure
      skip f
      pure [c]
  if !f.unicode then failure
  match propertySet? name with
  | none => failure
  | some s => return .set (← negate f negated (foldSet f s))

/-- The characters of words, digits or blanks. -/
def shorthand (f : Flags) (c : Char) : CharSet :=
  match Text.lower c with
  | 'd' => if f.unicode then Property.digit else CharSet.range '0' '9'
  | 's' => if f.unicode then Property.blank else ⟨[(0x09, 0x0D), (0x20, 0x20)]⟩
  | _ =>
    if f.unicode then Property.word
    else ⟨[(0x30, 0x39), (0x41, 0x5A), (0x5F, 0x5F), (0x61, 0x7A)]⟩

def edge? (name : List Char) : Option WordEdge :=
  match String.ofList name with
  | "start" => some .start
  | "end" => some .stop
  | "start-half" => some .startHalf
  | "end-half" => some .stopHalf
  | _ => none

def isEdgeChar (c : Char) : Bool := Text.isLower c || Text.isUpper c || c == '-'

/-- What follows `\b`: braces with a kind of edge, if they are no repetition. -/
def edge (f : Flags) : Parser WordEdge := do
  if (← peek?) != some '\x7b' then return .boundary
  let s ← get
  advance 1
  skip f
  match ← peek? with
  | none => failure
  | some c =>
    if isEdgeChar c then
      let name ← takeSpaced f isEdgeChar (← size)
      expect "\x7d"
      match edge? name with
      | some e => return e
      | none => failure
    else
      modify fun _ => s
      return .boundary

def escape (f : Flags) : Parser Primitive := do
  let c ← next
  let words := shorthand f 'w'
  match c with
  | 'x' => hexEscape f 2
  | 'u' => hexEscape f 4
  | 'U' => hexEscape f 8
  | 'p' => propertyEscape f false
  | 'P' => propertyEscape f true
  | 'd' | 's' | 'w' => return .set (shorthand f c)
  | 'D' | 'S' | 'W' => return .set (← negate f true (shorthand f c))
  | 'a' => return .char '\x07'
  | 'f' => return .char '\x0c'
  | 't' => return .char '\t'
  | 'n' => return .char '\n'
  | 'r' => return .char '\x0d'
  | 'v' => return .char '\x0b'
  | 'A' => return .look .textStart
  | 'z' => return .look .textEnd
  | 'b' => return .look (.word (← edge f) words)
  | 'B' => return .look (.word .inside words)
  | '<' => return .look (.word .start words)
  | '>' => return .look (.word .stop words)
  | c => if Text.isAlphanumeric c || c.toNat ≥ 0x80 then failure else return .char c

/-- A part of an expression together with the depth of its nesting. -/
structure Node (α : Type) where
  value : α
  depth : Nat

/-- The depth of parts that stand side by side: one more than the deepest if there are several. -/
def depthOf : List Nat → Nat
  | [] => 0
  | [d] => d
  | ds => ds.foldl Nat.max 0 + 1

def unionOf (ms : List (Node CharSet)) : Node CharSet :=
  ⟨CharSet.unions (ms.map Node.value), depthOf (ms.map Node.depth)⟩

def asciiClass? (name : List Char) : Option CharSet :=
  match String.ofList name with
  | "alnum" => some ⟨[(0x30, 0x39), (0x41, 0x5A), (0x61, 0x7A)]⟩
  | "alpha" => some ⟨[(0x41, 0x5A), (0x61, 0x7A)]⟩
  | "ascii" => some ⟨[(0x00, 0x7F)]⟩
  | "blank" => some ⟨[(0x09, 0x09), (0x20, 0x20)]⟩
  | "cntrl" => some ⟨[(0x00, 0x1F), (0x7F, 0x7F)]⟩
  | "digit" => some ⟨[(0x30, 0x39)]⟩
  | "graph" => some ⟨[(0x21, 0x7E)]⟩
  | "lower" => some ⟨[(0x61, 0x7A)]⟩
  | "print" => some ⟨[(0x20, 0x7E)]⟩
  | "punct" => some ⟨[(0x21, 0x2F), (0x3A, 0x40), (0x5B, 0x60), (0x7B, 0x7E)]⟩
  | "space" => some ⟨[(0x09, 0x0D), (0x20, 0x20)]⟩
  | "upper" => some ⟨[(0x41, 0x5A)]⟩
  | "word" => some ⟨[(0x30, 0x39), (0x41, 0x5A), (0x5F, 0x5F), (0x61, 0x7A)]⟩
  | "xdigit" => some ⟨[(0x30, 0x39), (0x41, 0x46), (0x61, 0x66)]⟩
  | _ => none

/-- A named class such as `[:alpha:]` at the front of a text, with `^` if negated, and the rest. -/
def asciiClassFront? (cs : List Char) : Option (CharSet × Bool × List Char) := do
  let cs ← Text.dropStart? ['[', ':'] cs
  let (negated, cs) := match cs with
    | '^' :: rest => (true, rest)
    | _ => (false, cs)
  let rest ← Text.dropStart? [':', ']'] (cs.dropWhile (· != ':'))
  return (← asciiClass? (cs.takeWhile (· != ':')), negated, rest)

/-- The character behind the next one, blanks and the sign of a comment left aside. -/
def second? (f : Flags) : Parser (Option Char) := do
  let cs := (← get).rest.drop 1
  if !f.spaced then return cs.head?
  let after := cs.dropWhile Text.isBlank
  match after with
  | '#' :: more => return ((more.dropWhile Text.isBlank).head?).or cs.head?
  | [] => return cs.head?
  | c :: _ => return some c

def classPrimitive (f : Flags) : Parser Primitive := do
  let c ← next
  if c = '\\' then escape f else literal f c

/-- A character or set of a class, or a range of characters. -/
def classMember (f : Flags) : Parser CharSet := do
  let first ← classPrimitive f
  skip f
  let follow ← second? f
  match ← peek? with
  | none => failure
  | some c =>
    if c != '-' || follow == some ']' || follow == some '-' then
      match first with
      | .char c => return CharSet.single c
      | .set s => return s
      | _ => failure
    else
      advance 1
      skip f
      match first, ← classPrimitive f with
      | .char a, .char b => if a ≤ b then return CharSet.range a b else failure
      | _, _ => failure

inductive ClassOp where
  | inter | diff | symmDiff

/-- The operator at the front of a text, which is written as two equal signs. -/
def classOp? : List Char → Option ClassOp
  | '&' :: '&' :: _ => some .inter
  | '-' :: '-' :: _ => some .diff
  | '~' :: '~' :: _ => some .symmDiff
  | _ => none

/-- The part of a class so far: what an operator waits with on its left, combined with the union of
the members on its right. -/
def combine (f : Flags) (left : Option (ClassOp × Node CharSet)) (members : List (Node CharSet)) :
    Node CharSet :=
  let right := unionOf members
  match left with
  | none => right
  | some (op, left) =>
    let a := foldSet f left.value
    let b := foldSet f right.value
    let value := match op with
      | .inter => a.inter b
      | .diff => a.diff b
      | .symmDiff => a.symmDiff b
    ⟨value, Nat.max left.depth right.depth + 1⟩

/-- The signs after the opening bracket of a class that stand for themselves. -/
def leadingMembers (f : Flags) : Parser (List (Node CharSet)) := do
  let dashes ← takeSpaced f (· == '-') (← size)
  let members := dashes.map fun c => ⟨CharSet.single c, 0⟩
  if members.isEmpty && (← peek?) == some ']' then
    advance 1
    skip f
    return [⟨CharSet.single ']', 0⟩]
  else return members

/-- The rest of a class after its opening bracket. -/
def classRest (f : Flags) : Nat → Bool → Option (ClassOp × Node CharSet) →
    List (Node CharSet) → Parser (Node CharSet)
  | 0, _, _, _ => failure
  | n + 1, negated, left, members => do
    skip f
    let rest := (← get).rest
    match classOp? rest with
    | some op =>
      advance 2
      classRest f n negated (some (op, combine f left members)) []
    | none =>
      match rest with
      | [] => failure
      | ']' :: _ =>
        advance 1
        let all := combine f left members
        return ⟨← negate f negated (foldSet f all.value), all.depth + 1⟩
      | '[' :: _ =>
        match asciiClassFront? rest with
        | some (s, negated', rest) =>
          modify fun st => { st with rest }
          let s ← negate f negated' (foldSet f s)
          classRest f n negated left (⟨s, 0⟩ :: members)
        | none =>
          advance 1
          skip f
          let inverse ← accept "^"
          skip f
          let inner ← classRest f n inverse none (← leadingMembers f)
          classRest f n negated left (inner :: members)
      | _ =>
        let s ← classMember f
        classRest f n negated left (⟨s, 0⟩ :: members)

def charClass (f : Flags) : Parser (Node Regex) := do
  skip f
  let negated ← accept "^"
  skip f
  let members ← leadingMembers f
  let s ← classRest f (← size) negated none members
  return ⟨.set s.value, s.depth⟩

/-- A number between blanks. -/
def count? (f : Flags) : Parser (Option Nat) := do
  modify fun s => { s with rest := s.rest.dropWhile Text.isBlank }
  let digits ← takeSpaced f Text.isDigit (← size)
  let _ ← takeSpaced f Text.isBlank (← size)
  if digits.isEmpty then return none
  let n := Text.digitsValue digits
  if n < 1 <<< 32 then return some n else failure

def bounds (f : Flags) : Parser (Nat × Option Nat) := do
  skip f
  match ← count? f with
  | none => failure
  | some min =>
    let max ← do
      if ← accept "," then
        skip f
        if (← peek?) == some '\x7d' then pure none
        else
          match ← count? f with
          | none => failure
          | some max => if min ≤ max then pure (some max) else failure
      else pure (some min)
    expect "\x7d"
    skip f
    return (min, max)

def setFlag (f : Flags) (c : Char) (on : Bool) : Option Flags :=
  match c with
  | 'i' => some { f with ignoreCase := on }
  | 'm' => some { f with multiLine := on }
  | 's' => some { f with dotAll := on }
  | 'R' => some { f with carriage := on }
  | 'u' => some { f with unicode := on }
  | 'x' => some { f with spaced := on }
  | 'U' => some f
  | _ => none

/-- The flags that some letters set, those after a hyphen that they clear. -/
def setFlags (f : Flags) (on : Bool) : List Char → Option Flags
  | [] => some f
  | '-' :: cs => setFlags f false cs
  | c :: cs =>
    match setFlag f c on with
    | some f => setFlags f on cs
    | none => none

/-- A part of a sequence: an expression, or a setting of flags, which takes no repetition. -/
inductive Item where
  | part (node : Node Regex)
  | flags

/-- The sequence of some items, the last one first. -/
def sequence (items : List Item) : Node Regex :=
  let nodes := items.reverse.map fun
    | .part node => node
    | .flags => ⟨.empty, 0⟩
  let value := match nodes.reverse with
    | [] => .empty
    | last :: earlier => earlier.foldl (fun r node => .seq node.value r) last.value
  ⟨value, depthOf (nodes.map Node.depth)⟩

/-- The choice between some expressions, the last one first. -/
def choice (branches : List (Node Regex)) : Node Regex :=
  let value := match branches with
    | [] => .empty
    | last :: earlier => earlier.foldl (fun r node => .alt node.value r) last.value
  ⟨value, depthOf (branches.map Node.depth)⟩

def primitive (f : Flags) : Primitive → Parser Regex
  | .char c => return .set (foldSet f (CharSet.single c))
  | .set s => return .set s
  | .look l => return .look l
  | .dot =>
    if !f.unicode then failure
    else if f.dotAll then return .set CharSet.full
    else if f.carriage then return .set (CharSet.unions [⟨[(0x0A, 0x0A), (0x0D, 0x0D)]⟩]).complement
    else return .set (CharSet.single '\n').complement

/-- The items with a repetition put on the last of them. -/
def repeated (items : List Item) (min : Nat) (max : Option Nat) : Parser (List Item) :=
  match items with
  | .part node :: rest => pure (.part ⟨.times node.value min max, node.depth + 1⟩ :: rest)
  | _ => failure

/-- The name of a group up to its closing bracket. It begins with a letter or `_` and goes on with
letters, numbers and `_`, `.`, `[` and `]`; no two groups share one. -/
def groupName : Parser Unit := do
  let s ← get
  let name := s.rest.takeWhile (· != '>')
  let letter := (Property.alphabetic ()).contains
  let letterOrNumber := (Property.alphanumeric ()).contains
  match name with
  | [] => failure
  | c :: cs =>
    let good := (c == '_' || letter c) &&
      cs.all fun c => letterOrNumber c || "_.[]".toList.contains c
    if !good || s.names.contains name then failure
    modify fun s => { rest := s.rest.drop name.length, names := name :: s.names }
    expect ">"

inductive Opening where
  /-- Flags for the rest of the group around. -/
  | setting (f : Flags)
  /-- A group that is read under these flags. -/
  | group (f : Flags)

def opening (f : Flags) : Parser Opening := do
  skip f
  if (← accept "?=") || (← accept "?!") || (← accept "?<=") || (← accept "?<!") then failure
  else if (← accept "?P<") || (← accept "?<") then
    groupName
    return .group f
  else if ← accept "?" then
    let s ← get
    let letters := s.rest.takeWhile fun c => c != ':' && c != ')'
    if !letters.Nodup || letters.getLast? == some '-' then failure
    modify fun s => { s with rest := s.rest.drop letters.length }
    match setFlags f true letters with
    | none => failure
    | some f =>
      if (← next) = ':' then return .group f
      else if letters.isEmpty then failure
      else return .setting f
  else return .group f

/-- An expression up to the end or to a closing bracket that it has not opened. `items` are the
parts of the branch at hand and `branches` the branches before it, the last one first. -/
def expression : Nat → Flags → List Item → List (Node Regex) → Parser (Node Regex)
  | 0, _, _, _ => failure
  | n + 1, f, items, branches => do
    skip f
    match ← peek? with
    | none | some ')' => return choice (sequence items :: branches)
    | some c =>
      advance 1
      match c with
      | '|' => expression n f [] (sequence items :: branches)
      | '(' =>
        match ← opening f with
        | .setting f => expression n f (.flags :: items) branches
        | .group inner =>
          let node ← expression n inner [] []
          expect ")"
          expression n f (.part ⟨node.value, node.depth + 1⟩ :: items) branches
      | '[' => expression n f (.part (← charClass f) :: items) branches
      | '?' | '*' | '+' =>
        let min := if c = '+' then 1 else 0
        let max := if c = '?' then some 1 else none
        let items ← repeated items min max
        let _ ← accept "?"
        expression n f items branches
      | '\x7b' =>
        let (min, max) ← bounds f
        let items ← repeated items min max
        let _ ← accept "?"
        expression n f items branches
      | _ =>
        let p ← match c with
          | '\\' => escape f
          | '.' => pure .dot
          | '^' => pure (.look (if f.multiLine then .lineStart f.carriage else .textStart))
          | '$' => pure (.look (if f.multiLine then .lineEnd f.carriage else .textEnd))
          | c => literal f c
        expression n f (.part ⟨← primitive f p, 0⟩ :: items) branches

def maxDepth : Nat := 250

end Parser

open Regex.Parser in
def parse? (text : String) : Option Regex :=
  let cs := text.toList
  match (expression (cs.length + 1) {} [] []).run ⟨cs, []⟩ with
  | some (node, s) =>
    if s.rest.isEmpty && node.depth ≤ maxDepth && node.value.weight ≤ maxWeight then
      some node.value
    else none
  | none => none

end ScriptServer.Regex
