import ScriptServer.Dictionary
import ScriptServer.Regex.Parser

/-!
# Path patterns

A pattern is a text of segments between slashes, as is a request path, and empty segments count in
neither. A segment of a pattern is a text, a parameter, a parameter whose value has to match a
regular expression, or, at the end only, the sign that takes all segments that are left.
`captures?` matches a pattern with the segments of a path and gives what it captures.
-/

namespace ScriptServer.Route

/-- The name under which the rest of a path is captured. -/
def restName : String := "*"

/-- The segments of a path or a pattern. -/
def segments (path : String) : List String :=
  ((Text.splitOn '/' path.toList).filter (· != [])).map String.ofList

/-- A segment of a pattern. -/
inductive Segment where
  /-- This text. -/
  | exact (text : String)
  /-- Any text, captured under a name. -/
  | parameter (name : String)
  /-- A text that matches an expression, captured under a name. -/
  | constrained (name : String) (expression : Regex)
  /-- All segments that are left, none included. -/
  | rest
  deriving DecidableEq, Repr

inductive PatternFault where
  | noSlash
  | malformed (segment : String)
  | parameterName (name : String)
  | expression (name : String)
  | restNotLast
  deriving DecidableEq, Repr

def PatternFault.message (raw : String) : PatternFault → String
  | .noSlash => "route pattern must start with '/': " ++ raw
  | .malformed segment => "malformed segment '" ++ segment ++ "' in route " ++ raw
  | .parameterName name => "invalid parameter name '" ++ name ++ "' in route " ++ raw
  | .expression name =>
    "invalid pattern for '" ++ name ++ "': not a regular expression in route " ++ raw
  | .restNotLast => "'*' must be the last segment in route " ++ raw

namespace Segment

/-- Checks the name of a parameter, which is of ASCII letters, digits and underscores. -/
def checkName (name : List Char) : Except PatternFault String :=
  if name != [] && name.all fun c => Text.isAlphanumeric c || c == '_' then
    .ok (String.ofList name)
  else .error (.parameterName (String.ofList name))

def inBraces? : List Char → Option (List Char)
  | '\x7b' :: cs => if cs.getLast? = some '\x7d' then some cs.dropLast else none
  | _ => none

/-- The expression that a constraint stands for: it has to match a whole segment. -/
def constraint? (expression : List Char) : Option Regex :=
  Regex.parse? ("^(?:" ++ String.ofList expression ++ ")$")

def read (part : String) : Except PatternFault Segment :=
  match part.toList with
  | ['*'] => .ok .rest
  | ':' :: name => (checkName name).map .parameter
  | cs =>
    match inBraces? cs with
    | none =>
      if cs.contains '\x7b' || cs.contains '\x7d' then .error (.malformed part)
      else .ok (.exact part)
    | some inner =>
      match Text.splitOnce ':' inner with
      | none => (checkName inner).map .parameter
      | some (name, expression) =>
        match checkName name with
        | .error e => .error e
        | .ok name =>
          match constraint? expression with
          | some r => .ok (.constrained name r)
          | none => .error (.expression name)

/-- The place of a segment in the order from special to general. -/
def rank : Segment → Nat
  | exact _ => 0
  | constrained _ _ => 1
  | parameter _ => 2
  | rest => 3

/-- What the segment captures of one segment of a path, if it matches it. -/
def capture? (part : String) : Segment → Option (List (String × String))
  | exact text => if text = part then some [] else none
  | parameter name => some [(name, part)]
  | constrained name r => if r.hasMatch part then some [(name, part)] else none
  | rest => none

end Segment

abbrev Pattern := List Segment

namespace Pattern

def ofSegments : List String → Except PatternFault Pattern
  | [] => .ok []
  | part :: parts =>
    match Segment.read part with
    | .error e => .error e
    | .ok segment =>
      if segment = .rest ∧ parts ≠ [] then .error .restNotLast
      else (ofSegments parts).map (segment :: ·)

def read (raw : String) : Except PatternFault Pattern :=
  if raw.toList.head? = some '/' then ofSegments (segments raw) else .error .noSlash

def ranks (p : Pattern) : List Nat := p.map Segment.rank

/-- What the pattern captures of the segments of a path, from left to right, if it matches them. -/
def captures? : Pattern → List String → Option (List (String × String))
  | .rest :: _, parts => some [(restName, "/".intercalate parts)]
  | [], [] => some []
  | segment :: segments, part :: parts =>
    match segment.capture? part with
    | none => none
    | some own => (captures? segments parts).map (own ++ ·)
  | _, _ => none

def match? (p : Pattern) (parts : List String) : Option (Dictionary String) :=
  (captures? p parts).map Dictionary.ofList

end Pattern

end ScriptServer.Route
