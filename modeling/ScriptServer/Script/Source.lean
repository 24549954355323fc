import ScriptServer.Script.Notation

/-!
# Sources of scripts

A source has a name, under which messages refer to its lines, and a text. White space and comments,
which begin with two hyphens and end with their line, may stand in front of the script. The first
line of a file is skipped if it begins with a hash sign, which is how an executable file names its
interpreter.
-/

namespace ScriptServer.Script

/-- The text of a script, and the name by which messages refer to it. -/
structure Source where
  name : String
  text : String
  deriving DecidableEq, Repr

namespace Source

/-- A text without its first line if that begins with a hash sign. The line break stays. -/
def skipHash (text : String) : String :=
  match text.toList with
  | '#' :: cs => String.ofList (cs.dropWhile (· != '\n'))
  | _ => text

/-- Skips what stands in front of the script, and counts lines. `comment` says that a comment has
not ended yet. -/
def skipFront (comment : Bool) (line : Nat) : List Char → List Char × Nat
  | [] => ([], line)
  | '\n' :: cs => skipFront false (line + 1) cs
  | '-' :: '-' :: cs => skipFront true line cs
  | c :: cs => if comment || Text.isBlank c then skipFront comment line cs else (c :: cs, line)

def place (s : Source) (line : Nat) : String :=
  s.name ++ ":" ++ Text.number line ++ ": "

/-- The statements of a source, and how messages name the line they stand on. -/
def read (s : Source) : Option (String × Block) :=
  let (text, line) := skipFront false 1 s.text.toList
  (Notation.read (String.ofList text)).map fun block => (s.place line, block)

def ofFile (name text : String) : Source := ⟨name, skipHash text⟩

end Source

end ScriptServer.Script
