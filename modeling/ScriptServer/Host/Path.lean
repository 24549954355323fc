import ScriptServer.Text.Basic

/-!
# File paths

A path is a text of names between slashes. Joining and taking parents works on the text and keeps
what it does not touch; no file system is asked.
-/

namespace ScriptServer.Path

def isAbsolute (path : String) : Bool := path.toList.head? == some '/'

/-- A path relative to another one. An absolute path stays as it is. -/
def join (dir path : String) : String :=
  if isAbsolute path then path
  else if dir.isEmpty || dir.toList.getLast? == some '/' then dir ++ path
  else dir ++ "/" ++ path

/-- The names between the slashes, empty ones included. -/
def parts (path : String) : List String :=
  (Text.splitOn '/' path.toList).map String.ofList

/-- A part that leads nowhere else: an empty one, or the name of the directory itself. -/
def isIdle (part : List Char) : Bool := part.isEmpty || part == ['.']

/-- Drops the parts at the end of a relative path that lead nowhere else, given in reverse. A `.` at
the very beginning stays. -/
def dropIdle : List (List Char) → List (List Char)
  | [part] => [part]
  | part :: parts => if isIdle part then dropIdle parts else part :: parts
  | [] => []

/-- The text of parts that are given in reverse. -/
def ofReversed (parts : List (List Char)) : List Char :=
  List.intercalate ['/'] parts.reverse

/-- The parts of a path in reverse, without those at the end that lead nowhere else, and whether the
path is absolute. -/
def reversed (path : String) : Bool × List (List Char) :=
  let parts := (Text.splitOn '/' path.toList).reverse
  if isAbsolute path then (true, parts.dropLast.dropWhile isIdle)
  else (false, (dropIdle parts).filter fun part => !part.isEmpty || 1 < parts.length)

def parent? (path : String) : Option String :=
  match reversed path with
  | (true, []) => none
  | (true, _ :: rest) => some (String.ofList ('/' :: ofReversed (rest.dropWhile isIdle)))
  | (false, []) => none
  | (false, [_]) => some ""
  | (false, _ :: rest) => some (String.ofList (ofReversed (dropIdle rest)))

/-- The last name of a path, unless it is the one of a parent. -/
def name? (path : String) : Option String :=
  match (reversed path).2 with
  | [] => none
  | name :: _ => if name == ['.', '.'] || isIdle name then none else some (String.ofList name)

/-- The part of the last name behind its last dot. A dot at the beginning of the name does not
count. -/
def extension? (path : String) : Option String :=
  (name? path).bind fun name =>
    match Text.splitOnce '.' name.toList.reverse with
    | none => none
    | some (_, []) => none
    | some (extension, _) => some (String.ofList extension.reverse)

end ScriptServer.Path
