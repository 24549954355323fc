import ScriptServer.Config.Environment
import ScriptServer.Host.Files

/-!
# Files of environment variables

Each line of such a file assigns a variable, `NAME=value` with an optional `export` in front and
optional quotes around the value; blank lines, comments and lines without an equals sign assign
nothing. A variable that has a value already keeps it.
-/

namespace ScriptServer.Dotenv

/-- Takes one pair of quotes off a text that stands between two equal ones. -/
def unquoteChars (cs : List Char) : List Char :=
  match cs with
  | [] => []
  | [c] => [c]
  | first :: rest =>
    if (first = '"' ∨ first = '\'') ∧ rest.getLast? = some first then rest.dropLast
    else first :: rest

def unquote (s : String) : String := String.ofList (unquoteChars s.toList)

/-- The lines of a text without their line breaks. -/
def lines (cs : List Char) : List (List Char) :=
  (Text.splitOn '\n' cs).map fun line =>
    if line.getLast? = some '\r' then line.dropLast else line

def assignment? (line : List Char) : Option (String × String) :=
  let line := Text.trimChars line
  match line with
  | [] => none
  | '#' :: _ => none
  | _ =>
    let line := (Text.dropStart? "export ".toList line).getD line
    (Text.splitOnce '=' line).bind fun (name, value) =>
      let name := Text.trimChars name
      if name.isEmpty then none
      else some (String.ofList name, String.ofList (unquoteChars (Text.trimChars value)))

def assignments (text : String) : List (String × String) :=
  (lines text.toList).filterMap assignment?

/-- Adds a variable that has no value yet. -/
def add (env : Environment) (name value : String) : Environment :=
  if env.contains name then env else env.insert name (Utf8.ofText value)

def apply (text : String) (env : Environment) : Environment :=
  (assignments text).foldl (fun env (name, value) => add env name value) env

/-- Adds the variables of the file in the directory of the entry script. A file that is there but
cannot be read is reported and adds nothing. -/
def load (fs : Files) (dir : Option String) (env : Environment) : Environment × Option String :=
  let path :=
    match dir with
    | some dir => Path.join dir ".env"
    | none => ".env"
  match fs.readText path with
  | .ok text => (apply text env, none)
  | .error .missing => (env, none)
  | .error e => (env, some ("failed to read " ++ path ++ ": " ++ e.message))

end ScriptServer.Dotenv
