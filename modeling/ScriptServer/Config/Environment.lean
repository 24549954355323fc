import ScriptServer.Dictionary
import ScriptServer.Number.Literal
import ScriptServer.Text.Utf8

/-!
# Environment variables and the settings they override

A setting `field` of a table is overridden by the variable `variableName table field`, whose name
holds the words of both in upper case. Words are told apart by separators and by the capitals of a
camel-case name. A variable that is unset, blank, or no text overrides nothing.
-/

namespace ScriptServer

/-- The variables of a process with the bytes of their values. -/
abbrev Environment := Dictionary Bytes

namespace Environment

def text? (env : Environment) (key : String) : Option String :=
  (Dictionary.get? env key).bind Utf8.toText?

/-- The value of a variable without the white space around it, if anything is left. -/
def setting? (env : Environment) (key : String) : Option String :=
  match text? env key with
  | none => none
  | some raw =>
    let value := Text.trim raw
    if value.isEmpty then none else some value

end Environment

namespace Config

def isSeparator (c : Char) : Bool := c == '_' || c == '-' || c == '.'

/-- Spells the rest of a name in upper case with one underscore between words. `last` is the last
character written and `small` says whether the last one read was a small letter or a digit, after
which a capital begins a word. -/
def spell (last : Option Char) (small : Bool) : List Char → List Char
  | [] => []
  | c :: cs =>
    if isSeparator c then
      if last = none ∨ last = some '_' then spell last false cs
      else '_' :: spell (some '_') false cs
    else
      let rest := Text.upper c :: spell (some (Text.upper c)) (Text.isLower c || Text.isDigit c) cs
      if Text.isUpper c && small then '_' :: rest else rest

/-- The words of a name in upper case, joined by underscores. -/
def spelling (name : String) : String :=
  String.ofList (spell none false name.toList)

/-- The variable that overrides a setting. -/
def variableName (table field : String) : String :=
  "LUME_" ++ spelling table ++ "_" ++ spelling field

def natBound : Nat := 1 <<< 64

def natural? (s : String) : Option Nat := Text.natural? natBound s.toList

/-- A variable whose value is not of the kind its setting needs. -/
structure Unreadable where
  key : String
  value : String
  deriving DecidableEq, Repr

def Unreadable.message (u : Unreadable) : String :=
  "invalid value for " ++ u.key ++ ": " ++ u.value

/-- The value by which a variable overrides a setting, if it overrides it. -/
def overriding {α : Type} (read : String → Option α) (env : Environment) (key : String) :
    Except Unreadable (Option α) :=
  match env.setting? key with
  | none => .ok none
  | some value =>
    match read value with
    | some x => .ok (some x)
    | none => .error ⟨key, value⟩

end Config

end ScriptServer
