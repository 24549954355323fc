import ScriptServer.Text.Basic

/-!
# Header names

A header name is a token: visible ASCII characters other than separators, at least one. Names are
the same up to the case of their letters, and `canonical` picks one spelling of each.
-/

namespace ScriptServer.Http

def isTokenChar (c : Char) : Bool :=
  Text.isAlphanumeric c ||
    ['!', '#', '$', '%', '&', '\'', '*', '+', '-', '.', '^', '_', '\x60', '|', '~'].contains c

/-- A header name that can be written. -/
def isToken (name : String) : Bool :=
  !name.isEmpty && name.toList.all isTokenChar

/-- Spells letters in upper case where a word begins, `start`, and elsewhere in lower case. A word
ends at a hyphen. -/
def capitalize (start : Bool) : List Char → List Char
  | [] => []
  | c :: cs => (if start then Text.upper c else Text.lower c) :: capitalize (c == '-') cs

/-- The spelling that stands for all spellings of a name. What is no token has only its own. -/
def canonical (name : String) : String :=
  if isToken name then String.ofList (capitalize true name.toList) else name

end ScriptServer.Http
