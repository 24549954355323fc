import ScriptServer.Dictionary
import ScriptServer.Number.Binary64

/-!
# JSON trees

A tree of null, booleans, floating point numbers, texts, arrays and objects. The members of an
object are a dictionary: distinct keys in ascending order.
-/

namespace ScriptServer.Json

inductive Tree where
  | null
  | bool (b : Bool)
  | number (x : Binary64)
  | string (s : String)
  | array (items : List Tree)
  | object (members : List (String × Tree))
  deriving Inhabited, Repr

end ScriptServer.Json
