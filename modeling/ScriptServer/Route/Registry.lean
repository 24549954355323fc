import ScriptServer.Route.Pattern

/-!
# Registering routes

A registry holds the routes in the order in which their keys were first registered, one route a key,
and the keys of all handlers in the order of their numbers. Registering a key again replaces the
target and keeps the place. What is refused changes nothing.
-/

namespace ScriptServer.Route

/-- The method that stands for all methods. -/
def anyMethod : String := "*"

/-- A method as it is compared: without white space around it, in upper case. -/
def normalizeMethod (method : String) : String := Text.toUpper (Text.trim method)

/-- What identifies a route. -/
structure Key where
  method : String
  pattern : String
  deriving DecidableEq, Repr

namespace Key

/-- The key of a route that is given by any spelling of its method. -/
def of (method pattern : String) : Key := ⟨normalizeMethod method, pattern⟩

def text (k : Key) : String := k.method ++ " " ++ k.pattern

end Key

/-- What answers the requests of a route. -/
inductive Target where
  /-- The script's handler with this number. -/
  | handler (id : Nat)
  | file (path : String)
  | directory (path : String)
  deriving DecidableEq, Repr

structure Entry where
  key : Key
  target : Target
  pattern : Pattern
  deriving DecidableEq, Repr

inductive Fault where
  | emptyMethod (pattern : String)
  | badPattern (raw : String) (fault : PatternFault)
  deriving DecidableEq, Repr

def Fault.message : Fault → String
  | emptyMethod pattern => "empty method for route " ++ pattern
  | badPattern raw fault => fault.message raw

structure Registry where
  entries : List Entry
  /-- The key of each handler, under its number. -/
  handlerKeys : List Key
  deriving DecidableEq, Repr

namespace Registry

def empty : Registry := ⟨[], []⟩

/-- Puts a target in the place of the one that a key has, or a new route at the end. -/
def place (key : Key) (target : Target) (pattern : Pattern) : List Entry → List Entry
  | [] => [⟨key, target, pattern⟩]
  | e :: es =>
    if e.key = key then { e with target } :: es else e :: place key target pattern es

/-- Registers a route and gives its key. -/
def register (r : Registry) (method pattern : String) (target : Target) :
    Except Fault (Key × Registry) :=
  let key := Key.of method pattern
  if key.method.isEmpty then .error (.emptyMethod pattern)
  else
    match Pattern.read pattern with
    | .error fault => .error (.badPattern pattern fault)
    | .ok p => .ok (key, { r with entries := place key target p r.entries })

/-- Registers a route to the handler with the next number and gives the number. -/
def registerHandler (r : Registry) (method pattern : String) : Except Fault (Nat × Registry) :=
  let id := r.handlerKeys.length
  match r.register method pattern (.handler id) with
  | .error e => .error e
  | .ok (key, r) => .ok (id, { r with handlerKeys := r.handlerKeys ++ [key] })

end Registry

end ScriptServer.Route
