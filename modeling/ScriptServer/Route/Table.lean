import ScriptServer.Route.Registry

/-!
# Finding the route of a request

A registry is frozen into a table, in which the routes stand in the order in which they are tried:
special patterns before general ones, compared from left to right; of equal ones a named method
before the one for all methods; then the route whose key was registered first. The first route that
matches the path and accepts the method answers.
-/

namespace ScriptServer.Route

/-- The routes in the order in which they are tried, and the key of each handler. -/
structure Table where
  entries : List Entry
  handlerKeys : List Key
  deriving DecidableEq, Repr

/-- The order of lists that their first difference decides. A list comes before its extensions. -/
def precedes : List Nat → List Nat → Bool
  | [], _ => true
  | _ :: _, [] => false
  | a :: as, b :: bs => a < b || (a == b && precedes as bs)

namespace Entry

/-- The route is tried before the other one, or registration decides between them. -/
def before (a b : Entry) : Bool :=
  if a.pattern.ranks = b.pattern.ranks then
    a.key.method != anyMethod || b.key.method == anyMethod
  else precedes a.pattern.ranks b.pattern.ranks

/-- The route answers requests of a method. What answers GET answers HEAD too. -/
def accepts (e : Entry) (method : String) : Bool :=
  e.key.method == anyMethod || e.key.method == method ||
    (method == "HEAD" && e.key.method == "GET")

end Entry

def Registry.freeze (r : Registry) : Table :=
  ⟨r.entries.mergeSort Entry.before, r.handlerKeys⟩

/-- What a table says about a request. -/
inductive Resolution where
  | found (key : Key) (target : Target) (params : Dictionary String)
  /-- The path has routes, but of these methods only. -/
  | methodNotAllowed (allowed : List String)
  | notFound
  deriving DecidableEq, Repr

namespace Table

/-- The routes whose pattern matches the segments of a path, with what they capture. -/
def candidates (t : Table) (parts : List String) : List (Entry × Dictionary String) :=
  t.entries.filterMap fun e => (e.pattern.match? parts).map (e, ·)

def allowed (es : List Entry) : List String :=
  let named : Dictionary Unit := Dictionary.ofList (es.map fun e => (e.key.method, ()))
  if named.contains "GET" then (named.insert "HEAD" ()).keys else named.keys

def resolve (t : Table) (method path : String) : Resolution :=
  let method := normalizeMethod method
  let found := t.candidates (segments path)
  match found.find? fun c => c.1.accepts method with
  | some (e, params) => .found e.key e.target params
  | none => if found.isEmpty then .notFound else .methodNotAllowed (allowed (found.map (·.1)))

end Table

end ScriptServer.Route
