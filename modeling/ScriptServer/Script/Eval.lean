import ScriptServer.Number.Literal
import ScriptServer.Script.Fault
import ScriptServer.Script.Library
import ScriptServer.Script.Source

/-!
# Running scripts

Statements run in order and change the interpreter; a return ends the block that it stands in.
Running goes by recursion on the code. A call of a function, or of the file of a module, runs other
code and may do so only `maxCalls` deep, so every run ends or meets an endless statement, with which
it fails. Each statement is a step, and a step fails once the time of the script is up.
-/

namespace ScriptServer.Script

/-- What stays the same while an interpreter lives. -/
structure Context (ρ : Type) where
  services : Services ρ
  /-- The modules that the program around the server provides. -/
  modules : Dictionary Loader
  /-- Where the files of modules are looked for; a question mark stands for the name. -/
  searchPath : List String

/-- Where a piece of code runs: how messages name the place, and whether there is a function around
it, which has parameters. -/
structure Frame where
  place : String
  inFunction : Bool

/-- Runs a block in a frame and gives the value that it returns. -/
abbrev Runner (ρ : Type) := Frame → Block → Run ρ Value

/-- How many functions and module files may be running at once. -/
def maxCalls : Nat := 190

def standardSearchPath : List String :=
  ["/usr/local/share/lua/5.4/?.lua", "/usr/local/share/lua/5.4/?/init.lua",
    "/usr/local/lib/lua/5.4/?.lua", "/usr/local/lib/lua/5.4/?/init.lua", "./?.lua", "./?/init.lua"]

/-- The file for a module name on a search path. Points in the name separate directories. -/
def moduleFile (template name : String) : String :=
  let name := name.toList.map fun c => if c = '.' then '/' else c
  String.ofList (template.toList.flatMap fun c => if c = '?' then name else [c])

/-- The integer that a text spells in arithmetic. -/
def numeral? (bs : Bytes) : Option Value :=
  (Utf8.toText? bs).bind fun s =>
    let cs := Text.trimChars s.toList
    match Text.integer? (1 <<< 63) cs with
    | some i => some (.integer (Int64.ofInt i))
    | none => (Binary64.ofLiteral? cs).map .float

namespace Frame

/-- The parameter that a variable name stands for. Outside of functions all variables are global. -/
def parameter? (f : Frame) (name : String) : Option Parameter :=
  if f.inFunction then Parameter.ofName? name else none

def describe (f : Frame) (name : String) : String :=
  (if (f.parameter? name).isSome then " (local '" else " (global '") ++ name ++ "')"

end Frame

namespace Run

variable {ρ : Type}

/-- Fails with a message that begins with the place in the script. -/
def failAt {α : Type} (f : Frame) (text : String) : Run ρ α := failWith (f.place ++ text)

def valueOf (f : Frame) (name : String) : Run ρ Value := fun m =>
  match f.parameter? name with
  | some p => (.ok (m.params.getD p.index .nil), m)
  | none => (.ok ((Dictionary.get? m.globals name).getD .nil), m)

/-- Sets a variable. Nil takes a global away. -/
def setVariable (f : Frame) (name : String) (v : Value) : Run ρ Unit :=
  modify fun m =>
    match f.parameter? name with
    | some p =>
      let params := m.params ++ List.replicate (p.index + 1 - m.params.length) .nil
      { m with params := params.set p.index v }
    | none =>
      { m with globals := if v = .nil then m.globals.erase name else m.globals.insert name v }

def environment (name : Bytes) : Run ρ Value := fun m =>
  let value := (Utf8.toText? name).bind fun name => Dictionary.get? m.world.env name
  (.ok ((value.map .string).getD .nil), m)

/-- The field of a table. `what` says in a message what was looked into. -/
def index (f : Frame) (v key : Value) (what : String) : Run ρ Value := fun m =>
  match v with
  | .table id => (.ok ((m.heap.table id).get key), m)
  | .string _ => (.ok .nil, m)
  | v =>
    (.failed (.message (f.place ++ "attempt to index a " ++ v.typeName ++ " value" ++ what)), m)

/-- Puts a value under a key of a table. -/
def store (id : Nat) (key v : Value) : Run ρ Unit :=
  modify fun m =>
    { m with
      heap := m.heap.modifyTable id fun t => (t.set key v).arranged m.world.arrangement id }

def assign (f : Frame) (table key v : Value) : Run ρ Unit :=
  match key with
  | .nil => failAt f "table index is nil"
  | .float x => if x.isNaN then failAt f "table index is NaN" else store table.tableId key v
  | key => store table.tableId key v

def setLabel (label : Option Nat) (v : Value) : Run ρ Unit :=
  match label with
  | none => pure ()
  | some n => modify fun m => { m with labels := (n, v) :: m.labels }

def increment (f : Frame) : Value → Run ρ Value
  | .integer i => pure (.integer (i + 1))
  | .float x => pure (.float (x.add (Binary64.ofInt 1)))
  | .string bs =>
    match numeral? bs with
    | some (.integer i) => pure (.integer (i + 1))
    | some (.float x) => pure (.float (x.add (Binary64.ofInt 1)))
    | _ => failAt f "attempt to perform arithmetic on a string value"
  | v => failAt f ("attempt to perform arithmetic on a " ++ v.typeName ++ " value")

end Run

def Expr.describe (f : Frame) : Expr → String
  | .parameter p => f.describe p.name
  | .global name => f.describe name
  | .captured name => " (field '" ++ Utf8.toTextLossy name ++ "')"
  | .argument (.string name) => " (field '" ++ Utf8.toTextLossy name ++ "')"
  | .require _ field => " (field '" ++ Utf8.toTextLossy field ++ "')"
  | _ => ""

/-- Joins texts, given from last to first with what messages call them. Of the last two values the
one in front is named if both are no texts, and else the last value that is none. -/
def joinReversed : List (Value × String) → Except (Value × String) Bytes
  | [] => .ok []
  | [last] =>
    match asBytes? last.1 with
    | some bs => .ok bs
    | none => .error last
  | last :: before :: front =>
    match asBytes? before.1, asBytes? last.1 with
    | none, _ => .error before
    | some _, none => .error last
    | some _, some bs =>
      match joinReversed (before :: front) with
      | .ok start => .ok (start ++ bs)
      | .error e => .error e

section

variable {ρ : Type} (c : Context ρ) (run : Runner ρ)

def callClosure (f : Closure) (args : List Value) : Run ρ Value :=
  match f with
  | .script body place => Run.withParams args (run ⟨place, true⟩ body)
  | .builtin b => do return (← b.call c.services args).headD .nil

def callFunction (id : Nat) (args : List Value) : Run ρ Value := do
  callClosure c run ((← Run.get).heap.function id) args

/-- The bytes that the script itself shows for a value. The metatable of a table can name the kind
of value or make the text. -/
def showValue (v : Value) : Run ρ Bytes := do
  let h := (← Run.get).heap
  match h.metafield v "__tostring" with
  | .nil =>
    match v with
    | .string bs => pure bs
    | v =>
      match h.metafield v "__name" with
      | .string name =>
        pure (name ++ Utf8.ofText ": 0x" ++ Utf8.ofChars (Text.hexadecimal 1 v.address))
      | _ => pure (Utf8.ofText v.display)
  | .function id =>
    match asBytes? (← callFunction c run id [v]) with
    | some bs => pure bs
    | none => Run.failWith "'__tostring' must return a string"
  | other => Run.failWith ("attempt to call a " ++ other.typeName ++ " value")

/-- Remembers the value of a module. A module without one is true. -/
def keepModule (name : Bytes) (v : Value) : Run ρ Value := do
  let v := if v = .nil then .bool true else v
  Run.modify fun m => { m with loaded := (name, v) :: m.loaded }
  pure v

def runLoader : Loader → Run ρ Value
  | .fields texts =>
    Run.making fun h =>
      h.addTable ⟨texts.map fun (key, bs) => (.ofText key, .string bs), none⟩
  | .failing text => Run.failWith text
  | .panicking text => Run.fail (.panic text)

def findModule (fs : Files) (name : String) : Option String :=
  (c.searchPath.map fun template => moduleFile template name).find? fs.doesExist

def missingModule (name : String) : String :=
  "module '" ++ name ++ "' not found:\n\tno field package.preload['" ++ name ++ "']" ++
    String.join (c.searchPath.map fun template =>
      "\n\tno file '" ++ moduleFile template name ++ "'") ++
    "\n\t\n\tcan't load C modules in safe mode"

def runFile (f : Frame) (name path : String) : Run ρ Value := do
  let refuse (why : String) : Run ρ Value :=
    Run.failAt f ("error loading module '" ++ name ++ "' from file '" ++ path ++ "':\n\t" ++ why)
  match (← Run.get).world.files.read path with
  | .error e => refuse ("cannot read " ++ path ++ ": " ++ e.message)
  | .ok content =>
    match (Source.ofFile path (Utf8.toTextLossy content)).read with
    | none => refuse "malformed script"
    | some (place, block) => run ⟨place, false⟩ block

/-- The value of a module, which is made when it is first asked for. -/
def requireModule (f : Frame) (v : Value) : Run ρ Value :=
  match asBytes? v with
  | none =>
    Run.failAt f ("bad argument #1 to 'require' (string expected, got " ++ v.typeName ++ ")")
  | some name => do
    let m ← Run.get
    match m.loaded.lookup name with
    | some v => if v.isTrue then pure v else load m name
    | none => load m name
where
  load (m : Machine ρ) (name : Bytes) : Run ρ Value := do
    let text := Utf8.toTextLossy name
    match Dictionary.get? c.modules text with
    | some loader => keepModule name (← runLoader loader)
    | none =>
      match findModule c m.world.files text with
      | some path => keepModule name (← runFile run f text path)
      | none => Run.failAt f (missingModule c text)

def call (f : Frame) (callee : Callee) (args : List Value) : Run ρ (List Value) :=
  match callee.module? with
  | some module =>
    match moduleFunctions module with
    | [] => Run.failAt f ("attempt to index a nil value (global '" ++ module ++ "')")
    | functions =>
      match functions.lookup callee.name with
      | some b => b.call c.services args
      | none => Run.failAt f ("attempt to call a nil value (field '" ++ callee.name ++ "')")
  | none =>
    if callee.name = "tostring" then
      match args with
      | [] => Run.failAt f "bad argument #1 to 'tostring' (value expected)"
      | v :: _ => do return [.string (← showValue c run v)]
    else Run.failAt f ("attempt to call a nil value (global '" ++ callee.name ++ "')")

def variableNamed (f : Frame) (v : Value) : Run ρ Value :=
  match asBytes? v with
  | some name => Run.environment name
  | none => Run.failAt f ("bad argument #1 to 'getenv' (string expected, got " ++ v.typeName ++ ")")

/-- Puts a value into new tables with one field each, one in the other. -/
def nest (f : Frame) (key : Value) : Nat → Value → Run ρ Value
  | 0, v => pure v
  | n + 1, v => do
    let t ← Run.onHeap fun h => h.addTable .empty
    Run.assign f t key v
    nest f key n t

mutual

def eval (f : Frame) : Expr → Run ρ Value
  | .nil => pure .nil
  | .bool b => pure (.bool b)
  | .integer i => pure (.integer i)
  | .float x => pure (.float x)
  | .string bs => pure (.string bs)
  | .table label fields metatable => do
    let t ← Run.onHeap fun h => h.addTable .empty
    Run.setLabel label t
    evalFields f t fields
    match metatable with
    | none => pure t
    | some fields => do
      let mt ← Run.onHeap fun h => h.addTable .empty
      evalFields f mt fields
      Run.modify fun m =>
        { m with
          heap := m.heap.modifyTable t.tableId fun t => { t with metatable := some mt.tableId } }
      pure t
  | .nested depth key inner => do
    let key ← eval f key
    let v ← eval f inner
    nest f key depth v
  | .labelled label => fun m => (.ok ((m.labels.lookup label).getD .nil), m)
  | .newFunction => Run.onHeap fun h => h.addFunction (.script [] f.place)
  | .newThread => Run.onHeap fun h => h.addThread
  | .handler body => Run.onHeap fun h => h.addFunction (.script body f.place)
  | .parameter p => Run.valueOf f p.name
  | .captured name => do
    let params ← Run.valueOf f Parameter.params.name
    Run.index f params (.string name) (f.describe Parameter.params.name)
  | .concat parts => do
    let values ← evalList f parts
    match values with
    | [v] => pure v
    | values =>
      match joinReversed (values.zip (parts.map (Expr.describe f))).reverse with
      | .ok bs => pure (.string bs)
      | .error (v, what) =>
        Run.failAt f ("attempt to concatenate a " ++ v.typeName ++ " value" ++ what)
  | .call callee args result => do
    let args ← evalList f args
    let results ← call c run f callee args
    pure (results.getD (result - 1) .nil)
  | .global name => Run.valueOf f name
  | .require module field => do
    let name ← eval f module
    let v ← requireModule c run f name
    Run.index f v (.string field) ""
  | .argument name => do
    let key ← eval f name
    Run.index f (← Run.valueOf f "arg") key (f.describe "arg")
  | .environment name => do
    let v ← eval f name
    variableNamed f v

def evalList (f : Frame) : List Expr → Run ρ (List Value)
  | [] => pure []
  | e :: es => do
    let v ← eval f e
    let vs ← evalList f es
    pure (v :: vs)

def evalFields (f : Frame) (t : Value) : List Field → Run ρ Unit
  | [] => pure ()
  | .mk key e :: fields => do
    let key ← eval f key
    let v ← eval f e
    Run.assign f t key v
    evalFields f t fields

end

/-- The local name under which a statement that catches failures has its outcome at first. A
variable of this name is not reached from there. -/
def outcomeName : String := "ok"

mutual

/-- Runs a statement. A value is given if the statement returns it. -/
def exec (f : Frame) : Stmt → Run ρ (Option Value)
  | .set name e => do
    Run.setVariable f name (← eval c run f e)
    pure none
  | .increment name => do
    let v ← Run.valueOf f name
    Run.setVariable f name (← Run.increment f (if v.isTrue then v else .integer 0))
    pure none
  | .return e => do
    let v ← eval c run f e
    Run.tick
    pure (some v)
  | .error e => do
    let v ← eval c run f e
    Run.fail (.value v)
  | .errorHere e => do
    match ← eval c run f e with
    | .string bs => Run.fail (.value (.string (Utf8.ofText f.place ++ bs)))
    | v => Run.fail (.value v)
  | .call callee args => do
    let args ← evalList c run f args
    let _ ← call c run f callee args
    pure none
  | .attempt body flag => do
    let done ← Run.attempt (execBlock f body)
    if flag != outcomeName then Run.setVariable f flag (.bool done)
    pure none
  | .print e => do
    let bs ← showValue c run (← eval c run f e)
    Run.modify fun m => { m with world := m.world.print (bs ++ [10]) }
    pure none
  | .ifVariable name yes no => do
    match ← Run.environment name with
    | .nil => execBlock f no
    | _ => execBlock f yes
  | .spin => Run.fail .endless

/-- Runs statements up to one that returns. Each takes a step, and so does the end of the block. -/
def execBlock (f : Frame) : List Stmt → Run ρ (Option Value)
  | [] => do
    Run.tick
    pure none
  | s :: rest => do
    Run.tick
    match ← exec f s with
    | some v => pure (some v)
    | none => execBlock f rest

end

end

/-- Runs a block in which calls may be `depth` deep. -/
def runBlock {ρ : Type} (c : Context ρ) : Nat → Runner ρ
  | 0, f, _ => Run.failAt f "stack overflow"
  | depth + 1, f, block => do
    match ← execBlock c (runBlock c depth) f block with
    | some v => pure v
    | none => pure .nil

def Context.run {ρ : Type} (c : Context ρ) : Runner ρ := runBlock c maxCalls

/-- How something ends that runs scripts. -/
inductive Ending (ε α : Type) where
  | ok (a : α)
  | error (fault : ε)
  /-- A function of the program around the server crashed. -/
  | panic (text : String)
  | endless
  deriving DecidableEq, Repr

def Ending.isEndless {ε α : Type} : Ending ε α → Bool
  | .endless => true
  | _ => false

/-- The text of a value with which a script failed. Making it may fail in turn, at most `fuel`
times. -/
def failureText {ρ : Type} (c : Context ρ) : Nat → Value → Run ρ String
  | 0, _ => Run.failWith "stack overflow"
  | fuel + 1, v => fun m =>
    match showValue c c.run v m with
    | (.ok bs, m) => (.ok (Utf8.toTextLossy bs), m)
    | (.failed (.value v), m) => failureText c fuel v m
    | (.failed (.message text), m) => (.ok text, m)
    | (.failed f, m) => (.failed f, m)

/-- The message of an interpreter that has no memory left. -/
def noMemory : Fault := .memory "not enough memory"

/-- Runs something to its end, with a failure turned into its text. -/
def finish {ρ α : Type} (c : Context ρ) (r : Run ρ α) (m : Machine ρ) :
    Ending Fault α × Machine ρ :=
  match r m with
  | (.ok a, m) => (.ok a, m)
  | (.failed (.message text), m) => (.error (.runtime text), m)
  | (.failed (.value v), m) =>
    match failureText c maxCalls v m with
    | (.ok text, m) => (.error (.runtime text), m)
    | (.failed (.panic text), m) => (.panic text, m)
    | (.failed .endless, m) => (.endless, m)
    | (.failed (.message text), m) => (.error (.runtime text), m)
    | (.failed (.value _), m) => (.error (.runtime ""), m)
  | (.failed (.panic text), m) => (.panic text, m)
  | (.failed .endless, m) => (.endless, m)

def runSource {ρ : Type} (c : Context ρ) (s : Source) (m : Machine ρ) :
    Ending Fault Unit × Machine ρ :=
  match s.read with
  | none => (.error (.malformed "not a script"), m)
  | some (place, block) => finish c (do let _ ← c.run ⟨place, false⟩ block) m

end ScriptServer.Script
