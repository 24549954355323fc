import ScriptServer.Json.Reader
import ScriptServer.Json.Writer
import ScriptServer.Script.Machine

/-!
# The modules of the server

The functions of `json` and `router` as a script sees them. Their parameters are converted from left
to right, numbers counting as texts, and missing ones are nil; a parameter that cannot be converted
is named in the message. `json` gives its result, or nil and a message.
-/

namespace ScriptServer.Script

structure ConversionFault where
  position : Nat
  kind : String
  target : String
  detail : Option String
  deriving DecidableEq, Repr

def ConversionFault.message (f : ConversionFault) : String :=
  "bad argument #" ++ Text.number f.position ++ ": error converting Lua " ++ f.kind ++ " to " ++
    f.target ++
    match f.detail with
    | some detail => " (" ++ detail ++ ")"
    | none => ""

/-- The parameter at a position, counted from one. -/
def argument (args : List Value) (position : Nat) : Value :=
  args.getD (position - 1) .nil

def asBytes? : Value → Option Bytes
  | .string bs => some bs
  | .integer i => some (Utf8.ofChars (integerText i.toInt))
  | .float x => some (Utf8.ofChars (floatText x))
  | _ => none

/-- Converts a parameter to bytes. The target is what the message calls them. -/
def bytesArgument (target : String) (args : List Value) (position : Nat) :
    Except ConversionFault Bytes :=
  match asBytes? (argument args position) with
  | some bs => .ok bs
  | none =>
    .error ⟨position, (argument args position).kind, target, some "expected string or number"⟩

def textArgument (args : List Value) (position : Nat) : Except ConversionFault String :=
  match bytesArgument "String" args position with
  | .error e => .error e
  | .ok bs =>
    match Utf8.toText bs with
    | .ok text => .ok text
    | .error fault => .error ⟨position, "string", "String", some fault.message⟩

def functionArgument (args : List Value) (position : Nat) : Except ConversionFault Nat :=
  match argument args position with
  | .function id => .ok id
  | v => .error ⟨position, v.kind, "function", none⟩

def converted {ρ α β : Type} (r : Except ConversionFault α) (next : α → Run ρ β) : Run ρ β :=
  match r with
  | .ok a => next a
  | .error e => .failWith e.message

/-- Nothing and a message, as a function gives them that has no result. -/
def refusal (text : String) : List Value := [.nil, .ofText text]

/-- The results of encoding a value. -/
def encodeValue (h : Heap) (v : Value) : List Value :=
  match Json.encode (toTree h v) with
  | .ok text => [.ofText text]
  | .error e => refusal e.message

def decodeBytes (bs : Bytes) (h : Heap) : List Value × Heap :=
  match Utf8.toText? bs with
  | none => (refusal "invalid UTF-8 in JSON input", h)
  | some text =>
    match Json.decode text with
    | .ok tree =>
      let (v, h) := ofTree tree h
      ([v], h)
    | .error e => (refusal e.display, h)

/-- The pattern of a route to files. A route to a directory takes every path below it. -/
def staticPattern (kind : StaticKind) (start : String) : String :=
  match kind with
  | .file => start
  | .directory =>
    if start.toList.getLast? = some '*' then start
    else String.ofList (start.toList.reverse.dropWhile (· == '/')).reverse ++ "/*"

def registerHandler {ρ : Type} (s : Services ρ) (method pattern : String) (f : Nat) :
    Run ρ (List Value) := fun m =>
  match s.addHandler method pattern m.place with
  | (.error text, place) => (.failed (.message text), { m with place })
  | (.ok id, place) =>
    (.ok [],
      { m with
        place
        handlers := (id, m.heap.function f) :: m.handlers
        world := m.world.log .debug
          ("route " ++ method ++ " " ++ pattern ++ " -> handler " ++ Text.number id) })

def registerStatic {ρ : Type} (s : Services ρ) (kind : StaticKind) (start path : String) :
    Run ρ (List Value) := fun m =>
  match s.addStatic kind (staticPattern kind start) path m.place with
  | (.error text, place) => (.failed (.message text), { m with place })
  | (.ok (), place) => (.ok [], { m with place })

def listenAt {ρ : Type} (s : Services ρ) (addr : String) : Run ρ (List Value) := fun m =>
  match s.listen addr m.place m.world with
  | (.ok (), place, world) => (.ok [], { m with place, world })
  | (.failed f, place, world) => (.failed f, { m with place, world })

def Builtin.call {ρ : Type} (s : Services ρ) (args : List Value) : Builtin → Run ρ (List Value)
  | .jsonEncode => fun m => (.ok (encodeValue m.heap (argument args 1)), m)
  | .jsonDecode =>
    converted (bytesArgument "string" args 1) fun bs => Run.making (decodeBytes bs)
  | .handle =>
    converted (textArgument args 1) fun method =>
      converted (textArgument args 2) fun pattern =>
        converted (functionArgument args 3) fun f => registerHandler s method pattern f
  | .on method =>
    converted (textArgument args 1) fun pattern =>
      converted (functionArgument args 2) fun f => registerHandler s method pattern f
  | .serve kind =>
    converted (textArgument args 1) fun start =>
      converted (textArgument args 2) fun path => registerStatic s kind start path
  | .listen => converted (textArgument args 1) fun addr => listenAt s addr

/-- The services of an interpreter that stands nowhere in a server. -/
def detached : Services Unit :=
  let text := "router is not attached to a lume server"
  { addHandler := fun _ _ _ => (.error text, ())
    addStatic := fun _ _ _ _ => (.error text, ())
    listen := fun _ _ w => (.failed (.message text), (), w) }

end ScriptServer.Script
