import ScriptServer.Number.Binary64
import ScriptServer.Text.Utf8

/-!
# Script code

A script is a list of statements. An expression builds a value, asks the server or the environment
for one, or makes a handler; a handler is a list of statements that runs with the three parameters
of a request. There are no loops but the endless ones.
-/

namespace ScriptServer.Script

inductive Parameter where
  | method
  | path
  | params
  deriving DecidableEq, Repr

namespace Parameter

def name : Parameter → String
  | method => "method"
  | path => "path"
  | params => "params"

def ofName? : String → Option Parameter
  | "method" => some method
  | "path" => some path
  | "params" => some params
  | _ => none

def index : Parameter → Nat
  | method => 0
  | path => 1
  | params => 2

end Parameter

/-- The name of a function: one in a module, or one of the language. -/
structure Callee where
  module? : Option String
  name : String
  deriving DecidableEq, Repr

mutual

inductive Expr where
  | nil
  | bool (b : Bool)
  | integer (i : Int64)
  | float (x : Binary64)
  | string (bs : Bytes)
  /-- A new table. Its fields are assigned in order, and inside them it can be referred to by its
  label. -/
  | table (label : Option Nat) (fields : List Field) (metatable : Option (List Field))
  /-- So many new tables around a value, each with one field of this key. -/
  | nested (depth : Nat) (key inner : Expr)
  /-- The table with this label. -/
  | labelled (label : Nat)
  | newFunction
  | newThread
  | handler (body : List Stmt)
  | parameter (p : Parameter)
  /-- What the request path holds in the place of a parameter of its route. -/
  | captured (name : Bytes)
  | concat (parts : List Expr)
  /-- The result of a call with this number, counted from one. -/
  | call (f : Callee) (args : List Expr) (result : Nat)
  | global (name : String)
  /-- A field of a module. -/
  | require (module : Expr) (field : Bytes)
  /-- A command line flag of the server. -/
  | argument (name : Expr)
  /-- An environment variable. -/
  | environment (name : Expr)

inductive Field where
  | mk (key value : Expr)

inductive Stmt where
  | set (name : String) (e : Expr)
  /-- Adds one to a global, which counts from zero. -/
  | increment (name : String)
  | return (e : Expr)
  /-- Fails with a value. -/
  | error (e : Expr)
  /-- Fails with a value; a text gets the place in the script in front. -/
  | errorHere (e : Expr)
  | call (f : Callee) (args : List Expr)
  /-- Runs statements and notes in a global whether they failed. -/
  | attempt (body : List Stmt) (flag : String)
  | print (e : Expr)
  | ifVariable (name : Bytes) (yes no : List Stmt)
  /-- Never ends. -/
  | spin

end

/-- A list of statements. -/
abbrev Block := List Stmt

end ScriptServer.Script
