import ScriptServer.Number.Literal

/-!
# Addresses to listen on

An address is a host and the number of a service with a colon between them. `bindAddress` completes
an address that has no host; `canBind` says which addresses belong to the machine itself.
-/

namespace ScriptServer.Http

/-- The address to bind. One that begins with its colon stands for every interface. -/
def bindAddress (addr : String) : String :=
  let addr := Text.trim addr
  if addr.toList.head? = some ':' then "0.0.0.0" ++ addr else addr

/-- The four numbers of an address that is written with points. -/
def pointed? (host : List Char) : Option (List Nat) :=
  let parts := Text.splitOn '.' host
  let numbers := parts.filterMap fun part =>
    if part.all Text.isDigit then Text.natural? 256 part else none
  if parts.length = 4 ∧ numbers.length = 4 then some numbers else none

def isOwnHost (host : List Char) : Bool :=
  ["localhost", "[::]", "[::1]"].contains (String.ofList host) ||
    match pointed? host with
    | some ns => ns == [0, 0, 0, 0] || ns.head? == some 127
    | none => false

/-- The server can listen on an address. -/
def canBind (addr : String) : Bool :=
  match Text.splitOnce ':' addr.toList.reverse with
  | none => false
  | some (service, host) =>
    isOwnHost host.reverse && (Text.natural? (1 <<< 16) service.reverse).isSome

end ScriptServer.Http
