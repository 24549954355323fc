import ScriptServer.Http.Address
import ScriptServer.Server.Connection

/-!
# Listening for connections

A listener counts the connections that it has accepted and those that are still being served. It
accepts no more when the greatest number is reached, and it is over when the last connection that it
has accepted has been served. Here each connection is served before the next one is accepted.
-/

namespace ScriptServer.Server

open Script (Ending)

structure Listener where
  accepted : Nat
  inFlight : Nat
  deriving DecidableEq, Repr

namespace Listener

def start : Listener := ⟨0, 0⟩

def accept (l : Listener) : Listener := ⟨l.accepted + 1, l.inFlight + 1⟩

def finish (l : Listener) : Listener := { l with inFlight := l.inFlight - 1 }

/-- No more connections are accepted. A greatest number of zero is none. -/
def isFull (max : Nat) (l : Listener) : Bool := 0 < max && max ≤ l.accepted

def isOver (max : Nat) (l : Listener) : Bool := l.isFull max && l.inFlight == 0

end Listener

/-- Serves the clients that connect, one after the other. Without more of them it waits for ever. -/
def serveClients (table : Route.Table) : List Http.Stream → Listener → Server →
    Ending String Unit × Server
  | [], _, s => (.endless, s)
  | stream :: clients, l, s =>
    let l := l.accept
    match serveConnection table stream { s with world := { s.world with clients } } with
    | (none, s) => (.endless, s)
    | (some bytes, s) =>
      let s := { s with world := { s.world with replies := s.world.replies ++ [bytes] } }
      let l := l.finish
      if l.isOver s.pool.settings.maxRequests then (.ok (), s) else serveClients table clients l s

def serve (addr : String) (s : Server) : Ending String Unit × Server :=
  let addr := Http.bindAddress addr
  if Http.canBind addr then
    let (table, s) := s.publish
    serveClients table s.world.clients .start (s.log .info ("listening on http://" ++ addr))
  else (.error ("failed to bind " ++ addr ++ ": address is not available"), s)

end ScriptServer.Server
