import ScriptServer.Log.Access
import ScriptServer.Log.RequestId
import ScriptServer.Server.Dispatch

/-!
# Serving a connection

A connection carries one request. Its reply names the request, the date and the server, whatever the
handler says about the first two; a crash on the way is answered too. Every request that could be
read leaves a record in the access log.
-/

namespace ScriptServer.Server

open Http (Request Response Stream)
open Script (Ending)

def requestIdHeader : String := "X-Request-Id"

def crashReply : Reply := ⟨.ofText 500 "internal server error", none, none⟩

/-- A response with the headers that every reply has. -/
def finishResponse (r : Response) (requestId date serverName : String) : Response :=
  let r := (r.setHeader requestIdHeader requestId).setHeader "Date" date
  if (r.header? "Server").isNone then r.setHeader "Server" serverName else r

/-- What a request leads to, with a crash answered too. Without a value the answer never comes. -/
def handleSafely (table : Route.Table) (request : Request) (requestId : String) (s : Server) :
    Option Reply × Server :=
  match handle table request s with
  | (.ok reply, s) => (some reply, s)
  | (.panic text, s) =>
    (some crashReply,
      s.log .error ("request " ++ requestId ++ " panicked: " ++ (Log.Panic.built text).report))
  | (.endless, s) => (none, s)

def answer (table : Route.Table) (request : Request) (s : Server) : Option Bytes × Server :=
  let (id, next) := Log.RequestId.resolve request.headers s.world.nextRequest
  let s := { s with world := { s.world with nextRequest := next } }
  match handleSafely table request id s with
  | (none, s) => (none, s)
  | (some reply, s) =>
    let response := finishResponse reply.response id s.world.date s.pool.settings.serverName
    let record : Log.Access :=
      { requestId := id, method := request.method, path := request.path, route := reply.route,
        status := response.status, micros := s.world.elapsed,
        responseBytes := response.body.length }
    (some (response.toBytes (request.method != "HEAD")),
      { s with world := s.world.report (record.entry s.world.env s.world.logFilter) })

/-- Serves a connection. Without a value the reply never comes. -/
def serveConnection (table : Route.Table) (stream : Stream) (s : Server) :
    Option Bytes × Server :=
  match Http.readRequest stream with
  | .ok request => answer table request s
  | .error e =>
    (some ((Response.ofText 400 e.message).toBytes true),
      s.log .debug ("rejecting malformed request: " ++ e.message))

end ScriptServer.Server
