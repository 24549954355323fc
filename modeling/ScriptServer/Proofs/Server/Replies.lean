import ScriptServer.Proofs.Dictionary
import ScriptServer.Proofs.Http.Fields
import ScriptServer.Proofs.Log.RequestId
import ScriptServer.Proofs.Script.Synthesis
import ScriptServer.Proofs.Server.Files
import ScriptServer.Proofs.Server.Frame
import ScriptServer.Server.Connection

/-!
# The header lines of a reply

Whatever answers a request, be it a handler, files or the server itself, the headers of its response
have distinct names and name a content type. The server sets its own headers after that and the
writer has the last word on the length of the body, so every reply has each of these lines once.
-/

namespace ScriptServer

namespace Server

open Http (Request Response Stream EndsHead splitLines fieldName)
open Script (Ending)

/-! ## What answers a request -/

variable {table : Route.Table} {request : Request} {s s' : Server} {e e' : Execution}
  {response : Response} {reply : Reply}

theorem isTyped_readFile (fs : Files) (path : String) : (Static.readFile fs path).IsTyped := by
  unfold Static.readFile
  split
  · exact Response.isTyped_contentType _ _ _
  · exact Response.isTyped_contentType _ _ _

theorem isTyped_notAllowed (methods : List String) : (Static.notAllowed methods).IsTyped :=
  (Response.isTyped_contentType _ _ _).setHeader _ _

theorem isTyped_files {fs : Files} (answers : Static.Answers fs request response) :
    response.IsTyped := by
  cases answers with
  | refused => exact isTyped_notAllowed _
  | missing => exact Response.isTyped_contentType _ _ _
  | content => exact isTyped_readFile _ _

/-- Every result of a handler makes a response with a content type. -/
theorem isTyped_responseOf_synthesize (h : Script.Heap) (serverName : String) (v : Script.Value) :
    (responseOf (Script.synthesize h serverName v)).IsTyped := by
  have mem := List.mem_map_of_mem (f := Text.toLower)
    (Script.contentType_mem_synthesize h serverName v)
  have name : Text.toLower "Content-Type" = "content-type" := by decide
  rw [Dictionary.keys, List.map_map, name] at mem
  obtain ⟨distinct, names⟩ := Response.names_foldl_setHeader
    (r := { Response.ofStatus (Script.synthesize h serverName v).status with
      body := Utf8.ofText (Script.synthesize h serverName v).body })
    (Script.synthesize h serverName v).headers List.nodup_nil
  exact ⟨distinct, (names _).mpr (.inr mem)⟩

theorem runScript_ok {synthesis : Script.Synthesis} (ran : runScript e s = (.ok synthesis, s')) :
    ∃ h serverName v, synthesis = Script.synthesize h serverName v := by
  unfold runScript at ran
  split at ran
  · unfold runHandler at ran
    dsimp only at ran
    split at ran
    · cases ran
      exact ⟨_, _, _, rfl⟩
    all_goals cases ran
  all_goals cases ran

theorem isTyped_execute (ran : execute e s = (.ok (response, e'), s')) : response.IsTyped := by
  unfold execute at ran
  split at ran
  · next synthesis _ ended =>
    obtain ⟨h, serverName, v, rfl⟩ := runScript_ok ended
    cases ran
    exact isTyped_responseOf_synthesize h serverName v
  · cases ran
    exact Response.isTyped_contentType _ _ _
  all_goals cases ran

theorem isTyped_handle (answered : handle table request s = (.ok reply, s')) :
    reply.response.IsTyped := by
  unfold handle at answered
  split at answered
  · cases answered
    exact Response.isTyped_contentType _ _ _
  · cases answered
    exact isTyped_notAllowed _
  · next key target params _ =>
    cases target with
    | file path =>
      cases answered
      exact isTyped_files (Static.answers_serveFile _ _ _)
    | directory dir =>
      cases answered
      exact isTyped_files (Static.answers_serveDirectory _ _ _ _)
    | handler id =>
      dsimp only at answered
      split at answered
      · next ran =>
        cases answered
        exact isTyped_execute ran
      all_goals cases answered

theorem isTyped_handleSafely {id : String}
    (answered : (handleSafely table request id s).1 = some reply) : reply.response.IsTyped := by
  unfold handleSafely at answered
  split at answered
  · next ended =>
    cases answered
    exact isTyped_handle ended
  · cases answered
    exact Response.isTyped_contentType _ _ _
  · cases answered

theorem handleSafely_eq_none {id : String} :
    (handleSafely table request id s).1 = none ↔ (handle table request s).1 = .endless := by
  unfold handleSafely
  split
  · next ended => simp [ended]
  · next ended => simp [ended]
  · next ended => simp [ended]

/-! ## What every reply has -/

/-- The header lines of a reply: no two with the same name, the lines that every reply has, and in
these the identifier of the request and the length of the body. -/
structure Complete (fields : List Bytes) (id : String) (body : Bytes) : Prop where
  distinct : (fields.map fieldName).Nodup
  once : ∀ name ∈ ["content-type", "server", "date", "x-request-id", "content-length",
    "connection"], (fields.map fieldName).count (Utf8.ofText name) = 1
  identified : Utf8.ofText ("X-Request-Id: " ++ id) ∈ fields
  measured : Utf8.ofText ("Content-Length: " ++ Text.number body.length) ∈ fields

variable {r : Response} {id date serverName : String}

/-- The server's own headers are set last, and none of them takes another one away. -/
theorem finishResponse_headers (typed : r.IsTyped) :
    (finishResponse r id date serverName).names.Nodup ∧
      (∀ name ∈ ["content-type", "server", "date", "x-request-id"],
        name ∈ (finishResponse r id date serverName).names) ∧
      (requestIdHeader, id) ∈ (finishResponse r id date serverName).headers := by
  have named : Text.toLower requestIdHeader = "x-request-id" := by decide
  have dated : Text.toLower "Date" = "date" := by decide
  have served : Text.toLower "Server" = "server" := by decide
  let r' := (r.setHeader requestIdHeader id).setHeader "Date" date
  have typed' : r'.IsTyped := (typed.setHeader _ _).setHeader _ _
  have own : "date" ∈ r'.names ∧ "x-request-id" ∈ r'.names := by
    simp only [r', Response.mem_names_setHeader, named, dated, or_true, true_or, and_self]
  have kept : (requestIdHeader, id) ∈ r'.headers := by
    have other : Text.toLower requestIdHeader ≠ Text.toLower "Date" := by decide
    exact Response.mem_headers_setHeader.mpr
      (.inl ⟨Response.mem_headers_setHeader.mpr (.inr rfl), other⟩)
  have finished : finishResponse r id date serverName =
      if (r'.header? "Server").isNone then r'.setHeader "Server" serverName else r' := rfl
  rw [finished]
  split
  · refine ⟨(typed'.setHeader _ _).distinct, ?_, ?_⟩
    · simp [Response.mem_names_setHeader, served, typed'.typed, own]
    · have other : Text.toLower requestIdHeader ≠ Text.toLower "Server" := by decide
      exact Response.mem_headers_setHeader.mpr (.inl ⟨kept, other⟩)
  · next there =>
    have server : "server" ∈ r'.names := by
      rw [← served, ← Response.header?_isSome]
      simpa [Option.isSome_iff_ne_none] using there
    refine ⟨typed'.distinct, ?_, kept⟩
    simp [server, typed'.typed, own]

theorem finishResponse_body : (finishResponse r id date serverName).body = r.body := by
  unfold finishResponse
  dsimp only
  split <;> rfl

theorem complete_finishResponse (typed : r.IsTyped)
    (identifying : ∀ c ∈ id.toList, Log.RequestId.isIdentifying c = true) :
    Complete (finishResponse r id date serverName).fieldLines id r.body := by
  obtain ⟨distinct, names, identified⟩ :=
    @finishResponse_headers r id date serverName typed
  have break_free (c : Char) (other : Log.RequestId.isIdentifying c = false) : c ∉ id.toList := by
    intro mem
    rw [identifying c mem] at other
    cases other
  have line : "X-Request-Id: " = requestIdHeader ++ ": " := by decide
  refine ⟨Response.nodup_fieldNames distinct, ?_, ?_, ?_⟩
  · intro name mem
    have writable : ∀ name ∈ ["content-type", "server", "date", "x-request-id"],
        Http.IsWritable name := by
      simp only [Http.isWritable_iff]
      decide
    have mem : name ∈ ["content-type", "server", "date", "x-request-id"] ++
        ["content-length", "connection"] := mem
    rcases List.mem_append.mp mem with own | framing
    · exact Response.count_fieldNames distinct (.inl ⟨names name own, writable name own⟩)
    · exact Response.count_fieldNames distinct (.inr (List.mem_pair.mp framing))
  · rw [line]
    exact Response.line_mem_fieldLines identified (Http.isWritable_iff.mpr (by decide))
      (break_free '\r' (by decide)) (break_free '\n' (by decide))
  · have body : (finishResponse r id date serverName).body = r.body := finishResponse_body
    rw [← body]
    exact Response.lengthLine_mem_fieldLines _

/-- **Header lines.** A request that was read is answered, unless its handler never ends. No two
header lines of the answer have the same name, whatever the case of the letters, and each line that
every reply has is there once, with the identifier of the request and the length of the body. The
body follows, unless only the head was asked for. -/
theorem serveConnection_fields {stream : Stream} (read : Http.readRequest stream = .ok request)
    (table : Route.Table) (s : Server) :
    let resolved := Log.RequestId.resolve request.headers s.world.nextRequest
    let s' : Server := { s with world := { s.world with nextRequest := resolved.2 } }
    (handle table request s').1 = .endless ∧ (serveConnection table stream s).1 = none ∨
      ∃ reply bytes head status fields,
        (handleSafely table request resolved.1 s').1 = some reply ∧
        (serveConnection table stream s).1 = some bytes ∧
        EndsHead bytes head (if request.method = "HEAD" then [] else reply.response.body) ∧
        splitLines head = status :: fields ∧
        Complete fields resolved.1 reply.response.body := by
  intro resolved s'
  have served : serveConnection table stream s = answer table request s := by
    rw [serveConnection, read]
  rw [served]
  cases ended : handleSafely table request resolved.1 s' with
  | mk outcome later =>
    cases outcome with
    | none =>
      have never : (answer table request s).1 = none := by
        simp only [answer, resolved, s'] at ended ⊢
        rw [ended]
      exact .inl ⟨handleSafely_eq_none.mp (congrArg Prod.fst ended), never⟩
    | some reply =>
      have typed : reply.response.IsTyped := isTyped_handleSafely (congrArg Prod.fst ended)
      let r := finishResponse reply.response resolved.1 later.world.date
        later.pool.settings.serverName
      have written : (answer table request s).1 = some (r.toBytes (request.method != "HEAD")) := by
        simp only [answer, resolved, s'] at ended ⊢
        rw [ended]
      obtain ⟨ends, lines⟩ := r.toBytes_endsHead (request.method != "HEAD")
      have body : (if request.method = "HEAD" then [] else reply.response.body) =
          if (request.method != "HEAD") = true then r.body else [] := by
        rw [finishResponse_body]
        simp only [bne_iff_ne, ite_not]
      refine .inr ⟨reply, _, _, _, _, rfl, written, body ▸ ends, lines, ?_⟩
      exact complete_finishResponse typed fun c mem => Log.RequestId.isIdentifying_of_resolve mem

/-- A handler that gives a header in two spellings, and headers of its own that all replies have. -/
theorem serveConnection_fields_spellings :
    let stream : Stream := [.data (Utf8.ofText "GET /a HTTP/1.1\r\nX-Request-Id: 7\r\n\r\n")]
    let request : Request := ⟨"GET", "/a", none, [("x-request-id", "7")], []⟩
    let t : Route.Table := ⟨[⟨⟨"GET", "/a"⟩, .handler 0, [.exact "a"]⟩], [⟨"GET", "/a"⟩]⟩
    let s := (ofScript ("[\x7b\"call\":\"router.get\",\"args\":[\"/a\"," ++
      "\x7b\"handler\":[\x7b\"return\":\x7b\"t\":[[\"body\",\"hi\"],[\"headers\",\x7b\"t\":" ++
      "[[\"x-a\",\"1\"],[\"X-A\",\"2\"],[\"content-length\",\"9\"],[\"Date\",\"never\"]]\x7d]]" ++
      "\x7d\x7d]\x7d]\x7d]")).withTable t
    let headers := [("Content-Length", "9"), ("Content-Type", "text/html;charset=UTF-8"),
      ("Date", "never"), ("Server", "lume/0.1.0"), ("X-A", "2")]
    Http.readRequest stream = .ok request ∧
      (handleSafely t request "7" s).1 =
        some ⟨⟨200, headers, Utf8.ofText "hi"⟩, some "GET /a", some .completed⟩ ∧
      ∃ bytes head status fields, (serveConnection t stream s).1 = some bytes ∧
        EndsHead bytes head (Utf8.ofText "hi") ∧ splitLines head = status :: fields ∧
        Complete fields "7" (Utf8.ofText "hi") := by
  intro stream request t s headers
  have read : Http.readRequest stream = .ok request := by
    have found : (Http.readRequest stream).toOption = some request := by decide +kernel
    cases eq : Http.readRequest stream with
    | error e => rw [eq] at found; cases found
    | ok request => rw [eq] at found; exact congrArg _ (Option.some.inj found)
  have known : Log.RequestId.resolve request.headers s.world.nextRequest = ("7", 1) := by
    decide +kernel
  have answered : (handleSafely t request "7" s).1 =
      some ⟨⟨200, headers, Utf8.ofText "hi"⟩, some "GET /a", some .completed⟩ := by
    decide +kernel
  have counted : { s with world := { s.world with nextRequest := 1 } } = s := rfl
  have whole : request.method ≠ "HEAD" := by decide
  clear_value s request
  have fields := serveConnection_fields read t s
  dsimp only at fields
  rw [known] at fields
  dsimp only at fields
  rw [counted] at fields
  refine ⟨read, answered, ?_⟩
  rcases fields with ⟨endless, -⟩ | ⟨reply, bytes, head, status, fields, same, written, ends, lines,
    complete⟩
  · rw [handleSafely_eq_none.mpr endless] at answered
    cases answered
  · rw [answered] at same
    cases same
    rw [if_neg whole] at ends
    exact ⟨bytes, head, status, fields, written, ends, lines, complete⟩

end Server

end ScriptServer
