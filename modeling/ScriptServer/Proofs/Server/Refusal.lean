import ScriptServer.Proofs.Route.Precedence
import ScriptServer.Proofs.Route.Refusal
import ScriptServer.Proofs.Server.Files
import ScriptServer.Proofs.Text.Blank
import ScriptServer.Server.Startup

/-!
# Refusals of the server itself

The server refuses a method on its own account in two places. The table lists the methods of all
routes that match the path; files are registered for all methods, answer two of them and list these.
So the refusal of files is short of the methods for which a handler comes before the files.
-/

namespace ScriptServer

namespace Route

theorem normalizeMethod_idempotent (m : String) :
    normalizeMethod (normalizeMethod m) = normalizeMethod m := Text.toUpper_trim_idempotent m

theorem normalizeMethod_any : normalizeMethod anyMethod = anyMethod := by decide +kernel

namespace Registration

/-- A route as a script can register it: a handler for some method, or files for all methods. -/
def IsScripted : Registration → Prop
  | .handler _ _ => True
  | .route method pattern target => ∃ kind start path, method = anyMethod ∧
      pattern = Script.staticPattern kind start ∧ target = Server.Startup.staticTarget kind path

variable {calls : List Registration}

theorem normal_of_mem_keys {k : Key} (h : k ∈ calls.map key) :
    normalizeMethod k.method = k.method := by
  obtain ⟨call, -, rfl⟩ := List.mem_map.mp h
  cases call <;> exact normalizeMethod_idempotent _

/-- Only files have routes for all methods that are not those of handlers. -/
theorem target_of_named (scripted : ∀ call ∈ calls, call.IsScripted) {n : Nat} {k : Key}
    {target : Target} (h : (k, target) ∈ assignments n calls) (named : k.method ≠ anyMethod) :
    ∃ id, target = .handler id := by
  induction calls generalizing n with
  | nil => cases h
  | cons call calls ih =>
    obtain ⟨first, later⟩ := List.forall_mem_cons.mp scripted
    cases call with
    | handler method pattern =>
      rw [assignments, List.mem_cons, Prod.mk.injEq] at h
      rcases h with ⟨-, own⟩ | h
      · exact ⟨n, own⟩
      · exact ih later h
    | route method pattern target' =>
      obtain ⟨-, -, -, rfl, -⟩ := first
      rw [assignments, List.mem_cons, Prod.mk.injEq] at h
      rcases h with ⟨rfl, -⟩ | h
      · exact absurd normalizeMethod_any named
      · exact ih later h

end Registration

end Route

namespace Server

open Http (Request Response)
open Route
open Registration (key assignments)
open Static (methods notAllowed)

/-- The server refuses a method, and no handler does. -/
def Refuses (t : Table) (request : Request) (s : Server) (m : String) : Prop :=
  ∃ reply s', handle t { request with method := m } s = (.ok reply, s') ∧ reply.phase = none ∧
    reply.response.status = 405

/-- The methods that the server lists when it refuses that of a request. -/
def listed (t : Table) (request : Request) : List String :=
  match t.resolve request.method request.path with
  | .methodNotAllowed methods => methods
  | _ => Static.methods

/-- Before the route that was found a table tries another one, for a method that files do not
answer. -/
inductive Overlooked (keys : List Key) (parts : List String) : Resolution → Prop where
  | route {k₀ k : Key} {p₀ p : Pattern} {captured₀ captured : List (String × String)}
    {target : Target} {params : Dictionary String}
    (found : Candidate keys parts k₀ p₀ captured₀) (other : Candidate keys parts k p captured)
    (earlier : Precedes keys k p k₀ p₀) (named : k.method ≠ anyMethod)
    (unlisted : k.method ∉ methods) :
    Overlooked keys parts (.found k₀ target params)

/-! ## What answers a request -/

variable {t : Table} {request : Request} {s : Server} {m : String} {k : Key} {target : Target}
  {params : Dictionary String}

theorem handle_files
    (found : t.resolve request.method request.path = .found k target params)
    (files : ∀ id, target ≠ .handler id) (s : Server) :
    ∃ response, handle t request s = (.ok ⟨response, some k.text, none⟩, s) ∧
      Static.Answers s.world.files request response := by
  unfold handle
  rw [found]
  cases target with
  | handler id => exact absurd rfl (files id)
  | file path => exact ⟨_, rfl, Static.answers_serveFile _ _ _⟩
  | directory dir => exact ⟨_, rfl, Static.answers_serveDirectory _ _ _ _⟩

/-- What a handler answers is no refusal of the server. -/
theorem not_refuses_handler {id : Nat}
    (found : t.resolve m request.path = .found k (.handler id) params) :
    ¬Refuses t request s m := by
  rintro ⟨reply, s', answered, own, -⟩
  unfold handle at answered
  simp only [found] at answered
  split at answered
  · cases answered
    cases own
  · cases answered
  · cases answered

theorem refuses_of_methodNotAllowed {allowed : List String}
    (refused : t.resolve m request.path = .methodNotAllowed allowed) : Refuses t request s m := by
  refine ⟨⟨notAllowed allowed, none, none⟩, s, ?_, rfl, rfl⟩
  unfold handle
  simp only [refused]

theorem refuses_files (found : t.resolve m request.path = .found k target params)
    (files : ∀ id, target ≠ .handler id) : Refuses t request s m ↔ m ∉ methods := by
  obtain ⟨response, answered, answers⟩ :=
    @handle_files t { request with method := m } k target params found files s
  rw [← answers.status_eq_iff]
  constructor
  · rintro ⟨reply, s', answered', -, status⟩
    obtain ⟨same, -⟩ := Prod.mk.inj (answered.symm.trans answered')
    cases same
    exact status
  · exact fun status => ⟨_, _, answered, rfl, status⟩

/-! ## Which routes come before the files -/

variable {calls : List Registration} {r : Registry} {path m₀ : String} {k₀ : Key}
  {target₀ : Target} {params₀ : Dictionary String}

/-- A named method leads to a handler. -/
theorem handler_of_found (registered : Registry.empty.registerAll calls = .ok r)
    (scripted : ∀ call ∈ calls, call.IsScripted)
    (found : r.freeze.resolve m path = .found k target params) (named : k.method ≠ anyMethod) :
    ∃ id, target = .handler id := by
  have held := Registry.holds_of_registerAll registered
  have answers := Table.answers_of_holds held m path
  rw [found] at answers
  cases answers with
  | found _ _ latest =>
    obtain ⟨before, after, eq, -⟩ := List.lookup_eq_some_iff.mp latest
    have mem : (k, target) ∈ (assignments 0 calls).reverse :=
      eq ▸ List.mem_append_right _ List.mem_cons_self
    exact Registration.target_of_named scripted (List.mem_reverse.mp mem) named

/-- What a table lists is answered by handlers, and all else is refused. -/
theorem mem_allowed_iff_not_refuses (registered : Registry.empty.registerAll calls = .ok r)
    (scripted : ∀ call ∈ calls, call.IsScripted) {allowed : List String}
    (refused : r.freeze.resolve m₀ request.path = .methodNotAllowed allowed)
    (normal : normalizeMethod m = m) : m ∈ allowed ↔ ¬Refuses r.freeze request s m := by
  have found := Table.found_iff_mem_of_refused refused m
  rw [normal] at found
  rw [← found]
  cases resolved : r.freeze.resolve m request.path with
  | notFound =>
    have missing : r.freeze.resolve m₀ request.path = .notFound :=
      Table.resolve_eq_notFound.mpr (Table.resolve_eq_notFound.mp resolved)
    rw [refused] at missing
    cases missing
  | methodNotAllowed allowed' =>
    refine iff_of_false ?_ (not_not.mpr (refuses_of_methodNotAllowed resolved))
    rintro ⟨k, target, params, ⟨⟩⟩
  | found k target params =>
    have held := Registry.holds_of_registerAll registered
    have answers := Table.answers_of_holds held m₀ request.path
    have answers' := Table.answers_of_holds held m request.path
    rw [refused] at answers
    rw [resolved] at answers'
    have named : k.method ≠ anyMethod := by
      cases answers with
      | methodNotAllowed _ _ refused =>
        cases answers' with
        | found candidate => exact fun any => refused _ _ _ candidate (.inl any)
    obtain ⟨id, rfl⟩ := handler_of_found registered scripted resolved named
    exact iff_of_true ⟨_, _, _, rfl⟩ (not_refuses_handler resolved)

/-- Where files answer one method, every method finds the files, unless a handler for it comes
before them. -/
theorem resolve_files (registered : Registry.empty.registerAll calls = .ok r)
    (scripted : ∀ call ∈ calls, call.IsScripted)
    (found₀ : r.freeze.resolve m₀ path = .found k₀ target₀ params₀)
    (files : ∀ id, target₀ ≠ .handler id) {p₀ : Pattern} (read₀ : Pattern.read k₀.pattern = .ok p₀)
    (m : String) :
    ∃ k target params, r.freeze.resolve m path = .found k target params ∧
      (target = target₀ ∧
          (∀ k' p' captured', Candidate (calls.map key) (segments path) k' p' captured' →
            k'.method ≠ anyMethod → k'.Accepts (normalizeMethod m) →
            ¬Precedes (calls.map key) k' p' k₀ p₀) ∨
        (∃ id, target = .handler id) ∧ k.method ≠ anyMethod ∧ k.Accepts (normalizeMethod m) ∧
          ∃ p captured, Candidate (calls.map key) (segments path) k p captured ∧
            Precedes (calls.map key) k p k₀ p₀) := by
  have any : k₀.method = anyMethod := by
    by_contra named
    obtain ⟨id, eq⟩ := handler_of_found registered scripted found₀ named
    exact files id eq
  have held := Registry.holds_of_registerAll registered
  have answers₀ := Table.answers_of_holds held m₀ path
  have answers := Table.answers_of_holds held m path
  rw [found₀] at answers₀
  rw [← Registration.keys_assignments 0 calls]
  cases answers₀ with
  | @found _ p captured₀ _ candidate₀ _ latest₀ first₀ =>
    obtain rfl : p = p₀ := Except.ok.inj (candidate₀.pattern.symm.trans read₀)
    cases found : r.freeze.resolve m path with
    | notFound =>
      rw [found] at answers
      cases answers with
      | notFound none => exact absurd candidate₀ (none _ _ _)
    | methodNotAllowed allowed =>
      rw [found] at answers
      cases answers with
      | methodNotAllowed _ _ refused => exact absurd (.inl any) (refused _ _ _ candidate₀)
    | found k target params =>
      refine ⟨k, target, params, rfl, ?_⟩
      rw [found] at answers
      cases answers with
      | @found _ p' captured' _ candidate accepts latest first =>
        by_cases own : k = k₀
        · subst own
          obtain rfl : p' = p := Except.ok.inj (candidate.pattern.symm.trans read₀)
          refine .inl ⟨Option.some.inj (latest.symm.trans latest₀), ?_⟩
          intro k' p' captured' candidate' named accepts' earlier
          rcases first k' p' captured' candidate' accepts' with rfl | later
          · exact named any
          · exact later.asymm earlier
        · have earlier := (first _ _ _ candidate₀ (.inl any)).resolve_left (Ne.symm own)
          have named : k.method ≠ anyMethod := fun isAny =>
            ((first₀ _ _ _ candidate (.inl isAny)).resolve_left own).asymm earlier
          exact .inr ⟨handler_of_found registered scripted found named, named, accepts, _, _,
            candidate, earlier⟩

/-- Files list what is not refused, unless a handler for another method comes before them. -/
theorem methods_exact_iff (registered : Registry.empty.registerAll calls = .ok r)
    (scripted : ∀ call ∈ calls, call.IsScripted)
    (found₀ : r.freeze.resolve m₀ request.path = .found k₀ target₀ params₀)
    (files : ∀ id, target₀ ≠ .handler id) :
    (∀ m, normalizeMethod m = m → (m ∈ methods ↔ ¬Refuses r.freeze request s m)) ↔
      ¬Overlooked (calls.map key) (segments request.path) (.found k₀ target₀ params₀) := by
  constructor
  · intro exact overlooked
    cases overlooked with
    | @route _ k _ _ _ _ _ _ candidate₀ candidate earlier named unlisted =>
      have normal := Registration.normal_of_mem_keys candidate.registered
      obtain ⟨k', target, params, found, ⟨-, none⟩ | ⟨⟨id, rfl⟩, -⟩⟩ :=
        resolve_files registered scripted found₀ files candidate₀.pattern k.method
      · exact none _ _ _ candidate named (.inr (.inl normal.symm)) earlier
      · exact unlisted ((exact k.method normal).mpr (not_refuses_handler found))
  · intro none m normal
    have held := Registry.holds_of_registerAll registered
    have answers := Table.answers_of_holds held m₀ request.path
    rw [found₀] at answers
    cases answers with
    | found candidate₀ =>
      rw [Registration.keys_assignments] at candidate₀
      obtain ⟨k, target, params, found, ⟨rfl, -⟩ | ⟨⟨id, rfl⟩, named, accepts, p, captured,
        candidate, earlier⟩⟩ := resolve_files registered scripted found₀ files candidate₀.pattern m
      · rw [refuses_files found files, not_not]
      · refine iff_of_true ?_ (not_refuses_handler found)
        have listed : k.method ∈ methods := by
          by_contra unlisted
          exact none (.route candidate₀ candidate earlier named unlisted)
        rw [normal] at accepts
        rcases accepts with any | rfl | ⟨rfl, -⟩
        · exact absurd any named
        · exact listed
        · decide

/-- **The methods of a refusal.** A refusal that no handler made lists the methods of the table or
those of files. Just the methods that it lists are not refused, unless it is files that refuse and
a handler for another method comes before them. -/
theorem listed_exact_iff (registered : Registry.empty.registerAll calls = .ok r)
    (scripted : ∀ call ∈ calls, call.IsScripted) {reply : Reply} {s' : Server}
    (answered : handle r.freeze request s = (.ok reply, s')) (own : reply.phase = none)
    (refused : reply.response.status = 405) :
    reply.response = notAllowed (listed r.freeze request) ∧
      ((∀ m, normalizeMethod m = m →
          (m ∈ listed r.freeze request ↔ ¬Refuses r.freeze request s m)) ↔
        ¬Overlooked (calls.map key) (segments request.path)
          (r.freeze.resolve request.method request.path)) := by
  cases resolved : r.freeze.resolve request.method request.path with
  | notFound =>
    rw [handle, resolved] at answered
    cases answered
    cases refused
  | methodNotAllowed allowed =>
    have lists : listed r.freeze request = allowed := by rw [listed, resolved]
    rw [handle, resolved] at answered
    cases answered
    rw [lists]
    refine ⟨rfl, iff_of_true (fun m normal => ?_) nofun⟩
    exact mem_allowed_iff_not_refuses registered scripted resolved normal
  | found k₀ target₀ params₀ =>
    have lists : listed r.freeze request = methods := by rw [listed, resolved]
    have here : Refuses r.freeze request s request.method := ⟨reply, s', answered, own, refused⟩
    have files (id : Nat) : target₀ ≠ .handler id := by
      rintro rfl
      exact not_refuses_handler resolved here
    have outside : request.method ∉ methods := (refuses_files resolved files).mp here
    obtain ⟨response, answered', answers⟩ := handle_files resolved files s
    rw [answered', answers.eq_notAllowed outside] at answered
    cases answered
    rw [lists]
    exact ⟨rfl, methods_exact_iff registered scripted resolved files⟩

/-- A handler for GET comes before the file, and what GET does is listed anyway. -/
theorem listed_exact_iff_get :
    let calls : List Registration := [.handler "GET" "/a", .route "*" "/a" (.file "a.txt")]
    let request := Request.ofTarget "delete" "/a"
    let s : Server := ⟨.ofEntry (.ofText "main.lua" "[]") .standard, .ofFiles ⟨[], []⟩ [] none⟩
    ∃ r, Registry.empty.registerAll calls = .ok r ∧ (∀ call ∈ calls, call.IsScripted) ∧
      handle r.freeze request s = (.ok ⟨notAllowed ["GET", "HEAD"], some "* /a", none⟩, s) ∧
      ¬Refuses r.freeze request s "HEAD" ∧ Refuses r.freeze request s "PUT" := by
  intro calls request s
  let r : Registry :=
    ⟨[⟨⟨"GET", "/a"⟩, .handler 0, [.exact "a"]⟩, ⟨⟨"*", "/a"⟩, .file "a.txt", [.exact "a"]⟩],
      [⟨"GET", "/a"⟩]⟩
  have registered : Registry.empty.registerAll calls = .ok r := by decide +kernel
  have scripted : ∀ call ∈ calls, call.IsScripted :=
    List.forall_mem_cons.mpr ⟨trivial, List.forall_mem_singleton.mpr
      ⟨.file, "/a", "a.txt", rfl, rfl, rfl⟩⟩
  have frozen : r.freeze = ⟨r.entries, r.handlerKeys⟩ :=
    congrArg (Table.mk · r.handlerKeys) (List.mergeSort_of_pairwise (by decide))
  have resolved : r.freeze.resolve request.method request.path =
      .found ⟨"*", "/a"⟩ (.file "a.txt") [] := by
    rw [frozen]
    decide +kernel
  have answered : handle r.freeze request s =
      (.ok ⟨notAllowed ["GET", "HEAD"], some "* /a", none⟩, s) := by
    have outside : request.method ∉ methods := by decide +kernel
    obtain ⟨response, answered, answers⟩ := handle_files resolved nofun s
    rw [answered, answers.eq_notAllowed outside]
    rfl
  have lists : listed r.freeze request = ["GET", "HEAD"] := by
    rw [listed, resolved]
    rfl
  obtain ⟨-, exact⟩ := listed_exact_iff registered scripted answered rfl rfl
  rw [resolved, lists] at exact
  have none : ¬Overlooked (calls.map key) (segments request.path)
      (.found ⟨"*", "/a"⟩ (.file "a.txt") []) := by
    rintro ⟨-, ⟨registered, -, -⟩, -, named, unlisted⟩
    have keys : calls.map key = [⟨"GET", "/a"⟩, ⟨"*", "/a"⟩] := by decide +kernel
    rw [keys, List.mem_cons, List.mem_singleton] at registered
    rcases registered with rfl | rfl
    · exact unlisted (by decide)
    · exact named rfl
  refine ⟨r, registered, scripted, answered, ?_, ?_⟩
  · exact (exact.mpr none "HEAD" (by decide +kernel)).mp (by decide)
  · exact not_not.mp ((exact.mpr none "PUT" (by decide +kernel)).not.mp (by decide))

/-- A handler for POST comes before the file, which does not list it. -/
theorem listed_misses_post :
    let calls : List Registration := [.handler "POST" "/a", .route "*" "/a" (.file "a.txt")]
    let request := Request.ofTarget "DELETE" "/a"
    ∃ r, Registry.empty.registerAll calls = .ok r ∧
      ∀ s, handle r.freeze request s =
          (.ok ⟨notAllowed ["GET", "HEAD"], some "* /a", none⟩, s) ∧
        ¬∀ m, normalizeMethod m = m →
          (m ∈ ["GET", "HEAD"] ↔ ¬Refuses r.freeze request s m) := by
  intro calls request
  let r : Registry :=
    ⟨[⟨⟨"POST", "/a"⟩, .handler 0, [.exact "a"]⟩, ⟨⟨"*", "/a"⟩, .file "a.txt", [.exact "a"]⟩],
      [⟨"POST", "/a"⟩]⟩
  have frozen : r.freeze = ⟨r.entries, r.handlerKeys⟩ :=
    congrArg (Table.mk · r.handlerKeys) (List.mergeSort_of_pairwise (by decide))
  refine ⟨r, by decide +kernel, fun s => ⟨?_, fun exact => ?_⟩⟩
  · have resolved : r.freeze.resolve request.method request.path =
        .found ⟨"*", "/a"⟩ (.file "a.txt") [] := by
      rw [frozen]
      decide +kernel
    have outside : request.method ∉ methods := by decide +kernel
    obtain ⟨response, answered, answers⟩ := handle_files resolved nofun s
    rw [answered, answers.eq_notAllowed outside]
    rfl
  · have posted : r.freeze.resolve "POST" request.path = .found ⟨"POST", "/a"⟩ (.handler 0) [] := by
      rw [frozen]
      decide +kernel
    have listed := (exact "POST" (by decide +kernel)).mpr (not_refuses_handler posted)
    exact absurd listed (by decide)

end Server

end ScriptServer
