import ScriptServer.Proofs.Host.Below
import ScriptServer.Proofs.Http.Percent
import ScriptServer.Proofs.Route.Precedence
import ScriptServer.Proofs.Route.Rest
import ScriptServer.Server.Dispatch

/-!
# Serving a directory

A request that is answered from a directory names a path below it, in the segments behind those of
the route's prefix. Names that lead up are refused, so whatever is answered stands below the
directory. And each file there is the answer to every encoding of its path, unless another route
takes the request first.
-/

namespace ScriptServer.Server

open Http (Encodes Request Response percentDecode rawPath)
open ScriptServer.Path (IsPart)
open Route

namespace Static

def fileResponse (path : String) (content : Bytes) : Response :=
  ⟨200, [("Content-Type", contentType path)], content⟩

/-- The names that are asked for below a directory: its index file if there are none. -/
def asked (names : List String) : List String := if names = [] then [indexFile] else names

def pathBelow (dir : String) (names : List String) : String := (asked names).foldl Path.join dir

/-- The response to a request for a path. It depends on what stands there and, if that is a
directory, on its index file, and on nothing else. -/
def pathAnswer (fs : Files) (path : String) : Response :=
  match fs.at? path with
  | .ok (.file content) => fileResponse path content
  | .ok .directory =>
    match fs.at? (Path.join path indexFile) with
    | .ok (.file content) => fileResponse (Path.join path indexFile) content
    | _ => notFound
  | .error _ => notFound

variable {fs : Files} {dir : String} {names : List String}

theorem readFile_eq (fs : Files) (path : String) :
    readFile fs path =
      match fs.at? path with
      | .ok (.file content) => fileResponse path content
      | _ => notFound := rfl

theorem readFile_index (fs : Files) (path : String) :
    readFile fs (if fs.isDirectory path then Path.join path indexFile else path) =
      pathAnswer fs path := by
  unfold Files.isDirectory pathAnswer
  cases found : fs.at? path with
  | error e => simp [readFile_eq, found]
  | ok node =>
    cases node with
    | file content => simp [readFile_eq, found]
    | directory => rfl

theorem asked_ne_nil : asked names ≠ [] := by
  unfold asked
  split
  · exact List.cons_ne_nil _ _
  · assumption

theorem isPart_asked (h : ∀ name ∈ names, IsPart name) : ∀ name ∈ asked names, IsPart name := by
  unfold asked
  split
  · decide
  · exact h

theorem up_mem_asked : ".." ∈ asked names ↔ ".." ∈ names := by
  unfold asked
  split
  · next none => simp [none, indexFile]
  · rfl

theorem leavesDirectory_asked (h : ∀ name ∈ names, IsPart name) :
    leavesDirectory ("/".intercalate (asked names)) = decide (".." ∈ names) := by
  rw [leavesDirectory, Path.intercalate_relative asked_ne_nil (isPart_asked h),
    Path.parts_intercalate asked_ne_nil (isPart_asked h), Bool.false_or, ← List.elem_eq_contains,
    List.elem_eq_mem]
  exact decide_eq_decide.mpr up_mem_asked

/-- Names below a directory are refused or answered by their path. -/
theorem serveDirectory_eq {request : Request} (reads : request.method ∈ methods)
    (h : ∀ name ∈ names, IsPart name) :
    serveDirectory fs request dir ("/".intercalate names) =
      if ".." ∈ names then notFound else pathAnswer fs (pathBelow dir names) := by
  have rest :
      (if ("/".intercalate names).isEmpty || ("/".intercalate names).toList.getLast? = some '/' then
        "/".intercalate names ++ indexFile
      else "/".intercalate names) = "/".intercalate (asked names) := by
    by_cases none : names = []
    · subst none
      rfl
    · have kept : ¬("/".intercalate names).isEmpty ∧
          ("/".intercalate names).toList.getLast? ≠ some '/' :=
        ⟨fun empty => Path.intercalate_ne_empty none h (String.isEmpty_iff.mp empty),
          Path.intercalate_last none h⟩
      rw [if_neg (by simpa only [Bool.or_eq_true, decide_eq_true_eq, not_or] using kept), asked,
        if_neg none]
  rw [serveDirectory, if_neg (by simpa using reads)]
  simp only [rest, leavesDirectory_asked h, readFile_index, pathBelow,
    Path.foldl_join asked_ne_nil (isPart_asked h), decide_eq_true_eq]

/-- The content is that of a file below the directory, at the names or in the directory there. -/
def StandsBelow (fs : Files) (dir : String) (names : List String) (content : Bytes) : Prop :=
  ∃ base below, fs.placeOf dir = .ok base ∧ ".." ∉ below ∧
    fs.node? (base ++ below) = some (.file content) ∧
    (below = (asked names).filter (· ≠ ".") ∨
      below = (asked names).filter (· ≠ ".") ++ [indexFile])

/-- The response to a request for names below a directory is the right one. -/
structure Answered (fs : Files) (dir : String) (names : List String) (response : Response) :
    Prop where
  /-- Names that lead up are refused, whatever the files are. -/
  refused : ".." ∈ names → response = notFound
  /-- Otherwise one path is looked at, and the index file in it. -/
  exact : ".." ∉ names → response = pathAnswer fs (pathBelow dir names)
  inside : response ≠ notFound → StandsBelow fs dir names response.body

theorem standsBelow_of_at? (h : ∀ name ∈ names, IsPart name) (down : ".." ∉ names)
    {content : Bytes} (stands : fs.at? (pathBelow dir names) = .ok (.file content)) :
    StandsBelow fs dir names content := by
  have downAsked : ".." ∉ asked names := fun up => down (up_mem_asked.mp up)
  obtain ⟨base, root, node⟩ := Files.node_of_at? asked_ne_nil (isPart_asked h) downAsked stands
  exact ⟨base, _, root, fun up => downAsked (List.mem_of_mem_filter up), node, .inl rfl⟩

theorem standsBelow_of_index (h : ∀ name ∈ names, IsPart name) (down : ".." ∉ names)
    {content : Bytes}
    (stands : fs.at? (Path.join (pathBelow dir names) indexFile) = .ok (.file content)) :
    StandsBelow fs dir names content := by
  have parts : ∀ name ∈ asked names ++ [indexFile], IsPart name := by
    intro name mem
    rcases List.mem_append.mp mem with mem | mem
    · exact isPart_asked h name mem
    · exact List.mem_singleton.mp mem ▸ by decide
  have downIndex : ".." ∉ asked names ++ [indexFile] := by
    intro up
    rcases List.mem_append.mp up with up | up
    · exact down (up_mem_asked.mp up)
    · exact absurd (List.mem_singleton.mp up) (by decide)
  have whole : Path.join (pathBelow dir names) indexFile =
      (asked names ++ [indexFile]).foldl Path.join dir := by
    rw [List.foldl_append]
    rfl
  have filtered : (asked names ++ [indexFile]).filter (· ≠ ".") =
      (asked names).filter (· ≠ ".") ++ [indexFile] := by
    rw [List.filter_append]
    rfl
  rw [whole] at stands
  obtain ⟨base, root, node⟩ := Files.node_of_at? (by simp) parts downIndex stands
  exact ⟨base, _, root, fun up => downIndex (List.mem_of_mem_filter up), node, .inr filtered⟩

theorem standsBelow_of_pathAnswer (h : ∀ name ∈ names, IsPart name) (down : ".." ∉ names)
    (found : pathAnswer fs (pathBelow dir names) ≠ notFound) :
    StandsBelow fs dir names (pathAnswer fs (pathBelow dir names)).body := by
  unfold pathAnswer at found ⊢
  split at found
  · next stands => exact standsBelow_of_at? h down stands
  · split at found
    · next stands => exact standsBelow_of_index h down stands
    · exact absurd rfl found
  · exact absurd rfl found

theorem answered (h : ∀ name ∈ names, IsPart name) :
    Answered fs dir names
      (if ".." ∈ names then notFound else pathAnswer fs (pathBelow dir names)) where
  refused up := if_pos up
  exact down := if_neg down
  inside found := by
    by_cases up : ".." ∈ names
    · exact absurd (if_pos up) found
    · rw [if_neg up] at found ⊢
      exact standsBelow_of_pathAnswer h up found

end Static

open Static

def directoryKey (start : String) : Key := .of anyMethod (Script.staticPattern .directory start)

/-- The names of a path that lie below a prefix. -/
def namesBelow (start path : String) : List String := (segments path).drop (segments start).length

theorem isPart_namesBelow (start path : String) : ∀ name ∈ namesBelow start path, IsPart name :=
  fun _ mem => not_mem_of_mem_segments (List.mem_of_mem_drop mem)

variable {request : Request} {start dir : String} {params : Dictionary String}

theorem directoryKey_pattern (start : String) :
    (directoryKey start).pattern = Script.staticPattern .directory start := rfl

/-- A request that is resolved to a directory is answered by the names below the prefix. -/
theorem handle_directory {calls : List Registration} {r : Registry}
    (registered : Registry.empty.registerAll calls = .ok r)
    (noStar : start.toList.getLast? ≠ some '*') (reads : request.method ∈ methods)
    (found : r.freeze.resolve request.method request.path =
      .found (directoryKey start) (.directory dir) params) (s : Server) :
    handle r.freeze request s =
      (.ok ⟨if ".." ∈ namesBelow start request.path then notFound
        else pathAnswer s.world.files (pathBelow dir (namesBelow start request.path)),
        some (directoryKey start).text, none⟩, s) := by
  have rest : params.get? restName = some ("/".intercalate (namesBelow start request.path)) := by
    have held := Registry.holds_of_registerAll registered
    have answers := Table.answers_of_holds held request.method request.path
    rw [found] at answers
    cases answers with
    | found candidate =>
      have read := candidate.pattern
      rw [directoryKey_pattern] at read
      exact rest_of_captures noStar read candidate.captures
  unfold handle
  rw [found]
  simp only [rest, Option.getD_some, serveDirectory_eq reads (isPart_namesBelow start request.path)]

/-- A path that the route to a directory matches is found there or at a route that comes before. -/
theorem resolve_directory {calls : List Registration} {r : Registry}
    (registered : Registry.empty.registerAll calls = .ok r)
    (latest : (Registration.assignments 0 calls).reverse.lookup (directoryKey start) =
      some (.directory dir))
    {path : String} {p : Pattern} {captured : List (String × String)}
    (candidate : Candidate (calls.map Registration.key) (segments path) (directoryKey start) p
      captured) (method : String) :
    (∃ params, r.freeze.resolve method path = .found (directoryKey start) (.directory dir) params) ∨
      ∃ k p' captured', k ≠ directoryKey start ∧
        Candidate (calls.map Registration.key) (segments path) k p' captured' ∧
        k.Accepts (normalizeMethod method) ∧
        Precedes (calls.map Registration.key) k p' (directoryKey start) p := by
  have accepts : (directoryKey start).Accepts (normalizeMethod method) :=
    .inl (by decide +kernel : normalizeMethod anyMethod = anyMethod)
  have held := Registry.holds_of_registerAll registered
  have answers := Table.answers_of_holds held method path
  rw [← Registration.keys_assignments 0 calls] at candidate ⊢
  generalize r.freeze.resolve method path = resolution at answers
  cases answers with
  | notFound none => exact absurd candidate (none _ p captured)
  | methodNotAllowed allowed _ refused => exact absurd accepts (refused _ p captured candidate)
  | @found k p' captured' target candidate' accepts' latest' first =>
    by_cases own : k = directoryKey start
    · subst own
      obtain rfl : target = .directory dir := Option.some.inj (latest'.symm.trans latest)
      exact .inl ⟨_, rfl⟩
    · exact .inr ⟨k, p', captured', own, candidate', accepts',
        (first _ p captured candidate accepts).resolve_left (Ne.symm own)⟩

/-- Below a directory a file is answered by its names. -/
theorem pathAnswer_of_node {fs : Files} (wf : fs.WellFormed) {names base : List String}
    {content : Bytes} (root : fs.placeOf dir = .ok base)
    (stands : fs.node? (base ++ names) = some (.file content)) :
    ".." ∉ names ∧
      pathAnswer fs (pathBelow dir names) = fileResponse (pathBelow dir names) content := by
  cases names with
  | nil =>
    have isDirectory := (Files.placeOf_eq_ok.mp root).2
    rw [List.append_nil, isDirectory] at stands
    cases stands
  | cons name names =>
    refine ⟨fun up => ((wf.node stands).1 _ up).2.2 rfl, ?_⟩
    have found := wf.at? root (List.cons_ne_nil _ _) stands
    rw [pathAnswer, pathBelow, asked, if_neg (List.cons_ne_nil _ _), found]

/-- **Confinement and reach.** Of all that is asked for below the prefix of a directory, what leads
up is refused and the rest is answered by one path below the directory. Every file there is the
answer to each encoding of its path, unless another route precedes that of the directory. -/
theorem serveDirectory_exact {calls : List Registration} {r : Registry}
    (registered : Registry.empty.registerAll calls = .ok r)
    (noStar : start.toList.getLast? ≠ some '*')
    (latest : (Registration.assignments 0 calls).reverse.lookup (directoryKey start) =
      some (.directory dir))
    {method : String} (reads : Text.toUpper method ∈ methods) (headers : Dictionary String)
    (body : Bytes) (s : Server) :
    (∀ target params,
      r.freeze.resolve (Text.toUpper method) (percentDecode (rawPath target)) =
          .found (directoryKey start) (.directory dir) params →
        ∃ response,
          handle r.freeze { Request.ofTarget method target with headers, body } s =
            (.ok ⟨response, some (directoryKey start).text, none⟩, s) ∧
          Answered s.world.files dir (namesBelow start (percentDecode (rawPath target))) response) ∧
    ∀ target path, Encodes (rawPath target).toList (Utf8.ofText path) →
      ∀ p captured,
        Candidate (calls.map Registration.key) (segments path) (directoryKey start) p captured →
      ∀ base content, s.world.files.WellFormed → s.world.files.placeOf dir = .ok base →
        s.world.files.node? (base ++ namesBelow start path) = some (.file content) →
        handle r.freeze { Request.ofTarget method target with headers, body } s =
            (.ok ⟨fileResponse (pathBelow dir (namesBelow start path)) content,
              some (directoryKey start).text, none⟩, s) ∨
          ∃ k p' captured', k ≠ directoryKey start ∧
            Candidate (calls.map Registration.key) (segments path) k p' captured' ∧
            k.Accepts (normalizeMethod (Text.toUpper method)) ∧
            Precedes (calls.map Registration.key) k p' (directoryKey start) p := by
  have handled (target : String) {params : Dictionary String}
      (found : r.freeze.resolve (Text.toUpper method) (percentDecode (rawPath target)) =
        .found (directoryKey start) (.directory dir) params) :
      handle r.freeze { Request.ofTarget method target with headers, body } s =
        (.ok ⟨if ".." ∈ namesBelow start (percentDecode (rawPath target)) then notFound
          else pathAnswer s.world.files
            (pathBelow dir (namesBelow start (percentDecode (rawPath target)))),
          some (directoryKey start).text, none⟩, s) := by
    rw [← Http.ofTarget_path method target, ← Http.ofTarget_method method target] at found
    rw [← Http.ofTarget_method method target] at reads
    rw [← Http.ofTarget_path method target]
    exact handle_directory (r := r) registered noStar reads found s
  refine ⟨fun target params found => ⟨_, handled target found, answered (isPart_namesBelow _ _)⟩,
    fun target path encodes p captured candidate base content wf root stands => ?_⟩
  refine (resolve_directory registered latest candidate _).imp_left fun ⟨params, found⟩ => ?_
  obtain ⟨down, isFile⟩ := pathAnswer_of_node wf root stands
  rw [← Http.percentDecode_of_encodes encodes] at found down isFile ⊢
  rw [handled target found, if_neg down, isFile]

/-- A file whose name has a blank is served, and a way up that is spelt with escapes is not. -/
theorem serveDirectory_exact_blank :
    let files : Files := ⟨[(["www", "a b"], .file [104, 105]), (["www"], .directory)], []⟩
    let s : Server := ⟨.ofEntry (.ofText "main.lua" "[]") .standard, .ofFiles files [] none⟩
    let key : Key := directoryKey "/"
    ∃ r, Registry.empty.registerAll [.route "*" "/*" (.directory "www")] = .ok r ∧
      handle r.freeze { Request.ofTarget "get" "/a%20b?" with headers := [], body := [] } s =
        (.ok ⟨fileResponse "www/a b" [104, 105], some key.text, none⟩, s) ∧
      handle r.freeze { Request.ofTarget "get" "/%2e." with headers := [], body := [] } s =
        (.ok ⟨notFound, some key.text, none⟩, s) := by
  intro files s key
  let r : Registry := ⟨[⟨⟨"*", "/*"⟩, .directory "www", [.rest]⟩], []⟩
  have registered : Registry.empty.registerAll [.route "*" "/*" (.directory "www")] = .ok r := by
    decide +kernel
  have latest :
      (Registration.assignments 0 [.route "*" "/*" (.directory "www")]).reverse.lookup key =
        some (.directory "www") := by decide +kernel
  obtain ⟨confined, reached⟩ := serveDirectory_exact registered
    (by decide : "/".toList.getLast? ≠ some '*') latest
    (by decide : Text.toUpper "get" ∈ methods) [] [] s
  refine ⟨r, registered, ?_, ?_⟩
  · have raw : (rawPath "/a%20b?").toList = ['/', 'a', '%', '2', '0', 'b'] := by decide +kernel
    have bytes : Utf8.ofText "/a b" = [47, 97, 32, 98] := by decide +kernel
    have encodes : Encodes (rawPath "/a%20b?").toList (Utf8.ofText "/a b") := by
      rw [raw, bytes]
      exact .plain (by decide) (by decide) <| .plain (by decide) (by decide) <|
        .escape (h := 2) (l := 0) rfl rfl <| .plain (by decide) (by decide) .nil
    have candidate : Candidate [key] (segments "/a b") key [.rest] [("*", "a b")] :=
      ⟨List.mem_singleton_self _, by decide +kernel, .rest ["a b"]⟩
    have wf : files.WellFormed := ⟨by decide, by decide⟩
    have root : files.placeOf "www" = .ok ["www"] := by decide +kernel
    have path : pathBelow "www" (namesBelow "/" "/a b") = "www/a b" := by decide +kernel
    rcases reached "/a%20b?" "/a b" encodes [.rest] _ candidate ["www"] [104, 105] wf root
      (by decide +kernel) with served | ⟨k, p, captured, other, among, -⟩
    · rw [path] at served
      exact served
    · exact absurd (List.mem_singleton.mp among.registered) other
  · have raw : (rawPath "/%2e.").toList = ['/', '%', '2', 'e', '.'] := by decide +kernel
    have bytes : Utf8.ofText "/.." = [47, 46, 46] := by decide +kernel
    have decoded : percentDecode (rawPath "/%2e.") = "/.." := by
      refine Http.percentDecode_of_encodes ?_
      rw [raw, bytes]
      exact .plain (by decide) (by decide) <| .escape (h := 2) (l := 14) rfl rfl <|
        .plain (by decide) (by decide) .nil
    have found : r.freeze.resolve (Text.toUpper "get") (percentDecode (rawPath "/%2e.")) =
        .found key (.directory "www") [("*", "..")] := by
      rw [decoded, Registry.freeze, List.mergeSort_singleton]
      decide +kernel
    obtain ⟨response, answer, answered⟩ := confined "/%2e." [("*", "..")] found
    have up : ".." ∈ namesBelow "/" (percentDecode (rawPath "/%2e.")) := by
      rw [decoded]
      decide +kernel
    rw [answer, answered.refused up]

end ScriptServer.Server
