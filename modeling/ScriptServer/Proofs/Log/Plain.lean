import ScriptServer.Http.Reader
import ScriptServer.Log.Access
import ScriptServer.Proofs.Http.Escapes
import ScriptServer.Proofs.Http.Framing
import ScriptServer.Proofs.Log.RequestId
import ScriptServer.Proofs.Text.Blank

/-!
# Plain records and line breaks

A plain record is printed as it is. The method and the target of a request are words, and what
identifies it has harmless characters only, so none of them breaks a line. But the path is printed
after its escapes have been decoded, and so a client can put any character into it: a line feed
where the target has `%0A`. The record of a request is one line just if the decoded path has no line
break (`entry_isOneLine_iff`).
-/

namespace ScriptServer

/-! ## What a connection asks for -/

namespace Http

variable {stream : Stream} {request : Request} {head : Bytes} {method target : String}

theorem readRequest_of_toOption (h : (readRequest stream).toOption = some request) :
    readRequest stream = .ok request := by
  cases read : readRequest stream with
  | error e => rw [read] at h; cases h
  | ok request => rw [read] at h; cases h; rfl

/-- The first line of a head begins with these two words. -/
def Names (head : Bytes) (method target : String) : Prop :=
  ∃ line lines words, Request.lines (Utf8.toTextLossy head).toList = line :: lines ∧
    Text.words line = method.toList :: target.toList :: words

/-- The head that a connection begins with names a method and a target. -/
def Asks (stream : Stream) (method target : String) : Prop :=
  ∃ head rest later, readHead (stream.weight + 1) [] stream = .ok (head, rest, later) ∧
    Names head method target

theorem foldl_addLine_keeps (r : Request) (lines : List (List Char)) :
    (lines.foldl Request.addLine r).method = r.method ∧
      (lines.foldl Request.addLine r).path = r.path := by
  induction lines generalizing r with
  | nil => exact ⟨rfl, rfl⟩
  | cons line lines ih =>
    have kept : (r.addLine line).method = r.method ∧ (r.addLine line).path = r.path := by
      unfold Request.addLine
      split <;> exact ⟨rfl, rfl⟩
    rw [List.foldl_cons, (ih _).1, (ih _).2]
    exact kept

theorem names_of_ofHead (h : Request.ofHead head = .ok request) :
    ∃ method target, Names head method target ∧ request.method = Text.toUpper method ∧
      request.path = percentDecode (rawPath target) := by
  unfold Request.ofHead at h
  split at h
  · cases h
  next line rest lines =>
  split at h
  · next method target more words =>
    cases h
    obtain ⟨sameMethod, samePath⟩ := foldl_addLine_keeps
      (Request.ofTarget (String.ofList method) (String.ofList target)) rest
    refine ⟨String.ofList method, String.ofList target, ⟨line, rest, more, lines, ?_⟩, ?_, ?_⟩
    · rw [words, String.toList_ofList, String.toList_ofList]
    · rw [sameMethod, ofTarget_method]
    · rw [samePath, ofTarget_path]
  · cases h

theorem asks_of_readRequest (read : readRequest stream = .ok request) :
    ∃ method target, Asks stream method target ∧ request.method = Text.toUpper method ∧
      request.path = percentDecode (rawPath target) := by
  unfold readRequest at read
  split at read
  · cases read
  next head rest later found =>
  split at read
  · cases read
  next described describes =>
  split at read
  · cases read
  split at read
  · cases read
  cases read
  obtain ⟨method, target, names, same⟩ := names_of_ofHead describes
  exact ⟨method, target, ⟨head, rest, later, found, names⟩, same⟩

theorem Asks.solid (asks : Asks stream method target) :
    (∀ c ∈ method.toList, Text.isBlank c = false) ∧
      ∀ c ∈ target.toList, Text.isBlank c = false := by
  obtain ⟨head, rest, later, -, line, lines, words, -, front⟩ := asks
  have mem : ∀ word ∈ [method.toList, target.toList], word ∈ Text.words line := by
    rw [front]
    exact List.forall_mem_cons.mpr ⟨List.mem_cons_self, List.forall_mem_singleton.mpr
      (List.mem_cons_of_mem _ List.mem_cons_self)⟩
  exact ⟨Text.solid_of_mem_words (mem _ List.mem_cons_self),
    Text.solid_of_mem_words (mem _ (List.mem_cons_of_mem _ List.mem_cons_self))⟩

/-- White space comes into the path by escapes only. -/
theorem Asks.mem_path_iff (asks : Asks stream method target) {c : Char} (ascii : c.toNat < 0x80)
    (blank : Text.isBlank c = true) : c ∈ (percentDecode (rawPath target)).toList ↔
      HasEscape (rawPath target).toList c.toNat := by
  have noDigit : Text.hexValue? c = none := by
    refine Option.not_isSome_iff_eq_none.mp fun digit => ?_
    have visible := Text.isSome_hexValue?.mp digit
    rw [Text.isBlank_of_visible (by omega) (by omega)] at blank
    cases blank
  have noSign : c ≠ '%' := by
    rintro rfl
    exact absurd blank (by decide)
  have absent : c ∉ (rawPath target).toList := by
    rw [rawPath, String.toList_ofList]
    exact fun mem =>
      Text.not_mem_of_solid asks.solid.2 blank ((List.takeWhile_prefix _).subset mem)
  rw [mem_percentDecode ascii noDigit noSign, or_iff_right absent]

end Http

namespace Log.Access

open Text (isBlank)

/-! ## Line breaks -/

/-- The characters that break a line: line feed, vertical tab, form feed, carriage return, next
line, and the separators of lines and of paragraphs. -/
def isBreak (c : Char) : Bool :=
  (0x0A ≤ c.toNat && c.toNat ≤ 0x0D) || c.toNat == 0x85 || c.toNat == 0x2028 || c.toNat == 0x2029

/-- A text is one line: it ends with a line feed, and nothing breaks the line before. -/
def IsOneLine (text : String) : Prop :=
  ∃ line, text = line ++ "\n" ∧ ∀ c ∈ line.toList, isBreak c = false

def ofRequest (request : Http.Request) (next : UInt64) (route : Option String)
    (status micros responseBytes : Nat) : Access where
  requestId := (RequestId.resolve request.headers next).1
  method := request.method
  path := request.path
  route
  status
  micros
  responseBytes

variable {c : Char} {r : Access} {env : Environment} {filter : Option Level} {text : String}

theorem isBlank_of_isBreak (h : isBreak c = true) : isBlank c = true := by
  simp only [isBreak, isBlank, Bool.or_eq_true, Bool.and_eq_true, decide_eq_true_eq,
    beq_iff_eq] at h ⊢
  omega

theorem ne_space_of_isBreak (h : isBreak c = true) : c ≠ ' ' := by
  rintro rfl
  exact absurd h (by decide)

theorem isOneLine_iff : IsOneLine (text ++ "\n") ↔ ∀ c ∈ text.toList, isBreak c = false := by
  refine ⟨?_, fun unbroken => ⟨text, rfl, unbroken⟩⟩
  rintro ⟨line, eq, unbroken⟩
  have same := congrArg String.toList eq
  rw [String.toList_append, String.toList_append, List.append_cancel_right_eq] at same
  rwa [same]

/-! ## The text of a record -/

theorem isBlank_digit (h : Text.isDigit c = true) : isBlank c = false := by
  have digit := Text.isDigit_iff.mp h
  exact Text.isBlank_of_visible (by omega) (by omega)

theorem isBlank_identifying (h : RequestId.isIdentifying c = true) : isBlank c = false := by
  have visible := RequestId.visible_of_isIdentifying h
  exact Text.isBlank_of_visible visible.1 (by omega)

/-- Of white space a record has, but for spaces, what its path has. -/
theorem count_plain (method : ∀ c ∈ r.method.toList, isBlank c = false)
    (id : ∀ c ∈ r.requestId.toList, isBlank c = false) (blank : isBlank c = true) (ne : c ≠ ' ') :
    r.plain.toList.count c = r.path.toList.count c := by
  have solid {cs : List Char} (solid : ∀ c ∈ cs, isBlank c = false) : cs.count c = 0 :=
    List.count_eq_zero_of_not_mem (Text.not_mem_of_solid solid blank)
  have number (n : Nat) : (Text.number n).toList.count c = 0 := by
    refine solid fun d mem => isBlank_digit ?_
    rw [Text.number, String.toList_ofList] at mem
    exact (Text.isNumeral_decimal n).2 d mem
  have spaced (s : String) (spaced : s.toList.all (fun d => d == ' ' || !isBlank d) = true) :
      s.toList.count c = 0 := by
    refine List.count_eq_zero_of_not_mem fun mem => ?_
    have char := List.all_eq_true.mp spaced c mem
    simp [ne, blank] at char
  simp only [plain, String.toList_append, List.count_append, solid method, solid id, number,
    spaced " " (by decide), spaced " -> " (by decide), spaced " (" (by decide),
    spaced "ms, " (by decide), spaced ")" (by decide), Nat.zero_add, Nat.add_zero]

theorem entry_eq_plain (plainly : wantsStructured env = false)
    (shown : Level.info.passes filter = true) :
    r.entry env filter = "[info] " ++ r.plain ++ "\n" := by
  rw [entry, plainly, line, if_pos shown]
  rfl

section

variable {stream : Http.Stream} {request : Http.Request}
  (read : Http.readRequest stream = .ok request)
include read

theorem count_ofRequest (next : UInt64) (route : Option String) (status micros responseBytes : Nat)
    (break' : isBreak c = true) :
    (ofRequest request next route status micros responseBytes).plain.toList.count c =
      request.path.toList.count c := by
  obtain ⟨method, target, asks, same, -⟩ := Http.asks_of_readRequest read
  refine count_plain (fun d mem => ?_) (fun d mem => ?_) (isBlank_of_isBreak break')
    (ne_space_of_isBreak break')
  · rw [ofRequest, same, Text.toUpper, String.toList_ofList] at mem
    obtain ⟨e, there, rfl⟩ := List.mem_map.mp mem
    rw [Text.isBlank_upper]
    exact asks.solid.1 e there
  · exact isBlank_identifying (RequestId.isIdentifying_of_resolve mem)

/-- **Plain records.** The record of a request that was read is one line just if its path has no
line break, and it has one line more than there are line feeds in the path. The breaks of ASCII in
the path are those that an escape in the target stands for. -/
theorem entry_isOneLine_iff (plainly : wantsStructured env = false)
    (shown : Level.info.passes filter = true) (next : UInt64) (route : Option String)
    (status micros responseBytes : Nat) :
    let text := (ofRequest request next route status micros responseBytes).entry env filter
    (IsOneLine text ↔ ∀ c ∈ request.path.toList, isBreak c = false) ∧
      text.toList.count '\n' = request.path.toList.count '\n' + 1 ∧
      ∃ method target, Http.Asks stream method target ∧
        ∀ c, c.toNat < 0x80 → isBreak c = true →
          (c ∈ request.path.toList ↔ Http.HasEscape (Http.rawPath target).toList c.toNat) := by
  intro text
  obtain ⟨method, target, asks, -, path⟩ := Http.asks_of_readRequest read
  have count {c : Char} := @count_ofRequest c _ _ read next route status micros responseBytes
  have written := @entry_eq_plain (ofRequest request next route status micros responseBytes) _ _
    plainly shown
  refine ⟨?_, ?_, method, target, asks, fun c ascii break' => ?_⟩
  · have front : ∀ c ∈ "[info] ".toList, isBreak c = false := by simp [isBreak]
    simp only [text, written, isOneLine_iff, String.toList_append, List.forall_mem_append,
      and_iff_right front]
    refine forall_congr' fun c => ?_
    by_cases break' : isBreak c = true
    · rw [← List.count_pos_iff, count break', List.count_pos_iff]
    · simp only [eq_false_of_ne_true break', implies_true]
  · have front : "[info] ".toList.count '\n' = 0 := by decide
    have back : "\n".toList.count '\n' = 1 := by decide
    simp only [text, written, String.toList_append, List.count_append]
    rw [count (by decide), front, back, Nat.zero_add]
  · rw [path]
    exact asks.mem_path_iff ascii (isBlank_of_isBreak break')

end

/-- An escaped space in the path, and an identifier of the client. -/
theorem entry_isOneLine_iff_space :
    let stream : Http.Stream :=
      [.data (Utf8.ofText "GET /a%20b HTTP/1.1\r\nX-Request-Id: a-1\r\n\r\n")]
    let request : Http.Request := ⟨"GET", "/a b", none, [("x-request-id", "a-1")], []⟩
    Http.readRequest stream = .ok request ∧ wantsStructured [] = false ∧
      Level.info.passes (some .info) = true ∧
      IsOneLine ((ofRequest request 1 none 404 3999 13).entry [] (some .info)) := by
  intro stream request
  have read : Http.readRequest stream = .ok request :=
    Http.readRequest_of_toOption (by decide +kernel)
  have unbroken : ∀ c ∈ request.path.toList, isBreak c = false := by simp [request, isBreak]
  have plainly : wantsStructured [] = false := rfl
  have shown : Level.info.passes (some .info) = true := rfl
  exact ⟨read, plainly, shown,
    (entry_isOneLine_iff read plainly shown 1 none 404 3999 13).1.mpr unbroken⟩

/-- A client writes the beginning of a line of its own into the log. -/
theorem entry_two_lines :
    let stream : Http.Stream :=
      [.data (Utf8.ofText "GET /a%0A[info]%20forged HTTP/1.1\r\n\r\n")]
    let request : Http.Request := ⟨"GET", "/a\n[info] forged", none, [], []⟩
    Http.readRequest stream = .ok request ∧ wantsStructured [] = false ∧
      Level.info.passes (some .info) = true ∧
      (ofRequest request 1 none 404 3999 13).entry [] (some .info) =
        "[info] GET /a\n[info] forged -> 404 (3ms, req-0000000000000001)\n" ∧
      ¬ IsOneLine ((ofRequest request 1 none 404 3999 13).entry [] (some .info)) := by
  intro stream request
  have read : Http.readRequest stream = .ok request :=
    Http.readRequest_of_toOption (by decide +kernel)
  have written : (ofRequest request 1 none 404 3999 13).entry [] (some .info) =
      "[info] GET /a\n[info] forged -> 404 (3ms, req-0000000000000001)" ++ "\n" := by
    decide +kernel
  refine ⟨read, rfl, rfl, written, fun oneLine => ?_⟩
  rw [written, isOneLine_iff] at oneLine
  exact absurd (oneLine '\n' (by decide)) (by decide)

end Log.Access

end ScriptServer
