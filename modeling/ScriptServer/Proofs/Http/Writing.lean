import Mathlib.Data.List.Nodup
import ScriptServer.Proofs.Dictionary
import ScriptServer.Proofs.Http.Framing
import ScriptServer.Proofs.Http.Percent
import ScriptServer.Proofs.Http.Pieces
import ScriptServer.Proofs.Text.Blank

/-!
# Requests as they are written

A client writes a request line, header lines, one of them about the length of the body, an empty
line and the body. What it wrote is read back, whatever stands behind it and however the bytes are
cut. The path may be spelled with escapes; the query begins at the first question mark of the target
before any escape is decoded, and a header line is cut at its first colon.
-/

namespace ScriptServer

namespace Http

namespace Request

/-! ## The lines of a head -/

theorem lines_line {line : List Char} (no_cr : '\r' ∉ line) : lines line = [line] := by
  induction line with
  | nil => rfl
  | cons c line ih =>
    rw [List.mem_cons, not_or] at no_cr
    rw [lines, ih no_cr.2]
    exact fun _ eq => absurd eq.symm no_cr.1

theorem lines_append {line : List Char} (no_cr : '\r' ∉ line) (cs : List Char) :
    lines (line ++ ['\r', '\n'] ++ cs) = line :: lines cs := by
  induction line with
  | nil => rfl
  | cons c line ih =>
    rw [List.mem_cons, not_or] at no_cr
    rw [List.cons_append, List.cons_append, lines, ih no_cr.2]
    exact fun _ eq => absurd eq.symm no_cr.1

/-- Lines that were joined are found again in the text of the head. -/
theorem lines_intercalate {lines : List String} (some : lines ≠ [])
    (no_cr : ∀ line ∈ lines, '\r' ∉ line.toList) :
    ∃ cs, crlf.intercalate (lines.map Utf8.ofText) = Utf8.ofChars cs ∧
      Request.lines cs = lines.map String.toList := by
  induction lines with
  | nil => exact absurd rfl some
  | cons line lines ih =>
    obtain ⟨first, later⟩ := List.forall_mem_cons.mp no_cr
    cases lines with
    | nil =>
      refine ⟨line.toList, ?_, lines_line first⟩
      rw [List.map_singleton, List.intercalate_singleton, Utf8.ofText]
    | cons next lines =>
      obtain ⟨cs, joined, cut⟩ := ih (List.cons_ne_nil _ _) later
      refine ⟨line.toList ++ ['\r', '\n'] ++ cs, ?_, ?_⟩
      · rw [List.map_cons, List.map_cons, List.intercalate_cons_cons, ← List.map_cons, joined,
          Utf8.ofChars_append, Utf8.ofChars_append]
        rfl
      · rw [lines_append first, cut]
        rfl

/-! ## The words of a request line -/

/-- The parts of a target are told apart at the first question mark. -/
theorem ofTarget_eq {method path : String} (h : '?' ∉ path.toList) (query : Option String) :
    ofTarget method (path ++ (query.map ("?" ++ ·)).getD "") =
      ⟨Text.toUpper method, percentDecode path, query, [], []⟩ := by
  cases query with
  | none =>
    rw [Option.map_none, Option.getD_none, String.append_empty, ofTarget,
      Text.splitOnce_of_not_mem h]
  | some query =>
    have target : (path ++ ("?" ++ query)).toList = path.toList ++ '?' :: query.toList := by
      rw [String.toList_append, String.toList_append]
      rfl
    rw [Option.map_some, Option.getD_some, ofTarget, target, Text.splitOnce_append h]
    simp only [String.ofList_toList]

/-! ## Header lines -/

def fieldText (h : String × String) : String := h.1 ++ ": " ++ h.2

theorem toList_fieldText (h : String × String) :
    (fieldText h).toList = h.1.toList ++ ':' :: ' ' :: h.2.toList := by
  rw [fieldText, String.toList_append, String.toList_append, List.append_assoc]
  rfl

/-- A header that is read back from its line: its name is a token, and its value has no line break
and no white space at its ends. -/
structure IsField (h : String × String) : Prop where
  token : isToken h.1 = true
  no_cr : '\r' ∉ h.2.toList
  no_lf : '\n' ∉ h.2.toList
  trimmed : Text.IsTrimmed h.2.toList

theorem visible_of_isTokenChar {c : Char} (h : isTokenChar c = true) :
    0x20 < c.toNat ∧ c.toNat < 0x7F := by
  rw [isTokenChar, Bool.or_eq_true, List.contains_iff_mem] at h
  rcases h with letter | other
  · simp only [Text.isAlphanumeric, Text.isDigit, Text.isLower, Text.isUpper, Bool.or_eq_true,
      Bool.and_eq_true, decide_eq_true_eq, Char.le_def, UInt32.le_iff_toNat_le] at letter
    change ((48 ≤ c.toNat ∧ c.toNat ≤ 57) ∨ (97 ≤ c.toNat ∧ c.toNat ≤ 122)) ∨
      (65 ≤ c.toNat ∧ c.toNat ≤ 90) at letter
    omega
  · have all : (['!', '#', '$', '%', '&', '\'', '*', '+', '-', '.', '^', '_', '\x60', '|', '~'].all
        fun c => 0x20 < c.toNat && c.toNat < 0x7F) = true := by decide
    simpa using List.all_eq_true.mp all c other

namespace IsField

variable {h : String × String}

theorem isTokenChar_name (field : IsField h) : ∀ c ∈ h.1.toList, isTokenChar c = true := by
  have token := field.token
  rw [isToken, Bool.and_eq_true] at token
  exact List.all_eq_true.mp token.2

theorem not_mem_name (field : IsField h) {c : Char} (other : isTokenChar c = false) :
    c ∉ h.1.toList := fun mem => by
  rw [field.isTokenChar_name c mem] at other
  cases other

theorem trim_name (field : IsField h) : Text.trim h.1 = h.1 := by
  refine Text.trim_of_isTrimmed (Text.isTrimmed_of_solid fun c mem => ?_)
  have visible := visible_of_isTokenChar (field.isTokenChar_name c mem)
  exact Text.isBlank_of_visible visible.1 (by omega)

theorem isLine (field : IsField h) : IsLine (Utf8.ofText (fieldText h)) := by
  apply Response.isLine_ofText
  · intro empty
    have := congrArg String.toList empty
    simp [toList_fieldText] at this
  · simp [toList_fieldText, field.not_mem_name (c := '\r') (by decide), field.no_cr]
  · simp [toList_fieldText, field.not_mem_name (c := '\n') (by decide), field.no_lf]

end IsField

theorem toLower_contentLength : Text.toLower "Content-Length" = "content-length" := by decide

/-- The length of a body is a header that is read back. -/
theorem isField_length (n : Nat) : IsField ("Content-Length", Text.number n) := by
  have digit : ∀ c ∈ (Text.number n).toList, Text.isDigit c = true := by
    rw [Text.number, String.toList_ofList]
    exact (Text.isNumeral_decimal n).2
  have token : isToken "Content-Length" = true := by decide
  refine ⟨token, Response.not_mem_number (by decide) n, Response.not_mem_number (by decide) n,
    Text.isTrimmed_of_solid fun c mem => ?_⟩
  have range := Text.isDigit_iff.mp (digit c mem)
  exact Text.isBlank_of_visible (by omega) (by omega)

theorem addLine_fieldText {h : String × String} (field : IsField h) (r : Request) :
    r.addLine (fieldText h).toList =
      { r with headers := r.headers.insert (Text.toLower h.1) h.2 } := by
  have value : Text.trim (String.ofList (' ' :: h.2.toList)) = h.2 := by
    rw [Text.trim, String.toList_ofList, Text.trimChars_cons_of_blank (by decide)]
    exact Text.trim_of_isTrimmed field.trimmed
  simp only [addLine, toList_fieldText, String.ofList_toList, field.trim_name, value,
    Text.splitOnce_append (field.not_mem_name (c := ':') (by decide))]

theorem foldl_addLine {hs : List (String × String)} (fields : ∀ h ∈ hs, IsField h) (r : Request) :
    ((hs.map fieldText).map String.toList).foldl addLine r =
      { r with
        headers := hs.foldl (fun d h => d.insert (Text.toLower h.1) h.2) r.headers } := by
  induction hs generalizing r with
  | nil => rfl
  | cons h hs ih =>
    obtain ⟨first, later⟩ := List.forall_mem_cons.mp fields
    simp only [List.map_cons, List.foldl_cons, addLine_fieldText first, ih later]

end Request

/-! ## Writing a request -/

/-- A request as a client writes it. -/
structure Writing where
  method : String
  /-- The path with escapes. -/
  path : String
  query : Option String
  headers : List (String × String)
  body : Bytes

namespace Writing

def target (w : Writing) : String := w.path ++ (w.query.map ("?" ++ ·)).getD ""

def requestLine (w : Writing) : String := w.method ++ " " ++ w.target ++ " HTTP/1.1"

/-- The headers, and behind them the one about the body. -/
def fields (w : Writing) : List (String × String) :=
  w.headers ++ [("Content-Length", Text.number w.body.length)]

def lines (w : Writing) : List String := w.requestLine :: w.fields.map Request.fieldText

def head (w : Writing) : Bytes := endLines (w.lines.map Utf8.ofText) ++ crlf

def toBytes (w : Writing) : Bytes := w.head ++ w.body

def request (w : Writing) (path : String) : Request :=
  { method := Text.toUpper w.method, path, query := w.query,
    headers := Dictionary.ofList (w.fields.map fun h => (Text.toLower h.1, h.2)), body := w.body }

/-- The request can be written as it is, and `path` is the path that it spells. -/
structure Spells (w : Writing) (path : String) : Prop where
  method : w.method ≠ "" ∧ ∀ c ∈ w.method.toList, Text.isBlank c = false
  absolute : path.toList.head? = some '/'
  encodes : Encodes w.path.toList (Utf8.ofText path)
  /-- What stands for itself in the path is visible, and no question mark. -/
  visible : ∀ c ∈ w.path.toList, 0x20 < c.toNat ∧ c.toNat < 0x7F ∧ c ≠ '?'
  query : ∀ query, w.query = some query → ∀ c ∈ query.toList, Text.isBlank c = false
  fields : ∀ h ∈ w.headers, Request.IsField h
  distinct : (w.headers.map fun h => Text.toLower h.1).Nodup
  unmeasured : ∀ h ∈ w.headers, Text.toLower h.1 ≠ "content-length"
  body : w.body.length ≤ maxBody
  head : w.head.length ≤ maxHead

variable {w : Writing} {path : String}

/-! ## The head that is written -/

namespace Spells

theorem isField (h : w.Spells path) : ∀ field ∈ w.fields, Request.IsField field := by
  rw [Writing.fields, List.forall_mem_append, List.forall_mem_singleton]
  exact ⟨h.fields, Request.isField_length _⟩

theorem path_ne_nil (h : w.Spells path) : w.path.toList ≠ [] := by
  intro empty
  have nothing {cs : List Char} {bs : Bytes} (encodes : Encodes cs bs) : cs = [] → bs = [] := by
    cases encodes with
    | nil => exact fun _ => rfl
    | plain => exact nofun
    | escape => exact nofun
  have same : path = "" := Utf8.ofText_injective (nothing h.encodes empty)
  have absolute := h.absolute
  rw [same] at absolute
  cases absolute

/-- The target is one word. -/
theorem target_solid (h : w.Spells path) : ∀ c ∈ w.target.toList, Text.isBlank c = false := by
  rw [target, String.toList_append, List.forall_mem_append]
  refine ⟨fun c mem => ?_, ?_⟩
  · obtain ⟨above, below, -⟩ := h.visible c mem
    exact Text.isBlank_of_visible above (by omega)
  · cases eq : w.query with
    | none => exact nofun
    | some query =>
      rw [Option.map_some, Option.getD_some, String.toList_append, List.forall_mem_append]
      have mark : ∀ c ∈ ['?'], Text.isBlank c = false :=
        List.forall_mem_singleton.mpr (by decide)
      exact ⟨mark, h.query query eq⟩

theorem toList_requestLine (w : Writing) : w.requestLine.toList =
    w.method.toList ++ ' ' :: (w.target.toList ++ ' ' :: "HTTP/1.1".toList) := by
  simp only [requestLine, String.toList_append, List.append_assoc]
  rfl

theorem isLine_requestLine (h : w.Spells path) : IsLine (Utf8.ofText w.requestLine) := by
  have none {c : Char} (blank : Text.isBlank c = true) (other : c ∉ ' ' :: "HTTP/1.1".toList)
      (noSpace : c ≠ ' ') : c ∉ w.requestLine.toList := by
    rw [toList_requestLine, List.mem_append, List.mem_cons, List.mem_append, not_or, not_or, not_or]
    exact ⟨Text.not_mem_of_solid h.method.2 blank, noSpace,
      Text.not_mem_of_solid h.target_solid blank, other⟩
  apply Response.isLine_ofText
  · intro empty
    have := congrArg String.toList empty
    simp [toList_requestLine] at this
  · exact none (by decide) (by decide) (by decide)
  · exact none (by decide) (by decide) (by decide)

theorem isLine_lines (h : w.Spells path) : ∀ line ∈ w.lines.map Utf8.ofText, IsLine line := by
  rw [lines, List.map_cons, List.forall_mem_cons]
  refine ⟨h.isLine_requestLine, ?_⟩
  rw [List.map_map, List.forall_mem_map]
  exact fun field mem => (h.isField field mem).isLine

/-- The head ends where it was put together. -/
theorem endsHead (h : w.Spells path) (more : Bytes) :
    EndsHead (w.toBytes ++ more) (crlf.intercalate (w.lines.map Utf8.ofText)) (w.body ++ more) := by
  rw [← splitHead_eq_some, toBytes, Writing.head, List.append_assoc]
  exact splitHead_endLines h.isLine_lines (List.cons_ne_nil _ _) _

/-! ## The request that is read back -/

theorem words_requestLine (h : w.Spells path) : Text.words w.requestLine.toList =
    w.method.toList :: w.target.toList :: Text.words "HTTP/1.1".toList := by
  have method_some : w.method.toList ≠ [] := fun empty =>
    h.method.1 (String.toList_eq_nil_iff.mp empty)
  have target_some : w.target.toList ≠ [] := by
    rw [target, String.toList_append]
    exact List.append_ne_nil_of_left_ne_nil h.path_ne_nil _
  rw [toList_requestLine, Text.words_append method_some h.method.2 (by decide),
    Text.words_append target_some h.target_solid (by decide)]

theorem ofHead_eq (h : w.Spells path) :
    Request.ofHead (crlf.intercalate (w.lines.map Utf8.ofText)) =
      .ok { w.request path with body := [] } := by
  have no_cr : ∀ line ∈ w.lines, '\r' ∉ line.toList := by
    intro line mem cr
    have isLine := h.isLine_lines _ (List.mem_map_of_mem mem)
    exact isLine.no_cr ((Utf8.ofNat_mem_ofChars (n := 13) (by decide)).mpr cr)
  have noMark : '?' ∉ w.path.toList := fun mem => (h.visible '?' mem).2.2 rfl
  have some : w.lines ≠ [] := List.cons_ne_nil _ _
  obtain ⟨cs, joined, cut⟩ := Request.lines_intercalate some no_cr
  rw [Request.ofHead, joined, Utf8.toTextLossy_ofChars, String.toList_ofList, cut]
  simp only [lines, List.map_cons, h.words_requestLine, String.ofList_toList]
  rw [target, Request.ofTarget_eq noMark, Request.foldl_addLine h.isField,
    percentDecode_of_encodes h.encodes, request, Dictionary.ofList, List.foldl_map]

/-- The names of all headers that are written are distinct. -/
theorem nodup_fields (h : w.Spells path) :
    ((w.fields.map fun h => (Text.toLower h.1, h.2)).map (·.1)).Nodup := by
  rw [List.map_map, Writing.fields, List.map_append, List.nodup_append]
  refine ⟨h.distinct, List.nodup_singleton _, ?_⟩
  intro name mem name' mem'
  obtain ⟨field, there, rfl⟩ := List.mem_map.mp mem
  rw [List.mem_singleton.mp mem']
  exact fun same => h.unmeasured field there (same.trans Request.toLower_contentLength)

theorem get?_request (h : w.Spells path) {field : String × String} (mem : field ∈ w.fields) :
    Dictionary.get? (w.request path).headers (Text.toLower field.1) = some field.2 :=
  Dictionary.get?_ofList (e := (Text.toLower field.1, field.2)) h.nodup_fields
    (List.mem_map_of_mem (f := fun h : String × String => (Text.toLower h.1, h.2)) mem)

theorem contentLength_eq (h : w.Spells path) (body : Bytes) :
    Request.contentLength { w.request path with body } = .ok w.body.length := by
  have found : Dictionary.get? (w.request path).headers "content-length" =
      some (Text.number w.body.length) :=
    Request.toLower_contentLength ▸ h.get?_request (List.mem_append_right _ List.mem_cons_self)
  have small := h.body
  have bound : w.body.length < lengthBound := Nat.lt_of_le_of_lt small (by decide)
  simp only [Request.contentLength, found, Text.number, String.toList_ofList,
    Text.natural?_decimal bound, if_neg (Nat.not_lt.mpr small)]

theorem ofBytes_eq (h : w.Spells path) (more : Bytes) :
    Request.ofBytes (w.toBytes ++ more) = .ok (w.request path) := by
  rw [Request.ofBytes, splitHead_eq_some.mpr (h.endsHead more)]
  simp only [h.ofHead_eq, h.contentLength_eq, List.take_left]
  rfl

end Spells

end Writing

variable {w : Writing} {path : String}

/-- **Round trip.** What a client wrote is read back from any pieces, whatever comes after it: the
method in upper case, the path that was spelled, the query, the headers, each found under its name
in any letter case, and the body. -/
theorem readRequest_written (h : w.Spells path) {pieces : List Bytes} {more : Bytes}
    (nonempty : ∀ piece ∈ pieces, piece ≠ []) (cut : pieces.flatten = w.toBytes ++ more) :
    readRequest (pieces.map .data) = .ok (w.request path) ∧
      ∀ field ∈ w.headers, ∀ name, Text.sameLetters name field.1 = true →
        (w.request path).header? name = some field.2 := by
  refine ⟨?_, fun field mem name same => ?_⟩
  · rw [← h.ofBytes_eq more]
    refine readRequest_gives ⟨pieces, rfl, nonempty, cut⟩ (fun head rest ends => ?_) fun none => ?_
    · obtain ⟨rfl, -⟩ := ends.unique (h.endsHead more)
      have lengths := congrArg List.length (h.endsHead more).split
      have breaks : crlf.length = 2 := rfl
      have small := h.head
      simp only [Writing.toBytes, List.length_append, breaks] at lengths
      omega
    · rw [splitHead_eq_some.mpr (h.endsHead more)] at none
      cases none
  · have lower : Text.toLower name = Text.toLower field.1 := eq_of_beq same
    rw [Request.header?, lower]
    exact h.get?_request (List.mem_append_left _ mem)

/-- An escaped path and a query with a question mark, in two pieces and with more bytes behind. -/
theorem readRequest_written_escaped :
    let w : Writing := ⟨"put", "/%C3%bC", some "a?b", [("X-Name", "a: b")], Utf8.ofText "hi"⟩
    let bytes := w.toBytes ++ Utf8.ofText "!"
    w.Spells "/ü" ∧
      readRequest [.data (bytes.take 20), .data (bytes.drop 20)] =
        .ok ⟨"PUT", "/ü", some "a?b", [("content-length", "2"), ("x-name", "a: b")],
          Utf8.ofText "hi"⟩ ∧
      (w.request "/ü").header? "x-NAME" = some "a: b" := by
  intro w bytes
  have encodes : Encodes w.path.toList (Utf8.ofText "/ü") := by
    have chars : w.path.toList = ['/', '%', 'C', '3', '%', 'b', 'C'] := by decide
    have octets : Utf8.ofText "/ü" = [47, 195, 188] := by decide
    rw [chars, octets]
    exact .plain (by decide) (by decide) (.escape (h := 12) (l := 3) (by decide) (by decide)
      (.escape (h := 11) (l := 12) (by decide) (by decide) .nil))
  have field : Request.IsField ("X-Name", "a: b") := by
    have start : "a: b".toList.head? = some 'a' := by decide
    have stop : "a: b".toList.getLast? = some 'b' := by decide
    refine ⟨by decide, by decide, by decide, fun c first => ?_, fun c last => ?_⟩
    · cases start.symm.trans first
      decide
    · cases stop.symm.trans last
      decide
  have solid (cs : List Char) (all : (cs.all fun c => !Text.isBlank c) = true) :
      ∀ c ∈ cs, Text.isBlank c = false := by simpa using all
  have visible : (w.path.toList.all fun c =>
      0x20 < c.toNat && c.toNat < 0x7F && c != '?') = true := by decide
  have spells : w.Spells "/ü" :=
    { method := ⟨by decide, solid _ (by decide)⟩
      absolute := by decide
      encodes
      visible := by simpa [and_assoc] using List.all_eq_true.mp visible
      query := by
        rintro query ⟨⟩
        exact solid _ (by decide)
      fields := List.forall_mem_singleton.mpr field
      distinct := List.nodup_singleton _
      unmeasured := by decide
      body := by decide
      head := by decide }
  have nonempty : ∀ piece ∈ [bytes.take 20, bytes.drop 20], piece ≠ [] := by decide +kernel
  have cut : [bytes.take 20, bytes.drop 20].flatten = bytes := by decide +kernel
  obtain ⟨read, found⟩ := readRequest_written spells nonempty cut
  refine ⟨spells, read.trans ?_, ?_⟩
  · decide +kernel
  · exact found _ List.mem_cons_self "x-NAME" (by decide)

end Http

end ScriptServer
