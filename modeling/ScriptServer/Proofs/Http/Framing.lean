import ScriptServer.Http.Response
import ScriptServer.Proofs.Http.Lines
import ScriptServer.Proofs.Text.Ascii
import ScriptServer.Proofs.Text.Digits

/-!
# The head of a response

Whatever a script puts into names and values of headers, the head of a response has one line for
each header that is written and its own two lines about the body and the connection. No line holds
a line break and none is empty, so the head ends where it was put together.
-/

namespace ScriptServer.Http

/-- A header name that is written: a token, and none of the names that frame a response. -/
def IsWritable (name : String) : Prop :=
  name ≠ "" ∧ (∀ c ∈ name.toList, isTokenChar c = true) ∧
    Text.toLower name ≠ "content-length" ∧ Text.toLower name ≠ "connection"

instance : DecidablePred IsWritable := fun _ => inferInstanceAs (Decidable (_ ∧ _))

/-- The bytes of a value as they are written: a space for either byte of a line break. -/
def unbroken (b : UInt8) : UInt8 := if b = 13 ∨ b = 10 then 32 else b

def fieldLine (h : String × String) : Bytes :=
  Utf8.ofText h.1 ++ Utf8.ofText ": " ++ (Utf8.ofText h.2).map unbroken

/-- An ASCII letter in lower case, any other byte as it is. -/
def lowerByte (b : UInt8) : UInt8 := if 65 ≤ b ∧ b ≤ 90 then b + 32 else b

/-- What a recipient takes for the name of a header line: the bytes before the first colon, in lower
case. -/
def fieldName (line : Bytes) : Bytes := (line.takeWhile (· != 58)).map lowerByte

namespace Response

def statusLine (r : Response) : Bytes :=
  Utf8.ofText ("HTTP/1.1 " ++ Text.number r.status ++ " " ++ reasonPhrase r.status)

def lengthLine (r : Response) : Bytes :=
  Utf8.ofText ("Content-Length: " ++ Text.number r.body.length)

def closeLine : Bytes := Utf8.ofText "Connection: close"

/-- The lines of the headers that are written, and those about the body and the connection. -/
def fieldLines (r : Response) : List Bytes :=
  (r.headers.filter fun h => IsWritable h.1).map fieldLine ++ [r.lengthLine, closeLine]

/-! ## The lines as they are written -/

theorem isWritten_eq (name : String) : isWritten name = decide (IsWritable name) := by
  rw [Bool.eq_iff_iff, decide_eq_true_iff]
  have nonempty : name.isEmpty = false ↔ name ≠ "" := by
    rw [← Bool.not_eq_true, String.isEmpty_iff]
  have length : Text.toLower "content-length" = "content-length" := by decide
  have connection : Text.toLower "connection" = "connection" := by decide
  simp [isWritten, isToken, IsWritable, Text.sameLetters, nonempty, length, connection, and_assoc]

theorem ofText_sanitize (value : String) :
    Utf8.ofText (sanitize value) = (Utf8.ofText value).map unbroken := by
  rw [Utf8.ofText, sanitize, String.toList_ofList]
  refine Utf8.ofChars_map (by decide) (fun c beyond => if_neg ?_) (fun b high => if_neg ?_) _
  · rintro (rfl | rfl) <;> exact absurd beyond (by decide)
  · rintro (rfl | rfl) <;> exact absurd high (by decide)

theorem ofText_toLower (text : String) :
    Utf8.ofText (Text.toLower text) = (Utf8.ofText text).map lowerByte := by
  rw [Utf8.ofText, Text.toLower, String.toList_ofList]
  refine Utf8.ofChars_map (by decide) (fun c beyond => if_neg ?_) (fun b high => if_neg ?_) _
  · rintro ⟨-, upTo⟩
    have : c.toNat ≤ 90 := upTo
    omega
  · rintro ⟨-, upTo⟩
    have : b.toNat ≤ 90 := upTo
    omega

theorem map_headLines (r : Response) :
    r.headLines.map Utf8.ofText = r.statusLine :: r.fieldLines := by
  simp only [headLines, fieldLines, statusLine, lengthLine, closeLine, isWritten_eq,
    List.cons_append, List.map_cons, List.map_append, List.map_map, List.map_nil]
  congr 2
  refine List.map_congr_left fun h _ => ?_
  simp only [Function.comp_apply, fieldLine, Utf8.ofText_append, ofText_sanitize]

theorem ofText_head (r : Response) :
    Utf8.ofText r.head = endLines (r.statusLine :: r.fieldLines) ++ crlf := by
  have joined (lines : List String) :
      Utf8.ofText (String.join (lines.map (· ++ "\r\n"))) = endLines (lines.map Utf8.ofText) := by
    induction lines with
    | nil => rfl
    | cons line lines ih =>
      rw [List.map_cons, String.join_cons, Utf8.ofText_append, ih, Utf8.ofText_append]
      rfl
  rw [head, Utf8.ofText_append, joined, map_headLines]
  rfl

/-! ## Each of them is one line -/

theorem isLine_ofText {text : String} (some : text ≠ "") (no_cr : '\r' ∉ text.toList)
    (no_lf : '\n' ∉ text.toList) : IsLine (Utf8.ofText text) where
  ne_nil h := some (Utf8.ofText_injective h)
  no_cr h := no_cr ((Utf8.ofNat_mem_ofChars (n := 13) (by decide)).mp h)
  no_lf h := no_lf ((Utf8.ofNat_mem_ofChars (n := 10) (by decide)).mp h)

theorem not_mem_number {c : Char} (h : Text.isDigit c = false) (n : Nat) :
    c ∉ (Text.number n).toList := by
  rw [Text.number, String.toList_ofList]
  intro mem
  rw [(Text.isNumeral_decimal n).2 c mem] at h
  exact Bool.noConfusion h

theorem not_mem_reasonPhrase (status : Nat) :
    '\r' ∉ (reasonPhrase status).toList ∧ '\n' ∉ (reasonPhrase status).toList := by
  unfold reasonPhrase
  split <;> decide

theorem isLine_statusLine (r : Response) : IsLine r.statusLine := by
  have reason := not_mem_reasonPhrase r.status
  have cr := not_mem_number (c := '\r') (by decide) r.status
  have lf := not_mem_number (c := '\n') (by decide) r.status
  refine isLine_ofText ?_ ?_ ?_
  · intro empty
    have := congrArg String.toList empty
    simp at this
  · simp [cr, reason.1]
  · simp [lf, reason.2]

theorem isLine_lengthLine (r : Response) : IsLine r.lengthLine := by
  have cr := not_mem_number (c := '\r') (by decide) r.body.length
  have lf := not_mem_number (c := '\n') (by decide) r.body.length
  refine isLine_ofText ?_ ?_ ?_
  · intro empty
    have := congrArg String.toList empty
    simp at this
  · simp [cr]
  · simp [lf]

theorem isLine_closeLine : IsLine closeLine := isLine_ofText (by decide) (by decide) (by decide)

theorem unbroken_ne (b : UInt8) : unbroken b ≠ 13 ∧ unbroken b ≠ 10 := by
  unfold unbroken
  split
  · decide
  · next other => exact not_or.mp other

theorem isLine_fieldLine {h : String × String} (writable : IsWritable h.1) :
    IsLine (fieldLine h) := by
  have other {c : Char} (no : isTokenChar c = false) : c ∉ h.1.toList := fun mem =>
    Bool.noConfusion (no.symm.trans (writable.2.1 c mem))
  have name : IsLine (Utf8.ofText h.1) :=
    isLine_ofText writable.1 (other (by decide)) (other (by decide))
  refine ⟨?_, ?_, ?_⟩
  · simp [fieldLine, name.ne_nil]
  · have colon : 13 ∉ Utf8.ofText ": " := by decide
    have value (b : UInt8) : unbroken b ≠ 13 := (unbroken_ne b).1
    simp [fieldLine, name.no_cr, colon, value]
  · have colon : 10 ∉ Utf8.ofText ": " := by decide
    have value (b : UInt8) : unbroken b ≠ 10 := (unbroken_ne b).2
    simp [fieldLine, name.no_lf, colon, value]

theorem isLine_fieldLines {r : Response} {line : Bytes} (h : line ∈ r.fieldLines) :
    IsLine line := by
  simp only [fieldLines, List.mem_append, List.mem_map, List.mem_filter, decide_eq_true_eq,
    List.mem_cons, List.not_mem_nil, or_false] at h
  rcases h with ⟨h, ⟨-, writable⟩, rfl⟩ | rfl | rfl
  · exact isLine_fieldLine writable
  · exact isLine_lengthLine r
  · exact isLine_closeLine

/-! ## The names of the lines -/

/-- The name of a line is what was written before its first colon. -/
theorem fieldName_ofText {name : String} (no_colon : ':' ∉ name.toList) (rest : Bytes) :
    fieldName (Utf8.ofText name ++ 58 :: rest) = Utf8.ofText (Text.toLower name) := by
  have bytes : ∀ b ∈ Utf8.ofText name, (b != 58) = true := by
    intro b mem
    rw [bne_iff_ne]
    rintro rfl
    exact no_colon ((Utf8.ofNat_mem_ofChars (n := 58) (by decide)).mp mem)
  rw [fieldName, List.takeWhile_append_of_pos bytes, List.takeWhile_cons_of_neg (by decide),
    List.append_nil, ofText_toLower]

theorem fieldName_fieldLine {h : String × String} (writable : IsWritable h.1) :
    fieldName (fieldLine h) = Utf8.ofText (Text.toLower h.1) := by
  have no_colon : ':' ∉ h.1.toList := fun mem =>
    absurd (writable.2.1 ':' mem) (by decide)
  rw [fieldLine, List.append_assoc]
  exact fieldName_ofText no_colon _

theorem fieldName_lengthLine (r : Response) :
    fieldName r.lengthLine = Utf8.ofText "content-length" := by
  rw [lengthLine, Utf8.ofText_append]
  exact @fieldName_ofText "Content-Length" (by decide) _

theorem fieldName_closeLine : fieldName closeLine = Utf8.ofText "connection" :=
  @fieldName_ofText "Connection" (by decide) _

/-- **Framing.** A response is cut where it was put together: at its first empty line, and before it
into the status line, a line for each header that is written, one line with the length of the body
and one about the connection. -/
theorem toBytes_framed (r : Response) :
    ∃ head fields, EndsHead (r.toBytes true) head r.body ∧
      splitLines head = r.statusLine :: fields ∧
      (∀ line ∈ splitLines head, IsLine line) ∧
      fields = (r.headers.filter fun h => IsWritable h.1).map fieldLine ++
        [r.lengthLine, closeLine] ∧
      (fields.filter fun line => fieldName line = Utf8.ofText "content-length") = [r.lengthLine] ∧
      (fields.filter fun line => fieldName line = Utf8.ofText "connection") = [closeLine] ∧
      r.toBytes true = r.toBytes false ++ r.body := by
  have isLine : ∀ line ∈ r.statusLine :: r.fieldLines, IsLine line :=
    List.forall_mem_cons.mpr ⟨isLine_statusLine r, fun _ => isLine_fieldLines⟩
  have lines : splitLines (crlf.intercalate (r.statusLine :: r.fieldLines)) =
      r.statusLine :: r.fieldLines := splitLines_intercalate isLine (List.cons_ne_nil _ _)
  have own (name : Bytes) (h : ∀ h : String × String, IsWritable h.1 →
      Utf8.ofText (Text.toLower h.1) ≠ name) :
      (((r.headers.filter fun h => IsWritable h.1).map fieldLine).filter
        fun line => fieldName line = name) = [] := by
    rw [List.filter_eq_nil_iff]
    intro line mem
    obtain ⟨field, kept, rfl⟩ := List.mem_map.mp mem
    have writable : IsWritable field.1 := of_decide_eq_true (List.mem_filter.mp kept).2
    rw [fieldName_fieldLine writable, decide_eq_true_iff]
    exact h field writable
  refine ⟨crlf.intercalate (r.statusLine :: r.fieldLines), r.fieldLines, ?_, lines,
    by rwa [lines], rfl, ?_, ?_, ?_⟩
  · rw [← splitHead_eq_some, toBytes, if_pos rfl, ofText_head]
    exact splitHead_endLines isLine (List.cons_ne_nil _ _) r.body
  · have differ : Utf8.ofText "connection" ≠ Utf8.ofText "content-length" := by decide
    rw [fieldLines, List.filter_append,
      own _ fun h writable eq => writable.2.2.1 (Utf8.ofText_injective eq)]
    simp [fieldName_lengthLine, fieldName_closeLine, differ]
  · have differ : Utf8.ofText "content-length" ≠ Utf8.ofText "connection" := by decide
    rw [fieldLines, List.filter_append,
      own _ fun h writable eq => writable.2.2.2 (Utf8.ofText_injective eq)]
    simp [fieldName_lengthLine, fieldName_closeLine, differ]
  · simp [toBytes]

end Response

end ScriptServer.Http
