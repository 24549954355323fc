import Mathlib.Data.List.Nodup
import ScriptServer.Proofs.Http.Framing
import ScriptServer.Proofs.Http.Spelling

/-!
# The names of header lines

A header replaces the one whose name has the same letters, so no two headers of a response have the
same name. What is left out when the response is written is left out by its name, and the two lines
that the head ends with have names of their own. So no two lines have the same name either.
-/

namespace ScriptServer.Http

theorem isWritable_iff {name : String} : IsWritable name ↔ Response.isWritten name = true := by
  rw [Response.isWritten_eq, decide_eq_true_iff]

/-- Whether a header is written depends on the letters of its name and not on their case. -/
theorem isWritable_toLower (name : String) : IsWritable (Text.toLower name) ↔ IsWritable name := by
  have empty : Text.toLower name = "" ↔ name = "" := by
    rw [Text.toLower, String.ofList_eq_empty_iff, List.map_eq_nil_iff, String.toList_eq_nil_iff]
  have chars : (∀ c ∈ (Text.toLower name).toList, isTokenChar c = true) ↔
      ∀ c ∈ name.toList, isTokenChar c = true := by
    rw [Text.toLower, String.toList_ofList, List.forall_mem_map]
    simp only [isTokenChar_lower]
  rw [IsWritable, Text.toLower_toLower, Ne, empty, chars, IsWritable]

namespace Response

variable {r : Response} {name value n : String} {h : String × String}

/-- The names of the headers, in lower case. -/
def names (r : Response) : List String := r.headers.map fun h => Text.toLower h.1

theorem header?_isSome : (r.header? name).isSome = true ↔ Text.toLower name ∈ r.names := by
  simp [header?, names, Text.sameLetters]

/-! ## Setting a header -/

theorem mem_headers_setHeader : h ∈ (r.setHeader name value).headers ↔
    h ∈ r.headers ∧ Text.toLower h.1 ≠ Text.toLower name ∨ h = (name, value) := by
  simp [setHeader, Text.sameLetters]

theorem names_setHeader (r : Response) (name value : String) :
    (r.setHeader name value).names =
      r.names.filter (· != Text.toLower name) ++ [Text.toLower name] := by
  rw [names, setHeader, List.map_append, names, List.filter_map]
  rfl

theorem mem_names_setHeader :
    n ∈ (r.setHeader name value).names ↔ n ∈ r.names ∨ n = Text.toLower name := by
  rw [names_setHeader, List.mem_append, List.mem_filter, List.mem_singleton, bne_iff_ne]
  by_cases own : n = Text.toLower name
  · exact iff_of_true (.inr own) (.inr own)
  · exact or_congr_left (and_iff_left own)

theorem nodup_names_setHeader (distinct : r.names.Nodup) (name value : String) :
    (r.setHeader name value).names.Nodup := by
  rw [names_setHeader, List.nodup_append]
  refine ⟨distinct.filter _, List.nodup_singleton _, ?_⟩
  intro n kept n' own
  rw [List.mem_singleton.mp own]
  exact bne_iff_ne.mp (List.mem_filter.mp kept).2

theorem names_foldl_setHeader (headers : List (String × String)) (distinct : r.names.Nodup) :
    let r' := headers.foldl (fun r (name, value) => r.setHeader name value) r
    r'.names.Nodup ∧
      ∀ n, n ∈ r'.names ↔ n ∈ r.names ∨ n ∈ headers.map fun h => Text.toLower h.1 := by
  induction headers generalizing r with
  | nil => exact ⟨distinct, fun n => (or_iff_left List.not_mem_nil).symm⟩
  | cons h headers ih =>
    obtain ⟨distinct', mem⟩ := ih (nodup_names_setHeader distinct h.1 h.2)
    refine ⟨distinct', fun n => (mem n).trans ?_⟩
    rw [mem_names_setHeader, or_assoc, List.map_cons, List.mem_cons]

/-- No two headers have the same name, and there is a content type. -/
structure IsTyped (r : Response) : Prop where
  distinct : r.names.Nodup
  typed : "content-type" ∈ r.names

theorem IsTyped.setHeader (h : r.IsTyped) (name value : String) :
    (r.setHeader name value).IsTyped :=
  ⟨nodup_names_setHeader h.distinct name value, mem_names_setHeader.mpr (.inl h.typed)⟩

theorem isTyped_contentType (status : Nat) (contentType : String) (body : Bytes) :
    IsTyped { (ofStatus status).setHeader "Content-Type" contentType with body } := by
  have name : Text.toLower "Content-Type" = "content-type" := by decide
  exact ⟨List.nodup_singleton _, List.mem_singleton.mpr name.symm⟩

/-! ## The lines that are written -/

theorem map_fieldName_fieldLines (r : Response) : r.fieldLines.map fieldName =
    (r.names.filter (IsWritable ·) ++ ["content-length", "connection"]).map Utf8.ofText := by
  have own : ((r.headers.filter fun h => IsWritable h.1).map fieldLine).map fieldName =
      (r.names.filter (IsWritable ·)).map Utf8.ofText := by
    rw [names, List.filter_map, List.map_map, List.map_map]
    simp only [Function.comp_def, isWritable_toLower]
    refine List.map_congr_left fun h kept => ?_
    exact fieldName_fieldLine (of_decide_eq_true (List.mem_filter.mp kept).2)
  rw [fieldLines, List.map_append, own, List.map_append, List.map_cons, List.map_singleton,
    fieldName_lengthLine, fieldName_closeLine]
  rfl

theorem nodup_fieldNames (distinct : r.names.Nodup) : (r.fieldLines.map fieldName).Nodup := by
  rw [map_fieldName_fieldLines]
  refine List.Nodup.map (fun _ _ => Utf8.ofText_injective) ?_
  rw [List.nodup_append]
  refine ⟨distinct.filter _, by decide, ?_⟩
  rintro n kept n' framing rfl
  have writable : IsWritable n := of_decide_eq_true (List.mem_filter.mp kept).2
  rcases List.mem_pair.mp framing with rfl | rfl
  · exact writable.2.2.1 (by decide)
  · exact writable.2.2.2 (by decide)

/-- A name that a header has, or one of the last two lines, has just one line. -/
theorem count_fieldNames (distinct : r.names.Nodup)
    (there : n ∈ r.names ∧ IsWritable n ∨ n = "content-length" ∨ n = "connection") :
    (r.fieldLines.map fieldName).count (Utf8.ofText n) = 1 := by
  refine List.count_eq_one_of_mem (nodup_fieldNames distinct) ?_
  rw [map_fieldName_fieldLines]
  refine List.mem_map_of_mem (List.mem_append.mpr (there.imp ?_ List.mem_pair.mpr))
  exact fun ⟨mem, writable⟩ => List.mem_filter.mpr ⟨mem, decide_eq_true writable⟩

/-- The line of a header whose value has no line break. -/
theorem line_mem_fieldLines (mem : (name, value) ∈ r.headers) (writable : IsWritable name)
    (no_cr : '\r' ∉ value.toList) (no_lf : '\n' ∉ value.toList) :
    Utf8.ofText (name ++ ": " ++ value) ∈ r.fieldLines := by
  have plain : sanitize value = value := by
    have same : ∀ c ∈ value.toList, (if c = '\r' ∨ c = '\n' then ' ' else c) = id c := by
      intro c mem
      refine if_neg ?_
      rintro (rfl | rfl)
      · exact no_cr mem
      · exact no_lf mem
    rw [sanitize, List.map_congr_left same, List.map_id, String.ofList_toList]
  have line : Utf8.ofText (name ++ ": " ++ value) = fieldLine (name, value) := by
    rw [fieldLine, ← ofText_sanitize, plain, Utf8.ofText_append, Utf8.ofText_append]
  rw [line, fieldLines]
  refine List.mem_append_left _ (List.mem_map_of_mem (List.mem_filter.mpr ⟨mem, ?_⟩))
  exact decide_eq_true writable

theorem lengthLine_mem_fieldLines (r : Response) : r.lengthLine ∈ r.fieldLines :=
  List.mem_append_right _ List.mem_cons_self

/-! ## The head that is read back -/

theorem toBytes_endsHead (r : Response) (includeBody : Bool) :
    EndsHead (r.toBytes includeBody) (crlf.intercalate (r.statusLine :: r.fieldLines))
        (if includeBody then r.body else []) ∧
      splitLines (crlf.intercalate (r.statusLine :: r.fieldLines)) =
        r.statusLine :: r.fieldLines := by
  have isLine : ∀ line ∈ r.statusLine :: r.fieldLines, IsLine line :=
    List.forall_mem_cons.mpr ⟨isLine_statusLine r, fun _ => isLine_fieldLines⟩
  refine ⟨?_, splitLines_intercalate isLine (List.cons_ne_nil _ _)⟩
  rw [← splitHead_eq_some, toBytes, ofText_head]
  exact splitHead_endLines isLine (List.cons_ne_nil _ _) _

end Response

end ScriptServer.Http
