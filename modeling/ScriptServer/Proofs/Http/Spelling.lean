import ScriptServer.Http.Header
import ScriptServer.Proofs.Text.Case

/-!
# Spellings of a header name

Which letters `capitalize` makes capital is decided by the hyphens of a name, and a hyphen has no
other case. So it does the same with every spelling (`capitalize_map_lower`), and what it gives is a
spelling of the same name (`map_lower_capitalize`). Whether a name is a token is not a matter of case
either, so `canonical` stays among the tokens with a token and among the rest with the rest.
-/

namespace ScriptServer.Http

variable {c : Char} {cs ds : List Char} {a b : String} {start : Bool}

/-! ## Capital letters -/

theorem lower_beq_hyphen (c : Char) : (Text.lower c == '-') = (c == '-') := by
  apply Text.forall_of_ascii (p := fun c => (Text.lower c == '-') = (c == '-'))
  · decide
  · intro c _ same
    rw [same]

theorem capitalize_map_lower (start : Bool) (cs : List Char) :
    capitalize start (cs.map Text.lower) = capitalize start cs := by
  induction cs generalizing start with
  | nil => rfl
  | cons c cs ih =>
    rw [List.map_cons, capitalize, capitalize, lower_beq_hyphen, ih, Text.upper_lower,
      Text.lower_lower]

theorem map_lower_capitalize (start : Bool) (cs : List Char) :
    (capitalize start cs).map Text.lower = cs.map Text.lower := by
  induction cs generalizing start with
  | nil => rfl
  | cons c cs ih =>
    have letter : Text.lower (if start then Text.upper c else Text.lower c) = Text.lower c := by
      cases start with
      | true => exact Text.lower_upper c
      | false => exact Text.lower_lower c
    rw [capitalize, List.map_cons, letter, ih, List.map_cons]

theorem capitalize_eq_iff :
    capitalize start cs = capitalize start ds ↔ cs.map Text.lower = ds.map Text.lower := by
  constructor
  · intro same
    rw [← map_lower_capitalize start cs, same, map_lower_capitalize]
  · intro same
    rw [← capitalize_map_lower start cs, same, capitalize_map_lower]

/-! ## Tokens -/

theorem isTokenChar_lower (c : Char) : isTokenChar (Text.lower c) = isTokenChar c := by
  apply Text.forall_of_ascii (p := fun c => isTokenChar (Text.lower c) = isTokenChar c)
  · decide
  · intro c _ same
    rw [same]

theorem isToken_toLower (a : String) : isToken (Text.toLower a) = isToken a := by
  have empty : (Text.toLower a).isEmpty = a.isEmpty := by
    rw [Bool.eq_iff_iff, String.isEmpty_iff, String.isEmpty_iff, Text.toLower,
      String.ofList_eq_empty_iff, List.map_eq_nil_iff, String.toList_eq_nil_iff]
  have chars : (a.toList.map Text.lower).all isTokenChar = a.toList.all isTokenChar := by
    rw [List.all_map]
    exact congrArg _ (funext isTokenChar_lower)
  rw [isToken, empty, Text.toLower, String.toList_ofList, chars, isToken]

/-! ## The canonical spelling -/

theorem canonical_of_isToken (h : isToken a = true) :
    canonical a = String.ofList (capitalize true a.toList) := if_pos h

theorem canonical_of_not_isToken (h : isToken a = false) : canonical a = a :=
  if_neg (Bool.eq_false_iff.mp h)

theorem toLower_canonical (a : String) : Text.toLower (canonical a) = Text.toLower a := by
  cases token : isToken a with
  | true =>
    rw [canonical_of_isToken token, Text.toLower, String.toList_ofList, map_lower_capitalize,
      Text.toLower]
  | false => rw [canonical_of_not_isToken token]

theorem isToken_canonical (a : String) : isToken (canonical a) = isToken a := by
  rw [← isToken_toLower, toLower_canonical, isToken_toLower]

theorem canonical_eq_iff (ha : isToken a = true) (hb : isToken b = true) :
    canonical a = canonical b ↔ Text.toLower a = Text.toLower b := by
  rw [canonical_of_isToken ha, canonical_of_isToken hb, String.ofList_inj, capitalize_eq_iff,
    Text.toLower, Text.toLower, String.ofList_inj]

theorem canonical_canonical (a : String) : canonical (canonical a) = canonical a := by
  cases token : isToken a with
  | true =>
    rw [canonical_eq_iff ((isToken_canonical a).trans token) token]
    exact toLower_canonical a
  | false => rw [canonical_of_not_isToken token, canonical_of_not_isToken token]

/-- **Canonical names.** Tokens have one canonical spelling just if they are the same up to the case
of their letters; it is a spelling of the name itself, and its own canonical spelling. A name that is
no token has no other spelling, and none of a token is its. -/
theorem canonical_exact (a b : String) :
    (isToken a = true → isToken b = true →
        (canonical a = canonical b ↔ Text.sameLetters a b = true)) ∧
      (isToken a = true →
        Text.sameLetters (canonical a) a = true ∧ canonical (canonical a) = canonical a) ∧
      (isToken a = false → canonical a = a ∧ (isToken b = true → canonical a ≠ canonical b)) := by
  refine ⟨fun ha hb => ?_, fun _ => ⟨?_, canonical_canonical a⟩, fun ha => ⟨?_, fun hb same => ?_⟩⟩
  · rw [canonical_eq_iff ha hb, Text.sameLetters, beq_iff_eq]
  · rw [Text.sameLetters, beq_iff_eq]
    exact toLower_canonical a
  · exact canonical_of_not_isToken ha
  · have token := isToken_canonical a
    rw [same, isToken_canonical, hb, ha] at token
    cases token

/-- Two spellings of a name, and a text with a space in it that is no name. -/
theorem canonical_exact_spellings :
    (isToken "x-REQUEST-id" = true ∧ isToken "X-Request-ID" = true ∧
        isToken "x request id" = false) ∧
      (canonical "x-REQUEST-id" = canonical "X-Request-ID" ↔
        Text.sameLetters "x-REQUEST-id" "X-Request-ID" = true) ∧
      (Text.sameLetters (canonical "x-REQUEST-id") "x-REQUEST-id" = true ∧
        canonical (canonical "x-REQUEST-id") = canonical "x-REQUEST-id") ∧
      canonical "x request id" = "x request id" ∧
      canonical "x request id" ≠ canonical "X-Request-ID" := by
  have first : isToken "x-REQUEST-id" = true := by decide
  have second : isToken "X-Request-ID" = true := by decide
  have other : isToken "x request id" = false := by decide
  obtain ⟨same, own, -⟩ := canonical_exact "x-REQUEST-id" "X-Request-ID"
  obtain ⟨-, -, alone⟩ := canonical_exact "x request id" "X-Request-ID"
  exact ⟨⟨first, second, other⟩, same first second, own first, (alone other).1,
    (alone other).2 second⟩

end ScriptServer.Http
