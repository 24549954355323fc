import ScriptServer.Route.Pattern

/-!
# What a pattern captures

`Captures` says what the segments of a path mean under a pattern. `captures?` finds just that for
every pattern that was read, as its only catch-all is its last segment.
-/

namespace ScriptServer.Route

/-- The pattern matches the segments of a path and captures some of them under names. -/
inductive Captures : Pattern → List String → List (String × String) → Prop where
  | nil : Captures [] [] []
  | exact {p : Pattern} {parts : List String} {captured : List (String × String)} (text : String) :
    Captures p parts captured → Captures (.exact text :: p) (text :: parts) captured
  | parameter {p : Pattern} {parts : List String} {captured : List (String × String)}
    (name part : String) : Captures p parts captured →
      Captures (.parameter name :: p) (part :: parts) ((name, part) :: captured)
  | constrained {p : Pattern} {parts : List String} {captured : List (String × String)}
    (name : String) {expression : Regex} {part : String}
    (isMatch : expression.hasMatch part = true) : Captures p parts captured →
      Captures (.constrained name expression :: p) (part :: parts) ((name, part) :: captured)
  | rest (parts : List String) : Captures [.rest] parts [(restName, "/".intercalate parts)]

/-- No segment but the last one is a catch-all. -/
inductive Pattern.RestLast : Pattern → Prop where
  | nil : RestLast []
  | rest : RestLast [.rest]
  | cons {s : Segment} {p : Pattern} : s ≠ .rest → RestLast p → RestLast (s :: p)

namespace Pattern

theorem ofSegments_cons {part : String} {parts : List String} {p : Pattern}
    (h : ofSegments (part :: parts) = .ok p) :
    ∃ s q, Segment.read part = .ok s ∧ ofSegments parts = .ok q ∧ p = s :: q ∧
      (s = .rest → parts = []) := by
  unfold ofSegments at h
  split at h
  · cases h
  · next s read =>
    split at h
    · cases h
    · next last =>
      cases rest : ofSegments parts with
      | error e =>
        rw [rest] at h
        cases h
      | ok q =>
        rw [rest] at h
        cases h
        exact ⟨s, q, read, rfl, rfl,
          fun isRest => Decidable.not_not.mp fun more => last ⟨isRest, more⟩⟩

theorem restLast_of_ofSegments {parts : List String} {p : Pattern}
    (h : ofSegments parts = .ok p) : p.RestLast := by
  induction parts generalizing p with
  | nil =>
    cases h
    exact .nil
  | cons part parts ih =>
    obtain ⟨s, q, -, rest, rfl, last⟩ := ofSegments_cons h
    by_cases isRest : s = .rest
    · obtain rfl := last isRest
      cases rest
      exact isRest ▸ .rest
    · exact .cons isRest (ih rest)

theorem restLast_of_read {raw : String} {p : Pattern} (h : read raw = .ok p) : p.RestLast := by
  unfold read at h
  split at h
  · exact restLast_of_ofSegments h
  · cases h

theorem captures?_nil_of_ne {s : Segment} {p : Pattern} (h : s ≠ .rest) :
    captures? (s :: p) [] = none := by
  cases s with
  | rest => exact absurd rfl h
  | _ => rfl

theorem captures?_cons_of_ne {s : Segment} {p : Pattern} {part : String} {parts : List String}
    (h : s ≠ .rest) :
    captures? (s :: p) (part :: parts) =
      (s.capture? part).bind fun own => (captures? p parts).map (own ++ ·) := by
  cases s with
  | rest => exact absurd rfl h
  | exact text | parameter name | constrained name r =>
    rw [captures?]
    · cases Segment.capture? part _ <;> rfl
    · exact h

theorem captures_of_captures? {p : Pattern} (h : p.RestLast) {parts : List String}
    {captured : List (String × String)} (found : captures? p parts = some captured) :
    Captures p parts captured := by
  induction h generalizing parts captured with
  | nil =>
    cases parts with
    | nil =>
      cases found
      exact .nil
    | cons => cases found
  | rest =>
    cases found
    exact .rest parts
  | @cons s p notRest _ ih =>
    cases parts with
    | nil =>
      rw [captures?_nil_of_ne notRest] at found
      cases found
    | cons part parts =>
      rw [captures?_cons_of_ne notRest] at found
      obtain ⟨own, captures, found⟩ := Option.bind_eq_some_iff.mp found
      obtain ⟨later, rest, rfl⟩ := Option.map_eq_some_iff.mp found
      cases s with
      | rest => exact absurd rfl notRest
      | exact text =>
        simp only [Segment.capture?] at captures
        split at captures
        · next same =>
          cases captures
          exact same ▸ .exact text (ih rest)
        · cases captures
      | parameter name =>
        cases captures
        exact .parameter name part (ih rest)
      | constrained name r =>
        simp only [Segment.capture?] at captures
        split at captures
        · next isMatch =>
          cases captures
          exact .constrained name isMatch (ih rest)
        · cases captures

theorem captures?_of_captures {p : Pattern} {parts : List String}
    {captured : List (String × String)} (h : Captures p parts captured) :
    captures? p parts = some captured := by
  induction h with
  | nil => rfl
  | exact text _ ih => simp [captures?, Segment.capture?, ih]
  | parameter name part _ ih => simp [captures?, Segment.capture?, ih]
  | constrained name isMatch _ ih => simp [captures?, Segment.capture?, isMatch, ih]
  | rest parts => rfl

/-- Matching finds what a pattern captures, and the later one of two values with the same name. -/
theorem match?_eq_some {p : Pattern} (h : p.RestLast) {parts : List String}
    {params : Dictionary String} :
    p.match? parts = some params ↔
      ∃ captured, Captures p parts captured ∧ params = Dictionary.ofList captured := by
  unfold match?
  rw [Option.map_eq_some_iff]
  constructor
  · rintro ⟨captured, found, rfl⟩
    exact ⟨captured, captures_of_captures? h found, rfl⟩
  · rintro ⟨captured, captures, rfl⟩
    exact ⟨captured, captures?_of_captures captures, rfl⟩

end Pattern

end ScriptServer.Route
