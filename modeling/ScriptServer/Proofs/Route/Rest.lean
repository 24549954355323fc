import Mathlib.Data.List.Induction
import ScriptServer.Proofs.Dictionary
import ScriptServer.Proofs.Route.Matching
import ScriptServer.Proofs.Text.Split
import ScriptServer.Script.Library

/-!
# What lies below a prefix

The route to a directory has the segments of its prefix and then takes the rest. What it captures
there are the segments of the path behind as many as the prefix has.
-/

namespace ScriptServer.Route

theorem segments_append_slash (as bs : List Char) :
    segments (String.ofList (as ++ '/' :: bs)) =
      segments (String.ofList as) ++ segments (String.ofList bs) := by
  simp only [segments, String.toList_ofList, Text.splitOn_append, List.filter_append,
    List.map_append]

/-- Slashes at the end of a path do not count. -/
theorem segments_trim (cs : List Char) :
    segments (String.ofList (cs.reverse.dropWhile (· == '/')).reverse) =
      segments (String.ofList cs) := by
  induction cs using List.reverseRecOn with
  | nil => rfl
  | append_singleton cs c ih =>
    rw [List.reverse_append, List.reverse_singleton, List.singleton_append]
    by_cases slash : c = '/'
    · subst slash
      rw [List.dropWhile_cons_of_pos (by decide), ih, segments_append_slash cs []]
      exact (List.append_nil _).symm
    · rw [List.dropWhile_cons_of_neg (by simpa using slash), List.reverse_cons,
        List.reverse_reverse]

theorem segments_staticPattern {start : String} (noStar : start.toList.getLast? ≠ some '*') :
    segments (Script.staticPattern .directory start) = segments start ++ ["*"] := by
  have whole := segments_append_slash (start.toList.reverse.dropWhile (· == '/')).reverse ['*']
  have star : segments (String.ofList ['*']) = ["*"] := by decide
  rw [segments_trim, String.ofList_toList, star] at whole
  rw [Script.staticPattern, if_neg noStar]
  simpa using whole

theorem not_mem_of_mem_segments {path part : String} (h : part ∈ segments path) :
    part ≠ "" ∧ '/' ∉ part.toList := by
  obtain ⟨cs, mem, rfl⟩ := List.mem_map.mp h
  obtain ⟨cut, some⟩ := List.mem_filter.mp mem
  rw [String.toList_ofList]
  refine ⟨fun empty => ?_, Text.not_mem_of_mem_splitOn cut⟩
  rw [← String.toList_eq_nil_iff, String.toList_ofList] at empty
  simp [empty] at some

namespace Pattern

theorem ofSegments_rest {parts : List String} {p : Pattern}
    (h : ofSegments (parts ++ ["*"]) = .ok p) :
    ∃ q : Pattern, p = q ++ [.rest] ∧ q.length = parts.length := by
  induction parts generalizing p with
  | nil =>
    cases h
    exact ⟨[], rfl, rfl⟩
  | cons part parts ih =>
    obtain ⟨s, q, -, rest, rfl, -⟩ := ofSegments_cons h
    obtain ⟨q, rfl, length⟩ := ih rest
    exact ⟨s :: q, rfl, congrArg Nat.succ length⟩

theorem read_staticPattern {start : String} {p : Pattern}
    (noStar : start.toList.getLast? ≠ some '*')
    (h : read (Script.staticPattern .directory start) = .ok p) :
    ∃ q : Pattern, p = q ++ [.rest] ∧ q.length = (segments start).length := by
  unfold read at h
  split at h
  · rw [segments_staticPattern noStar] at h
    exact ofSegments_rest h
  · cases h

theorem captures_rest {q : Pattern} {parts : List String} {captured : List (String × String)}
    (h : Captures (q ++ [.rest]) parts captured) :
    ∃ front, captured = front ++ [(restName, "/".intercalate (parts.drop q.length))] := by
  induction q generalizing parts captured with
  | nil =>
    cases h
    exact ⟨[], rfl⟩
  | cons s q ih =>
    -- A catch-all is no segment of the prefix, as the one at the end comes after it.
    generalize more : q ++ [.rest] = p at h ih
    rw [List.cons_append, more] at h
    cases h with
    | exact text later => exact ih later
    | rest => simp at more
    | parameter name part later =>
      obtain ⟨front, rfl⟩ := ih later
      exact ⟨(name, part) :: front, rfl⟩
    | constrained name isMatch later =>
      obtain ⟨front, rfl⟩ := ih later
      exact ⟨_ :: front, rfl⟩

end Pattern

/-- The rest of the path under a route to a directory. -/
theorem rest_of_captures {start : String} (noStar : start.toList.getLast? ≠ some '*') {p : Pattern}
    (read : Pattern.read (Script.staticPattern .directory start) = .ok p) {parts : List String}
    {captured : List (String × String)} (captures : Captures p parts captured) :
    Dictionary.get? (.ofList captured) restName =
      some ("/".intercalate (parts.drop (segments start).length)) := by
  obtain ⟨q, rfl, length⟩ := Pattern.read_staticPattern noStar read
  obtain ⟨front, rfl⟩ := Pattern.captures_rest captures
  rw [Dictionary.ofList_concat, Dictionary.get?_insert, if_pos rfl, length]

end ScriptServer.Route
