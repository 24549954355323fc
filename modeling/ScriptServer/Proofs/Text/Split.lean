import Mathlib.Data.List.Basic
import ScriptServer.Text.Basic

/-!
# Cutting a text at a character

`splitOn` undoes the joining of parts in which the character does not occur, and it cuts a text with
the character in it like the two texts around it.
-/

namespace ScriptServer.Text

variable {sep : Char} {cs : List Char}

theorem splitOn_cons_of_ne {c : Char} (h : c ≠ sep) (cs : List Char) :
    ∃ part parts, splitOn sep cs = part :: parts ∧
      splitOn sep (c :: cs) = (c :: part) :: parts := by
  induction cs generalizing c with
  | nil => exact ⟨[], [], rfl, by rw [splitOn, if_neg h]; rfl⟩
  | cons d cs ih =>
    by_cases cut : d = sep
    · refine ⟨[], splitOn sep cs, by rw [splitOn, if_pos cut], ?_⟩
      rw [splitOn, if_neg h, splitOn, if_pos cut]
    · obtain ⟨part, parts, -, eq⟩ := ih cut
      exact ⟨d :: part, parts, eq, by rw [splitOn, if_neg h, eq]⟩

theorem splitOn_append (as bs : List Char) :
    splitOn sep (as ++ sep :: bs) = splitOn sep as ++ splitOn sep bs := by
  induction as with
  | nil => exact if_pos rfl
  | cons a as ih =>
    by_cases cut : a = sep
    · rw [List.cons_append, splitOn, if_pos cut, ih, splitOn, if_pos cut]
      rfl
    · obtain ⟨part, parts, eq, eq'⟩ := splitOn_cons_of_ne cut as
      rw [List.cons_append, splitOn, if_neg cut, ih, eq, eq']
      rfl

theorem splitOn_of_not_mem (h : sep ∉ cs) : splitOn sep cs = [cs] := by
  induction cs with
  | nil => rfl
  | cons c cs ih =>
    rw [List.mem_cons, not_or] at h
    rw [splitOn, if_neg (Ne.symm h.1), ih h.2]

theorem not_mem_of_mem_splitOn {part : List Char} (h : part ∈ splitOn sep cs) : sep ∉ part := by
  induction cs generalizing part with
  | nil => exact List.mem_singleton.mp h ▸ List.not_mem_nil
  | cons c cs ih =>
    by_cases cut : c = sep
    · rw [splitOn, if_pos cut] at h
      rcases List.mem_cons.mp h with rfl | h
      · exact List.not_mem_nil
      · exact ih h
    · obtain ⟨first, parts, eq, eq'⟩ := splitOn_cons_of_ne cut cs
      rw [eq'] at h
      rcases List.mem_cons.mp h with rfl | h
      · rw [List.mem_cons, not_or]
        exact ⟨Ne.symm cut, ih (eq ▸ List.mem_cons_self)⟩
      · exact ih (eq ▸ List.mem_cons_of_mem _ h)

theorem mem_of_mem_splitOn {part : List Char} (h : part ∈ splitOn sep cs) {c : Char}
    (mem : c ∈ part) : c ∈ cs := by
  induction cs generalizing part with
  | nil => exact List.mem_singleton.mp h ▸ mem
  | cons d cs ih =>
    by_cases cut : d = sep
    · rw [splitOn, if_pos cut] at h
      rcases List.mem_cons.mp h with rfl | h
      · cases mem
      · exact List.mem_cons_of_mem d (ih h mem)
    · obtain ⟨first, parts, eq, eq'⟩ := splitOn_cons_of_ne cut cs
      rw [eq'] at h
      rcases List.mem_cons.mp h with rfl | h
      · rcases List.mem_cons.mp mem with rfl | mem
        · exact List.mem_cons_self
        · exact List.mem_cons_of_mem d (ih (eq ▸ List.mem_cons_self) mem)
      · exact List.mem_cons_of_mem d (ih (eq ▸ List.mem_cons_of_mem _ h) mem)

/-- Parts that were joined are found again. -/
theorem splitOn_intercalate {parts : List (List Char)} (some : parts ≠ [])
    (h : ∀ part ∈ parts, sep ∉ part) : splitOn sep ([sep].intercalate parts) = parts := by
  induction parts with
  | nil => exact absurd rfl some
  | cons part parts ih =>
    obtain ⟨first, later⟩ := List.forall_mem_cons.mp h
    cases parts with
    | nil => simpa [List.intercalate] using splitOn_of_not_mem first
    | cons next parts =>
      have := @splitOn_append sep part ([sep].intercalate (next :: parts))
      rw [ih (List.cons_ne_nil _ _) later, splitOn_of_not_mem first] at this
      simpa [List.intercalate, List.intersperse] using this

/-! ## The first cut -/

theorem splitOnce_of_not_mem (h : sep ∉ cs) : splitOnce sep cs = none := by
  induction cs with
  | nil => rfl
  | cons c cs ih =>
    rw [List.mem_cons, not_or] at h
    rw [splitOnce, if_neg (Ne.symm h.1), ih h.2]
    rfl

theorem eq_append_of_splitOnce {before behind : List Char}
    (h : splitOnce sep cs = some (before, behind)) : cs = before ++ sep :: behind := by
  induction cs generalizing before with
  | nil => cases h
  | cons c cs ih =>
    rw [splitOnce] at h
    split at h
    · next cut =>
      cases h
      rw [cut]
      rfl
    · obtain ⟨⟨before', behind'⟩, later, eq⟩ := Option.map_eq_some_iff.mp h
      cases eq
      rw [ih later]
      rfl

theorem splitOnce_append (h : sep ∉ cs) (rest : List Char) :
    splitOnce sep (cs ++ sep :: rest) = some (cs, rest) := by
  induction cs with
  | nil => exact if_pos rfl
  | cons c cs ih =>
    rw [List.mem_cons, not_or] at h
    rw [List.cons_append, splitOnce, if_neg (Ne.symm h.1), ih h.2]
    rfl

theorem not_mem_of_splitOnce {before behind : List Char}
    (h : splitOnce sep cs = some (before, behind)) : sep ∉ before := by
  induction cs generalizing before with
  | nil => cases h
  | cons c cs ih =>
    rw [splitOnce] at h
    split at h
    · cases h
      exact List.not_mem_nil
    · next other =>
      obtain ⟨⟨before', behind'⟩, later, eq⟩ := Option.map_eq_some_iff.mp h
      cases eq
      rw [List.mem_cons, not_or]
      exact ⟨Ne.symm other, ih later⟩

theorem splitOnce_eq_some {before behind : List Char} :
    splitOnce sep cs = some (before, behind) ↔ cs = before ++ sep :: behind ∧ sep ∉ before := by
  constructor
  · exact fun h => ⟨eq_append_of_splitOnce h, not_mem_of_splitOnce h⟩
  · rintro ⟨rfl, first⟩
    exact splitOnce_append first behind

theorem splitOnce_eq_none : splitOnce sep cs = none ↔ sep ∉ cs := by
  refine ⟨fun none mem => ?_, splitOnce_of_not_mem⟩
  induction cs with
  | nil => cases mem
  | cons c cs ih =>
    rw [splitOnce] at none
    split at none
    · cases none
    · next other =>
      exact ih (Option.map_eq_none_iff.mp none) ((List.mem_cons.mp mem).resolve_left (Ne.symm other))

end ScriptServer.Text
