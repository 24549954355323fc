import Mathlib.Data.List.Basic
import ScriptServer.Http.Reader

/-!
# Lines of bytes

A head ends at the first empty line, and `splitHead` finds just that. What is written as lines, none
of them empty and none with a line break inside, is therefore cut where it was put together.
-/

namespace ScriptServer.Http

def crlf : Bytes := [13, 10]

/-- The bytes have the head before their first empty line, and the rest behind it. -/
structure EndsHead (bs head rest : Bytes) : Prop where
  split : bs = head ++ crlf ++ crlf ++ rest
  first : ∀ head' rest', bs = head' ++ crlf ++ crlf ++ rest' → head.length ≤ head'.length

def splitLines : Bytes → List Bytes
  | [] => [[]]
  | 13 :: 10 :: bs => [] :: splitLines bs
  | b :: bs =>
    match splitLines bs with
    | [] => [[b]]
    | line :: lines => (b :: line) :: lines

def endLines (lines : List Bytes) : Bytes := lines.flatMap (· ++ crlf)

/-- The bytes are one line: not empty, and without any byte of a line break. -/
structure IsLine (line : Bytes) : Prop where
  ne_nil : line ≠ []
  no_cr : 13 ∉ line
  no_lf : 10 ∉ line

/-! ## The end of the head -/

theorem splitHead_empty_line (bs : Bytes) :
    splitHead (13 :: 10 :: 13 :: 10 :: bs) = some ([], bs) := rfl

/-- A byte before which no empty line begins belongs to the head. -/
theorem splitHead_cons {b : UInt8} {bs : Bytes}
    (h : ∀ rest, b :: bs ≠ 13 :: 10 :: 13 :: 10 :: rest) :
    splitHead (b :: bs) = (splitHead bs).map fun (head, rest) => (b :: head, rest) := by
  rw [splitHead]
  rintro rest rfl rfl
  exact h rest rfl

theorem splitHead_eq_some {bs head rest : Bytes} :
    splitHead bs = some (head, rest) ↔ EndsHead bs head rest := by
  induction bs generalizing head with
  | nil =>
    refine ⟨fun h => (Option.some_ne_none _ h.symm).elim, fun h => ?_⟩
    have := congrArg List.length h.split
    simp [crlf] at this
  | cons b bs ih =>
    by_cases empty : ∃ later, b :: bs = 13 :: 10 :: 13 :: 10 :: later
    · obtain ⟨later, eq⟩ := empty
      rw [eq, splitHead_empty_line]
      constructor
      · rintro ⟨⟩
        exact ⟨rfl, fun _ _ _ => Nat.zero_le _⟩
      · intro h
        obtain rfl := List.length_eq_zero_iff.mp (Nat.le_zero.mp (h.first [] later rfl))
        have same : crlf ++ crlf ++ later = crlf ++ crlf ++ rest := h.split
        rw [List.append_cancel_left same]
    · have next (rest : Bytes) : b :: bs ≠ 13 :: 10 :: 13 :: 10 :: rest :=
        fun eq => empty ⟨rest, eq⟩
      -- No head is empty here, so the heads of `b :: bs` are `b` before those of `bs`.
      have tail {head' rest' : Bytes} (eq : b :: bs = head' ++ crlf ++ crlf ++ rest') :
          ∃ more, head' = b :: more ∧ bs = more ++ crlf ++ crlf ++ rest' := by
        cases head' with
        | nil => exact absurd eq (next rest')
        | cons b' more =>
          obtain ⟨rfl, later⟩ := List.cons.inj eq
          exact ⟨more, rfl, later⟩
      rw [splitHead_cons next, Option.map_eq_some_iff]
      constructor
      · rintro ⟨⟨more, rest⟩, found, ⟨⟩⟩
        have h := ih.mp found
        refine ⟨congrArg (b :: ·) h.split, fun head' rest' eq => ?_⟩
        obtain ⟨more', rfl, later⟩ := tail eq
        exact Nat.succ_le_succ (h.first more' rest' later)
      · intro h
        obtain ⟨more, rfl, eq⟩ := tail h.split
        refine ⟨(more, rest), ih.mpr ⟨eq, fun head' rest' eq' => ?_⟩, rfl⟩
        exact Nat.le_of_succ_le_succ (h.first (b :: head') rest' (congrArg (b :: ·) eq'))

theorem splitHead_append {part : Bytes} (no_cr : 13 ∉ part) (bs : Bytes) :
    splitHead (part ++ bs) = (splitHead bs).map fun (head, rest) => (part ++ head, rest) := by
  induction part with
  | nil => simp
  | cons b part ih =>
    rw [List.mem_cons, not_or] at no_cr
    rw [List.cons_append, splitHead_cons fun rest eq => no_cr.1 (List.cons.inj eq).1.symm,
      ih no_cr.2, Option.map_map]
    rfl

/-- A line break before a line belongs to the head. -/
theorem splitHead_break {line : Bytes} (isLine : IsLine line) (bs : Bytes) :
    splitHead (crlf ++ (line ++ bs)) =
      (splitHead (line ++ bs)).map fun (head, rest) => (crlf ++ head, rest) := by
  obtain ⟨b, line, rfl⟩ := List.exists_cons_of_ne_nil isLine.ne_nil
  have notBreak : b ≠ 13 := fun eq => isLine.no_cr (eq ▸ List.mem_cons_self)
  rw [crlf, List.cons_append, splitHead_cons, List.cons_append, splitHead_cons, Option.map_map]
  · rfl
  · exact fun rest eq => absurd (List.cons.inj eq).1 (by decide)
  · intro rest eq
    simp only [List.cons_append, List.nil_append, List.cons.injEq] at eq
    exact notBreak eq.2.2.1

theorem splitHead_endLines {lines : List Bytes} (h : ∀ line ∈ lines, IsLine line)
    (some : lines ≠ []) (rest : Bytes) :
    splitHead (endLines lines ++ crlf ++ rest) = .some (crlf.intercalate lines, rest) := by
  induction lines with
  | nil => exact absurd rfl some
  | cons line lines ih =>
    obtain ⟨isLine, later⟩ := List.forall_mem_cons.mp h
    rw [endLines, List.flatMap_cons, List.append_assoc, List.append_assoc, List.append_assoc,
      splitHead_append isLine.no_cr]
    cases lines with
    | nil => simp [splitHead, crlf, List.intercalate]
    | cons next lines =>
      have := ih later (List.cons_ne_nil _ _)
      rw [endLines, List.flatMap_cons, List.append_assoc, List.append_assoc,
        List.append_assoc] at this
      rw [List.flatMap_cons, List.append_assoc, List.append_assoc,
        splitHead_break (later next List.mem_cons_self), this]
      simp [List.intercalate, List.intersperse]

/-! ## The lines of the head -/

theorem splitLines_line {line : Bytes} (no_cr : 13 ∉ line) : splitLines line = [line] := by
  induction line with
  | nil => rfl
  | cons b line ih =>
    rw [List.mem_cons, not_or] at no_cr
    rw [splitLines, ih no_cr.2]
    exact fun _ eq => absurd eq.symm no_cr.1

theorem splitLines_append {line : Bytes} (no_cr : 13 ∉ line) (bs : Bytes) :
    splitLines (line ++ crlf ++ bs) = line :: splitLines bs := by
  induction line with
  | nil => rfl
  | cons b line ih =>
    rw [List.mem_cons, not_or] at no_cr
    rw [List.cons_append, List.cons_append, splitLines, ih no_cr.2]
    exact fun _ eq => absurd eq.symm no_cr.1

theorem splitLines_intercalate {lines : List Bytes} (h : ∀ line ∈ lines, IsLine line)
    (some : lines ≠ []) : splitLines (crlf.intercalate lines) = lines := by
  induction lines with
  | nil => exact absurd rfl some
  | cons line lines ih =>
    obtain ⟨isLine, later⟩ := List.forall_mem_cons.mp h
    cases lines with
    | nil => simpa [List.intercalate] using splitLines_line isLine.no_cr
    | cons next lines =>
      have := splitLines_append isLine.no_cr (crlf.intercalate (next :: lines))
      rw [ih later (List.cons_ne_nil _ _)] at this
      simpa [List.intercalate, List.intersperse] using this

end ScriptServer.Http
