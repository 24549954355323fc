import ScriptServer.Proofs.Host.Below
import ScriptServer.Proofs.Route.Rest

/-!
# Filling parameters into a pattern

Each segment of a pattern that captures can be replaced by what stands under its name. This gives
back the segments of the path that was matched, if segments with one name took the same there. A
name keeps one value only, that of its last segment in the pattern.
-/

namespace ScriptServer.Route

open ScriptServer.Path (IsPart)

/-- The name under which a segment of a pattern captures: what follows a colon, or what stands
between a brace and the next colon or brace. -/
def placeholder? (part : String) : Option String :=
  match part.toList with
  | ['*'] => some restName
  | ':' :: name => some (String.ofList name)
  | '\x7b' :: inner => some (String.ofList (inner.takeWhile fun c => c != ':' && c != '\x7d'))
  | _ => none

/-- A segment of a pattern with the value of its parameter in its place. -/
def fillSegment (params : Dictionary String) (part : String) : String :=
  match placeholder? part with
  | none => part
  | some name => (params.get? name).getD ""

/-- A pattern with the values of its parameters in their places. -/
def fill (params : Dictionary String) (raw : String) : String :=
  "/".intercalate ((Text.splitOn '/' raw.toList).map fun part =>
    fillSegment params (String.ofList part))

theorem fillSegment_text {part : String} (none : placeholder? part = none)
    (params : Dictionary String) : fillSegment params part = part := by
  rw [fillSegment, none]

theorem fillSegment_value {part name value : String} {params : Dictionary String}
    (named : placeholder? part = some name) (found : params.get? name = some value) :
    fillSegment params part = value := by
  rw [fillSegment, named]
  dsimp only
  rw [found, Option.getD_some]

/-! ## The segments of a joined text -/

theorem segments_of_isPart {part : String} (h : IsPart part) : segments part = [part] := by
  rw [segments, Text.splitOn_of_not_mem h.2, List.filter_cons_of_pos (by simpa using h.1)]
  simp

theorem flatMap_segments {parts : List String} (h : ∀ part ∈ parts, IsPart part) :
    parts.flatMap segments = parts := by
  induction parts with
  | nil => rfl
  | cons part parts ih =>
    obtain ⟨first, later⟩ := List.forall_mem_cons.mp h
    rw [List.flatMap_cons, segments_of_isPart first, ih later]
    rfl

theorem segments_intercalate (parts : List String) :
    segments ("/".intercalate parts) = parts.flatMap segments := by
  induction parts with
  | nil => decide
  | cons part parts ih =>
    cases parts with
    | nil => simp
    | cons next parts =>
      have joined : "/".intercalate (part :: next :: parts) =
          String.ofList (part.toList ++ '/' :: ("/".intercalate (next :: parts)).toList) := by
        rw [String.intercalate_cons_cons, ← String.toList_inj]
        simp
      rw [joined, segments_append_slash, String.ofList_toList, String.ofList_toList, ih]
      rfl

theorem fillSegment_empty (params : Dictionary String) : fillSegment params "" = "" := rfl

theorem segments_fill (params : Dictionary String) (raw : String) :
    segments (fill params raw) =
      (segments raw).flatMap fun part => segments (fillSegment params part) := by
  rw [fill, segments_intercalate, segments]
  generalize Text.splitOn '/' raw.toList = parts
  induction parts with
  | nil => rfl
  | cons part parts ih =>
    by_cases empty : part = []
    · subst empty
      have none : segments (fillSegment params (String.ofList [])) = [] := by
        rw [String.ofList_nil, fillSegment_empty]
        decide
      rw [List.map_cons, List.flatMap_cons, none, ih]
      rfl
    · rw [List.filter_cons_of_pos (by simpa using empty)]
      simp [ih]

/-! ## How the segments of a pattern are written -/

/-- A character that the name of a parameter may have. -/
def isNameChar (c : Char) : Bool := Text.isAlphanumeric c || c == '_'

inductive Segment.Writes : Segment → String → Prop where
  | exact {text : String} : placeholder? text = none → Writes (.exact text) text
  | parameter {name part : String} : placeholder? part = some name → name ≠ restName →
      Writes (.parameter name) part
  | constrained {name part : String} {expression : Regex} : placeholder? part = some name →
      name ≠ restName → Writes (.constrained name expression) part
  | rest : Writes .rest "*"

namespace Segment

variable {part : String} {cs : List Char} {s : Segment} {name : String}

theorem checkName_eq_ok (h : checkName cs = .ok name) :
    name = String.ofList cs ∧ ∀ c ∈ cs, isNameChar c = true := by
  unfold checkName at h
  split at h
  · next valid =>
    cases h
    rw [Bool.and_eq_true, List.all_eq_true] at valid
    exact ⟨rfl, valid.2⟩
  · cases h

theorem ne_restName (chars : ∀ c ∈ cs, isNameChar c = true) : String.ofList cs ≠ restName := by
  intro star
  have chars' : cs = ['*'] := String.ofList_injective star
  rw [chars', List.forall_mem_singleton] at chars
  exact absurd chars (by decide)

/-- Behind an opening brace the name ends at the next colon or brace. -/
theorem placeholder?_brace (chars : ∀ c ∈ cs, isNameChar c = true) {stop : Char}
    (stops : stop = ':' ∨ stop = '\x7d') {more : List Char}
    (text : part.toList = '\x7b' :: (cs ++ stop :: more)) :
    placeholder? part = some (String.ofList cs) := by
  have inside : ∀ c ∈ cs, (c != ':' && c != '\x7d') = true := by
    intro c mem
    have name := chars c mem
    rw [Bool.and_eq_true, bne_iff_ne, bne_iff_ne]
    constructor
    · rintro rfl
      exact absurd name (by decide)
    · rintro rfl
      exact absurd name (by decide)
  have outside : (stop :: more).takeWhile (fun c => c != ':' && c != '\x7d') = [] := by
    rcases stops with rfl | rfl <;> exact List.takeWhile_cons_of_neg (by decide)
  have name : (cs ++ stop :: more).takeWhile (fun c => c != ':' && c != '\x7d') = cs := by
    rw [List.takeWhile_append_of_pos inside, outside, List.append_nil]
  simp [placeholder?, text, name]

theorem inBraces?_eq_some {inner : List Char} (h : inBraces? cs = some inner) :
    cs = '\x7b' :: (inner ++ ['\x7d']) := by
  unfold inBraces? at h
  split at h
  · next cs =>
    split at h
    · next last =>
      cases h
      rw [List.dropLast_append_getLast? _ last]
    · cases h
  · cases h

theorem map_checkName_eq_ok {make : String → Segment} (h : (checkName cs).map make = .ok s) :
    s = make (String.ofList cs) ∧ ∀ c ∈ cs, isNameChar c = true := by
  cases checked : checkName cs with
  | error e =>
    rw [checked] at h
    cases h
  | ok name =>
    obtain ⟨rfl, chars⟩ := checkName_eq_ok checked
    rw [checked] at h
    cases h
    exact ⟨rfl, chars⟩

theorem writes_of_read (h : read part = .ok s) : s.Writes part := by
  unfold read at h
  split at h
  · next star =>
    cases h
    obtain rfl : part = "*" := String.toList_inj.mp star
    exact .rest
  · next name colon =>
    obtain ⟨rfl, chars⟩ := map_checkName_eq_ok h
    refine .parameter ?_ (ne_restName chars)
    simp [placeholder?, colon]
  · next notStar notColon =>
    split at h
    · next open' =>
      split at h
      · cases h
      · next noBrace =>
        cases h
        refine .exact ?_
        unfold placeholder?
        split
        · next star => exact absurd star notStar
        · next colon => exact absurd colon (notColon _)
        · next brace => simp [brace] at noBrace
        · rfl
    · next inner braces =>
      have text := inBraces?_eq_some braces
      split at h
      · obtain ⟨rfl, chars⟩ := map_checkName_eq_ok h
        exact .parameter (placeholder?_brace chars (.inr rfl) text) (ne_restName chars)
      · next name expression cut =>
        rw [Text.eq_append_of_splitOnce cut, List.append_assoc, List.cons_append] at text
        split at h
        · cases h
        · next checked =>
          obtain ⟨rfl, chars⟩ := checkName_eq_ok checked
          split at h
          · cases h
            exact .constrained (placeholder?_brace chars (.inl rfl) text) (ne_restName chars)
          · cases h

end Segment

/-- The segments of a written pattern stand for those of a path and capture some of them. -/
inductive Fits : List String → List String → List (String × String) → Prop where
  | nil : Fits [] [] []
  | text {part : String} {ps qs : List String} {captured : List (String × String)} :
      placeholder? part = none → Fits ps qs captured → Fits (part :: ps) (part :: qs) captured
  | value {part name : String} {ps qs : List String} {captured : List (String × String)}
      (value : String) : placeholder? part = some name → name ≠ restName → Fits ps qs captured →
      Fits (part :: ps) (value :: qs) ((name, value) :: captured)
  | rest (qs : List String) : Fits ["*"] qs [(restName, "/".intercalate qs)]

theorem Pattern.exists_of_ofSegments {ps : List String} {s : Segment} {p : Pattern}
    (read : ofSegments ps = .ok (s :: p)) :
    ∃ part rest, ps = part :: rest ∧ s.Writes part ∧ ofSegments rest = .ok p ∧
      (s = .rest → rest = []) := by
  cases ps with
  | nil => cases read
  | cons part rest =>
    obtain ⟨s', p', first, later, eq, last⟩ := ofSegments_cons read
    cases eq
    exact ⟨part, rest, rfl, Segment.writes_of_read first, later, last⟩

theorem Pattern.fits_of_captures {p : Pattern} {ps qs : List String}
    {captured : List (String × String)} (captures : Captures p qs captured)
    (read : ofSegments ps = .ok p) : Fits ps qs captured := by
  induction captures generalizing ps with
  | nil =>
    cases ps with
    | nil => exact .nil
    | cons part ps =>
      obtain ⟨s, q, -, -, eq, -⟩ := ofSegments_cons read
      cases eq
  | exact text _ ih =>
    obtain ⟨part, ps, rfl, writes, later, -⟩ := exists_of_ofSegments read
    cases writes with
    | exact none => exact .text none (ih later)
  | parameter name value _ ih =>
    obtain ⟨part, ps, rfl, writes, later, -⟩ := exists_of_ofSegments read
    cases writes with
    | parameter named other => exact .value value named other (ih later)
  | constrained name _ _ ih =>
    obtain ⟨part, ps, rfl, writes, later, -⟩ := exists_of_ofSegments read
    cases writes with
    | constrained named other => exact .value _ named other (ih later)
  | rest qs =>
    obtain ⟨part, ps, rfl, writes, -, last⟩ := exists_of_ofSegments read
    cases writes with
    | rest =>
      rw [last rfl]
      exact .rest qs

/-! ## Positions -/

/-- The name under which the segment at a position of a pattern captures. -/
def nameAt (ps : List String) (i : Nat) : Option String := ps[i]?.bind placeholder?

/-- What the segment at a position takes from the segments of a path under its name: the one that
stands there, or the rest. -/
def takenAt (qs : List String) (i : Nat) (name : String) : Option String :=
  if name = restName then some ("/".intercalate (qs.drop i)) else qs[i]?

@[simp] theorem nameAt_zero (part : String) (ps : List String) :
    nameAt (part :: ps) 0 = placeholder? part := rfl

@[simp] theorem nameAt_succ (part : String) (ps : List String) (i : Nat) :
    nameAt (part :: ps) (i + 1) = nameAt ps i := rfl

@[simp] theorem takenAt_succ (value : String) (qs : List String) (i : Nat) (name : String) :
    takenAt (value :: qs) (i + 1) name = takenAt qs i name := rfl

theorem takenAt_of_ne {name : String} (other : name ≠ restName) (qs : List String) (i : Nat) :
    takenAt qs i name = qs[i]? := if_neg other

theorem placeholder?_rest : placeholder? "*" = some restName := rfl

/-- No name takes different segments. -/
def Agree (ps qs : List String) : Prop :=
  ∀ i j name, nameAt ps i = some name → nameAt ps j = some name → qs[i]? = qs[j]?

theorem agree_iff_lt {ps qs : List String} :
    Agree ps qs ↔ ∀ i < ps.length, ∀ j < ps.length,
      nameAt ps i ≠ none → nameAt ps i = nameAt ps j → qs[i]? = qs[j]? := by
  constructor
  · intro agree i _ j _ some same
    obtain ⟨name, named⟩ := Option.ne_none_iff_exists'.mp some
    exact agree i j name named (same.symm.trans named)
  · intro agree i j name named named'
    have short : ∀ {k : Nat}, nameAt ps k = some name → k < ps.length := by
      intro k named
      obtain ⟨part, at', -⟩ := Option.bind_eq_some_iff.mp named
      exact (List.getElem?_eq_some_iff.mp at').1
    refine agree i (short named) j (short named') ?_ (named.trans named'.symm)
    rw [named]
    exact Option.some_ne_none name

instance (ps qs : List String) : Decidable (Agree ps qs) := decidable_of_iff' _ agree_iff_lt

/-- Distinct names agree. -/
theorem agree_of_nodup {ps : List String} (nodup : (ps.filterMap placeholder?).Nodup)
    (qs : List String) : Agree ps qs := by
  have apart := List.pairwise_iff_getElem.mp (List.pairwise_filterMap.mp nodup)
  intro i j name named named'
  obtain ⟨part, at', here⟩ := Option.bind_eq_some_iff.mp named
  obtain ⟨part', at'', here'⟩ := Option.bind_eq_some_iff.mp named'
  obtain ⟨hi, rfl⟩ := List.getElem?_eq_some_iff.mp at'
  obtain ⟨hj, rfl⟩ := List.getElem?_eq_some_iff.mp at''
  rcases Nat.lt_trichotomy i j with lt | rfl | gt
  · exact absurd rfl (apart i j hi hj lt name here name here')
  · rfl
  · exact absurd rfl (apart j i hj hi gt name here' name here)

namespace Fits

variable {ps qs : List String} {captured : List (String × String)} {e : String × String}
  {params : Dictionary String}

theorem position_of_mem (fits : Fits ps qs captured) (mem : e ∈ captured) :
    ∃ i, nameAt ps i = some e.1 ∧ takenAt qs i e.1 = some e.2 := by
  induction fits with
  | nil => cases mem
  | text none _ ih =>
    obtain ⟨i, here⟩ := ih mem
    exact ⟨i + 1, here⟩
  | value value named other _ ih =>
    rcases List.mem_cons.mp mem with rfl | mem
    · exact ⟨0, named, takenAt_of_ne other _ 0⟩
    · obtain ⟨i, here⟩ := ih mem
      exact ⟨i + 1, here⟩
  | rest qs =>
    rw [List.mem_singleton.mp mem]
    exact ⟨0, rfl, rfl⟩

/-- What a position with a name takes is captured, and before what later positions take. -/
theorem captured_at (fits : Fits ps qs captured) {i : Nat} {name : String}
    (named : nameAt ps i = some name) :
    ∃ front value back, captured = front ++ (name, value) :: back ∧
      takenAt qs i name = some value ∧ ∀ e ∈ back, ∃ j, i < j ∧ nameAt ps j = some e.1 := by
  induction fits generalizing i with
  | nil => cases named
  | text none _ ih =>
    cases i with
    | zero =>
      rw [nameAt_zero, none] at named
      cases named
    | succ i =>
      obtain ⟨front, value, back, split, taken, later⟩ := ih named
      refine ⟨front, value, back, split, taken, fun e mem => ?_⟩
      obtain ⟨j, lt, named'⟩ := later e mem
      exact ⟨j + 1, Nat.succ_lt_succ lt, named'⟩
  | @value _ _ _ _ captured value named' other fits ih =>
    cases i with
    | zero =>
      rw [nameAt_zero, named'] at named
      obtain rfl := Option.some.inj named
      refine ⟨[], value, captured, rfl, takenAt_of_ne other _ 0, fun e mem => ?_⟩
      obtain ⟨j, later, -⟩ := fits.position_of_mem mem
      exact ⟨j + 1, Nat.succ_pos j, later⟩
    | succ i =>
      obtain ⟨front, value', back, split, taken, later⟩ := ih named
      refine ⟨_ :: front, value', back, congrArg _ split, taken, fun e mem => ?_⟩
      obtain ⟨j, lt, named''⟩ := later e mem
      exact ⟨j + 1, Nat.succ_lt_succ lt, named''⟩
  | rest qs =>
    cases i with
    | zero =>
      obtain rfl := Option.some.inj named
      exact ⟨[], _, [], rfl, rfl, nofun⟩
    | succ i => cases named

/-- Only the last segment of a pattern takes the rest. -/
theorem last_of_rest (fits : Fits ps qs captured) {i : Nat} (named : nameAt ps i = some restName) :
    i + 1 = ps.length := by
  induction fits generalizing i with
  | nil => cases named
  | text none _ ih =>
    cases i with
    | zero =>
      rw [nameAt_zero, none] at named
      cases named
    | succ i => exact congrArg Nat.succ (ih named)
  | value value named' other _ ih =>
    cases i with
    | zero =>
      rw [nameAt_zero, named'] at named
      exact absurd (Option.some.inj named) other
    | succ i => exact congrArg Nat.succ (ih named)
  | rest qs =>
    cases i with
    | zero => rfl
    | succ i => cases named

theorem eq_of_rest (fits : Fits ps qs captured) {i j : Nat} (named : nameAt ps i = some restName)
    (named' : nameAt ps j = some restName) : i = j :=
  Nat.succ.inj ((fits.last_of_rest named).trans (fits.last_of_rest named').symm)

/-- Of the positions with one name the dictionary keeps what the last one takes. -/
theorem get?_last (fits : Fits ps qs captured) {i : Nat} {name : String}
    (named : nameAt ps i = some name) (last : ∀ j, nameAt ps j = some name → j ≤ i) :
    (Dictionary.ofList captured).get? name = takenAt qs i name := by
  obtain ⟨front, value, back, split, taken, later⟩ := fits.captured_at named
  rw [taken, ← (Dictionary.ascending_ofList _).mem_iff_get?, Dictionary.mem_ofList_iff]
  refine ⟨front, back, split, fun e mem same => ?_⟩
  obtain ⟨j, lt, named'⟩ := later e mem
  rw [show e.1 = name from same] at named'
  exact absurd (last j named') (Nat.not_le.mpr lt)

/-- The rest of the path is never lost. -/
theorem get?_rest (fits : Fits ps qs captured) (mem : e ∈ captured) (rest : e.1 = restName) :
    (Dictionary.ofList captured).get? e.1 = some e.2 := by
  obtain ⟨i, named, taken⟩ := fits.position_of_mem mem
  rw [← taken]
  refine fits.get?_last named fun j named' => ?_
  rw [rest] at named named'
  exact Nat.le_of_eq (fits.eq_of_rest named' named)

theorem takenAt_eq_of_agree (fits : Fits ps qs captured) (agree : Agree ps qs) {i j : Nat}
    {name : String} (named : nameAt ps i = some name) (named' : nameAt ps j = some name) :
    takenAt qs i name = takenAt qs j name := by
  by_cases rest : name = restName
  · subst rest
    rw [fits.eq_of_rest named named']
  · rw [takenAt_of_ne rest, takenAt_of_ne rest]
    exact agree i j name named named'

/-- Names agree just if every value that was captured is found. -/
theorem agree_iff (fits : Fits ps qs captured) :
    Agree ps qs ↔ ∀ e ∈ captured, e.1 ≠ restName →
      (Dictionary.ofList captured).get? e.1 = some e.2 := by
  constructor
  · intro agree e mem _
    obtain ⟨value, found, mem'⟩ := Dictionary.exists_get?_ofList mem
    obtain ⟨i, named, taken⟩ := fits.position_of_mem mem
    obtain ⟨j, named', taken'⟩ := fits.position_of_mem mem'
    have same := fits.takenAt_eq_of_agree agree named named'
    rw [taken, taken'] at same
    rw [found, same]
  · intro found i j name named named'
    by_cases rest : name = restName
    · subst rest
      rw [fits.eq_of_rest named named']
    · obtain ⟨front, value, back, split, taken, -⟩ := fits.captured_at named
      obtain ⟨front', value', back', split', taken', -⟩ := fits.captured_at named'
      have here := found (name, value) (by simp [split]) rest
      have there := found (name, value') (by simp [split']) rest
      rw [takenAt_of_ne rest] at taken taken'
      rw [taken, taken', ← here, ← there]

/-! ## Filling -/

/-- Values that are all found give the path. -/
theorem flatMap_fill (fits : Fits ps qs captured) (pattern : ∀ part ∈ ps, IsPart part)
    (path : ∀ value ∈ qs, IsPart value) (found : ∀ e ∈ captured, params.get? e.1 = some e.2) :
    ps.flatMap (fun part => segments (fillSegment params part)) = qs := by
  induction fits with
  | nil => rfl
  | text none _ ih =>
    obtain ⟨here, pattern⟩ := List.forall_mem_cons.mp pattern
    rw [List.flatMap_cons, fillSegment_text none, segments_of_isPart here,
      ih pattern (List.forall_mem_cons.mp path).2 found]
    rfl
  | value value named other _ ih =>
    obtain ⟨here, path⟩ := List.forall_mem_cons.mp path
    obtain ⟨first, found⟩ := List.forall_mem_cons.mp found
    rw [List.flatMap_cons, fillSegment_value named first, segments_of_isPart here,
      ih (List.forall_mem_cons.mp pattern).2 path found]
    rfl
  | rest qs =>
    have first := found _ List.mem_cons_self
    rw [List.flatMap_cons, fillSegment_value placeholder?_rest first, segments_intercalate,
      List.flatMap_nil, List.append_nil]
    exact flatMap_segments path

/-- The path is had back only if the values of its segments are found. -/
theorem found_of_flatMap_fill (fits : Fits ps qs captured) (pattern : ∀ part ∈ ps, IsPart part)
    (values : ∀ e ∈ captured, e.1 ≠ restName → ∃ value, params.get? e.1 = some value ∧ IsPart value)
    (filled : ps.flatMap (fun part => segments (fillSegment params part)) = qs) :
    ∀ e ∈ captured, e.1 ≠ restName → params.get? e.1 = some e.2 := by
  induction fits with
  | nil => exact nofun
  | text none _ ih =>
    obtain ⟨here, pattern⟩ := List.forall_mem_cons.mp pattern
    rw [List.flatMap_cons, fillSegment_text none, segments_of_isPart here] at filled
    exact ih pattern values (List.cons.inj filled).2
  | value value named other _ ih =>
    obtain ⟨first, later⟩ := List.forall_mem_cons.mp values
    obtain ⟨value', found, isPart⟩ := first other
    rw [List.flatMap_cons, fillSegment_value named found, segments_of_isPart isPart] at filled
    obtain ⟨rfl, rest⟩ := List.cons.inj filled
    exact List.forall_mem_cons.mpr
      ⟨fun _ => found, ih (List.forall_mem_cons.mp pattern).2 later rest⟩
  | rest qs =>
    intro e mem other
    rw [List.mem_singleton.mp mem] at other
    exact absurd rfl other

end Fits

theorem isPart_of_mem_segments (path : String) : ∀ part ∈ segments path, IsPart part :=
  fun _ => not_mem_of_mem_segments

theorem Pattern.fits_of_match? {raw : String} {p : Pattern} {qs : List String}
    {params : Dictionary String} (h : read raw = .ok p) (isMatch : p.match? qs = some params) :
    ∃ captured, Fits (segments raw) qs captured ∧ params = .ofList captured := by
  obtain ⟨captured, captures, eq⟩ := (match?_eq_some (restLast_of_read h)).mp isMatch
  refine ⟨captured, fits_of_captures captures ?_, eq⟩
  unfold read at h
  split at h
  · exact h
  · cases h

/-- A parameter but the rest has a segment of the path as its value. -/
theorem Fits.isPart_of_captured {ps qs : List String} {captured : List (String × String)}
    (fits : Fits ps qs captured) (path : ∀ value ∈ qs, IsPart value) :
    ∀ e ∈ captured, e.1 ≠ restName → IsPart e.2 := by
  intro e mem other
  obtain ⟨i, -, taken⟩ := fits.position_of_mem mem
  rw [takenAt_of_ne other] at taken
  exact path _ (List.mem_of_getElem? taken)

/-- **Parameters.** Let a pattern match a path. Its parameters, each filled in for its segment and
the rest for the catch-all, give back the segments of the path just if no name takes different
segments, and so for every pattern whose names are distinct. In any case a name has the value that
its last position in the pattern takes. -/
theorem fill_captured {raw path : String} {p : Pattern} {params : Dictionary String}
    (read : Pattern.read raw = .ok p) (isMatch : p.match? (segments path) = some params) :
    (segments (fill params raw) = segments path ↔ Agree (segments raw) (segments path)) ∧
      (((segments raw).filterMap placeholder?).Nodup →
        segments (fill params raw) = segments path) ∧
      ∀ i name, nameAt (segments raw) i = some name →
        (∀ j, nameAt (segments raw) j = some name → j ≤ i) →
        params.get? name = takenAt (segments path) i name := by
  obtain ⟨captured, fits, rfl⟩ := Pattern.fits_of_match? read isMatch
  have exact' : segments (fill (.ofList captured) raw) = segments path ↔
      Agree (segments raw) (segments path) := by
    rw [segments_fill, fits.agree_iff]
    constructor
    · refine fits.found_of_flatMap_fill (isPart_of_mem_segments raw) fun e mem other => ?_
      obtain ⟨value, found, mem'⟩ := Dictionary.exists_get?_ofList mem
      exact ⟨value, found, fits.isPart_of_captured (isPart_of_mem_segments path) _ mem' other⟩
    · intro found
      refine fits.flatMap_fill (isPart_of_mem_segments raw) (isPart_of_mem_segments path) ?_
      intro e mem
      by_cases rest : e.1 = restName
      · exact fits.get?_rest mem rest
      · exact found e mem rest
  exact ⟨exact', fun nodup => exact'.mpr (agree_of_nodup nodup _),
    fun i name named last => fits.get?_last named last⟩

/-- A name that stands twice takes one segment both times, and the rest is empty. -/
theorem fill_captured_again :
    let raw := "/\x7ba\x7d/:b//\x7ba\x7d/*"
    let p : Pattern := [.parameter "a", .parameter "b", .parameter "a", .rest]
    let params := [("*", ""), ("a", "x"), ("b", "y")]
    Pattern.read raw = .ok p ∧ p.match? (segments "x/y/x//") = some params ∧
      segments (fill params raw) = segments "x/y/x//" := by
  intro raw p params
  have read : Pattern.read raw = .ok p := by decide +kernel
  have isMatch : p.match? (segments "x/y/x//") = some params := by decide +kernel
  have agree : Agree (segments raw) (segments "x/y/x//") := by decide +kernel
  exact ⟨read, isMatch, (fill_captured read isMatch).1.mpr agree⟩

/-- A name that stands twice takes two segments and keeps the second one. -/
theorem fill_overwrites :
    let raw := "/\x7ba\x7d/\x7ba\x7d"
    let p : Pattern := [.parameter "a", .parameter "a"]
    Pattern.read raw = .ok p ∧ p.match? (segments "/x/y") = some [("a", "y")] ∧
      fill [("a", "y")] raw = "/y/y" ∧ segments "/y/y" ≠ segments "/x/y" := by
  decide +kernel

end ScriptServer.Route
