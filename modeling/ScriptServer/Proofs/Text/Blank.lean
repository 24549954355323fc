import Mathlib.Data.List.DropRight
import ScriptServer.Proofs.Text.Case
import ScriptServer.Proofs.Text.Split

/-!
# White space around texts and between words

Trimming takes white space off the ends and leaves what has none there as it is. Words that are
written with blanks between them are found again.
-/

namespace ScriptServer.Text

variable {c : Char} {cs : List Char}

/-- Visible ASCII characters are no white space. -/
theorem isBlank_of_visible (above : 0x20 < c.toNat) (below : c.toNat < 0x85) :
    isBlank c = false := by
  simp only [isBlank, Bool.or_eq_false_iff, Bool.and_eq_false_iff, decide_eq_false_iff_not,
    beq_eq_false_iff_ne]
  omega

theorem isBlank_upper (c : Char) : isBlank (upper c) = isBlank c := by
  by_cases lower : 97 ≤ c.toNat ∧ c.toNat ≤ 122
  · have above := upper_of_lower lower
    rw [isBlank_of_visible (by omega) (by omega), isBlank_of_visible (by omega) (by omega)]
  · rw [upper_of_not_lower lower]

theorem not_mem_of_solid (solid : ∀ c ∈ cs, isBlank c = false) (h : isBlank c = true) : c ∉ cs :=
  fun mem => Bool.noConfusion (h.symm.trans (solid c mem))

/-! ## The ends of a text -/

/-- No white space stands at either end. -/
structure IsTrimmed (cs : List Char) : Prop where
  start : ∀ c, cs.head? = some c → isBlank c = false
  stop : ∀ c, cs.getLast? = some c → isBlank c = false

theorem trimChars_of_isTrimmed (h : IsTrimmed cs) : trimChars cs = cs := by
  have start : cs.dropWhile isBlank = cs := by
    cases cs with
    | nil => rfl
    | cons c cs => exact List.dropWhile_cons_of_neg (by simp [h.start c rfl])
  have stop : cs.rdropWhile isBlank = cs := by
    refine List.rdropWhile_eq_self_iff.mpr fun some blank => ?_
    rw [h.stop _ (List.getLast?_eq_some_getLast some)] at blank
    cases blank
  rw [trimChars, start]
  exact stop

theorem trim_of_isTrimmed {s : String} (h : IsTrimmed s.toList) : trim s = s := by
  rw [trim, trimChars_of_isTrimmed h, String.ofList_toList]

/-- A text without any white space. -/
theorem isTrimmed_of_solid (h : ∀ c ∈ cs, isBlank c = false) : IsTrimmed cs :=
  ⟨fun c first => h c (List.mem_of_head? first), fun c last => h c (List.mem_of_getLast? last)⟩

theorem isTrimmed_trimChars (cs : List Char) : IsTrimmed (trimChars cs) := by
  have cut : trimChars cs = (cs.dropWhile isBlank).rdropWhile isBlank := rfl
  rw [cut]
  refine ⟨fun c first => ?_, fun c last => ?_⟩
  · obtain ⟨later, front⟩ := List.rdropWhile_prefix isBlank (l := cs.dropWhile isBlank)
    obtain ⟨rest, eq⟩ := List.head?_eq_some_iff.mp first
    have none := List.head?_dropWhile_not isBlank cs
    rw [← front, eq] at none
    exact none
  · have some : (cs.dropWhile isBlank).rdropWhile isBlank ≠ [] := by
      intro none
      rw [none] at last
      cases last
    rw [List.getLast?_eq_some_getLast some] at last
    obtain rfl := Option.some.inj last
    exact Bool.eq_false_iff.mpr (List.rdropWhile_last_not isBlank _ some)

theorem trimChars_trimChars (cs : List Char) : trimChars (trimChars cs) = trimChars cs :=
  trimChars_of_isTrimmed (isTrimmed_trimChars cs)

theorem trimChars_cons_of_blank (h : isBlank c = true) (cs : List Char) :
    trimChars (c :: cs) = trimChars cs := by
  rw [trimChars, List.dropWhile_cons_of_pos h, trimChars]

theorem trimChars_concat_of_blank (h : isBlank c = true) (cs : List Char) :
    trimChars (cs ++ [c]) = trimChars cs := by
  rw [trimChars, List.dropWhile_append, trimChars]
  split
  · next all =>
    rw [List.isEmpty_iff.mp all, List.dropWhile_cons_of_pos h, List.dropWhile_nil]
  · exact congrArg id (List.rdropWhile_concat_pos isBlank (cs.dropWhile isBlank) c h)

theorem mem_of_mem_trimChars (h : c ∈ trimChars cs) : c ∈ cs :=
  (List.dropWhile_suffix isBlank).subset ((List.rdropWhile_prefix isBlank _).subset h)

theorem trimChars_map_upper (cs : List Char) :
    trimChars (cs.map upper) = (trimChars cs).map upper := by
  have same : isBlank ∘ upper = isBlank := funext isBlank_upper
  simp only [trimChars, trimEndChars, List.dropWhile_map, ← List.map_reverse, same]

theorem toUpper_trim_idempotent (s : String) :
    toUpper (trim (toUpper (trim s))) = toUpper (trim s) := by
  simp only [toUpper, trim, String.toList_ofList, trimChars_map_upper, trimChars_trimChars,
    List.map_map]
  congr 2
  exact funext upper_upper

/-! ## Words -/

/-- No white space is left in a word. -/
theorem solid_of_mem_words {word : List Char} (h : word ∈ words cs) :
    ∀ c ∈ word, isBlank c = false := by
  intro c mem
  have part := List.mem_of_mem_filter h
  obtain ⟨d, -, eq⟩ := List.mem_map.mp (mem_of_mem_splitOn part mem)
  by_cases blank : isBlank d = true
  · rw [if_pos blank] at eq
    exact absurd (eq ▸ mem) (not_mem_of_mem_splitOn part)
  · rw [if_neg blank] at eq
    exact eq ▸ Bool.eq_false_iff.mpr blank

/-- What stands before white space and has none inside is a word of its own. -/
theorem words_append {word : List Char} (some : word ≠ []) (solid : ∀ c ∈ word, isBlank c = false)
    (h : isBlank c = true) (cs : List Char) : words (word ++ c :: cs) = word :: words cs := by
  have same : (word.map fun c => if isBlank c then ' ' else c) = word := by
    have plain : ∀ c ∈ word, (if isBlank c then ' ' else c) = id c := fun c mem =>
      if_neg (Bool.eq_false_iff.mp (solid c mem))
    rw [List.map_congr_left plain, List.map_id]
  have no_space : ' ' ∉ word := not_mem_of_solid solid (by decide)
  rw [words, List.map_append, same, List.map_cons, if_pos h, splitOn_append,
    splitOn_of_not_mem no_space, List.singleton_append]
  exact List.filter_cons_of_pos (bne_iff_ne.mpr some)

end ScriptServer.Text
