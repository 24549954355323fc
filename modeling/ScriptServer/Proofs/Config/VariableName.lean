import Mathlib.Data.List.Chain
import ScriptServer.Config.Environment
import ScriptServer.Proofs.Text.Case
import ScriptServer.Proofs.Text.Digits

/-!
# Names of variables

`Style.name` writes the words of a setting in one of the usual styles, and `spelling` tells them
apart again. In every style a word behind another one is read as if it stood behind an underscore
(`spell_behind`), so the words are passed one after the other (`spell_name`). Whatever a name is made
of, its spelling goes on as if an underscore had been written in front of it (`isChain_spell`): so
there is none at its front, and no two of them side by side.
-/

namespace ScriptServer.Config

/-! ## Styles of names -/

def isSmall (c : Char) : Bool := Text.isLower c || Text.isDigit c

/-- A small letter, and behind it small letters and digits. -/
structure IsWord (w : String) : Prop where
  start : w.toList.head?.any Text.isLower = true
  chars : w.toList.all isSmall = true

instance (w : String) : Decidable (IsWord w) :=
  decidable_of_iff (w.toList.head?.any Text.isLower = true ∧ w.toList.all isSmall = true)
    ⟨fun h => ⟨h.1, h.2⟩, fun h => ⟨h.start, h.chars⟩⟩

/-- How the words of a name are told apart. -/
inductive Style where
  | snake
  | kebab
  | dotted
  | camel
  deriving DecidableEq, Repr

def Style.behind : Style → String → String
  | snake, w => "_" ++ w
  | kebab, w => "-" ++ w
  | dotted, w => "." ++ w
  | camel, w => String.ofList (w.toList.modifyHead Text.upper)

def Style.name (style : Style) : List String → String
  | [] => ""
  | w :: ws => w ++ String.join (ws.map style.behind)

variable {c d : Char} {cs rest : List Char} {last : Option Char} {small : Bool} {style : Style}
  {w : String} {ws : List String}

theorem IsWord.eq_cons (h : IsWord w) : ∃ c cs, w.toList = c :: cs ∧ Text.isLower c = true := by
  have start := h.start
  cases eq : w.toList with
  | nil =>
    rw [eq] at start
    cases start
  | cons c cs =>
    rw [eq] at start
    exact ⟨c, cs, rfl, start⟩

theorem IsWord.isSmall_of_mem (h : IsWord w) (mem : c ∈ w.toList) : isSmall c = true :=
  List.all_eq_true.mp h.chars c mem

theorem Style.toList_name_cons (style : Style) (w : String) (ws : List String) :
    (style.name (w :: ws)).toList = w.toList ++ ws.flatMap fun v => (style.behind v).toList := by
  rw [name, String.toList_append, String.toList_join, List.flatMap_map]

/-! ## One character -/

theorem isSmall_iff : isSmall c = true ↔
    97 ≤ c.toNat ∧ c.toNat ≤ 122 ∨ 48 ≤ c.toNat ∧ c.toNat ≤ 57 := by
  rw [isSmall, Bool.or_eq_true, Text.isLower_iff, Text.isDigit_iff]

theorem isSeparator_iff :
    isSeparator c = true ↔ (c.toNat = 95 ∨ c.toNat = 45) ∨ c.toNat = 46 := by
  simp only [isSeparator, Bool.or_eq_true, beq_iff_eq, ← Char.toNat_inj, Char.reduceToNat]

theorem not_isSeparator_of_isSmall (h : isSmall c = true) : isSeparator c = false := by
  rw [isSmall_iff] at h
  rw [Bool.eq_false_iff, Ne, isSeparator_iff]
  omega

theorem not_isUpper_of_isSmall (h : isSmall c = true) : Text.isUpper c = false := by
  rw [isSmall_iff] at h
  rw [Bool.eq_false_iff, Ne, Text.isUpper_iff]
  omega

theorem isUpper_upper (h : Text.isLower c = true) : Text.isUpper (Text.upper c) = true := by
  rw [Text.isLower_iff] at h
  rw [Text.isUpper_iff, Text.upper_of_lower h]
  omega

theorem not_isSeparator_of_isUpper (h : Text.isUpper c = true) : isSeparator c = false := by
  rw [Text.isUpper_iff] at h
  rw [Bool.eq_false_iff, Ne, isSeparator_iff]
  omega

theorem spell_separator (h : isSeparator c = true) (other : d ≠ '_') (cs : List Char) :
    spell (some d) small (c :: cs) = '_' :: spell (some '_') false cs := by
  rw [spell, if_pos h, if_neg (by simpa using other)]

theorem spell_small (h : isSmall c = true) (cs : List Char) :
    spell last small (c :: cs) = Text.upper c :: spell (some (Text.upper c)) true cs := by
  have flag : (Text.isLower c || Text.isDigit c) = true := h
  rw [spell, not_isSeparator_of_isSmall h, not_isUpper_of_isSmall h, flag]
  rfl

/-- What was read before matters to a capital only. -/
theorem spell_flag (h : ∀ c ∈ cs.head?, Text.isUpper c = false) (small other : Bool) :
    spell last small cs = spell last other cs := by
  cases cs with
  | nil => rfl
  | cons c cs =>
    rw [spell, spell, h c rfl, Bool.false_and, Bool.false_and]

theorem spell_capital (h : Text.isUpper c = true) (cs : List Char) :
    spell last true (c :: cs) =
      '_' :: Text.upper c :: spell (some (Text.upper c)) (Text.isLower c || Text.isDigit c) cs := by
  rw [spell, not_isSeparator_of_isUpper h, h]
  rfl

/-- A capital with no capital behind it is read as if its small letter stood behind an
underscore. -/
theorem spell_upper (h : Text.isLower c = true) (next : ∀ d ∈ cs.head?, Text.isUpper d = false) :
    spell last true (Text.upper c :: cs) = '_' :: spell (some '_') false (c :: cs) := by
  have small : isSmall c = true := by rw [isSmall, h, Bool.true_or]
  rw [spell_capital (isUpper_upper h), Text.upper_upper, spell_small small, spell_flag next _ true]

/-! ## One word -/

theorem spell_chars (some : cs ≠ []) (h : ∀ c ∈ cs, isSmall c = true) (rest : List Char) :
    spell last small (cs ++ rest) =
      cs.map Text.upper ++ spell (.some (Text.upper (cs.getLast some))) true rest := by
  induction cs generalizing last small with
  | nil => exact absurd rfl some
  | cons c cs ih =>
    obtain ⟨first, others⟩ := List.forall_mem_cons.mp h
    rw [List.cons_append, spell_small first]
    cases cs with
    | nil => rfl
    | cons e es =>
      rw [ih (List.cons_ne_nil _ _) others, List.getLast_cons (List.cons_ne_nil _ _)]
      rfl

/-- A word leaves behind that something other than an underscore was written. -/
theorem IsWord.spell_append (h : IsWord w) (last : Option Char) (small : Bool) : ∃ d, d ≠ '_' ∧
    ∀ rest, spell last small (w.toList ++ rest) =
      w.toList.map Text.upper ++ spell (some d) true rest := by
  obtain ⟨c, cs, eq, -⟩ := h.eq_cons
  have more : w.toList ≠ [] := eq ▸ List.cons_ne_nil c cs
  refine ⟨Text.upper (w.toList.getLast more), ?_, spell_chars more fun _ => h.isSmall_of_mem⟩
  rw [Ne, Text.upper_eq_underscore]
  intro underscore
  have final := h.isSmall_of_mem (List.getLast_mem more)
  rw [underscore] at final
  cases final

/-- In camel case a word of one letter must be the last, or its letter and the next capital are
taken for one word. -/
theorem spell_behind (h : IsWord w) (other : d ≠ '_')
    (long : style = .camel → 2 ≤ w.length ∨ rest = []) :
    spell (some d) true ((style.behind w).toList ++ rest) =
      '_' :: spell (some '_') false (w.toList ++ rest) := by
  cases style with
  | snake | kebab | dotted =>
    rw [Style.behind, String.toList_append]
    exact spell_separator rfl other _
  | camel =>
    obtain ⟨c, cs, eq, letter⟩ := h.eq_cons
    rw [Style.behind, String.toList_ofList, eq, List.modifyHead_cons, List.cons_append,
      List.cons_append]
    refine spell_upper letter fun e mem => ?_
    cases cs with
    | nil =>
      rcases long rfl with two | rfl
      · rw [← String.length_toList, eq, List.length_singleton] at two
        omega
      · cases mem
    | cons e' es =>
      obtain rfl := Option.some.inj mem
      exact not_isUpper_of_isSmall (h.isSmall_of_mem (by rw [eq]; simp))

/-! ## Names -/

theorem spell_name (words : ∀ v ∈ w :: ws, IsWord v)
    (long : style = .camel → ∀ v ∈ ws.dropLast, 2 ≤ v.length) :
    spell last small (style.name (w :: ws)).toList =
      ['_'].intercalate ((w :: ws).map fun v => v.toList.map Text.upper) := by
  -- Behind an underscore the next word is read as a first one, so any word may be in front.
  induction ws generalizing w last small with
  | nil =>
    obtain ⟨d, -, word⟩ := (words w List.mem_cons_self).spell_append last small
    rw [Style.toList_name_cons, List.flatMap_nil, word, spell, List.append_nil]
    exact List.intercalate_singleton.symm
  | cons v ws ih =>
    obtain ⟨first, others⟩ := List.forall_mem_cons.mp words
    obtain ⟨d, other, word⟩ := first.spell_append last small
    have second := others v List.mem_cons_self
    have room : style = .camel → 2 ≤ v.length ∨
        (ws.flatMap fun u => (style.behind u).toList) = [] := by
      intro camel
      cases ws with
      | nil => exact .inr rfl
      | cons u us => exact .inl (long camel v List.mem_cons_self)
    have inner : style = .camel → ∀ u ∈ ws.dropLast, 2 ≤ u.length := by
      intro camel u mem
      cases ws with
      | nil => cases mem
      | cons u us => exact long camel _ (List.mem_cons_of_mem _ mem)
    calc spell last small (style.name (w :: v :: ws)).toList
      _ = w.toList.map Text.upper ++ spell (some d) true
            ((style.behind v).toList ++ ws.flatMap fun u => (style.behind u).toList) := by
          rw [Style.toList_name_cons, word, List.flatMap_cons]
      _ = w.toList.map Text.upper ++ '_' :: spell (some '_') false (style.name (v :: ws)).toList := by
          rw [spell_behind second other room, Style.toList_name_cons]
      _ = _ := by
          rw [ih others inner, List.map_cons, List.map_cons, List.map_cons,
            List.intercalate_cons_cons, List.append_assoc]
          rfl

/-! ## Underscores -/

/-- The two characters are not both underscores. -/
def Apart (a b : Char) : Prop := a ≠ '_' ∨ b ≠ '_'

theorem not_apart_underscores : ¬Apart '_' '_' := fun h => h.elim (· rfl) (· rfl)

theorem getD_underscore : last.getD '_' = '_' ↔ last = none ∨ last = some '_' := by
  cases last with
  | none => simp
  | some d => simp

/-- Where nothing has been written yet, it is as if the last character were an underscore. -/
theorem isChain_spell (cs : List Char) (last : Option Char) (small : Bool)
    (h : small = true → last.getD '_' ≠ '_') :
    (last.getD '_' :: spell last small cs).IsChain Apart := by
  induction cs generalizing last small with
  | nil => exact List.isChain_singleton _
  | cons c cs ih =>
    by_cases separator : isSeparator c = true
    · rw [spell, if_pos separator]
      by_cases underscore : last = none ∨ last = some '_'
      · rw [if_pos underscore]
        exact ih last false nofun
      · rw [if_neg underscore, List.isChain_cons_cons]
        exact ⟨.inl (mt getD_underscore.mp underscore), ih (some '_') false nofun⟩
    · have letter : Text.upper c ≠ '_' := by
        rw [Ne, Text.upper_eq_underscore]
        rintro rfl
        exact separator rfl
      have later := ih (some (Text.upper c)) (Text.isLower c || Text.isDigit c) fun _ => letter
      rw [spell, if_neg separator]
      simp only
      split
      · next capital =>
        rw [Bool.and_eq_true] at capital
        rw [List.isChain_cons_cons, List.isChain_cons_cons]
        exact ⟨.inl (h capital.2), .inr letter, later⟩
      · rw [List.isChain_cons_cons]
        exact ⟨.inr letter, later⟩

theorem isChain_spelling (name : String) : ('_' :: (spelling name).toList).IsChain Apart := by
  rw [spelling, String.toList_ofList]
  exact isChain_spell name.toList none false nofun

/-- **Names of variables.** In every style a name is spelled as its words in upper case with one
underscore between two of them, if no word but the first and the last is a single letter. The
spelling of any name whatever begins with no underscore, and has no two of them in a row. -/
theorem spelling_styled :
    (∀ words : List String, (∀ w ∈ words, IsWord w) →
        (∀ w ∈ words.tail.dropLast, 2 ≤ w.length) →
        ∀ style : Style, spelling (style.name words) = "_".intercalate (words.map Text.toUpper)) ∧
      ∀ name : String, (spelling name).toList.head? ≠ some '_' ∧
        ¬ ['_', '_'] <:+: (spelling name).toList := by
  refine ⟨fun words isWord long style => ?_, fun name => ⟨fun front => ?_, fun twice => ?_⟩⟩
  · cases words with
    | nil => rfl
    | cons w ws =>
      rw [spelling, spell_name isWord fun _ => long, ← String.toList_inj, String.toList_ofList,
        String.toList_intercalate, List.map_map]
      congr 1
      refine List.map_congr_left fun v _ => ?_
      rw [Function.comp_apply, Text.toUpper, String.toList_ofList]
  · exact not_apart_underscores ((isChain_spelling name).rel_head? front)
  · obtain ⟨before, behind, eq⟩ := twice
    rw [List.append_assoc] at eq
    have chain := (isChain_spelling name).tail
    exact not_apart_underscores
      (List.isChain_iff_forall_rel_of_append_cons_cons.mp chain eq.symm)

/-- A single letter at each end, and digits before a capital and before a separator. -/
theorem spelling_styled_digits :
    (∀ w ∈ ["a", "http2", "limit64", "s"], IsWord w) ∧
      (∀ w ∈ ["a", "http2", "limit64", "s"].tail.dropLast, 2 ≤ w.length) ∧
      spelling "a_http2_limit64_s" = "A_HTTP2_LIMIT64_S" ∧
      spelling "a-http2-limit64-s" = "A_HTTP2_LIMIT64_S" ∧
      spelling "a.http2.limit64.s" = "A_HTTP2_LIMIT64_S" ∧
      spelling "aHttp2Limit64S" = "A_HTTP2_LIMIT64_S" := by
  have isWord : ∀ w ∈ ["a", "http2", "limit64", "s"], IsWord w := by decide
  have long : ∀ w ∈ ["a", "http2", "limit64", "s"].tail.dropLast, 2 ≤ w.length := by decide
  have spelled := spelling_styled.1 _ isWord long
  exact ⟨isWord, long, spelled .snake, spelled .kebab, spelled .dotted, spelled .camel⟩

/-- A single letter in the middle of camel case runs together with the next word. -/
example : spelling (Style.camel.name ["a", "b", "c"]) = "A_BC" := by decide

end ScriptServer.Config
