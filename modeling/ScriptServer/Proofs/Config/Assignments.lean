import ScriptServer.Config.Dotenv
import ScriptServer.Proofs.Text.Blank

/-!
# Variables that a file adds

`Assigns` says what one line of a file assigns. Of the lines for one variable the first one counts,
and only if the variable has no value yet; that is the same as adding the variables line by line
(`get?_apply`), since what a line adds is there when the next one is looked at. A line in double
quotes assigns just what stands between them.
-/

namespace ScriptServer.Dotenv

/-! ## One line -/

/-- A text between quotes of one kind, without them, or a text that does not stand so. -/
inductive Unquoted : List Char → List Char → Prop
  | quoted {q : Char} (cs : List Char) : q = '"' ∨ q = '\'' → Unquoted (q :: (cs ++ [q])) cs
  | plain {cs : List Char} :
      (∀ q inner, q = '"' ∨ q = '\'' → cs ≠ q :: (inner ++ [q])) → Unquoted cs cs

/-- A text behind the word `export` and a space, or a text that does not begin so. -/
inductive Unmarked : List Char → List Char → Prop
  | marked (cs : List Char) : Unmarked ("export ".toList ++ cs) cs
  | plain {cs : List Char} : ¬ "export ".toList <+: cs → Unmarked cs cs

/-- The line assigns the value to the variable. -/
structure Assigns (line : List Char) (key value : String) : Prop where
  comment : (Text.trimChars line).head? ≠ some '#'
  /-- The first equals sign stands between the two. -/
  parts : ∃ before behind, Unmarked (Text.trimChars line) (before ++ '=' :: behind) ∧
    '=' ∉ before ∧ Text.trimChars before = key.toList ∧
    Unquoted (Text.trimChars behind) value.toList
  some : key ≠ ""

variable {env : Environment} {key name text value : String} {cs line raw : List Char}

theorem unquoteChars_cons {first : Char} {rest : List Char} (more : rest ≠ []) :
    unquoteChars (first :: rest) =
      if (first = '"' ∨ first = '\'') ∧ rest.getLast? = some first then rest.dropLast
      else first :: rest := by
  cases rest with
  | nil => exact absurd rfl more
  | cons second rest => rfl

theorem Unquoted.eq (h : Unquoted raw cs) : unquoteChars raw = cs := by
  cases h with
  | quoted _ quote =>
    rw [unquoteChars_cons (by simp), if_pos ⟨quote, List.getLast?_concat⟩, List.dropLast_concat]
  | plain other =>
    cases cs with
    | nil => rfl
    | cons first rest =>
      by_cases none : rest = []
      · rw [none, unquoteChars]
      · rw [unquoteChars_cons none, if_neg]
        rintro ⟨quote, last⟩
        obtain ⟨inner, eq⟩ := List.getLast?_eq_some_iff.mp last
        exact other first inner quote (by rw [eq])

theorem unquoted_unquoteChars (raw : List Char) : Unquoted raw (unquoteChars raw) := by
  by_cases between : ∃ q inner, (q = '"' ∨ q = '\'') ∧ raw = q :: (inner ++ [q])
  · obtain ⟨q, inner, quote, rfl⟩ := between
    have unquoted := Unquoted.quoted inner quote
    rwa [unquoted.eq]
  · have unquoted : Unquoted raw raw :=
      .plain fun q inner quote eq => between ⟨q, inner, quote, eq⟩
    rwa [unquoted.eq]

theorem unquoteChars_eq_iff : unquoteChars raw = cs ↔ Unquoted raw cs :=
  ⟨fun h => h ▸ unquoted_unquoteChars raw, Unquoted.eq⟩

theorem unmarked_iff {start : List Char} :
    (Text.dropStart? "export ".toList start).getD start = cs ↔ Unmarked start cs := by
  rw [Text.dropStart?]
  constructor
  · split
    · next mark =>
      obtain ⟨rest, rfl⟩ := List.isPrefixOf_iff_prefix.mp mark
      rw [List.drop_left, Option.getD_some]
      rintro rfl
      exact .marked _
    · next plain =>
      rw [Option.getD_none]
      rintro rfl
      exact .plain fun mark => plain (List.isPrefixOf_iff_prefix.mpr mark)
  · intro h
    cases h with
    | marked =>
      rw [if_pos (List.isPrefixOf_iff_prefix.mpr (List.prefix_append _ _)), List.drop_left,
        Option.getD_some]
    | plain plain =>
      rw [if_neg fun mark => plain (List.isPrefixOf_iff_prefix.mp mark), Option.getD_none]

theorem assignment?_eq_some : assignment? line = some (key, value) ↔ Assigns line key value := by
  constructor
  · intro h
    rw [assignment?] at h
    simp only at h
    split at h
    · cases h
    · cases h
    · next _ comment =>
      obtain ⟨⟨before, behind⟩, cut, h⟩ := Option.bind_eq_some_iff.mp h
      obtain ⟨content, plain⟩ := Text.splitOnce_eq_some.mp cut
      simp only at h
      split at h
      · cases h
      · next more =>
        obtain ⟨rfl, rfl⟩ := Prod.mk.inj (Option.some.inj h)
        refine ⟨fun first => ?_, ⟨before, behind, unmarked_iff.mp content, plain, ?_, ?_⟩, ?_⟩
        · obtain ⟨rest, eq⟩ := List.head?_eq_some_iff.mp first
          exact comment rest eq
        · rw [String.toList_ofList]
        · rw [String.toList_ofList]
          exact unquoteChars_eq_iff.mp rfl
        · rwa [Ne, String.ofList_eq_empty_iff, ← List.isEmpty_iff]
  · rintro ⟨comment, ⟨before, behind, unmarked, plain, name, unquoted⟩, some⟩
    have more : key.toList.isEmpty = false := by
      rwa [List.isEmpty_eq_false_iff, Ne, String.toList_eq_nil_iff]
    rw [assignment?]
    simp only
    split
    · next none =>
      rw [none] at unmarked
      have nothing : [] = before ++ '=' :: behind := unmarked_iff.mpr unmarked
      exact absurd nothing.symm (List.append_ne_nil_of_right_ne_nil _ (List.cons_ne_nil _ _))
    · next rest eq =>
      rw [eq] at comment
      exact absurd rfl comment
    · rw [unmarked_iff.mpr unmarked, Text.splitOnce_append plain, Option.bind_some]
      simp only [name, more, Bool.false_eq_true, if_false, unquoteChars_eq_iff.mpr unquoted,
        String.ofList_toList]

/-! ## Variables that can be set -/

/-- An environment can hold the variable: there is something in its name, no equals sign, and no
zero in it or in the value. -/
structure IsStorable (key value : String) : Prop where
  some : key ≠ ""
  plain : '=' ∉ key.toList
  key_zero : '\x00' ∉ key.toList
  value_zero : '\x00' ∉ value.toList

theorem Unquoted.subset (h : Unquoted raw cs) : cs ⊆ raw := by
  cases h with
  | quoted cs _ => exact List.Subset.trans (List.subset_append_left _ _) (List.subset_cons_self _ _)
  | plain => exact List.Subset.refl _

theorem Unmarked.subset (h : Unmarked raw cs) : cs ⊆ raw := by
  cases h with
  | marked cs => exact List.subset_append_right _ _
  | plain => exact List.Subset.refl _

theorem Assigns.isStorable (h : Assigns line key value) (zero : '\x00' ∉ line) :
    IsStorable key value := by
  obtain ⟨-, ⟨before, behind, unmarked, plain, name, unquoted⟩, some⟩ := h
  have content : before ++ '=' :: behind ⊆ line :=
    List.Subset.trans unmarked.subset fun c mem => Text.mem_of_mem_trimChars mem
  refine ⟨some, fun mem => plain ?_, fun mem => zero (content ?_), fun mem => zero (content ?_)⟩
  · rw [← name] at mem
    exact Text.mem_of_mem_trimChars mem
  · rw [← name] at mem
    exact List.mem_append_left _ (Text.mem_of_mem_trimChars mem)
  · have inside := Text.mem_of_mem_trimChars (unquoted.subset mem)
    exact List.mem_append_right _ (List.mem_cons_of_mem _ inside)

/-! ## All lines -/

theorem assignment?_trimmed {other : List Char} (h : Text.trimChars line = Text.trimChars other) :
    assignment? line = assignment? other := by
  rw [assignment?, h, assignment?]

/-- A carriage return before the end of a line is white space like any other. -/
theorem assignments_eq (text : String) :
    assignments text = (Text.splitOn '\n' text.toList).filterMap assignment? := by
  rw [assignments, lines, List.filterMap_map]
  congr 1
  funext line
  refine assignment?_trimmed ?_
  show Text.trimChars (if line.getLast? = some '\r' then line.dropLast else line) = _
  split
  · next last =>
    obtain ⟨front, rfl⟩ := List.getLast?_eq_some_iff.mp last
    rw [List.dropLast_concat, Text.trimChars_concat_of_blank (by decide)]
  · rfl

/-- The first line of the text that assigns something to the variable assigns this value. -/
def FirstAssigns (text key value : String) : Prop :=
  ∃ front line back, Text.splitOn '\n' text.toList = front ++ line :: back ∧
    Assigns line key value ∧ ∀ earlier ∈ front, ∀ other, ¬ Assigns earlier key other

theorem lookup_filterMap (lines : List (List Char)) :
    (lines.filterMap assignment?).lookup key = some value ↔
      ∃ front line back, lines = front ++ line :: back ∧ assignment? line = some (key, value) ∧
        ∀ earlier ∈ front, ∀ other, assignment? earlier ≠ some (key, other) := by
  rw [List.lookup_eq_some_iff]
  constructor
  · rintro ⟨front, back, eq, before⟩
    obtain ⟨lines₁, lines₂, rfl, rfl, later⟩ := List.filterMap_eq_append_iff.mp eq
    obtain ⟨none, line, rest, rfl, skipped, read, -⟩ := List.filterMap_eq_cons_iff.mp later
    refine ⟨lines₁ ++ none, line, rest, by simp, read, fun earlier mem other found => ?_⟩
    rcases List.mem_append.mp mem with mem | mem
    · have different := before _ (List.mem_filterMap.mpr ⟨earlier, mem, found⟩)
      exact bne_iff_ne.mp different rfl
    · rw [skipped earlier mem] at found
      cases found
  · rintro ⟨front, line, back, rfl, read, first⟩
    refine ⟨front.filterMap assignment?, back.filterMap assignment?, ?_, fun e mem => ?_⟩
    · rw [List.filterMap_append, List.filterMap_cons_some read]
    · obtain ⟨earlier, mem, found⟩ := List.mem_filterMap.mp mem
      refine bne_iff_ne.mpr fun same => first earlier mem e.2 ?_
      rw [found, same]

theorem lookup_assignments :
    (assignments text).lookup key = some value ↔ FirstAssigns text key value := by
  rw [assignments_eq, lookup_filterMap]
  simp only [assignment?_eq_some, ne_eq, FirstAssigns]

/-! ## The environment -/

theorem get?_add (env : Environment) (name value : String) (key : String) :
    (add env name value).get? key =
      (env.get? key).or (if key = name then some (Utf8.ofText value) else none) := by
  rw [add]
  split
  · next has =>
    obtain ⟨bytes, found⟩ := Option.isSome_iff_exists.mp has
    split
    · next same => rw [same, found, Option.some_or]
    · rw [Option.or_none]
  · next new =>
    rw [Dictionary.get?_insert]
    split
    · next same =>
      have none : env.get? name = none := by simpa [Dictionary.contains] using new
      rw [same, none, Option.none_or]
    · rw [Option.or_none]

/-- Adding one variable after the other adds the first of each name, where it has no value. -/
theorem get?_apply (text : String) (env : Environment) (key : String) :
    (apply text env).get? key =
      (env.get? key).or (((assignments text).lookup key).map Utf8.ofText) := by
  rw [apply]
  induction assignments text generalizing env with
  | nil => exact Option.or_none.symm
  | cons e rest ih =>
    obtain ⟨name, value⟩ := e
    rw [List.foldl_cons, ih, get?_add, Option.or_assoc, List.lookup_cons]
    congr 1
    by_cases same : key = name
    · rw [if_pos same, beq_iff_eq.mpr same]
      rfl
    · rw [if_neg same, beq_eq_false_iff_ne.mpr same, Option.none_or]

/-! ## Lines in double quotes -/

/-- A variable that a line can assign to: it does not begin like a comment or like an export. -/
structure IsKey (key : String) : Prop where
  some : key ≠ ""
  trimmed : Text.IsTrimmed key.toList
  plain : '=' ∉ key.toList
  one_line : '\n' ∉ key.toList
  comment : key.toList.head? ≠ .some '#'
  unmarked : ¬ "export ".toList <+: key.toList

/-- A name without white space is a key unless one of two signs is in the way. -/
theorem isKey_of_solid (some : key ≠ "") (solid : key.toList.all (!Text.isBlank ·) = true)
    (plain : '=' ∉ key.toList) (comment : key.toList.head? ≠ .some '#') : IsKey key := by
  have solid' : ∀ c ∈ key.toList, Text.isBlank c = false := fun c mem => by
    simpa using List.all_eq_true.mp solid c mem
  refine ⟨some, Text.isTrimmed_of_solid solid', plain, ?_, comment, fun mark => ?_⟩
  · exact Text.not_mem_of_solid solid' (by decide)
  · have space : ' ' ∈ key.toList := mark.subset (by decide)
    exact Text.not_mem_of_solid solid' (by decide) space

/-- The line that assigns a value in double quotes. -/
def quotedLine (key value : String) : List Char :=
  key.toList ++ '=' :: '"' :: (value.toList ++ ['"'])

def quotedText (entries : List (String × String)) : String :=
  String.ofList (entries.flatMap fun e => quotedLine e.1 e.2 ++ ['\n'])

theorem isTrimmed_quoted (cs : List Char) : Text.IsTrimmed ('"' :: (cs ++ ['"'])) := by
  have quote : Text.isBlank '"' = false := by decide
  refine ⟨fun c first => ?_, fun c last => ?_⟩
  · cases first
    exact quote
  · rw [← List.cons_append, List.getLast?_concat] at last
    cases last
    exact quote

variable {entries : List (String × String)}

namespace IsKey

variable (h : IsKey key)
include h

theorem toList_ne_nil : key.toList ≠ [] := by
  rw [Ne, String.toList_eq_nil_iff]
  exact h.some

theorem isTrimmed_quotedLine (value : String) : Text.IsTrimmed (quotedLine key value) := by
  refine ⟨fun c first => h.trimmed.start c ?_, fun c last => ?_⟩
  · rwa [quotedLine, List.head?_append_of_ne_nil _ h.toList_ne_nil] at first
  · have whole : quotedLine key value = (key.toList ++ '=' :: '"' :: value.toList) ++ ['"'] := by
      simp [quotedLine]
    rw [whole, List.getLast?_concat] at last
    cases last
    decide

/-- The sign behind the name is not in the word either, so the line does not begin with it. -/
theorem unmarked_append (rest : List Char) : ¬ "export ".toList <+: key.toList ++ '=' :: rest := by
  rintro ⟨behind, eq⟩
  rcases List.append_eq_append_iff.mp eq with ⟨more, key_eq, -⟩ | ⟨more, word, sign⟩
  · exact h.unmarked ⟨more, key_eq.symm⟩
  · cases more with
    | nil =>
      rw [List.append_nil] at word
      exact h.unmarked ⟨[], by rw [List.append_nil, word]⟩
    | cons c more =>
      obtain ⟨rfl, -⟩ := List.cons.inj sign
      have inside : '=' ∈ "export ".toList := by
        rw [word]
        exact List.mem_append_right _ List.mem_cons_self
      exact absurd inside (by decide)

theorem assigns_quotedLine (value : String) : Assigns (quotedLine key value) key value := by
  have trimmed := Text.trimChars_of_isTrimmed (h.isTrimmed_quotedLine value)
  refine ⟨?_, ⟨key.toList, '"' :: (value.toList ++ ['"']), ?_, h.plain, ?_, ?_⟩, h.some⟩
  · rw [trimmed, quotedLine, List.head?_append_of_ne_nil _ h.toList_ne_nil]
    exact h.comment
  · rw [trimmed]
    exact .plain (h.unmarked_append _)
  · exact Text.trimChars_of_isTrimmed h.trimmed
  · rw [Text.trimChars_of_isTrimmed (isTrimmed_quoted _)]
    exact .quoted _ (.inl rfl)

end IsKey

theorem splitOn_quotedText (h : ∀ e ∈ entries, IsKey e.1 ∧ '\n' ∉ e.2.toList) :
    Text.splitOn '\n' (quotedText entries).toList =
      entries.map (fun e => quotedLine e.1 e.2) ++ [[]] := by
  rw [quotedText, String.toList_ofList]
  induction entries with
  | nil => rfl
  | cons e entries ih =>
    obtain ⟨⟨key, value⟩, later⟩ := List.forall_mem_cons.mp h
    have one_line : '\n' ∉ quotedLine e.1 e.2 := by
      simp [quotedLine, key.one_line, value]
    rw [List.flatMap_cons, List.append_assoc, List.singleton_append, Text.splitOn_append, ih later,
      Text.splitOn_of_not_mem one_line]
    rfl

theorem assignments_quotedText (h : ∀ e ∈ entries, IsKey e.1 ∧ '\n' ∉ e.2.toList) :
    assignments (quotedText entries) = entries := by
  rw [assignments_eq, splitOn_quotedText h, List.filterMap_append, List.filterMap_map]
  have each : ∀ e ∈ entries,
      (assignment? ∘ fun e : String × String => quotedLine e.1 e.2) e = some e := fun e mem =>
    assignment?_eq_some.mpr ((h e mem).1.assigns_quotedLine e.2)
  rw [List.filterMap_congr each, List.filterMap_some]
  exact List.append_nil entries

/-! ## The file of a directory -/

def path (dir : Option String) : String :=
  match dir with
  | some dir => Path.join dir ".env"
  | none => ".env"

variable {fs : Files} {dir : Option String}

theorem load_of_readText (h : fs.readText (path dir) = .ok text) :
    load fs dir env = (apply text env, none) := by
  cases dir with
  | none =>
    have found : fs.readText ".env" = .ok text := h
    simp only [load, found]
  | some dir =>
    have found : fs.readText (Path.join dir ".env") = .ok text := h
    simp only [load, found]

/-- **Added variables.** A file only adds variables. Those that have a value keep it, and of the
others each gets the value that the first line for it assigns, if there is one; an environment can
hold all of them if there is no zero in the file. A file of lines in double quotes adds just the
values that stand in the quotes. -/
theorem load_adds (fs : Files) (dir : Option String) (env : Environment) (text : String)
    (h : fs.readText (path dir) = .ok text) :
    (∀ key bytes, env.get? key = some bytes → (load fs dir env).1.get? key = some bytes) ∧
      (∀ key bytes, env.get? key = none →
        ((load fs dir env).1.get? key = some bytes ↔
          ∃ value, FirstAssigns text key value ∧ bytes = Utf8.ofText value)) ∧
      ('\x00' ∉ text.toList → ∀ key value, FirstAssigns text key value → IsStorable key value) ∧
      ∀ entries, (∀ e ∈ entries, IsKey e.1 ∧ '\n' ∉ e.2.toList) → text = quotedText entries →
        ∀ key, env.get? key = none →
          (load fs dir env).1.get? key = (entries.lookup key).map Utf8.ofText := by
  rw [load_of_readText h]
  refine ⟨fun key bytes has => ?_, fun key bytes none => ?_, fun zero key value first => ?_,
    fun entries written eq key none => ?_⟩
  · rw [get?_apply, has, Option.some_or]
  · rw [get?_apply, none, Option.none_or, Option.map_eq_some_iff]
    refine exists_congr fun value => and_congr lookup_assignments ?_
    exact eq_comm
  · obtain ⟨front, line, back, eq, assigns, -⟩ := first
    have part : line ∈ Text.splitOn '\n' text.toList := by
      rw [eq]
      exact List.mem_append_right _ List.mem_cons_self
    exact assigns.isStorable fun mem => zero (Text.mem_of_mem_splitOn part mem)
  · rw [get?_apply, none, Option.none_or, eq, assignments_quotedText written]

/-- A variable that has a value, one that comes twice, and a value with quotes and an equals sign. -/
def mixedEntries : List (String × String) :=
  [("HOME", "/"), ("GREETING", " say \"hi\" # = "), ("GREETING", "bye")]

def mixedFiles : Files := ⟨[([".env"], .file (Utf8.ofText (quotedText mixedEntries)))], []⟩

theorem load_adds_mixed :
    mixedFiles.readText (path none) = .ok (quotedText mixedEntries) ∧
      (load mixedFiles none [("HOME", Utf8.ofText "/root")]).1.get? "HOME" =
        some (Utf8.ofText "/root") ∧
      (load mixedFiles none [("HOME", Utf8.ofText "/root")]).1.get? "GREETING" =
        some (Utf8.ofText " say \"hi\" # = ") ∧
      IsStorable "GREETING" " say \"hi\" # = " := by
  have read : mixedFiles.readText (path none) = .ok (quotedText mixedEntries) := by
    have found : mixedFiles.read (path none) = .ok (Utf8.ofText (quotedText mixedEntries)) := by
      decide +kernel
    rw [Files.readText, found]
    simp only [Utf8.toText?_eq_some.mpr rfl]
  obtain ⟨keeps, -, storable, written⟩ :=
    load_adds mixedFiles none [("HOME", Utf8.ofText "/root")] (quotedText mixedEntries) read
  have home : IsKey "HOME" := isKey_of_solid (by decide) (by decide) (by decide) (by decide)
  have greeting : IsKey "GREETING" := isKey_of_solid (by decide) (by decide) (by decide) (by decide)
  have keys : ∀ e ∈ mixedEntries, IsKey e.1 ∧ '\n' ∉ e.2.toList := by
    simp only [mixedEntries, List.forall_mem_cons]
    exact ⟨⟨home, by decide⟩, ⟨greeting, by decide⟩, ⟨greeting, by decide⟩, nofun⟩
  have first : FirstAssigns (quotedText mixedEntries) "GREETING" " say \"hi\" # = " := by
    rw [← lookup_assignments, assignments_quotedText keys]
    rfl
  exact ⟨read, keeps "HOME" _ rfl, written mixedEntries keys rfl "GREETING" rfl,
    storable (by decide) _ _ first⟩

end ScriptServer.Dotenv
