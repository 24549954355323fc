import Mathlib.Data.List.TakeWhile
import ScriptServer.Config.Flags
import ScriptServer.Proofs.Dictionary
import ScriptServer.Proofs.Text.Split

/-!
# Arguments that spell flags

`Spells` is the way back from flags to a command line: a flag is written with its value in one
argument or in two, or bare, and what belongs to no flag may stand between. Every command line
spells the flags that are read from it and no others (`spells_iff`). Of the flags with one name the
last one counts.
-/

namespace ScriptServer.Flags

def dashes (n : Nat) : String := String.ofList (List.replicate n '-')

/-- A name that a flag can have: no dash begins it, and there is no equals sign in it. -/
structure IsName (name : String) : Prop where
  start : isDashed name = false
  plain : '=' ∉ name.toList

/-- The argument names a flag, and holds its value if there is an equals sign. -/
inductive Names : String → String → Option String → Prop
  | joined {n : Nat} {name : String} (value : String) : 0 < n → IsName name →
      Names (dashes n ++ (name ++ "=" ++ value)) name (some value)
  | bare {n : Nat} {name : String} : 0 < n → IsName name → name ≠ "" →
      Names (dashes n ++ name) name none

/-- The arguments spell the flags. Arguments that name no flag may stand anywhere, except that right
behind a bare flag one without a dash would be its value. -/
inductive Spells : List String → List (String × String) → Prop
  | nil : Spells [] []
  | dashes {args : List String} {flags : List (String × String)} (n : Nat) :
      Spells args flags → Spells (dashes n :: args) flags
  | stray {arg : String} {args : List String} {flags : List (String × String)} :
      isDashed arg = false → Spells args flags → Spells (arg :: args) flags
  | joined {arg name value : String} {args : List String} {flags : List (String × String)} :
      Names arg name (some value) → Spells args flags →
      Spells (arg :: args) ((name, value) :: flags)
  | apart {arg name value : String} {args : List String} {flags : List (String × String)} :
      Names arg name none → isDashed value = false → Spells args flags →
      Spells (arg :: value :: args) ((name, value) :: flags)
  | bare {arg name : String} {args : List String} {flags : List (String × String)} :
      Names arg name none → (∀ next ∈ args.head?, isDashed next = true) → Spells args flags →
      Spells (arg :: args) ((name, "") :: flags)

variable {arg name rest value : String} {held : Option String} {args : List String}
  {flags : List (String × String)} {n : Nat}

/-! ## One argument -/

theorem isDashed_eq_false : isDashed arg = false ↔ arg.toList.head? ≠ some '-' :=
  beq_eq_false_iff_ne

theorem isDashed_append (h : isDashed rest = false) :
    isDashed (dashes n ++ rest) = decide (0 < n) := by
  cases n with
  | zero => simpa [dashes] using h
  | succ n => simp [isDashed, dashes, List.replicate_succ]

theorem body_append (h : isDashed rest = false) : body (dashes n ++ rest) = rest.toList := by
  have front : ∀ c ∈ List.replicate n '-', (c == '-') = true := fun c mem =>
    beq_iff_eq.mpr (List.eq_of_mem_replicate mem)
  rw [body, dashes, String.toList_append, String.toList_ofList, List.dropWhile_append_of_pos front]
  cases eq : rest.toList with
  | nil => rfl
  | cons c cs =>
    rw [isDashed_eq_false, eq] at h
    exact List.dropWhile_cons_of_neg (by simpa using h)

/-- Every argument is made of dashes and a rest. -/
theorem exists_eq_dashes_append (arg : String) :
    ∃ n rest, arg = dashes n ++ rest ∧ isDashed rest = false := by
  refine ⟨(arg.toList.takeWhile (· == '-')).length, String.ofList (body arg), ?_, ?_⟩
  · have same : arg.toList.takeWhile (· == '-') =
        List.replicate (arg.toList.takeWhile (· == '-')).length '-' :=
      List.eq_replicate_of_mem fun c mem =>
        beq_iff_eq.mp (List.mem_takeWhile_imp (p := (· == '-')) mem)
    rw [dashes, ← same, body, ← String.ofList_append, List.takeWhile_append_dropWhile,
      String.ofList_toList]
  · rw [isDashed_eq_false, String.toList_ofList]
    intro dash
    have none := List.head?_dropWhile_not (· == '-') arg.toList
    rw [← body, dash] at none
    cases none

theorem flag?_of_not_dashed (h : isDashed arg = false) : flag? arg = none := by
  rw [flag?, h]
  rfl

theorem flag?_dashes (n : Nat) : flag? (dashes n) = none := by
  have none : body (dashes n) = [] := by
    have all : body (dashes n ++ "") = "".toList := body_append rfl
    rwa [String.append_empty] at all
  rw [flag?, none]
  simp

/-- Behind dashes stands the name, up to an equals sign. -/
theorem flag?_append (pos : 0 < n) (h : isDashed rest = false) (some : rest ≠ "") :
    flag? (dashes n ++ rest) = match Text.splitOnce '=' rest.toList with
      | .some (name, value) => .some (String.ofList name, .some (String.ofList value))
      | none => .some (rest, none) := by
  have more : rest.toList.isEmpty = false := by
    rw [List.isEmpty_eq_false_iff, Ne, String.toList_eq_nil_iff]
    exact some
  rw [flag?, isDashed_append h, body_append h, decide_eq_true pos, more]
  cases Text.splitOnce '=' rest.toList with
  | none => simp
  | some parts => simp

theorem Names.flag?_eq (h : Names arg name held) : flag? arg = some (name, held) := by
  cases h with
  | @joined n _ value pos name' =>
    have chars : (name ++ "=" ++ value).toList = name.toList ++ '=' :: value.toList := by
      simp [String.toList_append]
    have start : isDashed (name ++ "=" ++ value) = false := by
      rw [isDashed_eq_false, chars]
      cases eq : name.toList with
      | nil => simp
      | cons c cs =>
        have first := isDashed_eq_false.mp name'.start
        rwa [eq] at first
    have more : name ++ "=" ++ value ≠ "" := by
      rw [Ne, ← String.toList_eq_nil_iff, chars]
      simp
    rw [flag?_append pos start more, chars, Text.splitOnce_append name'.plain]
    simp only [String.ofList_toList]
  | bare pos name' some =>
    rw [flag?_append pos name'.start some, Text.splitOnce_of_not_mem name'.plain]

theorem names_cases (arg : String) :
    (isDashed arg = false ∨ ∃ n, arg = dashes n) ∨ ∃ name held, Names arg name held := by
  obtain ⟨n, rest, rfl, start⟩ := exists_eq_dashes_append arg
  rcases Nat.eq_zero_or_pos n with rfl | pos
  · exact .inl (.inl (by simpa [dashes] using start))
  by_cases none : rest = ""
  · exact .inl (.inr ⟨n, by rw [none, String.append_empty]⟩)
  cases cut : Text.splitOnce '=' rest.toList with
  | none => exact .inr ⟨rest, .none, .bare pos ⟨start, Text.splitOnce_eq_none.mp cut⟩ none⟩
  | some parts =>
    obtain ⟨front, back⟩ := parts
    obtain ⟨eq, plain⟩ := Text.splitOnce_eq_some.mp cut
    have whole : rest = String.ofList front ++ "=" ++ String.ofList back := by
      rw [← String.toList_inj, eq]
      simp [String.toList_append]
    have first : isDashed (String.ofList front) = false := by
      rw [isDashed_eq_false, String.toList_ofList]
      cases front with
      | nil => simp
      | cons c cs => rwa [isDashed_eq_false, eq] at start
    refine .inr ⟨String.ofList front, some (String.ofList back), ?_⟩
    rw [whole]
    exact .joined _ pos ⟨first, by rwa [String.toList_ofList]⟩

theorem flag?_eq_some : flag? arg = some (name, held) ↔ Names arg name held := by
  refine ⟨fun h => ?_, Names.flag?_eq⟩
  rcases names_cases arg with (stray | ⟨n, rfl⟩) | ⟨name', held', names⟩
  · rw [flag?_of_not_dashed stray] at h
    cases h
  · rw [flag?_dashes] at h
    cases h
  · rw [names.flag?_eq] at h
    cases h
    exact names

theorem flag?_eq_none : flag? arg = none ↔ isDashed arg = false ∨ ∃ n, arg = dashes n := by
  constructor
  · intro none
    refine (names_cases arg).resolve_right ?_
    rintro ⟨name, held, names⟩
    rw [names.flag?_eq] at none
    cases none
  · rintro (stray | ⟨n, rfl⟩)
    · exact flag?_of_not_dashed stray
    · exact flag?_dashes n

/-! ## A command line -/

theorem items_of_none (h : flag? arg = none) (args : List String) :
    items (arg :: args) = items args := by
  cases args with
  | nil => simp only [items, h]
  | cons next args => rw [items, h]

theorem items_of_joined (h : Names arg name (some value)) (args : List String) :
    items (arg :: args) = (name, value) :: items args := by
  cases args with
  | nil => simp only [items, h.flag?_eq, Option.getD_some]
  | cons next args => rw [items, h.flag?_eq]

theorem items_of_apart (h : Names arg name none) (plain : isDashed value = false)
    (args : List String) : items (arg :: value :: args) = (name, value) :: items args := by
  rw [items, h.flag?_eq]
  simp only [plain, Bool.false_eq_true, if_false]

theorem items_of_bare (h : Names arg name none) (next : ∀ next ∈ args.head?, isDashed next = true) :
    items (arg :: args) = (name, "") :: items args := by
  cases args with
  | nil => simp only [items, h.flag?_eq, Option.getD_none]
  | cons value args =>
    have dashed : isDashed value = true := next value rfl
    rw [items, h.flag?_eq]
    simp only [dashed, if_true]

theorem items_of_spells (h : Spells args flags) : items args = flags := by
  induction h with
  | nil => rfl
  | dashes n _ ih => rw [items_of_none (flag?_dashes n), ih]
  | stray plain _ ih => rw [items_of_none (flag?_of_not_dashed plain), ih]
  | joined names _ ih => rw [items_of_joined names, ih]
  | apart names plain _ ih => rw [items_of_apart names plain, ih]
  | bare names next _ ih => rw [items_of_bare names next, ih]

/-- An argument that names no flag changes nothing. -/
theorem spells_of_none (none : flag? arg = none) (h : Spells args flags) :
    Spells (arg :: args) flags := by
  rcases flag?_eq_none.mp none with plain | ⟨n, rfl⟩
  · exact .stray plain h
  · exact .dashes n h

theorem spells_items (args : List String) : Spells args (items args) := by
  induction args using items.induct with
  | case1 => exact .nil
  | case2 arg none =>
    rw [items_of_none none]
    exact spells_of_none none .nil
  | case3 arg name held some =>
    have names := flag?_eq_some.mp some
    cases held with
    | some value =>
      rw [items_of_joined names]
      exact .joined names .nil
    | none =>
      have last : ∀ next ∈ ([] : List String).head?, isDashed next = true := by simp
      rw [items_of_bare names last]
      exact .bare names last .nil
  | case4 arg next args none ih =>
    rw [items_of_none none]
    exact spells_of_none none ih
  | case5 arg next args name value some ih =>
    have names := flag?_eq_some.mp some
    rw [items_of_joined names]
    exact .joined names ih
  | case6 arg next args name some dashed ih =>
    have names := flag?_eq_some.mp some
    have dashed' : ∀ next' ∈ (next :: args).head?, isDashed next' = true := by simpa using dashed
    rw [items_of_bare names dashed']
    exact .bare names dashed' ih
  | case7 arg value args name some plain ih =>
    have names := flag?_eq_some.mp some
    have plain' := Bool.eq_false_iff.mpr plain
    rw [items_of_apart names plain']
    exact .apart names plain' ih

/-- The flags of a command line are those that it spells. -/
theorem spells_iff : Spells args flags ↔ items args = flags :=
  ⟨items_of_spells, fun h => h ▸ spells_items args⟩

/-- **Reading flags.** From arguments that spell flags a dictionary is read that has each name of a
flag, with the value of the last one of that name. -/
theorem read_spelled (h : Spells args flags) :
    (read args).Ascending ∧
      ∀ name value, (read args).get? name = some value ↔
        ∃ front back, flags = front ++ (name, value) :: back ∧ name ∉ back.map (·.1) := by
  have ascending : (read args).Ascending := Dictionary.ascending_ofList _
  refine ⟨ascending, fun name value => ?_⟩
  rw [← ascending.mem_iff_get?, read, items_of_spells h, Dictionary.mem_ofList_iff]
  refine exists_congr fun front => exists_congr fun back => and_congr_right fun _ => ?_
  rw [List.mem_map]
  exact ⟨fun last ⟨e, mem, same⟩ => last e mem same, fun last e mem same => last ⟨e, mem, same⟩⟩

/-- A name that comes twice, an equals sign in a value, a bare flag before dashes, and arguments that
belong to no flag. -/
theorem read_spelled_mixed :
    Spells ["run", "--mode=a=b", "stray", "-v", "--", "---port", "8080", "-", "-mode=", "end"]
        [("mode", "a=b"), ("v", ""), ("port", "8080"), ("mode", "")] ∧
      (read ["run", "--mode=a=b", "stray", "-v", "--", "---port", "8080", "-", "-mode=",
        "end"]).get? "mode" = some "" := by
  have mode : IsName "mode" := ⟨by decide, by decide⟩
  have first : Names (dashes 2 ++ ("mode" ++ "=" ++ "a=b")) "mode" (some "a=b") :=
    .joined "a=b" (by decide) mode
  have v : Names (dashes 1 ++ "v") "v" none :=
    .bare (by decide) ⟨by decide, by decide⟩ (by decide)
  have port : Names (dashes 3 ++ "port") "port" none :=
    .bare (by decide) ⟨by decide, by decide⟩ (by decide)
  have last : Names (dashes 1 ++ ("mode" ++ "=" ++ "")) "mode" (some "") :=
    .joined "" (by decide) mode
  have spells : Spells ["run", "--mode=a=b", "stray", "-v", "--", "---port", "8080", "-", "-mode=",
      "end"] [("mode", "a=b"), ("v", ""), ("port", "8080"), ("mode", "")] := by
    refine .stray (by decide) (.joined first (.stray (by decide) (.bare v (by decide) ?_)))
    refine .dashes 2 (.apart port (by decide) (.dashes 1 (.joined last ?_)))
    exact .stray (by decide) .nil
  refine ⟨spells, ((read_spelled spells).2 "mode" "").mpr ?_⟩
  exact ⟨[("mode", "a=b"), ("v", ""), ("port", "8080")], [], rfl, List.not_mem_nil⟩

end ScriptServer.Flags
