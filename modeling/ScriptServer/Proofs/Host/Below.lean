import ScriptServer.Host.Files
import ScriptServer.Proofs.Text.Split

/-!
# What stands below a directory

A path that was joined from a directory and the names below it is followed to the directory first
and from there name by name. So without `..` among the names it leads to a place below that of the
directory, and it leads to every such place where something stands.
-/

namespace ScriptServer

namespace Path

/-- A text that can stand between two slashes. -/
def IsPart (name : String) : Prop := name ≠ "" ∧ '/' ∉ name.toList

/-- A part that names something in a directory. -/
def IsName (name : String) : Prop := IsPart name ∧ name ≠ "." ∧ name ≠ ".."

instance : DecidablePred IsPart := fun _ => inferInstanceAs (Decidable (_ ∧ _))

instance : DecidablePred IsName := fun _ => inferInstanceAs (Decidable (_ ∧ _))

/-- A directory as it stands before what is joined to it. -/
def slashed (dir : String) : String :=
  if dir.isEmpty || dir.toList.getLast? == some '/' then dir else dir ++ "/"

/-- The parts of a directory that come before those of what is joined to it. -/
def stem (dir : String) : List String := (parts (slashed dir)).dropLast

variable {dir rest name : String} {names : List String}

theorem join_eq_append (relative : isAbsolute rest = false) :
    join dir rest = slashed dir ++ rest := by
  rw [join, if_neg (Bool.eq_false_iff.mp relative), slashed]
  split <;> rfl

theorem slashed_cases (dir : String) :
    slashed dir = "" ∨ ∃ front, (slashed dir).toList = front ++ ['/'] := by
  unfold slashed
  split
  · next whole =>
    simp only [Bool.or_eq_true, String.isEmpty_iff, beq_iff_eq] at whole
    exact whole.imp id List.getLast?_eq_some_iff.mp
  · exact .inr ⟨dir.toList, String.toList_append⟩

theorem parts_of_slash {path : String} {as bs : List Char} (h : path.toList = as ++ '/' :: bs) :
    parts path = parts (String.ofList as) ++ parts (String.ofList bs) := by
  simp only [parts, h, Text.splitOn_append, List.map_append, String.toList_ofList]

theorem parts_join (relative : isAbsolute rest = false) :
    parts (join dir rest) = stem dir ++ parts rest := by
  rw [join_eq_append relative, stem]
  rcases slashed_cases dir with empty | ⟨front, eq⟩
  · rw [empty, String.empty_append]
    rfl
  · rw [@parts_of_slash (slashed dir ++ rest) front rest.toList (by simp [eq]),
      @parts_of_slash (slashed dir) front [] eq, String.ofList_toList]
    congr 1
    exact List.dropLast_concat.symm

theorem isAbsolute_join (relative : isAbsolute rest = false) :
    isAbsolute (join dir rest) = isAbsolute dir := by
  rw [join_eq_append relative, slashed]
  by_cases empty : dir = ""
  · subst empty
    exact relative
  · have some : dir.toList ≠ [] := fun none => empty (String.toList_eq_nil_iff.mp none)
    unfold isAbsolute
    split <;> simp [List.head?_append_of_ne_nil _ some, List.append_assoc]

theorem join_ne_empty (some : rest ≠ "") : join dir rest ≠ "" := by
  unfold join
  split
  · exact some
  · split <;> simp [some]

/-! ## Joining names one by one -/

theorem IsPart.head_ne (h : IsPart name) (more : String) : isAbsolute (name ++ more) = false := by
  obtain ⟨c, cs, eq⟩ := List.exists_cons_of_ne_nil
    (fun empty => h.1 (String.toList_eq_nil_iff.mp empty) : name.toList ≠ [])
  have : c ≠ '/' := fun same => h.2 (eq ▸ same ▸ List.mem_cons_self)
  simpa [isAbsolute, eq] using this

theorem IsPart.relative (h : IsPart name) : isAbsolute name = false := by
  simpa using h.head_ne ""

theorem intercalate_relative (some : names ≠ []) (h : ∀ name ∈ names, IsPart name) :
    isAbsolute ("/".intercalate names) = false := by
  obtain ⟨name, names, rfl⟩ := List.exists_cons_of_ne_nil some
  have first := h name List.mem_cons_self
  cases names with
  | nil => simpa using first.relative
  | cons next names =>
    rw [String.intercalate_cons_cons, String.append_assoc]
    exact first.head_ne _

theorem intercalate_ne_empty (some : names ≠ []) (h : ∀ name ∈ names, IsPart name) :
    "/".intercalate names ≠ "" := by
  obtain ⟨name, names, rfl⟩ := List.exists_cons_of_ne_nil some
  have first := (h name List.mem_cons_self).1
  cases names with
  | nil => simpa using first
  | cons next names => simp

theorem intercalate_last (some : names ≠ []) (h : ∀ name ∈ names, IsPart name) :
    ("/".intercalate names).toList.getLast? ≠ .some '/' := by
  induction names with
  | nil => exact absurd rfl some
  | cons name names ih =>
    obtain ⟨first, later⟩ := List.forall_mem_cons.mp h
    cases names with
    | nil =>
      rw [String.intercalate_singleton]
      exact fun slash => first.2 (List.mem_of_getLast? slash)
    | cons next names =>
      have rest : ("/".intercalate (next :: names)).toList ≠ [] := fun empty =>
        intercalate_ne_empty (List.cons_ne_nil _ _) later (String.toList_eq_nil_iff.mp empty)
      rw [String.intercalate_cons_cons, String.toList_append, List.getLast?_append_of_ne_nil _ rest]
      exact ih (List.cons_ne_nil _ _) later

theorem parts_intercalate (some : names ≠ []) (h : ∀ name ∈ names, IsPart name) :
    parts ("/".intercalate names) = names := by
  have cut : Text.splitOn '/' (['/'].intercalate (names.map String.toList)) =
      names.map String.toList := by
    refine Text.splitOn_intercalate (by simpa using some) fun part mem => ?_
    obtain ⟨name, here, rfl⟩ := List.mem_map.mp mem
    exact (h name here).2
  rw [parts, String.toList_intercalate]
  refine (congrArg (List.map String.ofList) cut).trans ?_
  simp [Function.comp_def]

/-- After a name there is always a slash to be put. -/
theorem join_name (h : IsPart name) (relative : isAbsolute rest = false) :
    join (join dir name) rest = join dir (name ++ "/" ++ rest) := by
  have last : name.toList.getLast? ≠ some '/' := fun slash => h.2 (List.mem_of_getLast? slash)
  have named : name.toList ≠ [] := fun empty => h.1 (String.toList_eq_nil_iff.mp empty)
  have whole : isAbsolute (name ++ "/" ++ rest) = false := by
    rw [String.append_assoc]
    exact h.head_ne _
  have slash : slashed (slashed dir ++ name) = slashed dir ++ name ++ "/" := by
    refine if_neg ?_
    simp only [Bool.or_eq_true, String.isEmpty_iff, beq_iff_eq, not_or, String.toList_append,
      List.getLast?_append_of_ne_nil _ named]
    exact ⟨by simp [h.1], last⟩
  rw [join_eq_append relative, join_eq_append h.relative, join_eq_append whole, slash]
  simp only [String.append_assoc]

/-- To join names one by one is to join them as a path. -/
theorem foldl_join (some : names ≠ []) (h : ∀ name ∈ names, IsPart name) :
    names.foldl join dir = join dir ("/".intercalate names) := by
  induction names generalizing dir with
  | nil => exact absurd rfl some
  | cons name names ih =>
    obtain ⟨first, later⟩ := List.forall_mem_cons.mp h
    cases names with
    | nil => simp
    | cons next names =>
      rw [List.foldl_cons, ih (List.cons_ne_nil _ _) later, String.intercalate_cons_cons]
      exact join_name first (intercalate_relative (List.cons_ne_nil _ _) later)

end Path

namespace Files

open ScriptServer.Path (IsPart IsName stem)

variable {fs : Files} {dir : String} {names : List String} {base place : List String}

theorem follow_append {as bs : List String} {start : List String} :
    fs.follow start (as ++ bs) = .ok place ↔
      ∃ mid, fs.follow start as = .ok mid ∧ fs.follow mid bs = .ok place := by
  induction as generalizing start with
  | nil => simp [follow]
  | cons a as ih =>
    rw [List.cons_append, follow, follow]
    split
    · simp
    · simp
    · split
      · exact ih
      · split <;> exact ih

def origin (fs : Files) (path : String) : List String :=
  if Path.isAbsolute path then [] else fs.workDir

theorem place_join {rest : String} (relative : Path.isAbsolute rest = false) (some : rest ≠ "") :
    fs.place (Path.join dir rest) = .ok place ↔
      ∃ base, fs.follow (fs.origin dir) (stem dir) = .ok base ∧
        fs.follow base (Path.parts rest) = .ok place := by
  rw [Files.place, if_neg (by simpa using Path.join_ne_empty some), Path.parts_join relative,
    Path.isAbsolute_join relative]
  exact follow_append

/-- The place of a directory. An empty path stands for the working directory here, as it does when
something is joined to it. -/
def placeOf (fs : Files) (dir : String) : Except Fault (List String) :=
  fs.place (Path.join dir ".")

theorem placeOf_eq_ok :
    fs.placeOf dir = .ok base ↔
      fs.follow (fs.origin dir) (stem dir) = .ok base ∧ fs.node? base = some .directory := by
  have dot (start : List String) :
      fs.follow start (Path.parts ".") = .ok base ↔
        start = base ∧ fs.node? start = some .directory := by
    change fs.follow start ["."] = .ok base ↔ _
    rw [follow]
    split <;> simp_all [follow]
  rw [placeOf, place_join (by decide) (by decide)]
  simp only [dot]
  constructor
  · rintro ⟨start, stands, rfl, isDirectory⟩
    exact ⟨stands, isDirectory⟩
  · rintro ⟨stands, isDirectory⟩
    exact ⟨base, stands, rfl, isDirectory⟩

theorem isDirectory_of_follow {name : String} (h : fs.follow base (name :: names) = .ok place) :
    fs.node? base = some .directory := by
  rw [follow] at h
  split at h
  · cases h
  · cases h
  · assumption

/-- Names below a directory are followed from its place. -/
theorem place_below (some : names ≠ []) (h : ∀ name ∈ names, IsPart name) :
    fs.place (names.foldl Path.join dir) = .ok place ↔
      ∃ base, fs.placeOf dir = .ok base ∧ fs.follow base names = .ok place := by
  rw [Path.foldl_join some h,
    place_join (Path.intercalate_relative some h) (Path.intercalate_ne_empty some h),
    Path.parts_intercalate some h]
  simp only [placeOf_eq_ok]
  obtain ⟨name, names, rfl⟩ := List.exists_cons_of_ne_nil some
  constructor
  · rintro ⟨base, stands, followed⟩
    exact ⟨base, ⟨stands, isDirectory_of_follow followed⟩, followed⟩
  · rintro ⟨base, ⟨stands, -⟩, followed⟩
    exact ⟨base, stands, followed⟩

/-- Names that do not lead up lead down. -/
theorem eq_of_follow (h : ∀ name ∈ names, IsPart name) (down : ".." ∉ names)
    (followed : fs.follow base names = .ok place) :
    place = base ++ names.filter (· ≠ ".") := by
  induction names generalizing base with
  | nil => exact (Except.ok.inj followed).symm.trans (List.append_nil base).symm
  | cons name names ih =>
    obtain ⟨first, later⟩ := List.forall_mem_cons.mp h
    rw [List.mem_cons, not_or] at down
    have isDirectory := isDirectory_of_follow followed
    rw [follow, isDirectory] at followed
    by_cases idle : name = "."
    · simp only [idle, beq_self_eq_true, Bool.or_true, ↓reduceIte] at followed
      rw [ih later down.2 followed, List.filter_cons_of_neg (by simp [idle])]
    · simp only [String.isEmpty_iff, first.1, idle, Ne.symm down.1, Bool.or_eq_true, beq_iff_eq,
        or_self, ↓reduceIte] at followed
      rw [ih later down.2 followed, List.filter_cons_of_pos (by simp [idle]), List.append_assoc,
        List.singleton_append]

theorem at?_eq_ok {path : String} {node : FileNode} :
    fs.at? path = .ok node ↔ ∃ place, fs.place path = .ok place ∧ fs.node? place = some node := by
  unfold at?
  cases fs.place path with
  | error e => simp
  | ok place => cases stands : fs.node? place <;> simp [stands]

/-- What a path below a directory leads to stands below the place of the directory. -/
theorem node_of_at? (some : names ≠ []) (h : ∀ name ∈ names, IsPart name) (down : ".." ∉ names)
    {node : FileNode} (stands : fs.at? (names.foldl Path.join dir) = .ok node) :
    ∃ base, fs.placeOf dir = .ok base ∧
      fs.node? (base ++ names.filter (· ≠ ".")) = .some node := by
  obtain ⟨place, leads, stands⟩ := at?_eq_ok.mp stands
  obtain ⟨base, root, followed⟩ := (place_below some h).mp leads
  exact ⟨base, root, eq_of_follow h down followed ▸ stands⟩

/-- Every place has a name, and directories above it. -/
structure WellFormed (fs : Files) : Prop where
  names : ∀ e ∈ fs.nodes, ∀ name ∈ e.1, IsName name
  above : ∀ e ∈ fs.nodes, ∀ n < e.1.length, fs.node? (e.1.take n) = some .directory

theorem mem_of_lookup {es : List (List String × FileNode)} {node : FileNode}
    (h : es.lookup place = some node) : (place, node) ∈ es := by
  obtain ⟨before, after, rfl, -⟩ := List.lookup_eq_some_iff.mp h
  exact List.mem_append_right _ List.mem_cons_self

theorem WellFormed.node (wf : fs.WellFormed) {name : String} {node : FileNode}
    (h : fs.node? (base ++ name :: names) = some node) :
    (∀ part ∈ name :: names, IsName part) ∧ fs.node? base = some .directory := by
  have stands : (base ++ name :: names, node) ∈ fs.nodes := by
    rw [node?, if_neg (by simp)] at h
    exact mem_of_lookup h
  refine ⟨fun part mem => wf.names _ stands part (List.mem_append_right _ mem), ?_⟩
  have := wf.above _ stands base.length (by simp)
  rwa [List.take_left] at this

/-- What stands below a place is found by its names. -/
theorem WellFormed.follow (wf : fs.WellFormed) {node : FileNode}
    (h : fs.node? (base ++ names) = some node) : fs.follow base names = .ok (base ++ names) := by
  induction names generalizing base with
  | nil => rw [List.append_nil]; rfl
  | cons name names ih =>
    obtain ⟨named, isDirectory⟩ := wf.node h
    obtain ⟨isPart, notDot, notUp⟩ := named name List.mem_cons_self
    have below : fs.follow (base ++ [name]) names = _ := ih (by simpa using h)
    rw [Files.follow, isDirectory]
    simpa [isPart.1, notDot, notUp] using below

/-- What stands below a directory is led to by its names. -/
theorem WellFormed.at? (wf : fs.WellFormed) (root : fs.placeOf dir = .ok base) {node : FileNode}
    (some : names ≠ []) (stands : fs.node? (base ++ names) = .some node) :
    fs.at? (names.foldl Path.join dir) = .ok node := by
  have parts : ∀ name ∈ names, IsPart name := by
    obtain ⟨name, names, rfl⟩ := List.exists_cons_of_ne_nil some
    exact fun part mem => ((wf.node stands).1 part mem).1
  exact at?_eq_ok.mpr ⟨_, (place_below some parts).mpr ⟨base, root, wf.follow stands⟩, stands⟩

end Files

end ScriptServer
