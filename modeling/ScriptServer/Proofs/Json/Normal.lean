import ScriptServer.Proofs.Json.RoundTrip
import ScriptServer.Proofs.Number.Integral
import ScriptServer.Text.Basic

/-!
# Trees without null in arrays and objects

A table of a script holds no nil, and an empty one says neither array nor object. `normal` is what
is left of a tree after it was a value of a script: the nulls in arrays and objects are gone, an
array with gaps is an object of its positions, and what is empty is null.
-/

namespace ScriptServer.Json.Tree

def isNull : Tree → Bool
  | .null => true
  | _ => false

/-- The items of an array that are left, under their positions: an array again if they are its first
ones. -/
def arrange : List (Nat × Tree) → Tree
  | [] => .null
  | kept =>
    if kept.map (·.1) = List.range' 1 kept.length then .array (kept.map (·.2))
    else .object (Dictionary.ofList (kept.map fun p => (Text.number p.1, p.2)))

def gather : List (String × Tree) → Tree
  | [] => .null
  | kept => .object kept

mutual

/-- What is left of a tree after it was a value. -/
def normal : Tree → Tree
  | .null => .null
  | .bool b => .bool b
  | .number x => .number x.unsigned
  | .string s => .string s
  | .array items => arrange (normalItems 1 items)
  | .object members => gather (normalMembers members)

/-- The items other than null under their positions, of which the first is `n`. -/
def normalItems : Nat → List Tree → List (Nat × Tree)
  | _, [] => []
  | n, t :: ts =>
    if t.isNull then normalItems (n + 1) ts else (n, normal t) :: normalItems (n + 1) ts

def normalMembers : List (String × Tree) → List (String × Tree)
  | [] => []
  | (key, t) :: ms => if t.isNull then normalMembers ms else (key, normal t) :: normalMembers ms

end

mutual

/-- The tree and all trees in it have a property. -/
def All (P : Tree → Prop) : Tree → Prop
  | .array items => P (.array items) ∧ AllItems P items
  | .object members => P (.object members) ∧ AllMembers P members
  | t => P t

def AllItems (P : Tree → Prop) : List Tree → Prop
  | [] => True
  | t :: ts => All P t ∧ AllItems P ts

def AllMembers (P : Tree → Prop) : List (String × Tree) → Prop
  | [] => True
  | (_, t) :: ms => All P t ∧ AllMembers P ms

end

/-- There is no null and nothing empty. -/
def IsFull (t : Tree) : Prop := t.All fun t => t ≠ .null ∧ t ≠ .array [] ∧ t ≠ .object []

mutual

def mapNumbers (f : Binary64 → Binary64) : Tree → Tree
  | .number x => .number (f x)
  | .array items => .array (mapItems f items)
  | .object members => .object (mapMembers f members)
  | t => t

def mapItems (f : Binary64 → Binary64) : List Tree → List Tree
  | [] => []
  | t :: ts => mapNumbers f t :: mapItems f ts

def mapMembers (f : Binary64 → Binary64) : List (String × Tree) → List (String × Tree)
  | [] => []
  | (key, t) :: ms => (key, mapNumbers f t) :: mapMembers f ms

end

variable {P : Tree → Prop} {f : Binary64 → Binary64} {items : List Tree}
  {members : List (String × Tree)} {t : Tree}

theorem isNull_iff : t.isNull = true ↔ t = .null := by cases t <;> simp [isNull]

theorem normalItems_eq (n : Nat) (items : List Tree) : normalItems n items =
    ((items.zipIdx n).filter fun p => !p.1.isNull).map fun p => (p.2, p.1.normal) := by
  induction items generalizing n with
  | nil => rfl
  | cons t ts ih =>
    rw [normalItems, List.zipIdx_cons, List.filter_cons, ih]
    cases t.isNull <;> rfl

theorem normalMembers_eq (members : List (String × Tree)) : normalMembers members =
    (members.filter fun m => !m.2.isNull).map fun m => (m.1, m.2.normal) := by
  induction members with
  | nil => rfl
  | cons m ms ih =>
    rw [normalMembers, List.filter_cons, ih]
    cases m.2.isNull <;> rfl

theorem allItems_iff : AllItems P items ↔ ∀ t ∈ items, t.All P := by
  induction items with
  | nil => simp [AllItems]
  | cons t ts ih => rw [AllItems, ih, List.forall_mem_cons]

theorem allMembers_iff : AllMembers P members ↔ ∀ m ∈ members, m.2.All P := by
  induction members with
  | nil => simp [AllMembers]
  | cons m ms ih => rw [AllMembers, ih, List.forall_mem_cons]

theorem All.here (all : t.All P) : P t := by
  cases t with
  | array items => exact all.1
  | object members => exact all.1
  | _ => exact all

theorem mapItems_eq (items : List Tree) : mapItems f items = items.map (mapNumbers f) := by
  induction items with
  | nil => rfl
  | cons t ts ih => rw [mapItems, ih, List.map_cons]

theorem mapMembers_eq (members : List (String × Tree)) :
    mapMembers f members = members.map fun m => (m.1, m.2.mapNumbers f) := by
  induction members with
  | nil => rfl
  | cons m ms ih => rw [mapMembers, ih, List.map_cons]

theorem arrange_of_ne_nil {kept : List (Nat × Tree)} (some : kept ≠ []) : arrange kept =
    if kept.map (·.1) = List.range' 1 kept.length then .array (kept.map (·.2))
    else .object (Dictionary.ofList (kept.map fun p => (Text.number p.1, p.2))) := by
  cases kept with
  | nil => exact absurd rfl some
  | cons p kept => rfl

theorem gather_of_ne_nil {kept : List (String × Tree)} (some : kept ≠ []) :
    gather kept = .object kept := by
  cases kept with
  | nil => exact absurd rfl some
  | cons m kept => rfl

theorem IsFull.not_isNull (full : t.IsFull) : (!t.isNull) = true := by
  rw [Bool.not_eq_true', ← Bool.not_eq_true, isNull_iff]
  exact full.here.1

/-- Where nothing is null or empty only negative zeros change. -/
theorem normal_of_isFull (full : t.IsFull) : t.normal = t.mapNumbers Binary64.unsigned := by
  induction t using Tree.induction with
  | null => exact absurd rfl full.1
  | bool b => rfl
  | number x => rfl
  | string s => rfl
  | array items ih =>
    have each : ∀ t ∈ items, t.IsFull := allItems_iff.mp full.2
    have all : (items.zipIdx 1).filter (fun p => !p.1.isNull) = items.zipIdx 1 :=
      List.filter_eq_self.mpr fun p mem => (each _ (List.fst_mem_of_mem_zipIdx mem)).not_isNull
    have some : items.zipIdx 1 ≠ [] := by
      rw [Ne, List.zipIdx_eq_nil_iff]
      rintro rfl
      exact full.here.2.1 rfl
    have positions : ((items.zipIdx 1).map fun p => (p.2, p.1.normal)).map (·.1) =
        List.range' 1 items.length := by
      rw [List.map_map]
      exact List.zipIdx_map_snd 1 items
    have trees : ((items.zipIdx 1).map fun p => (p.2, p.1.normal)).map (·.2) =
        items.map normal := by
      rw [List.map_map]
      conv_rhs => rw [← List.zipIdx_map_fst 1 items, List.map_map]
      rfl
    rw [normal, normalItems_eq, all, arrange_of_ne_nil (by simpa using some), positions,
      List.length_map, List.length_zipIdx, if_pos rfl, trees, mapNumbers, mapItems_eq]
    exact congrArg Tree.array (List.map_congr_left fun t mem => ih t mem (each t mem))
  | object members ih =>
    have each : ∀ m ∈ members, m.2.IsFull := allMembers_iff.mp full.2
    have all : members.filter (fun m => !m.2.isNull) = members :=
      List.filter_eq_self.mpr fun m mem => (each m mem).not_isNull
    have some : members ≠ [] := by
      rintro rfl
      exact full.here.2.2 rfl
    rw [normal, normalMembers_eq, all, gather_of_ne_nil (by simpa using some), mapNumbers,
      mapMembers_eq]
    exact congrArg Tree.object (List.map_congr_left fun m mem => by rw [ih m mem (each m mem)])

end ScriptServer.Json.Tree
