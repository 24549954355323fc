import ScriptServer.Proofs.Json.RoundTrip

/-!
# Nesting

`height` counts the arrays and objects that stand one inside the other, empty ones included, so it
bounds the depth of every node.
-/

namespace ScriptServer.Json.Tree

mutual

/-- The greatest number of arrays and objects one inside the other. -/
def height : Tree → Nat
  | .array items => heightItems items + 1
  | .object members => heightMembers members + 1
  | _ => 0

def heightItems : List Tree → Nat
  | [] => 0
  | t :: ts => max (height t) (heightItems ts)

def heightMembers : List (String × Tree) → Nat
  | [] => 0
  | (_, t) :: ms => max (height t) (heightMembers ms)

end

variable {items : List Tree} {members : List (String × Tree)} {n : Nat}

theorem heightItems_le : heightItems items ≤ n ↔ ∀ t ∈ items, t.height ≤ n := by
  induction items with
  | nil => simp [heightItems]
  | cons t ts ih => rw [heightItems, Nat.max_le, ih, List.forall_mem_cons]

theorem heightMembers_le : heightMembers members ≤ n ↔ ∀ m ∈ members, m.2.height ≤ n := by
  induction members with
  | nil => simp [heightMembers]
  | cons m ms ih => rw [heightMembers, Nat.max_le, ih, List.forall_mem_cons]

theorem height_array_le : (Tree.array items).height ≤ n + 1 ↔ ∀ t ∈ items, t.height ≤ n := by
  rw [height, Nat.succ_le_succ_iff, heightItems_le]

theorem height_object_le :
    (Tree.object members).height ≤ n + 1 ↔ ∀ m ∈ members, m.2.height ≤ n := by
  rw [height, Nat.succ_le_succ_iff, heightMembers_le]

theorem depth_le_height (t : Tree) : t.depth ≤ t.height := by
  induction t using Tree.induction with
  | null => exact Nat.le_refl _
  | bool b => exact Nat.le_refl _
  | number x => exact Nat.le_refl _
  | string s => exact Nat.le_refl _
  | array items ih =>
    rw [depth, height, depthItems_le]
    intro t mem
    exact Nat.succ_le_succ (Nat.le_trans (ih t mem) (heightItems_le.mp (Nat.le_refl _) t mem))
  | object members ih =>
    rw [depth, height, depthMembers_le]
    intro m mem
    exact Nat.succ_le_succ (Nat.le_trans (ih m mem) (heightMembers_le.mp (Nat.le_refl _) m mem))

end ScriptServer.Json.Tree
