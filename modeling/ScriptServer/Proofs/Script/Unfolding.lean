import ScriptServer.Proofs.Json.Nesting
import ScriptServer.Proofs.Script.Shapes

/-!
# Unfolding a heap

A heap may share tables and have cycles. `Unfolds` says which trees a value can have when a table
may report any of its lengths and its entries come in any order; `unfold` gives one of them. What
becomes of a table depends only on the tables that are open around it, so a table that was unfolded
elsewhere is unfolded again, and a copy of it would give the same.
-/

namespace ScriptServer.Script

/-! ## Values in a heap -/

theorem Value.flat_or_table (v : Value) : (∀ id, v ≠ .table id) ∨ ∃ id, v = .table id := by
  cases v with
  | table id => exact .inr ⟨id, rfl⟩
  | _ => exact .inl fun _ => Value.noConfusion

def Value.leaf : Value → Json.Tree
  | .nil => .null
  | .bool b => .bool b
  | .integer i => .number (Binary64.ofInt i.toInt)
  | .float x => .number x
  | .string bs => .string (Utf8.toTextLossy bs)
  | v => .string v.opaqueText

theorem Value.leaf_ofText (s : String) : (Value.ofText s).leaf = .string s := by
  rw [ofText, leaf, Utf8.ofText, Utf8.toTextLossy_ofChars, String.ofList_toList]

namespace Heap

/-- The table can be reached from a value. -/
inductive Reaches (h : Heap) : Value → Nat → Prop
  | here {id : Nat} : Reaches h (.table id) id
  | entry {id target : Nat} {e : Value × Value} :
      e ∈ (h.table id).entries → Reaches h e.2 target → Reaches h (.table id) target

/-- The table can be reached from one of its own entries. -/
def OnCycle (h : Heap) (id : Nat) : Prop := ∃ e ∈ (h.table id).entries, h.Reaches e.2 id

/-- All tables are tables of the language. -/
def IsLegal (h : Heap) : Prop := ∀ id, (h.table id).IsLegal

theorem isLegal_of_tables {h : Heap} (all : ∀ t ∈ h.tables.toList, t.IsLegal) : h.IsLegal := by
  intro id
  rw [table]
  cases found : h.tables[id]? with
  | none => exact ⟨List.nodup_nil, nofun, nofun, by decide⟩
  | some t => exact all t (Array.mem_of_getElem? found).val

/-- Where all keys are integers, legality can be checked. -/
theorem isLegal_of_integers {h : Heap} (all : ∀ t ∈ h.tables.toList, t.keys.Nodup ∧
    (∀ key ∈ t.keys, key.kind = "integer") ∧ (∀ e ∈ t.entries, e.2 ≠ .nil) ∧
      t.entries.length < Value.integerBound) : h.IsLegal :=
  isLegal_of_tables fun t mem =>
    Table.isLegal_of_integers (all t mem).1 (all t mem).2.1 (all t mem).2.2.1 (all t mem).2.2.2

/-- The keys of the table have different texts, unless it is an array, where this is so anyway. -/
def NamesApart (h : Heap) (id : Nat) : Prop :=
  (∀ n, ¬ (h.table id).IsSequence n) → ((h.table id).keys.map Value.keyText).Nodup

end Heap

/-- The table is not unfolded: it is open already, or as many tables are open as may be. -/
def IsCut (opened : List Nat) (id : Nat) : Prop := id ∈ opened ∨ maxDepth ≤ opened.length

/-- A value has a tree while the tables `opened` are open, innermost first. -/
inductive Unfolds (h : Heap) : List Nat → Value → Json.Tree → Prop
  | leaf {opened : List Nat} {v : Value} (flat : ∀ id, v ≠ .table id) : Unfolds h opened v v.leaf
  | cut {opened : List Nat} {id : Nat} (cut : IsCut opened id) :
      Unfolds h opened (.table id) (.string (Value.table id).opaqueText)
  | empty {opened : List Nat} {id n : Nat} {es : List (Value × Value)} (free : ¬ IsCut opened id)
      (reports : (h.table id).Reports n) (order : es.Perm (h.table id).entries)
      (shape : classify n es = .empty) : Unfolds h opened (.table id) .null
  | array {opened : List Nat} {id n : Nat} {es : List (Value × Value)} {items : List Json.Tree}
      (free : ¬ IsCut opened id) (reports : (h.table id).Reports n)
      (order : es.Perm (h.table id).entries) (shape : classify n es = .array items.length)
      (all : ∀ i (bound : i < items.length),
        Unfolds h (id :: opened) ((h.table id).get (.ofNat (i + 1))) items[i]) :
      Unfolds h opened (.table id) (.array items)
  | object {opened : List Nat} {id n : Nat} {es : List (Value × Value)} {tree : Value → Json.Tree}
      (free : ¬ IsCut opened id) (reports : (h.table id).Reports n)
      (order : es.Perm (h.table id).entries) (shape : classify n es = .object)
      (all : ∀ e ∈ es, Unfolds h (id :: opened) e.2 (tree e.1)) :
      Unfolds h opened (.table id)
        (.object (Dictionary.ofList (es.map fun e => (e.1.keyText, tree e.1))))

variable {h : Heap} {opened : List Nat} {id room : Nat} {v : Value} {t : Json.Tree}

/-! ## The unfolding that is computed -/

theorem unfold_leaf (flat : ∀ id, v ≠ .table id) : unfold h room opened v = v.leaf := by
  cases v with
  | table id => exact absurd rfl (flat id)
  | _ => cases room <;> rfl

theorem isCut_iff (full : room + opened.length = maxDepth) :
    IsCut opened id ↔ id ∈ opened ∨ room = 0 := by
  rw [IsCut]
  exact or_congr_right (by omega)

theorem unfold_cut (full : room + opened.length = maxDepth) (cut : IsCut opened id) :
    unfold h room opened (.table id) = .string (Value.table id).opaqueText := by
  cases room with
  | zero => rfl
  | succ room =>
    have mem : opened.contains id = true :=
      List.contains_iff_mem.mpr (((isCut_iff full).mp cut).resolve_right (Nat.succ_ne_zero room))
    rw [unfold, if_pos mem]

theorem unfold_free (full : room + opened.length = maxDepth) (free : ¬ IsCut opened id) :
    ∃ inner, inner + (id :: opened).length = maxDepth ∧
      unfold h room opened (.table id) =
        match (h.table id).shape with
        | .empty => .null
        | .array n =>
          .array ((List.range n).map fun i =>
            unfold h inner (id :: opened) ((h.table id).get (.ofNat (i + 1))))
        | .object =>
          .object (Dictionary.ofList ((h.table id).entries.map fun e =>
            (e.1.keyText, unfold h inner (id :: opened) e.2))) := by
  rw [isCut_iff full, not_or] at free
  obtain ⟨inner, rfl⟩ := Nat.exists_eq_succ_of_ne_zero free.2
  have absent : ¬ opened.contains id = true := fun mem => free.1 (List.contains_iff_mem.mp mem)
  refine ⟨inner, by rw [List.length_cons]; omega, ?_⟩
  rw [unfold]
  exact if_neg absent

/-- The tree that is computed is one that the value can have. -/
theorem unfolds_unfold (legal : ∀ id, h.Reaches v id → (h.table id).IsLegal)
    (full : room + opened.length = maxDepth) : Unfolds h opened v (unfold h room opened v) := by
  induction room generalizing opened v with
  | zero =>
    rcases v.flat_or_table with flat | ⟨id, rfl⟩
    · rw [unfold_leaf flat]
      exact .leaf flat
    · exact .cut (.inr (by omega))
  | succ room ih =>
    rcases v.flat_or_table with flat | ⟨id, rfl⟩
    · rw [unfold_leaf flat]
      exact .leaf flat
    by_cases cut : IsCut opened id
    · rw [unfold_cut full cut]
      exact .cut cut
    obtain ⟨inner, full', eq⟩ := unfold_free full cut
    obtain rfl : inner = room := by
      rw [List.length_cons] at full'
      omega
    have here := legal id .here
    have later (e : Value × Value) (mem : e ∈ (h.table id).entries) :
        Unfolds h (id :: opened) e.2 (unfold h inner (id :: opened) e.2) :=
      ih (fun target reaches => legal target (.entry mem reaches)) full'
    rw [eq]
    cases shape : (h.table id).shape with
    | empty => exact .empty cut here.border_reports (.refl _) shape
    | array n =>
      have sequence := here.shape_eq_array_iff.mp shape
      refine .array cut here.border_reports (.refl _) ?_ fun i bound => ?_
      · rw [List.length_map, List.length_range]
        exact shape
      · rw [List.length_map, List.length_range] at bound
        obtain ⟨e, mem, -, found⟩ := here.entry_at sequence.2 bound
        rw [List.getElem_map, List.getElem_range, found]
        exact later e mem
    | object =>
      let tree (key : Value) := unfold h inner (id :: opened) ((h.table id).get key)
      have same (e : Value × Value) (mem : e ∈ (h.table id).entries) :
          unfold h inner (id :: opened) e.2 = tree e.1 := by
        rw [← here.get_of_mem mem]
      have members : (h.table id).entries.map
          (fun e => (e.1.keyText, unfold h inner (id :: opened) e.2)) =
            (h.table id).entries.map fun e => (e.1.keyText, tree e.1) :=
        List.map_congr_left fun e mem => by rw [same e mem]
      dsimp only
      rw [members]
      exact .object cut here.border_reports (.refl _) shape fun e mem => same e mem ▸ later e mem

/-- Where the names of the keys differ there is no other tree. -/
theorem Unfolds.eq_unfold (u : Unfolds h opened v t)
    (legal : ∀ id, h.Reaches v id → (h.table id).IsLegal)
    (apart : ∀ id, h.Reaches v id → h.NamesApart id) (full : room + opened.length = maxDepth) :
    t = unfold h room opened v := by
  induction u generalizing room with
  | leaf flat => exact (unfold_leaf flat).symm
  | cut cut => exact (unfold_cut full cut).symm
  | empty free reports order shape =>
    obtain ⟨inner, -, eq⟩ := unfold_free full free
    rw [eq, ← (legal _ .here).classify_eq_shape reports order, shape]
  | @array opened id n es items free reports order shape all ih =>
    obtain ⟨inner, full', eq⟩ := unfold_free full free
    have here := legal id .here
    have sequence := (Table.classify_eq_array_iff here reports order).mp shape
    rw [eq, ← here.classify_eq_shape reports order, shape]
    refine congrArg Json.Tree.array (List.ext_getElem (by simp) fun i bound _ => ?_)
    rw [List.getElem_map, List.getElem_range]
    obtain ⟨e, mem, -, found⟩ := here.entry_at sequence.2 bound
    have inside (target : Nat) (reaches : h.Reaches ((h.table id).get (.ofNat (i + 1))) target) :
        h.Reaches (.table id) target := .entry mem (found ▸ reaches)
    exact ih i bound (fun target reaches => legal target (inside target reaches))
      (fun target reaches => apart target (inside target reaches)) full'
  | @object opened id n es tree free reports order shape all ih =>
    obtain ⟨inner, full', eq⟩ := unfold_free full free
    have here := legal id .here
    have object := (Table.classify_eq_object_iff here reports order).mp shape
    rw [eq, ← here.classify_eq_shape reports order, shape]
    refine congrArg Json.Tree.object ?_
    have same : es.map (fun e => (e.1.keyText, tree e.1)) =
        es.map fun e => (e.1.keyText, unfold h inner (id :: opened) e.2) := by
      refine List.map_congr_left fun e mem => ?_
      have entry := order.mem_iff.mp mem
      rw [ih e mem (fun target reaches => legal target (.entry entry reaches))
        (fun target reaches => apart target (.entry entry reaches)) full']
    rw [same]
    refine Dictionary.ofList_eq_of_perm (order.map _) ?_
    rw [List.map_map]
    have names : ((h.table id).keys.map Value.keyText).Nodup := apart id .here object.2
    rw [Table.keys, List.map_map] at names
    exact (order.map _).nodup_iff.mpr names

/-- The tables that are open leave room for as many arrays and objects inside each other. -/
theorem Unfolds.height_le (u : Unfolds h opened v t) : t.height ≤ maxDepth - opened.length := by
  induction u with
  | @leaf opened v flat =>
    have none : v.leaf.height = 0 := by cases v <;> rfl
    omega
  | cut cut => exact Nat.zero_le _
  | empty free reports order shape => exact Nat.zero_le _
  | @array opened id n es items free reports order shape all ih =>
    obtain ⟨room, eq⟩ := Nat.exists_eq_add_of_lt (Nat.lt_of_not_le (not_or.mp free).2)
    rw [show maxDepth - opened.length = room + 1 by omega, Json.Tree.height_array_le]
    intro t mem
    obtain ⟨i, bound, rfl⟩ := List.mem_iff_getElem.mp mem
    have inner := ih i bound
    rw [List.length_cons] at inner
    omega
  | @object opened id n es tree free reports order shape all ih =>
    obtain ⟨room, eq⟩ := Nat.exists_eq_add_of_lt (Nat.lt_of_not_le (not_or.mp free).2)
    rw [show maxDepth - opened.length = room + 1 by omega, Json.Tree.height_object_le]
    intro m mem
    obtain ⟨e, entry, rfl⟩ := List.mem_map.mp (Dictionary.mem_ofList mem)
    have inner := ih e entry
    rw [List.length_cons] at inner
    dsimp only
    omega

theorem Unfolds.isOrdered (u : Unfolds h opened v t) : t.IsOrdered := by
  induction u with
  | @leaf opened v flat => cases v <;> exact trivial
  | cut cut => exact trivial
  | empty free reports order shape => exact trivial
  | @array opened id n es items free reports order shape all ih =>
    refine Json.Tree.isOrderedItems_iff.mpr fun t mem => ?_
    obtain ⟨i, bound, rfl⟩ := List.mem_iff_getElem.mp mem
    exact ih i bound
  | object free reports order shape all ih =>
    refine ⟨Dictionary.ascending_ofList _, Json.Tree.isOrderedMembers_iff.mpr fun m mem => ?_⟩
    obtain ⟨e, entry, rfl⟩ := List.mem_map.mp (Dictionary.mem_ofList mem)
    exact ih e entry

/-! ## What becomes of a table -/

/-- What the tree of a table is while the tables `opened` are open around it. -/
structure IsTreeOf (h : Heap) (opened : List Nat) (id : Nat) (t : Json.Tree) : Prop where
  address : t = .string (Value.table id).opaqueText ↔ IsCut opened id
  null : t = .null ↔ ¬ IsCut opened id ∧ (h.table id).entries = []
  array : ¬ IsCut opened id → ∀ n, 1 ≤ n → (h.table id).IsSequence n →
    ∃ items, t = .array items ∧ items.length = n ∧ ∀ i (bound : i < items.length),
      Unfolds h (id :: opened) ((h.table id).get (.ofNat (i + 1))) items[i]
  object : ¬ IsCut opened id → (h.table id).entries ≠ [] →
    (∀ n, ¬ (h.table id).IsSequence n) →
    ∃ members, t = .object members ∧ Dictionary.Ascending members ∧
      (∀ e ∈ (h.table id).entries, ∃ m ∈ members, m.1 = e.1.keyText) ∧
      ∀ m ∈ members, ∃ e ∈ (h.table id).entries,
        m.1 = e.1.keyText ∧ Unfolds h (id :: opened) e.2 m.2

theorem Unfolds.isTreeOf (u : Unfolds h opened (.table id) t) (legal : (h.table id).IsLegal) :
    IsTreeOf h opened id t := by
  cases u with
  | leaf flat => exact absurd rfl (flat id)
  | cut cut =>
    exact ⟨iff_of_true rfl cut, iff_of_false Json.Tree.noConfusion fun free => free.1 cut,
      fun free => absurd cut free, fun free => absurd cut free⟩
  | empty free reports order shape =>
    rw [Table.classify_eq_empty_iff] at shape
    rw [shape, List.nil_perm] at order
    refine ⟨iff_of_false Json.Tree.noConfusion free, iff_of_true rfl ⟨free, order⟩,
      fun _ n pos sequence => ?_, fun _ some => absurd order some⟩
    have length := legal.length_of_isSequence sequence
    rw [order, List.length_nil] at length
    omega
  | array free reports order shape all =>
    obtain ⟨pos, sequence⟩ := (Table.classify_eq_array_iff legal reports order).mp shape
    have length := legal.length_of_isSequence sequence
    refine ⟨iff_of_false Json.Tree.noConfusion free, iff_of_false Json.Tree.noConfusion ?_,
      fun _ n _ sequence' => ⟨_, rfl, ?_, all⟩, fun _ _ none => absurd sequence (none _)⟩
    · rintro ⟨-, none⟩
      rw [none, List.length_nil] at length
      omega
    · rw [← length, legal.length_of_isSequence sequence']
  | @object _ _ n es tree free reports order shape all =>
    obtain ⟨some, none⟩ := (Table.classify_eq_object_iff legal reports order).mp shape
    refine ⟨iff_of_false Json.Tree.noConfusion free,
      iff_of_false Json.Tree.noConfusion fun empty => some empty.2,
      fun _ n _ sequence => absurd sequence (none n),
      fun _ _ _ => ⟨_, rfl, Dictionary.ascending_ofList _, fun e mem => ?_, fun m mem => ?_⟩⟩
    · have key : e.1.keyText ∈ Dictionary.keys
          (Dictionary.ofList (es.map fun e => (e.1.keyText, tree e.1))) := by
        rw [Dictionary.mem_keys_ofList, List.map_map]
        exact List.mem_map.mpr ⟨e, order.mem_iff.mpr mem, rfl⟩
      obtain ⟨m, mem, eq⟩ := List.mem_map.mp key
      exact ⟨m, mem, eq⟩
    · obtain ⟨e, entry, rfl⟩ := List.mem_map.mp (Dictionary.mem_ofList mem)
      exact ⟨e, order.mem_iff.mp entry, rfl, all e entry⟩

end ScriptServer.Script
