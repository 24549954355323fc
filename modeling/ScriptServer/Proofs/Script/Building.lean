import ScriptServer.Proofs.Json.Normal
import ScriptServer.Proofs.Script.Unfolding
import ScriptServer.Proofs.Text.Utf8

/-!
# Building values

`ofTree` makes a table for each array and object of a tree, before it makes those inside of it, and
fills it slot by slot. `Shows` says what the heap holds then: the tables of a value, numbered
upwards on the way in, have an entry for each slot that is not null.
-/

namespace ScriptServer.Script

/-! ## Slots -/

/-- The keys and trees of an array or object. -/
def slots? : Json.Tree → Option (List (Value × Json.Tree))
  | .array items => some ((items.zipIdx 1).map fun p => (.ofNat p.2, p.1))
  | .object members => some (members.map fun m => (.ofText m.1, m.2))
  | _ => none

/-- The value of a tree that is no array or object. -/
def flatValue : Json.Tree → Value
  | .bool b => .bool b
  | .number x => ofNumber x
  | .string s => .ofText s
  | _ => .nil

/-- The slots that get an entry. -/
def kept (slots : List (Value × Json.Tree)) : List (Value × Json.Tree) :=
  slots.filter fun s => !s.2.isNull

/-- The slots have keys of different texts, and there are fewer than positive integers. -/
structure SlotsApart (slots : List (Value × Json.Tree)) : Prop where
  names : (slots.map fun s => s.1.keyText).Nodup
  isKey : ∀ s ∈ slots, s.1.IsKey
  small : slots.length < Value.integerBound

theorem SlotsApart.keys {slots : List (Value × Json.Tree)} (apart : SlotsApart slots) :
    (slots.map (·.1)).Nodup :=
  List.Nodup.of_map Value.keyText (by rw [List.map_map]; exact apart.names)

/-- The array or object has fewer items or members than there are positive integers. -/
def IsSmallHere : Json.Tree → Prop
  | .array items => items.length < Value.integerBound
  | .object members => members.length < Value.integerBound
  | _ => True

/-- No array or object is longer than a table can be, as none is that fits into memory. -/
def IsSmall (t : Json.Tree) : Prop := t.All IsSmallHere

variable {t : Json.Tree} {slots : List (Value × Json.Tree)}

theorem ofNumber_cases (x : Binary64) :
    (∃ i, ofNumber x = .integer i) ∨ ofNumber x = .float x := by
  unfold ofNumber
  split
  · exact .inl ⟨_, rfl⟩
  · exact .inr rfl

theorem flatValue_ne_table (t : Json.Tree) (id : Nat) : flatValue t ≠ .table id := by
  cases t with
  | number x => rcases ofNumber_cases x with ⟨i, eq⟩ | eq <;> simp [flatValue, eq]
  | _ => exact Value.noConfusion

theorem flatValue_eq_nil_iff (flat : slots? t = none) : flatValue t = .nil ↔ t.isNull = true := by
  cases t with
  | null => exact iff_of_true rfl rfl
  | number x =>
    refine iff_of_false ?_ Bool.false_ne_true
    rcases ofNumber_cases x with ⟨i, eq⟩ | eq <;> simp [flatValue, eq]
  | array items => cases flat
  | object members => cases flat
  | _ => exact iff_of_false Value.noConfusion Bool.false_ne_true

/-- What holds of every slot of an array holds of every item. -/
theorem forall_items_iff {P : Json.Tree → Prop} {items : List Json.Tree} :
    (∀ s ∈ (items.zipIdx 1).map fun p => (Value.ofNat p.2, p.1), P s.2) ↔ ∀ t ∈ items, P t := by
  rw [List.forall_mem_map]
  refine ⟨fun all t mem => ?_, fun all p mem => all _ (List.fst_mem_of_mem_zipIdx mem)⟩
  rw [← List.zipIdx_map_fst 1 items] at mem
  obtain ⟨p, slot, rfl⟩ := List.mem_map.mp mem
  exact all p slot

theorem keys_items (items : List Json.Tree) :
    ((items.zipIdx 1).map fun p => (Value.ofNat p.2, p.1)).map (·.1) = positions items.length := by
  rw [positions, ← List.zipIdx_map_snd 1 items, List.map_map, List.map_map]
  rfl

/-- Induction in which an array or object may use the property of every slot. -/
theorem slots_induction {P : Json.Tree → Prop} (flat : ∀ t, slots? t = none → P t)
    (table : ∀ t slots, slots? t = some slots → (∀ s ∈ slots, P s.2) → P t) (t : Json.Tree) :
    P t := by
  induction t using Json.Tree.induction with
  | null => exact flat _ rfl
  | bool b => exact flat _ rfl
  | number x => exact flat _ rfl
  | string s => exact flat _ rfl
  | array items ih => exact table _ _ rfl (forall_items_iff.mpr ih)
  | object members ih => exact table _ _ rfl (List.forall_mem_map.mpr ih)

theorem isOrdered_of_slots (some : slots? t = some slots) (ordered : t.IsOrdered) :
    ∀ s ∈ slots, s.2.IsOrdered := by
  cases t with
  | array items =>
    cases some
    exact forall_items_iff.mpr (Json.Tree.isOrderedItems_iff.mp ordered)
  | object members =>
    cases some
    exact List.forall_mem_map.mpr (Json.Tree.isOrderedMembers_iff.mp ordered.2)
  | _ => cases some

theorem isSmall_iff_of_slots (some : slots? t = some slots) :
    IsSmall t ↔ slots.length < Value.integerBound ∧ ∀ s ∈ slots, IsSmall s.2 := by
  cases t with
  | array items =>
    cases some
    rw [List.length_map, List.length_zipIdx, forall_items_iff]
    exact and_congr_right fun _ => Json.Tree.allItems_iff
  | object members =>
    cases some
    rw [List.length_map, List.forall_mem_map]
    exact and_congr_right fun _ => Json.Tree.allMembers_iff
  | _ => cases some

/-- An array or object is higher than everything in its slots. -/
theorem height_le_of_slots (some : slots? t = some slots) {n : Nat} (le : t.height ≤ n) :
    ∃ m, n = m + 1 ∧ ∀ s ∈ slots, s.2.height ≤ m := by
  cases n with
  | zero =>
    cases t with
    | array items => exact absurd le (Nat.not_succ_le_zero _)
    | object members => exact absurd le (Nat.not_succ_le_zero _)
    | _ => cases some
  | succ m =>
    refine ⟨m, rfl, ?_⟩
    cases t with
    | array items =>
      cases some
      exact forall_items_iff.mpr (Json.Tree.height_array_le.mp le)
    | object members =>
      cases some
      exact List.forall_mem_map.mpr (Json.Tree.height_object_le.mp le)
    | _ => cases some

theorem slotsApart_of_isOrdered (some : slots? t = some slots) (ordered : t.IsOrdered)
    (small : IsSmall t) : SlotsApart slots := by
  have here : IsSmallHere t := small.here
  cases t with
  | array items =>
    cases some
    refine ⟨?_, List.forall_mem_map.mpr fun p mem => Value.isKey_integer _, ?_⟩
    · have names := nodup_names_positions here
      rwa [← keys_items items, List.map_map] at names
    · rw [List.length_map, List.length_zipIdx]
      exact here
  | object members =>
    cases some
    refine ⟨?_, List.forall_mem_map.mpr fun m mem => Value.isKey_string _, ?_⟩
    · rw [List.map_map]
      refine List.pairwise_map.mpr (ordered.1.imp fun lt eq => ?_)
      simp only [Function.comp_apply, Value.keyText_ofText] at eq
      exact String.lt_irrefl _ (eq ▸ lt)
    · rw [List.length_map]
      exact here
  | _ => cases some

/-! ## Filling a table -/

def fillSlot (id : Nat) (h : Heap) (s : Value × Json.Tree) : Heap :=
  (ofTree s.2 h).2.modifyTable id fun table => table.set s.1 (ofTree s.2 h).1

def fill (id : Nat) (slots : List (Value × Json.Tree)) (h : Heap) : Heap :=
  slots.foldl (fillSlot id) h

variable {h g : Heap} {id lo : Nat} {v : Value}

theorem fillItems_eq (id : Nat) (items : List Json.Tree) (n : Nat) (h : Heap) :
    fillItems id items n h = fill id ((items.zipIdx n).map fun p => (.ofNat p.2, p.1)) h := by
  induction items generalizing n h with
  | nil => simp [fillItems, fill]
  | cons t ts ih =>
    rw [fillItems, List.zipIdx_cons, List.map_cons, fill]
    exact ih ..

theorem fillMembers_eq (id : Nat) (members : List (String × Json.Tree)) (h : Heap) :
    fillMembers id members h = fill id (members.map fun m => (.ofText m.1, m.2)) h := by
  induction members generalizing h with
  | nil => simp [fillMembers, fill]
  | cons m ms ih =>
    rw [fillMembers, List.map_cons, fill]
    exact ih ..

theorem ofTree_flat (flat : slots? t = none) (h : Heap) : ofTree t h = (flatValue t, h) := by
  cases t with
  | array items => cases flat
  | object members => cases flat
  | _ => simp [ofTree, flatValue]

theorem ofTree_table (some : slots? t = some slots) (h : Heap) : ofTree t h =
    (.table h.tables.size, fill h.tables.size slots (h.addTable .empty).2) := by
  cases t with
  | array items => cases some; rw [ofTree, ← fillItems_eq]; rfl
  | object members => cases some; rw [ofTree, ← fillMembers_eq]; rfl
  | _ => cases some

namespace Table

theorem put_of_not_mem {key : Value} {es : List (Value × Value)} (others : ∀ e ∈ es, e.1 ≠ key)
    (v : Value) : put key v es = es ++ [(key, v)] := by
  induction es with
  | nil => rfl
  | cons e es ih =>
    obtain ⟨ne, others⟩ := List.forall_mem_cons.mp others
    rw [put, if_neg ne, ih others]
    rfl

/-- A new key gets an entry at the end, unless nil is assigned to it. -/
theorem entries_set_of_not_mem {t : Table} {key : Value} (asKey : key.asKey = key)
    (absent : key ∉ t.keys) (v : Value) :
    (t.set key v).entries = t.entries ++ if v = .nil then [] else [(key, v)] := by
  have others : ∀ e ∈ t.entries, e.1 ≠ key := fun e mem eq => absent (eq ▸ mem_keys_of_mem mem)
  rw [set, asKey]
  split
  · rw [List.append_nil, List.filter_eq_self]
    exact fun e mem => decide_eq_true (others e mem)
  · exact put_of_not_mem others v

end Table

/-! ## Heaps that grow -/

namespace Heap

/-- `g` has the tables of `h`, those that are `kept` as they were. -/
structure Grows (h g : Heap) (kept : Nat → Prop) : Prop where
  size_le : h.tables.size ≤ g.tables.size
  table : ∀ id < h.tables.size, kept id → g.table id = h.table id

variable {i : Heap} {kept kept' : Nat → Prop}

theorem Grows.refl (h : Heap) : h.Grows h kept := ⟨Nat.le_refl _, fun _ _ _ => rfl⟩

theorem Grows.trans (first : h.Grows i kept) (second : i.Grows g kept) : h.Grows g kept :=
  ⟨Nat.le_trans first.size_le second.size_le, fun id bound same => by
    rw [second.table id (Nat.lt_of_lt_of_le bound first.size_le) same, first.table id bound same]⟩

theorem Grows.mono (grows : h.Grows g kept) (imp : ∀ id, kept' id → kept id) : h.Grows g kept' :=
  ⟨grows.size_le, fun id bound same => grows.table id bound (imp id same)⟩

theorem size_addTable (h : Heap) (t : Table) :
    (h.addTable t).2.tables.size = h.tables.size + 1 := Array.size_push ..

theorem table_addTable_self (h : Heap) (t : Table) : (h.addTable t).2.table h.tables.size = t := by
  rw [Heap.table, addTable, Array.getElem?_push_size]
  rfl

theorem grows_addTable (h : Heap) (t : Table) : h.Grows (h.addTable t).2 fun _ => True := by
  refine ⟨by rw [size_addTable]; omega, fun id bound _ => ?_⟩
  rw [Heap.table, Heap.table, addTable, Array.getElem?_push_lt bound,
    Array.getElem?_eq_getElem bound]

theorem table_modifyTable_self (bound : id < h.tables.size) (change : Table → Table) :
    (h.modifyTable id change).table id = change (h.table id) := by
  rw [Heap.table, Heap.table, modifyTable, Array.getElem?_modify, if_pos rfl,
    Array.getElem?_eq_getElem bound]
  rfl

theorem grows_modifyTable (h : Heap) (id : Nat) (change : Table → Table) :
    h.Grows (h.modifyTable id change) (· ≠ id) := by
  refine ⟨(Array.size_modify ..).ge, fun other _ ne => ?_⟩
  rw [Heap.table, Heap.table, modifyTable, Array.getElem?_modify, if_neg ne.symm]

theorem table_arrangedFrom (h : Heap) (a : Arrangement) (start id : Nat) :
    (h.arrangedFrom a start).table id =
      if start ≤ id then (h.table id).arranged a id else h.table id := by
  rw [Heap.table, Heap.table, arrangedFrom, Array.getElem?_mapIdx]
  cases h.tables[id]? with
  | some t => rfl
  | none =>
    have unchanged : Table.empty.arranged a id = .empty := by
      rw [Table.arranged, show a.order id Table.empty.entries = [] from (a.perm id []).eq_nil]
      rfl
    exact (ite_eq_right_iff.mpr fun _ => unchanged).symm

theorem perm_entries_arrangedFrom (h : Heap) (a : Arrangement) (start id : Nat) :
    ((h.arrangedFrom a start).table id).entries.Perm (h.table id).entries := by
  rw [table_arrangedFrom]
  split
  · exact a.perm id _
  · exact .refl _

theorem grows_arrangedFrom (h : Heap) (a : Arrangement) (start : Nat) :
    h.Grows (h.arrangedFrom a start) (· < start) := by
  refine ⟨(Array.size_mapIdx ..).ge, fun id _ old => ?_⟩
  rw [table_arrangedFrom, if_neg (Nat.not_le.mpr old)]

/-- Arranging the new tables leaves the old ones alone. -/
theorem Grows.arranged (grows : h.Grows g fun _ => True) (a : Arrangement) :
    h.Grows (g.arrangedFrom a h.tables.size) fun _ => True := by
  have same := grows_arrangedFrom g a h.tables.size
  refine ⟨Nat.le_trans grows.size_le same.size_le, fun id bound _ => ?_⟩
  rw [same.table id (Nat.lt_of_lt_of_le bound grows.size_le) bound, grows.table id bound trivial]

end Heap

/-! ## What was built -/

/-- The heap shows a tree at a value. Its tables are numbered from `lo` on, and those inside of a
table from the next number on. -/
inductive Shows (h : Heap) : Nat → Json.Tree → Value → Prop
  | flat {lo : Nat} {t : Json.Tree} (flat : slots? t = none) : Shows h lo t (flatValue t)
  | table {lo id : Nat} {t : Json.Tree} {slots : List (Value × Json.Tree)} {value : Value → Value}
      (some : slots? t = some slots) (apart : SlotsApart slots) (low : lo ≤ id)
      (high : id < h.tables.size)
      (entries : (h.table id).entries = (kept slots).map fun s => (s.1, value s.1))
      (all : ∀ s ∈ kept slots, Shows h (id + 1) s.2 (value s.1)) : Shows h lo t (.table id)

namespace Shows

theorem lower {lo' : Nat} (shows : Shows h lo t v) (le : lo' ≤ lo) : Shows h lo' t v := by
  cases shows with
  | flat flat => exact .flat flat
  | table some apart low high entries all =>
    exact .table some apart (Nat.le_trans le low) high entries all

theorem mono {kept : Nat → Prop} (shows : Shows h lo t v) (grows : h.Grows g kept)
    (same : ∀ id, lo ≤ id → kept id) : Shows g lo t v := by
  induction shows with
  | flat flat => exact .flat flat
  | @table lo id t slots value some apart low high entries all ih =>
    refine .table some apart low (Nat.lt_of_lt_of_le high grows.size_le) ?_ fun s mem =>
      ih s mem fun id' le => same id' (by omega)
    rw [grows.table id high (same id low), entries]

theorem eq_nil_iff (shows : Shows h lo t v) : v = .nil ↔ t.isNull = true := by
  cases shows with
  | flat flat => exact flatValue_eq_nil_iff flat
  | table some =>
    refine iff_of_false Value.noConfusion fun null => ?_
    rw [Json.Tree.isNull_iff.mp null] at some
    cases some

end Shows

variable {value : Value → Value}

theorem mem_kept {s : Value × Json.Tree} : s ∈ kept slots ↔ s ∈ slots ∧ s.2.isNull = false := by
  rw [kept, List.mem_filter, Bool.not_eq_true']

/-- A table with an entry for each slot that is kept is one of the language. -/
theorem SlotsApart.isLegal (apart : SlotsApart slots)
    (entries : (h.table id).entries = (kept slots).map fun s => (s.1, value s.1))
    (all : ∀ s ∈ kept slots, Shows h lo s.2 (value s.1)) :
    (h.table id).IsLegal ∧ h.NamesApart id := by
  have keys : (h.table id).keys = (kept slots).map (·.1) := by
    rw [Table.keys, entries, List.map_map]
    rfl
  have names : ((h.table id).keys.map Value.keyText).Nodup := by
    rw [keys, List.map_map]
    exact apart.names.sublist (List.filter_sublist.map _)
  refine ⟨⟨names.of_map, ?_, ?_, ?_⟩, fun _ => names⟩
  · rw [keys]
    exact List.forall_mem_map.mpr fun s mem => apart.isKey s (mem_kept.mp mem).1
  · rw [entries]
    refine List.forall_mem_map.mpr fun s mem nil => ?_
    rw [(all s mem).eq_nil_iff, (mem_kept.mp mem).2] at nil
    cases nil
  · rw [entries, List.length_map]
    exact Nat.lt_of_le_of_lt (List.length_filter_le ..) apart.small

/-- Every table that can be reached is one of the language, with names that differ. -/
theorem Shows.reaches (shows : Shows h lo t v) {target : Nat} (reaches : h.Reaches v target) :
    (h.table target).IsLegal ∧ h.NamesApart target := by
  induction shows with
  | @flat lo t flat =>
    generalize eq : flatValue t = v at reaches
    cases reaches <;> exact absurd eq (flatValue_ne_table t _)
  | @table lo id t slots value some apart low high entries all ih =>
    cases reaches with
    | here => exact apart.isLegal entries all
    | entry mem inside =>
      rw [entries] at mem
      obtain ⟨s, mem', rfl⟩ := List.mem_map.mp mem
      exact ih s mem' inside

/-! ## Building shows the tree -/

/-- What building a tree in a heap gives. -/
structure Builds (t : Json.Tree) (h : Heap) : Prop where
  grows : h.Grows (ofTree t h).2 fun _ => True
  shows : Shows (ofTree t h).2 h.tables.size t (ofTree t h).1

theorem eq_of_mem_kept {s s' : Value × Json.Tree} (mem : s' ∈ kept [s]) : s' = s :=
  List.mem_singleton.mp (mem_kept.mp mem).1

theorem kept_cons (s : Value × Json.Tree) (slots : List (Value × Json.Tree)) :
    kept (s :: slots) = kept [s] ++ kept slots := List.filter_append [s] slots

/-- Filling a slot adds its entry if it is kept. -/
theorem fillSlot_spec {s : Value × Json.Tree} (builds : Builds s.2 h) (bound : id < h.tables.size)
    (asKey : s.1.asKey = s.1) (absent : s.1 ∉ (h.table id).keys) :
    h.Grows (fillSlot id h s) (· ≠ id) ∧
      ((fillSlot id h s).table id).entries =
        (h.table id).entries ++ (kept [s]).map (fun s => (s.1, (ofTree s.2 h).1)) ∧
      Shows (fillSlot id h s) (id + 1) s.2 (ofTree s.2 h).1 := by
  obtain ⟨grows, shows⟩ := builds
  have grows' : (ofTree s.2 h).2.Grows (fillSlot id h s) (· ≠ id) := Heap.grows_modifyTable ..
  have same : (ofTree s.2 h).2.table id = h.table id := grows.table id bound trivial
  refine ⟨(grows.mono fun _ _ => trivial).trans grows', ?_,
    (shows.mono grows' fun id' le => by omega).lower bound⟩
  rw [fillSlot, Heap.table_modifyTable_self (Nat.lt_of_lt_of_le bound grows.size_le),
    Table.entries_set_of_not_mem asKey (same ▸ absent), same]
  by_cases null : s.2.isNull = true
  · rw [if_pos (shows.eq_nil_iff.mpr null), kept, List.filter_singleton, null]
    rfl
  · rw [if_neg (mt shows.eq_nil_iff.mp null), kept, List.filter_singleton, eq_false_of_ne_true null]
    rfl

/-- Filling a table adds an entry for each slot that is kept, in their order. -/
theorem fill_spec (builds : ∀ s ∈ slots, ∀ h, Builds s.2 h) (h : Heap) (bound : id < h.tables.size)
    (isKey : ∀ s ∈ slots, s.1.IsKey) (nodup : (slots.map (·.1)).Nodup)
    (fresh : ∀ s ∈ slots, s.1 ∉ (h.table id).keys) :
    h.Grows (fill id slots h) (· ≠ id) ∧ ∃ value : Value → Value,
      ((fill id slots h).table id).entries =
        (h.table id).entries ++ (kept slots).map (fun s => (s.1, value s.1)) ∧
      ∀ s ∈ kept slots, Shows (fill id slots h) (id + 1) s.2 (value s.1) := by
  induction slots generalizing h with
  | nil => exact ⟨.refl h, fun _ => .nil, by simp [fill, kept], nofun⟩
  | cons s slots ih =>
    obtain ⟨first, builds⟩ := List.forall_mem_cons.mp builds
    obtain ⟨isKey', isKey⟩ := List.forall_mem_cons.mp isKey
    obtain ⟨absent, fresh⟩ := List.forall_mem_cons.mp fresh
    obtain ⟨new, nodup⟩ := List.nodup_cons.mp nodup
    obtain ⟨grows, entries, shows⟩ := fillSlot_spec (first h) bound isKey'.asKey absent
    have ne : ∀ s' ∈ slots, s'.1 ≠ s.1 := fun s' mem eq => new (List.mem_map.mpr ⟨s', mem, eq⟩)
    have fresh' : ∀ s' ∈ slots, s'.1 ∉ ((fillSlot id h s).table id).keys := by
      intro s' mem mem'
      rw [Table.keys, entries, List.map_append, List.mem_append] at mem'
      rcases mem' with old | last
      · exact fresh s' mem old
      · rw [List.map_map] at last
        obtain ⟨s'', single, eq⟩ := List.mem_map.mp last
        rw [Function.comp_apply, eq_of_mem_kept single] at eq
        exact ne s' mem eq.symm
    obtain ⟨rest, value, entries', all⟩ := ih builds (fillSlot id h s)
      (Nat.lt_of_lt_of_le bound grows.size_le) isKey nodup fresh'
    -- The key is new, so its value can be added to those of the other keys.
    let value' (key : Value) : Value := if key = s.1 then (ofTree s.2 h).1 else value key
    have here : value' s.1 = (ofTree s.2 h).1 := if_pos rfl
    have others : ∀ s' ∈ kept slots, value' s'.1 = value s'.1 := fun s' mem =>
      if_neg (ne s' (mem_kept.mp mem).1)
    refine ⟨grows.trans rest, value', ?_, fun s' mem => ?_⟩
    · have head : (kept [s]).map (fun s => (s.1, (ofTree s.2 h).1)) =
          (kept [s]).map fun s => (s.1, value' s.1) := by
        refine List.map_congr_left fun s' mem => ?_
        rw [eq_of_mem_kept mem, here]
      have tail : (kept slots).map (fun s => (s.1, value s.1)) =
          (kept slots).map fun s => (s.1, value' s.1) :=
        List.map_congr_left fun s' mem => by rw [others s' mem]
      rw [kept_cons, List.map_append, ← head, ← tail, ← List.append_assoc, ← entries]
      exact entries'
    · rw [kept_cons, List.mem_append] at mem
      rcases mem with mem | mem
      · rw [eq_of_mem_kept mem, here]
        exact shows.mono rest fun id' le => by omega
      · rw [others s' mem]
        exact all s' mem

/-- Building a tree leaves the tables that there were as they are, and shows the tree. -/
theorem builds (t : Json.Tree) (ordered : t.IsOrdered) (small : IsSmall t) (h : Heap) :
    Builds t h := by
  induction t using slots_induction generalizing h with
  | flat t flat =>
    have same := ofTree_flat flat h
    exact ⟨by rw [same]; exact .refl h, by rw [same]; exact .flat flat⟩
  | table t slots some ih =>
    have apart := slotsApart_of_isOrdered some ordered small
    have inner : ∀ s ∈ slots, ∀ h, Builds s.2 h := fun s mem =>
      ih s mem (isOrdered_of_slots some ordered s mem)
        (((isSmall_iff_of_slots some).mp small).2 s mem)
    -- The table is made first, so the slots are filled with tables of higher numbers.
    have new := h.grows_addTable .empty
    have none : ((h.addTable .empty).2.table h.tables.size).entries = [] := by
      rw [Heap.table_addTable_self]
      rfl
    have bound : h.tables.size < (h.addTable .empty).2.tables.size := by
      rw [Heap.size_addTable]
      exact Nat.lt_succ_self _
    obtain ⟨grows, value, entries, all⟩ := fill_spec inner _ bound apart.isKey
      apart.keys (by simp [Table.keys, none])
    rw [none, List.nil_append] at entries
    have same := ofTree_table some h
    refine ⟨?_, ?_⟩
    · rw [same]
      refine ⟨Nat.le_trans new.size_le grows.size_le, fun id old _ => ?_⟩
      rw [grows.table id (Nat.lt_trans old bound) (Nat.ne_of_lt old), new.table id old trivial]
    · rw [same]
      exact .table some apart (Nat.le_refl _) (Nat.lt_of_lt_of_le bound grows.size_le) entries all

end ScriptServer.Script
