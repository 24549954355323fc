import ScriptServer.Proofs.Script.Building

/-!
# The tree of a built value

A value that was built from a tree has one tree only, whatever lengths its tables report and in
whatever order their entries come: what is left of the first tree (`Json.Tree.normal`). A list with
gaps is where lengths differ, and there the keys alone decide.
-/

namespace ScriptServer.Script

variable {h : Heap} {opened : List Nat} {id lo room : Nat} {v : Value} {t : Json.Tree}

/-! ## Tables with positions or names -/

/-- A table with ascending positions is an array just if they are the first ones. -/
theorem Table.isSequence_iff_range {t : Table} {ns : List Nat} {m : Nat}
    (keys : t.keys = ns.map .ofNat) (ascending : ns.Pairwise (· < ·))
    (small : ∀ n ∈ ns, n < Value.integerBound) : t.IsSequence m ↔ ns = List.range' 1 m := by
  constructor
  · intro sequence
    have same : ∀ n, n ∈ ns ↔ n ∈ List.range' 1 m := by
      intro n
      have inside := sequence.mem_keys (.ofNat n)
      rw [keys, List.mem_map] at inside
      rw [List.mem_range'_1]
      constructor
      · intro mem
        obtain ⟨i, low, high, eq⟩ := inside.mp ⟨n, mem, rfl⟩
        have := (Value.ofNat_inj (small n mem) (Nat.lt_of_le_of_lt high sequence.small)).mp eq
        omega
      · intro bounds
        obtain ⟨n', mem, eq⟩ := inside.mpr ⟨n, bounds.1, by omega, rfl⟩
        have bound : n < Value.integerBound := by
          have := sequence.small
          omega
        rwa [← (Value.ofNat_inj (small n' mem) bound).mp eq]
    have perm : ns.Perm (List.range' 1 m) :=
      (List.perm_ext_iff_of_nodup (ascending.imp Nat.ne_of_lt) (List.nodup_range' 1)).mpr same
    exact perm.eq_of_pairwise (fun a b _ _ lt gt => absurd lt (Nat.lt_asymm gt)) ascending
      (List.pairwise_lt_range' 1)
  · rintro rfl
    refine ⟨?_, fun key => by rw [keys]; exact mem_positions⟩
    rcases Nat.eq_zero_or_pos m with rfl | pos
    · decide
    · exact small m (by rw [List.mem_range'_1]; omega)

/-- What stands at the first positions, taken from one on or pair by pair. -/
theorem map_range_eq {ps : List (Nat × Value)} (first : ps.map (·.1) = List.range' 1 ps.length)
    (item : Nat → Json.Tree) :
    (List.range ps.length).map (fun i => item (i + 1)) = ps.map fun p => item p.1 := by
  calc (List.range ps.length).map (fun i => item (i + 1))
      = (List.range' 1 ps.length).map item := by
        simp only [List.range'_eq_map_range, List.map_map, Function.comp_def, Nat.add_comm]
    _ = ps.map fun p => item p.1 := by rw [← first, List.map_map]; rfl

/-- The tree of a table whose keys are ascending positions. -/
theorem unfold_positions {ps : List (Nat × Value)} (legal : (h.table id).IsLegal)
    (entries : (h.table id).entries = ps.map fun p => (.ofNat p.1, p.2))
    (ascending : (ps.map (·.1)).Pairwise (· < ·)) (small : ∀ p ∈ ps, p.1 < Value.integerBound)
    (full : room + opened.length = maxDepth) (free : ¬ IsCut opened id) :
    ∃ inner, inner + (id :: opened).length = maxDepth ∧
      unfold h room opened (.table id) =
        Json.Tree.arrange (ps.map fun p => (p.1, unfold h inner (id :: opened) p.2)) := by
  obtain ⟨inner, full', eq⟩ := unfold_free full free
  refine ⟨inner, full', ?_⟩
  have keys : (h.table id).keys = (ps.map (·.1)).map .ofNat := by
    rw [Table.keys, entries, List.map_map, List.map_map]
    rfl
  have sequence (m : Nat) : (h.table id).IsSequence m ↔ ps.map (·.1) = List.range' 1 m :=
    Table.isSequence_iff_range keys ascending (List.forall_mem_map.mpr small)
  rw [eq]
  by_cases none : ps = []
  · rw [none, List.map_nil] at entries
    rw [Table.shape_eq_empty_iff.mpr entries, none]
    rfl
  have positions : (ps.map fun p => (p.1, unfold h inner (id :: opened) p.2)).map (·.1) =
      ps.map (·.1) := by
    rw [List.map_map]
    rfl
  rw [Json.Tree.arrange_of_ne_nil (by simpa using none), positions, List.length_map]
  by_cases first : ps.map (·.1) = List.range' 1 ps.length
  · have shape : (h.table id).shape = .array ps.length :=
      legal.shape_eq_array_iff.mpr ⟨List.length_pos_iff.mpr none, (sequence _).mpr first⟩
    have found : ∀ p ∈ ps, (h.table id).get (.ofNat p.1) = p.2 := fun p mem =>
      legal.get_of_mem (by rw [entries]; exact List.mem_map_of_mem mem)
    rw [shape, if_pos first, List.map_map]
    refine congrArg Json.Tree.array ?_
    rw [map_range_eq first fun n => unfold h inner (id :: opened) ((h.table id).get (.ofNat n))]
    exact List.map_congr_left fun p mem => by simp only [Function.comp_apply, found p mem]
  · have shape : (h.table id).shape = .object := by
      refine legal.shape_eq_object_iff.mpr
        ⟨by rw [entries]; simpa using none, fun m s => ?_⟩
      have length := congrArg List.length ((sequence m).mp s)
      rw [List.length_map, List.length_range'] at length
      exact first (length ▸ (sequence m).mp s)
    rw [shape, entries, if_neg first]
    refine congrArg (fun ms => Json.Tree.object (Dictionary.ofList ms)) ?_
    rw [List.map_map, List.map_map]
    refine List.map_congr_left fun p mem => ?_
    rw [Function.comp_apply, Value.keyText_ofNat (small p mem)]
    rfl

/-- The tree of a table whose keys are ascending texts. -/
theorem unfold_names {ms : List (String × Value)} (legal : (h.table id).IsLegal)
    (entries : (h.table id).entries = ms.map fun m => (.ofText m.1, m.2))
    (ascending : Dictionary.Ascending ms) (full : room + opened.length = maxDepth)
    (free : ¬ IsCut opened id) :
    ∃ inner, inner + (id :: opened).length = maxDepth ∧
      unfold h room opened (.table id) =
        Json.Tree.gather (ms.map fun m => (m.1, unfold h inner (id :: opened) m.2)) := by
  obtain ⟨inner, full', eq⟩ := unfold_free full free
  refine ⟨inner, full', ?_⟩
  rw [eq]
  by_cases none : ms = []
  · rw [none, List.map_nil] at entries
    rw [Table.shape_eq_empty_iff.mpr entries, none]
    rfl
  have shape : (h.table id).shape = .object := by
    refine legal.shape_eq_object_iff.mpr
      ⟨by rw [entries]; simpa using none, fun m sequence => ?_⟩
    have length := legal.length_of_isSequence sequence
    rw [entries, List.length_map] at length
    have first : .ofNat 1 ∈ (h.table id).keys :=
      (sequence.mem_keys _).mpr ⟨1, Nat.le_refl 1, length ▸ List.length_pos_iff.mpr none, rfl⟩
    rw [Table.keys, entries, List.map_map] at first
    obtain ⟨m, -, eq⟩ := List.mem_map.mp first
    cases eq
  have members : (ms.map fun m => (Value.ofText m.1, m.2)).map
      (fun e => (e.1.keyText, unfold h inner (id :: opened) e.2)) =
        ms.map fun m => (m.1, unfold h inner (id :: opened) m.2) := by
    rw [List.map_map]
    refine List.map_congr_left fun m mem => ?_
    rw [Function.comp_apply, Value.keyText_ofText]
  have ascending' : Dictionary.Ascending
      (ms.map fun m => (m.1, unfold h inner (id :: opened) m.2)) := List.pairwise_map.mpr ascending
  rw [shape, entries, Json.Tree.gather_of_ne_nil (by simpa using none)]
  dsimp only
  rw [members, Dictionary.ofList_of_ascending ascending']

/-! ## What is shown -/

/-- An integer that a float holds exactly comes back as that float, but for the sign of zero. -/
theorem leaf_ofNumber (x : Binary64) : (ofNumber x).leaf = .number x.unsigned := by
  unfold ofNumber
  split
  · next exact =>
    rw [Bool.and_eq_true] at exact
    have bound : x.truncate.natAbs ≤ 2 ^ 53 := Binary64.natAbs_truncate_le exact.2
    rw [Value.leaf, Int64.toInt_ofInt_of_le (by omega) (by omega), Binary64.ofInt_truncate exact.1]
  · next inexact =>
    have ne : x.pattern ≠ 0 := fun zero => inexact (by
      simp only [Binary64.isIntegral, Binary64.isFinite, Binary64.absAtMost, Binary64.units, zero]
      rfl)
    rw [Binary64.unsigned_of_ne_zero ne]
    rfl

theorem leaf_flatValue (flat : slots? t = none) : (flatValue t).leaf = t.normal := by
  cases t with
  | number x => exact leaf_ofNumber x
  | string s => exact Value.leaf_ofText s
  | array items => cases flat
  | object members => cases flat
  | _ => rfl

variable {slots : List (Value × Json.Tree)} {value : Value → Value}

/-- A table that shows an array or object is unfolded as what is left of it, if this is so of what
is inside. -/
theorem unfold_of_slots (some : slots? t = some slots) (ordered : t.IsOrdered)
    (apart : SlotsApart slots) (legal : (h.table id).IsLegal)
    (entries : (h.table id).entries = (kept slots).map fun s => (s.1, value s.1))
    (full : room + opened.length = maxDepth) (free : ¬ IsCut opened id)
    (inside : ∀ inner, inner + (id :: opened).length = maxDepth → ∀ s ∈ kept slots,
      unfold h inner (id :: opened) (value s.1) = s.2.normal) :
    unfold h room opened (.table id) = t.normal := by
  cases t with
  | array items =>
    cases some
    let ps := (items.zipIdx 1).filter fun p => !p.1.isNull
    have kept' : kept ((items.zipIdx 1).map fun p => (.ofNat p.2, p.1)) =
        ps.map fun p => (.ofNat p.2, p.1) := List.filter_map ..
    rw [kept'] at entries inside
    have positions : (items.zipIdx 1).map (·.2) = List.range' 1 items.length :=
      List.zipIdx_map_snd 1 items
    have entries' : (h.table id).entries =
        (ps.map fun p => (p.2, value (.ofNat p.2))).map fun p => (.ofNat p.1, p.2) := by
      rw [entries, List.map_map, List.map_map]
      rfl
    have ascending : ((ps.map fun p => (p.2, value (.ofNat p.2))).map (·.1)).Pairwise (· < ·) := by
      rw [List.map_map]
      have sublist : (ps.map (·.2)).Sublist (List.range' 1 items.length) :=
        positions ▸ List.filter_sublist.map _
      exact (List.pairwise_lt_range' 1).sublist sublist
    have small : ∀ p ∈ ps.map fun p => (p.2, value (.ofNat p.2)), p.1 < Value.integerBound := by
      refine List.forall_mem_map.mpr fun p mem => ?_
      have position : p.2 ∈ List.range' 1 items.length :=
        positions ▸ List.mem_map_of_mem (List.mem_of_mem_filter mem)
      have bound := apart.small
      rw [List.mem_range'_1] at position
      rw [List.length_map, List.length_zipIdx] at bound
      dsimp only
      omega
    obtain ⟨inner, full', eq⟩ := unfold_positions legal entries' ascending small full free
    rw [eq, Json.Tree.normal, Json.Tree.normalItems_eq, List.map_map]
    refine congrArg Json.Tree.arrange (List.map_congr_left fun p mem => ?_)
    exact congrArg (p.2, ·) (inside inner full' _ (List.mem_map_of_mem mem))
  | object members =>
    cases some
    let ms := members.filter fun m => !m.2.isNull
    have kept' : kept (members.map fun m => (.ofText m.1, m.2)) =
        ms.map fun m => (.ofText m.1, m.2) := List.filter_map ..
    rw [kept'] at entries inside
    have entries' : (h.table id).entries =
        (ms.map fun m => (m.1, value (.ofText m.1))).map fun m => (.ofText m.1, m.2) := by
      rw [entries, List.map_map, List.map_map]
      rfl
    have ascending : Dictionary.Ascending (ms.map fun m => (m.1, value (.ofText m.1))) :=
      List.pairwise_map.mpr (ordered.1.sublist List.filter_sublist)
    obtain ⟨inner, full', eq⟩ := unfold_names legal entries' ascending full free
    rw [eq, Json.Tree.normal, Json.Tree.normalMembers_eq, List.map_map]
    refine congrArg Json.Tree.gather (List.map_congr_left fun m mem => ?_)
    exact congrArg (m.1, ·) (inside inner full' _ (List.mem_map_of_mem mem))
  | _ => cases some

/-- What shows a tree is unfolded as what is left of it, where there is room for its height and its
tables are not open. -/
theorem Shows.unfold_eq (shows : Shows h lo t v) (ordered : t.IsOrdered)
    (outside : ∀ id ∈ opened, id < lo) (full : room + opened.length = maxDepth)
    (shallow : t.height ≤ room) : unfold h room opened v = t.normal := by
  induction shows generalizing opened room with
  | flat flat => rw [unfold_leaf (flatValue_ne_table _), leaf_flatValue flat]
  | @table lo id t slots value some apart low high entries all ih =>
    obtain ⟨inner, rfl, lower⟩ := height_le_of_slots some shallow
    -- The open tables have lower numbers than this one, and its height needs room.
    have free : ¬ IsCut opened id := by
      rintro (mem | many)
      · have := outside id mem
        omega
      · omega
    refine unfold_of_slots some ordered apart (apart.isLegal entries all).1 entries full free
      fun inner' full' s mem => ?_
    rw [List.length_cons] at full'
    obtain rfl : inner' = inner := by omega
    have slot := (mem_kept.mp mem).1
    refine ih s mem (isOrdered_of_slots some ordered s slot) (fun id' mem' => ?_)
      (by rw [List.length_cons]; omega) (lower s slot)
    rcases List.mem_cons.mp mem' with rfl | mem'
    · exact Nat.lt_succ_self _
    · have := outside id' mem'
      omega

/-- **Restoring.** What is left of a tree after it was built as a value in any heap is its normal
form, and no other tree can come of the value: neither the length that a table with gaps reports
nor the order of the entries matters. Where nothing is null or empty the tree itself is left, with
numbers of the same values. -/
theorem toTree_ofTree (t : Json.Tree) (h : Heap) (ordered : t.IsOrdered) (small : IsSmall t)
    (shallow : t.height ≤ maxDepth) :
    toTree (ofTree t h).2 (ofTree t h).1 = t.normal ∧
      (∀ t', Unfolds (ofTree t h).2 [] (ofTree t h).1 t' ↔ t' = t.normal) ∧
      (t.IsFull → t.normal = t.mapNumbers Binary64.unsigned ∧
        ∀ x ∈ t.numbers, x.unsigned.signedUnits = x.signedUnits) := by
  have shows := (builds t ordered small h).shows
  have restored : toTree (ofTree t h).2 (ofTree t h).1 = t.normal :=
    shows.unfold_eq ordered nofun rfl shallow
  refine ⟨restored, fun t' => ⟨fun unfolds => ?_, ?_⟩,
    fun filled => ⟨Json.Tree.normal_of_isFull filled, fun x _ => x.signedUnits_unsigned⟩⟩
  · rw [← restored]
    exact unfolds.eq_unfold (fun _ reaches => (shows.reaches reaches).1)
      (fun _ reaches => (shows.reaches reaches).2) rfl
  · rintro rfl
    rw [← restored]
    exact unfolds_unfold (fun _ reaches => (shows.reaches reaches).1) rfl

/-- An array with a gap, an array that is filled at the front, and a member that is null. -/
theorem toTree_ofTree_gaps :
    let t : Json.Tree := .object [("a", .array [.bool true, .null, .number ⟨0x8000000000000000⟩,
      .array []]), ("b", .array [.string "x", .null]), ("c", .null)]
    t.IsOrdered ∧ IsSmall t ∧ t.height ≤ maxDepth ∧
      toTree (ofTree t .empty).2 (ofTree t .empty).1 =
        .object [("a", .object [("1", .bool true), ("3", .number ⟨0⟩), ("4", .null)]),
          ("b", .array [.string "x"])] := by
  intro t
  have ordered : t.IsOrdered := by
    refine ⟨?_, ⟨trivial, trivial, trivial, trivial, trivial⟩, ⟨trivial, trivial, trivial⟩,
      trivial, trivial⟩
    unfold Dictionary.Ascending
    decide
  have small : IsSmall t := by
    simp [t, IsSmall, Json.Tree.All, Json.Tree.AllItems, Json.Tree.AllMembers, IsSmallHere,
      Value.integerBound]
  have shallow : t.height ≤ maxDepth := by decide
  exact ⟨ordered, small, shallow, (toTree_ofTree t .empty ordered small shallow).1.trans rfl⟩

end ScriptServer.Script
