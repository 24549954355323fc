import ScriptServer.Proofs.Script.Unfolding

/-!
# Shared tables and copies

Two heaps that differ in what they share give the same trees. A copy must not stand where a table
would be cut: its original lies on no cycle and never inside of too many tables. Then an address is
shown in one heap just where it is in the other, and it is the same address.
-/

namespace ScriptServer.Script

/-- The value in another heap, in which each table is called by another number. -/
def Value.redirect (original : Nat → Nat) : Value → Value
  | .table id => .table (original id)
  | v => v

namespace Heap

/-- `v` comes up in the unfolding of `root` while the tables `opened` are open. -/
inductive Occurs (h : Heap) (root : Value) : List Nat → Value → Prop
  | root : Occurs h root [] root
  | entry {opened : List Nat} {id : Nat} {e : Value × Value} : Occurs h root opened (.table id) →
      ¬ IsCut opened id → e ∈ (h.table id).entries → Occurs h root (id :: opened) e.2

/-- The table has a copy of its own. -/
def IsCopied (original : Nat → Nat) (id : Nat) : Prop := ∃ copy, copy ≠ id ∧ original copy = id

/-- The tables of `h'` are those of `h`, or copies of them with the same entries in any order, and
`original` leads from the copies back. Only tables that the unfolding of `root` never cuts are
copied: they are on no cycle, and no occurrence lies inside `maxDepth` others. -/
structure Unshares (h' h : Heap) (original : Nat → Nat) (root : Value) : Prop where
  entries : ∀ id, ((h'.table id).entries.map fun e => (e.1, e.2.redirect original)).Perm
    (h.table (original id)).entries
  acyclic : ∀ id, IsCopied original id → ¬ h.OnCycle id
  shallow : ∀ id opened, IsCopied original id → h.Occurs root opened (.table id) →
    opened.length < maxDepth

variable {h h' : Heap} {original : Nat → Nat} {root v : Value} {opened : List Nat} {id : Nat}

/-! ## The tables around an occurrence -/

theorem Reaches.trans {target : Nat} {e : Value × Value} (reaches : h.Reaches v id)
    (mem : e ∈ (h.table id).entries) (next : h.Reaches e.2 target) : h.Reaches v target := by
  induction reaches with
  | here => exact .entry mem next
  | entry mem' _ ih => exact .entry mem' (ih mem)

/-- Every open table leads to what is unfolded inside of it. -/
theorem Occurs.leads (occurs : h.Occurs root opened v) {target : Nat} (eq : v = .table target) :
    ∀ id ∈ opened, ∃ e ∈ (h.table id).entries, h.Reaches e.2 target := by
  induction occurs generalizing target with
  | root => exact fun id mem => absurd mem List.not_mem_nil
  | @entry opened inner e _ _ mem ih =>
    have last : h.Reaches e.2 target := eq ▸ .here
    intro id open'
    rcases List.mem_cons.mp open' with rfl | open'
    · exact ⟨e, mem, last⟩
    · obtain ⟨e', mem', reaches⟩ := ih rfl id open'
      exact ⟨e', mem', reaches.trans mem last⟩

theorem Occurs.onCycle (occurs : h.Occurs root opened (.table id)) (mem : id ∈ opened) :
    h.OnCycle id := occurs.leads rfl id mem

/-- The open tables differ and have entries, so they are no more than the heap has. -/
theorem Occurs.length_le (occurs : h.Occurs root opened v) : opened.length ≤ h.tables.size := by
  have apart : opened.Nodup ∧ ∀ id ∈ opened, id < h.tables.size := by
    induction occurs with
    | root => exact ⟨List.nodup_nil, fun id mem => absurd mem List.not_mem_nil⟩
    | @entry opened inner e _ free mem ih =>
      refine ⟨List.nodup_cons.mpr ⟨fun open' => free (.inl open'), ih.1⟩,
        List.forall_mem_cons.mpr ⟨?_, ih.2⟩⟩
      by_contra beyond
      rw [Heap.table, Array.getElem?_eq_none (Nat.le_of_not_lt beyond)] at mem
      cases mem
  have inside : opened ⊆ List.range h.tables.size :=
    fun id mem => List.mem_range.mpr (apart.2 id mem)
  have := (List.subperm_of_subset apart.1 inside).length_le
  rwa [List.length_range] at this

/-! ## Copies are cut where their originals are -/

namespace Unshares

variable (un : h'.Unshares h original root)
include un

theorem eq_of_isCut (occurs : h.Occurs root opened (.table (original id)))
    (cut : IsCut opened (original id)) : original id = id := by
  by_contra ne
  have copied : IsCopied original (original id) := ⟨id, fun eq => ne eq.symm, rfl⟩
  rcases cut with mem | full
  · exact un.acyclic _ copied (occurs.onCycle mem)
  · exact absurd (un.shallow _ _ copied occurs) (Nat.not_lt.mpr full)

/-- Two copies of one table are never open at once. -/
theorem isCut_iff (occurs : h.Occurs root (opened.map original) (.table (original id))) :
    IsCut opened id ↔ IsCut (opened.map original) (original id) := by
  constructor
  · rintro (mem | full)
    · exact .inl (List.mem_map_of_mem mem)
    · exact .inr (by rwa [List.length_map])
  · rintro (mem | full)
    · obtain ⟨copy, open', eq⟩ := List.mem_map.mp mem
      by_cases same : copy = id
      · exact .inl (same ▸ open')
      have copied : IsCopied original (original id) := by
        by_cases self : id = original id
        · exact ⟨copy, fun eq' => same (eq'.trans self.symm), eq⟩
        · exact ⟨id, self, rfl⟩
      exact absurd (occurs.onCycle mem) (un.acyclic _ copied)
    · exact .inr (by rwa [List.length_map] at full)

theorem keys (id : Nat) : (h'.table id).keys.Perm (h.table (original id)).keys := by
  have same := (un.entries id).map (·.1)
  rwa [List.map_map] at same

theorem isSequence_iff {n : Nat} :
    (h'.table id).IsSequence n ↔ (h.table (original id)).IsSequence n := by
  have same (key : Value) := (un.keys id).mem_iff (a := key)
  exact ⟨fun s => ⟨s.small, fun key => (same key).symm.trans (s.mem_keys key)⟩,
    fun s => ⟨s.small, fun key => (same key).trans (s.mem_keys key)⟩⟩

theorem mem_entries {e : Value × Value} (mem : e ∈ (h'.table id).entries) :
    (e.1, e.2.redirect original) ∈ (h.table (original id)).entries :=
  (un.entries id).mem_iff.mp (List.mem_map_of_mem mem)

end Unshares

end Heap

open Heap

variable {h h' : Heap} {original : Nat → Nat} {root v : Value} {opened : List Nat}
  {t : Json.Tree}

/-- What a value can become in the heap with copies it can become in the other one. -/
theorem Unfolds.ofCopies (u : Unfolds h' opened v t) (un : h'.Unshares h original root)
    (legal : h.IsLegal) (legal' : h'.IsLegal)
    (occurs : h.Occurs root (opened.map original) (v.redirect original)) :
    Unfolds h (opened.map original) (v.redirect original) t := by
  induction u with
  | @leaf opened v flat =>
    have same : v.redirect original = v := by
      cases v with
      | table id => exact absurd rfl (flat id)
      | _ => rfl
    rw [same]
    exact .leaf flat
  | @cut opened id cut =>
    have cut' := (un.isCut_iff occurs).mp cut
    have text : Unfolds h (opened.map original) (.table (original id))
        (.string (Value.table (original id)).opaqueText) := .cut cut'
    rw [un.eq_of_isCut occurs cut'] at text
    rwa [Value.redirect, un.eq_of_isCut occurs cut']
  | @empty opened id n es free reports order shape =>
    have none : (h.table (original id)).entries = [] := by
      obtain rfl := Table.classify_eq_empty_iff.mp shape
      have same := un.entries id
      rwa [List.nil_perm.mp order, List.map_nil, List.nil_perm] at same
    exact .empty (fun cut => free ((un.isCut_iff occurs).mpr cut))
      (legal _).border_reports (.refl _) (Table.shape_eq_empty_iff.mpr none)
  | @array opened id n es items free reports order shape all ih =>
    obtain ⟨pos, sequence⟩ := (Table.classify_eq_array_iff (legal' id) reports order).mp shape
    have sequence' := un.isSequence_iff.mp sequence
    have free' : ¬ IsCut (opened.map original) (original id) :=
      fun cut => free ((un.isCut_iff occurs).mpr cut)
    refine .array free' (legal _).border_reports (.refl _)
      ((legal _).shape_eq_array_iff.mpr ⟨pos, sequence'⟩) fun i bound => ?_
    obtain ⟨e, mem, key, found⟩ := (legal' id).entry_at sequence bound
    have mem' := un.mem_entries mem
    have found' : (h.table (original id)).get (.ofNat (i + 1)) = e.2.redirect original := by
      rw [← key, (legal _).get_of_mem mem']
    have inner := ih i bound
    rw [found] at inner
    rw [found']
    exact inner (.entry occurs free' mem')
  | @object opened id n es tree free reports order shape all ih =>
    have object := (Table.classify_eq_object_iff (legal' id) reports order).mp shape
    have free' : ¬ IsCut (opened.map original) (original id) :=
      fun cut => free ((un.isCut_iff occurs).mpr cut)
    have order' : (es.map fun e => (e.1, e.2.redirect original)).Perm
        (h.table (original id)).entries := (order.map _).trans (un.entries id)
    have shape' : classify (h.table (original id)).border
        (es.map fun e => (e.1, e.2.redirect original)) = .object := by
      refine (Table.classify_eq_object_iff (legal _) (legal _).border_reports order').mpr
        ⟨fun none => object.1 ?_, fun m sequence => object.2 m (un.isSequence_iff.mpr sequence)⟩
      have same := un.entries id
      rwa [none, List.perm_nil, List.map_eq_nil_iff] at same
    have members : es.map (fun e => (e.1.keyText, tree e.1)) =
        (es.map fun e => (e.1, e.2.redirect original)).map fun e => (e.1.keyText, tree e.1) := by
      rw [List.map_map]
      rfl
    rw [members]
    refine .object free' (legal _).border_reports order' shape' fun e' mem' => ?_
    obtain ⟨e, mem, rfl⟩ := List.mem_map.mp mem'
    exact ih e mem (.entry occurs free' (un.mem_entries (order.mem_iff.mp mem)))

/-- **Unfolding.** Whatever a heap shares and whatever cycles it has, `toTree` gives a tree that the
value can have. In every such tree a table becomes its address text just if it is open already or
`maxDepth` tables are open, and null just if it has no entries otherwise; any other table becomes
the array or object of what its entries become inside of it. No tree nests more than `maxDepth`
arrays and objects. Where the keys of each object have different texts there is one tree only: the
order of the entries and the reported lengths do not matter, nor does it if tables that are never
cut are shared or copied. -/
theorem toTree_unfolds (h : Heap) (legal : h.IsLegal) (v : Value) :
    Unfolds h [] v (toTree h v) ∧
      (∀ opened id t, Unfolds h opened (.table id) t → IsTreeOf h opened id t) ∧
      (∀ t, Unfolds h [] v t → t.height ≤ maxDepth) ∧
      ((∀ id, h.NamesApart id) →
        (∀ t, Unfolds h [] v t → t = toTree h v) ∧
        ∀ h' original root, h'.IsLegal → root.redirect original = v →
          h'.Unshares h original v → ∀ t, Unfolds h' [] root t → t = toTree h v) := by
  have unique (apart : ∀ id, h.NamesApart id) (t : Json.Tree) (u : Unfolds h [] v t) :
      t = toTree h v := u.eq_unfold (fun id _ => legal id) (fun id _ => apart id) rfl
  refine ⟨unfolds_unfold (fun id _ => legal id) rfl, fun opened id t u => u.isTreeOf (legal id),
    fun t u => u.height_le, fun apart => ⟨unique apart, ?_⟩⟩
  rintro h' original root legal' rfl un t u
  exact unique apart t (u.ofCopies un legal legal' .root)

/-- A table that refers to itself and twice to another one, and a heap in which the second reference
leads to a copy and the entries are in another order. -/
theorem toTree_unfolds_copy :
    let list : Table := ⟨[(.integer 1, .bool true)], none⟩
    let h : Heap := ⟨#[⟨[(.integer 1, .table 1), (.integer 2, .table 1), (.integer 3, .table 0)],
      none⟩, list], #[], 0⟩
    let h' : Heap := ⟨#[⟨[(.integer 3, .table 0), (.integer 1, .table 1), (.integer 2, .table 2)],
      none⟩, list, list], #[], 0⟩
    h.IsLegal ∧ (∀ id, h.NamesApart id) ∧ h'.IsLegal ∧
      h'.Unshares h (fun id => if id = 2 then 1 else id) (.table 0) ∧
      toTree h' (.table 0) =
        .array [.array [.bool true], .array [.bool true], .string "table: 0x10000"] := by
  intro list h h'
  have legalH : h.IsLegal := isLegal_of_integers (by decide)
  have legalH' : h'.IsLegal := isLegal_of_integers (by decide)
  have apart (id : Nat) : h.NamesApart id := by
    intro _
    match id with
    | 0 => decide
    | 1 => decide
    | _ + 2 => exact List.nodup_nil
  have copied (id : Nat) (c : IsCopied (fun id => if id = 2 then 1 else id) id) : id = 1 := by
    obtain ⟨copy, ne, eq⟩ := c
    dsimp only at eq
    split at eq
    · exact eq.symm
    · exact absurd eq ne
  have un : h'.Unshares h (fun id => if id = 2 then 1 else id) (.table 0) := by
    refine ⟨fun id => ?_, fun id c => ?_, fun id opened _ occurs => ?_⟩
    · match id with
      | 0 => decide
      | 1 => decide
      | 2 => decide
      | _ + 3 => exact .refl _
    · rw [copied id c]
      rintro ⟨e, mem, reaches⟩
      rw [List.mem_singleton.mp mem] at reaches
      cases reaches
    · exact Nat.lt_of_le_of_lt occurs.length_le (by decide)
  refine ⟨legalH, apart, legalH', un, ?_⟩
  have computed := (toTree_unfolds h' legalH' (.table 0)).1
  have unique := (toTree_unfolds h legalH (.table 0)).2.2.2 apart
  exact unique.2 h' _ (.table 0) legalH' rfl un _ computed

end ScriptServer.Script
