import Mathlib.Data.List.Nodup
import Mathlib.Data.List.Perm.Subperm
import Mathlib.Data.List.Range
import ScriptServer.Proofs.Text.Digits
import ScriptServer.Proofs.Text.Utf8
import ScriptServer.Script.Interchange

/-!
# The shapes of tables

A table of the language has one entry a key and no nil in any entry. A table with gaps may report
several lengths, and its entries come in no particular order, but its shape follows from its keys:
it is an array just if they are the integers from one to some number (`classify_eq_array_iff`).
-/

namespace ScriptServer.Script

/-- The value can be a key: it is neither nil nor a float that is no number, and no float that is an
integer. -/
structure Value.IsKey (v : Value) : Prop where
  ne_nil : v ≠ .nil
  asKey : v.asKey = v
  isNumber : ∀ x, v = .float x → x.isNaN = false

theorem Value.isKey_integer (i : Int64) : (Value.integer i).IsKey := ⟨nofun, rfl, nofun⟩

theorem Value.isKey_bool (b : Bool) : (Value.bool b).IsKey := ⟨nofun, rfl, nofun⟩

theorem Value.isKey_string (bs : Bytes) : (Value.string bs).IsKey := ⟨nofun, rfl, nofun⟩

theorem Value.keyText_ofText (s : String) : (Value.ofText s).keyText = s := by
  rw [ofText, keyText, Utf8.ofText, Utf8.toTextLossy_ofChars, String.ofList_toList]

namespace Table

def keys (t : Table) : List Value := t.entries.map (·.1)

/-- A table as the language has it. There are fewer entries than positive integers. -/
structure IsLegal (t : Table) : Prop where
  nodup : t.keys.Nodup
  isKey : ∀ key ∈ t.keys, key.IsKey
  filled : ∀ e ∈ t.entries, e.2 ≠ .nil
  small : t.entries.length < Value.integerBound

/-- The keys are the integers from one to `n`. -/
structure IsSequence (t : Table) (n : Nat) : Prop where
  small : n < Value.integerBound
  mem_keys : ∀ key, key ∈ t.keys ↔ ∃ i, 1 ≤ i ∧ i ≤ n ∧ key = .ofNat i

/-- `n` is a length that the table may report. There is no position behind the greatest integer, so
that is a length too if it is filled. -/
structure Reports (t : Table) (n : Nat) : Prop where
  small : n < Value.integerBound
  border : t.IsBorder n ∨ n + 1 = Value.integerBound ∧ t.get (.ofNat n) ≠ .nil

end Table

/-! ## Positions -/

namespace Value

variable {i m n : Nat}

theorem toInt_ofNat (h : n < integerBound) : (Int64.ofNat n).toInt = n :=
  Int64.toInt_ofNat_of_lt h

theorem ofNat_inj (hm : m < integerBound) (hn : n < integerBound) :
    Value.ofNat m = .ofNat n ↔ m = n := by
  refine ⟨fun eq => ?_, congrArg _⟩
  have same : (Int64.ofNat m).toInt = (Int64.ofNat n).toInt := by
    rw [Value.integer.inj eq]
  rw [toInt_ofNat hm, toInt_ofNat hn] at same
  omega

theorem asKey_ofNat (n : Nat) : (Value.ofNat n).asKey = .ofNat n := rfl

theorem keyText_ofNat (h : n < integerBound) : (Value.ofNat n).keyText = Text.number n := by
  have nonneg : ¬ (Int64.ofNat n).toInt < 0 := by rw [toInt_ofNat h]; omega
  rw [ofNat, keyText, integerText, if_neg nonneg, toInt_ofNat h]
  rfl

end Value

def positions (n : Nat) : List Value := (List.range' 1 n).map .ofNat

theorem mem_positions {n : Nat} {key : Value} :
    key ∈ positions n ↔ ∃ i, 1 ≤ i ∧ i ≤ n ∧ key = .ofNat i := by
  simp only [positions, List.mem_map, List.mem_range'_1]
  constructor
  · rintro ⟨i, bounds, rfl⟩
    exact ⟨i, bounds.1, by omega, rfl⟩
  · rintro ⟨i, low, high, rfl⟩
    exact ⟨i, ⟨low, by omega⟩, rfl⟩

theorem nodup_positions {n : Nat} (small : n < Value.integerBound) : (positions n).Nodup := by
  refine List.Nodup.map_on (fun i hi j hj eq => ?_) (List.nodup_range' 1)
  rw [List.mem_range'_1] at hi hj
  exact (Value.ofNat_inj (by omega) (by omega)).mp eq

theorem nodup_names_positions {n : Nat} (small : n < Value.integerBound) :
    ((positions n).map Value.keyText).Nodup := by
  have texts : (positions n).map Value.keyText = (List.range' 1 n).map Text.number := by
    rw [positions, List.map_map]
    refine List.map_congr_left fun i mem => Value.keyText_ofNat ?_
    rw [List.mem_range'_1] at mem
    omega
  rw [texts]
  exact (List.nodup_range' 1).map Text.number_injective

theorem inArray_iff {n : Nat} (small : n < Value.integerBound) {key : Value} :
    inArray n key = true ↔ key ∈ positions n := by
  rw [mem_positions]
  constructor
  · intro inside
    cases key with
    | integer i =>
      simp only [inArray, Bool.and_eq_true, decide_eq_true_eq] at inside
      have bound : i.toInt.toNat < 2 ^ 63 := by
        have := i.toInt_lt
        omega
      refine ⟨i.toInt.toNat, by omega, by omega, congrArg Value.integer ?_⟩
      rw [← Int64.toInt_inj, Int64.toInt_ofNat_of_lt bound]
      omega
    | _ => cases inside
  · rintro ⟨i, low, high, rfl⟩
    simp only [inArray, Value.ofNat, Bool.and_eq_true, decide_eq_true_eq]
    rw [Value.toInt_ofNat (by omega)]
    omega

/-! ## Legal tables -/

namespace Table

variable {t : Table} {key v : Value} {m n : Nat} {es : List (Value × Value)}

theorem mem_keys_of_mem {e : Value × Value} (h : e ∈ t.entries) : e.1 ∈ t.keys :=
  List.mem_map_of_mem h

/-- Where keys are distinct, every entry is found. -/
theorem lookup_eq_some (nodup : (es.map (·.1)).Nodup) :
    es.lookup key = some v ↔ (key, v) ∈ es := by
  constructor
  · intro found
    obtain ⟨front, back, rfl, -⟩ := List.lookup_eq_some_iff.mp found
    exact List.mem_append_right _ List.mem_cons_self
  · intro mem
    obtain ⟨front, back, rfl⟩ := List.append_of_mem mem
    refine List.lookup_eq_some_iff.mpr ⟨front, back, rfl, fun e earlier => ?_⟩
    rw [List.map_append, List.map_cons] at nodup
    have apart := (List.nodup_append.mp nodup).2.2 e.1 (List.mem_map_of_mem earlier) key
      List.mem_cons_self
    exact bne_iff_ne.mpr apart.symm

/-- Keys that are integers leave only the values to look at. -/
theorem isLegal_of_integers (nodup : t.keys.Nodup)
    (integers : ∀ key ∈ t.keys, key.kind = "integer") (filled : ∀ e ∈ t.entries, e.2 ≠ .nil)
    (small : t.entries.length < Value.integerBound) : t.IsLegal := by
  refine ⟨nodup, fun key mem => ?_, filled, small⟩
  cases key with
  | integer i => exact Value.isKey_integer i
  | _ => exact absurd (integers _ mem) (by simp [Value.kind])

namespace IsLegal

theorem get_of_mem (legal : t.IsLegal) (mem : (key, v) ∈ t.entries) : t.get key = v := by
  rw [get, (legal.isKey key (mem_keys_of_mem mem)).asKey, (lookup_eq_some legal.nodup).mpr mem]
  rfl

theorem get_of_not_mem (asKey : key.asKey = key) (absent : key ∉ t.keys) : t.get key = .nil := by
  have none : t.entries.lookup key = none := by
    refine List.lookup_eq_none_iff.mpr fun e mem => bne_iff_ne.mpr ?_
    rintro rfl
    exact absent (mem_keys_of_mem mem)
  rw [get, asKey, none]
  rfl

theorem get_ne_nil_iff (legal : t.IsLegal) (asKey : key.asKey = key) :
    t.get key ≠ .nil ↔ key ∈ t.keys := by
  constructor
  · intro some
    by_contra absent
    exact some (get_of_not_mem asKey absent)
  · intro mem
    obtain ⟨e, entry, rfl⟩ := List.mem_map.mp mem
    rw [legal.get_of_mem entry]
    exact legal.filled e entry

theorem get_position_eq_nil_iff (legal : t.IsLegal) :
    t.get (.ofNat n) = .nil ↔ .ofNat n ∉ t.keys :=
  not_iff_not.mp (by rw [not_not]; exact legal.get_ne_nil_iff (Value.asKey_ofNat n))

theorem isSequence_iff (legal : t.IsLegal) (small : n < Value.integerBound) :
    t.IsSequence n ↔ t.keys.Perm (positions n) := by
  rw [List.perm_ext_iff_of_nodup legal.nodup (nodup_positions small)]
  simp only [mem_positions]
  exact ⟨fun h => h.mem_keys, fun h => ⟨small, h⟩⟩

theorem nodup_names_of_isSequence (legal : t.IsLegal) (sequence : t.IsSequence n) :
    (t.keys.map Value.keyText).Nodup := by
  have same := ((legal.isSequence_iff sequence.small).mp sequence).map Value.keyText
  exact same.nodup_iff.mpr (nodup_names_positions sequence.small)

theorem length_of_isSequence (legal : t.IsLegal) (sequence : t.IsSequence n) :
    t.entries.length = n := by
  have := ((legal.isSequence_iff sequence.small).mp sequence).length_eq
  rwa [keys, List.length_map, positions, List.length_map, List.length_range'] at this

/-- In a sequence every position has an entry. -/
theorem entry_at (legal : t.IsLegal) (sequence : t.IsSequence n) {i : Nat} (bound : i < n) :
    ∃ e ∈ t.entries, e.1 = .ofNat (i + 1) ∧ t.get (.ofNat (i + 1)) = e.2 := by
  have filled : .ofNat (i + 1) ∈ t.keys :=
    (sequence.mem_keys _).mpr ⟨i + 1, by omega, bound, rfl⟩
  obtain ⟨e, mem, key⟩ := List.mem_map.mp filled
  exact ⟨e, mem, key, by rw [← key, legal.get_of_mem mem]⟩

/-- Every length that a sequence may report is its own. -/
theorem eq_of_reports (legal : t.IsLegal) (sequence : t.IsSequence m) (reports : t.Reports n) :
    n = m := by
  have filled (i : Nat) (small : i < Value.integerBound) :
      t.get (.ofNat i) ≠ .nil ↔ 1 ≤ i ∧ i ≤ m := by
    rw [legal.get_ne_nil_iff (Value.asKey_ofNat i), sequence.mem_keys]
    constructor
    · rintro ⟨j, low, high, eq⟩
      have hj : j < Value.integerBound := Nat.lt_of_le_of_lt high sequence.small
      obtain rfl := (Value.ofNat_inj small hj).mp eq
      exact ⟨low, high⟩
    · exact fun bounds => ⟨i, bounds.1, bounds.2, rfl⟩
  have small := reports.small
  have bound := sequence.small
  rcases reports.border with ⟨last, next⟩ | ⟨greatest, last⟩
  · have high : n ≤ m := by
      rcases last with rfl | last
      · exact Nat.zero_le _
      · exact ((filled n small).mp last).2
    by_contra ne
    exact (filled (n + 1) (by omega)).mpr (by omega) next
  · have := ((filled n small).mp last).2
    omega

/-- Positions that are all filled and as many as the entries are the keys. -/
theorem isSequence_of_subset (legal : t.IsLegal) (small : n < Value.integerBound)
    (inside : ∀ key ∈ t.keys, key ∈ positions n) (full : t.entries.length = n) :
    t.IsSequence n := by
  refine (legal.isSequence_iff small).mpr ?_
  refine (List.subperm_of_subset legal.nodup inside).perm_of_length_le ?_
  rw [positions, List.length_map, List.length_range', keys, List.length_map, full]

end IsLegal

/-! ## Classification -/

theorem classify_eq_empty_iff : classify n es = .empty ↔ es = [] := by
  unfold classify
  constructor
  · intro empty
    split at empty
    · next none => exact List.isEmpty_iff.mp none
    split at empty <;> cases empty
  · rintro rfl
    rfl

section

variable (legal : t.IsLegal) (reports : t.Reports n) (order : es.Perm t.entries)
include legal reports order

/-- The table is an array just if its keys are the integers from one on. -/
theorem classify_eq_array_iff : classify n es = .array m ↔ 1 ≤ m ∧ t.IsSequence m := by
  have inside : es.all (fun e => inArray n e.1) = true ↔ ∀ key ∈ t.keys, key ∈ positions n := by
    simp only [List.all_eq_true, inArray_iff reports.small, keys, List.forall_mem_map,
      order.mem_iff]
  unfold classify
  constructor
  · intro array
    split at array
    · cases array
    next some =>
    split at array
    · next all =>
      cases array
      rw [Bool.and_eq_true, inside, beq_iff_eq, order.length_eq] at all
      have pos : es ≠ [] := fun none => some (List.isEmpty_iff.mpr none)
      refine ⟨?_, legal.isSequence_of_subset reports.small all.1 all.2⟩
      rw [← all.2, ← order.length_eq]
      exact List.length_pos_iff.mpr pos
    · cases array
  · rintro ⟨pos, sequence⟩
    obtain rfl := legal.eq_of_reports sequence reports
    have length := legal.length_of_isSequence sequence
    have some : ¬ es.isEmpty = true := by
      rw [List.isEmpty_iff, ← List.length_eq_zero_iff, order.length_eq, length]
      omega
    have all : (es.all (fun e => inArray n e.1) && es.length == n) = true := by
      rw [Bool.and_eq_true, inside, beq_iff_eq, order.length_eq]
      exact ⟨fun key mem => mem_positions.mpr ((sequence.mem_keys key).mp mem), length⟩
    rw [if_neg some, if_pos all]

theorem classify_eq_object_iff :
    classify n es = .object ↔ t.entries ≠ [] ∧ ∀ m, ¬ t.IsSequence m := by
  have array (m : Nat) : classify n es = .array m ↔ 1 ≤ m ∧ t.IsSequence m :=
    classify_eq_array_iff legal reports order
  constructor
  · intro object
    have some : t.entries ≠ [] := by
      intro none
      rw [none, List.perm_nil] at order
      rw [classify_eq_empty_iff.mpr order] at object
      cases object
    refine ⟨some, fun m sequence => ?_⟩
    have length := legal.length_of_isSequence sequence
    have pos := List.length_pos_iff.mpr some
    rw [(array m).mpr ⟨by omega, sequence⟩] at object
    cases object
  · rintro ⟨some, none⟩
    cases shape : classify n es with
    | empty =>
      rw [classify_eq_empty_iff.mp shape, List.nil_perm] at order
      exact absurd order some
    | array m => exact absurd ((array m).mp shape).2 (none m)
    | object => rfl

end

/-! ## The least length -/

theorem borderFrom_spec (fuel n : Nat) :
    (n ≤ t.borderFrom fuel n ∧ t.borderFrom fuel n ≤ n + fuel) ∧
      (∀ i, n < i → i ≤ t.borderFrom fuel n → t.get (.ofNat i) ≠ .nil) ∧
      (t.borderFrom fuel n = n + fuel ∨ t.get (.ofNat (t.borderFrom fuel n + 1)) = .nil) := by
  induction fuel generalizing n with
  | zero =>
    exact ⟨⟨Nat.le_refl _, Nat.le_refl _⟩, fun i low high => absurd high (Nat.not_le.mpr low),
      .inl rfl⟩
  | succ fuel ih =>
    rw [borderFrom]
    split
    · next ends =>
      exact ⟨⟨Nat.le_refl _, by omega⟩, fun i low high => absurd high (Nat.not_le.mpr low),
        .inr ends⟩
    · next filled =>
      obtain ⟨⟨low, high⟩, between, ends⟩ := ih (n + 1)
      refine ⟨⟨by omega, by omega⟩, fun i above below => ?_, ends.imp_left (by omega)⟩
      rcases Nat.eq_or_lt_of_le above with rfl | above
      · exact filled
      · exact between i above below

/-- Positions that are all filled and as many as the entries are the keys. -/
theorem IsLegal.isSequence_of_filled (legal : t.IsLegal)
    (filled : ∀ i, 0 < i → i ≤ t.entries.length → t.get (.ofNat i) ≠ .nil) :
    t.IsSequence t.entries.length := by
  refine (legal.isSequence_iff legal.small).mpr (List.Perm.symm ?_)
  have inside : positions t.entries.length ⊆ t.keys := by
    intro key mem
    obtain ⟨i, low, high, rfl⟩ := mem_positions.mp mem
    exact (legal.get_ne_nil_iff (Value.asKey_ofNat i)).mp (filled i low high)
  refine (List.subperm_of_subset (nodup_positions legal.small) inside).perm_of_length_le ?_
  rw [positions, List.length_map, List.length_range', keys, List.length_map]

/-- The least length is one that the table may report. -/
theorem IsLegal.border_reports (legal : t.IsLegal) : t.Reports t.border := by
  obtain ⟨⟨-, high⟩, between, ends⟩ := borderFrom_spec (t := t) t.entries.length 0
  rw [Nat.zero_add] at high ends
  change t.border ≤ _ at high
  change ∀ i, 0 < i → i ≤ t.border → _ at between
  change t.border = _ ∨ t.get (.ofNat (t.border + 1)) = .nil at ends
  have small : t.border < Value.integerBound := Nat.lt_of_le_of_lt high legal.small
  have last : t.border = 0 ∨ t.get (.ofNat t.border) ≠ .nil :=
    (Nat.eq_zero_or_pos _).imp_right fun pos => between _ pos (Nat.le_refl _)
  refine ⟨small, ?_⟩
  by_cases greatest : t.border + 1 = Value.integerBound
  · refine .inr ⟨greatest, last.resolve_left fun zero => ?_⟩
    rw [zero] at greatest
    cases greatest
  · refine .inl ⟨last, ends.elim (fun full => ?_) id⟩
    -- The entries are used up, so there is none for the next position.
    have sequence := legal.isSequence_of_filled (full ▸ between)
    rw [← full] at sequence
    refine legal.get_position_eq_nil_iff.mpr fun mem => ?_
    obtain ⟨i, -, le, eq⟩ := (sequence.mem_keys _).mp mem
    have := (Value.ofNat_inj (by omega) (by omega)).mp eq
    omega

theorem shape_eq_empty_iff : t.shape = .empty ↔ t.entries = [] := classify_eq_empty_iff

namespace IsLegal

theorem shape_eq_array_iff (legal : t.IsLegal) : t.shape = .array m ↔ 1 ≤ m ∧ t.IsSequence m :=
  classify_eq_array_iff legal legal.border_reports (.refl _)

theorem shape_eq_object_iff (legal : t.IsLegal) :
    t.shape = .object ↔ t.entries ≠ [] ∧ ∀ m, ¬ t.IsSequence m :=
  classify_eq_object_iff legal legal.border_reports (.refl _)

/-- The shape is that of the least length and the entries as they stand, whatever was reported. -/
theorem classify_eq_shape (legal : t.IsLegal) (reports : t.Reports n)
    (order : es.Perm t.entries) : classify n es = t.shape := by
  cases shape : classify n es with
  | empty =>
    rw [classify_eq_empty_iff.mp shape, List.nil_perm] at order
    exact (shape_eq_empty_iff.mpr order).symm
  | array m =>
    have array := (classify_eq_array_iff legal reports order).mp shape
    exact (legal.shape_eq_array_iff.mpr array).symm
  | object =>
    have object := (classify_eq_object_iff legal reports order).mp shape
    exact (legal.shape_eq_object_iff.mpr object).symm

/-- **Classification.** Whichever length a table reports and in whichever order its entries come, it
is empty just if it has no entry, an array of `m` just if `m` is positive and the integers from one
to `m` are its keys, and an object otherwise. So the answer is one for all lengths and orders. -/
theorem classify_exact (legal : t.IsLegal) (reports : t.Reports n) (order : es.Perm t.entries) :
    (classify n es = .empty ↔ t.entries = []) ∧
      (∀ m, classify n es = .array m ↔ 1 ≤ m ∧ t.IsSequence m) ∧
      (classify n es = .object ↔ t.entries ≠ [] ∧ ∀ m, 1 ≤ m → ¬ t.IsSequence m) ∧
      ∀ n' es', t.Reports n' → es'.Perm t.entries → classify n' es' = classify n es := by
  have shape := legal.classify_eq_shape reports order
  refine ⟨?_, fun m => classify_eq_array_iff legal reports order, ?_,
    fun n' es' reports' order' => ?_⟩
  · rw [shape, shape_eq_empty_iff]
  · rw [classify_eq_object_iff legal reports order]
    refine and_congr_right fun some => ⟨fun none m _ => none m, fun none m sequence => ?_⟩
    have length := legal.length_of_isSequence sequence
    exact none m (length ▸ List.length_pos_iff.mpr some) sequence
  · rw [legal.classify_eq_shape reports' order', shape]

/-- With a gap there are two lengths to report, one of them the number of entries. -/
theorem classify_exact_gap :
    let filled := Value.bool true
    let t : Table := ⟨[(.integer 4, filled), (.integer 1, filled), (.integer 2, filled)], none⟩
    t.IsLegal ∧ t.Reports 2 ∧ t.Reports 4 ∧ t.entries.reverse.Perm t.entries ∧
      classify 4 t.entries = .object ∧ classify 2 t.entries.reverse = .object := by
  intro filled t
  have legal : t.IsLegal := isLegal_of_integers (by decide) (by decide) (by decide) (by decide)
  have two : t.Reports 2 := ⟨by decide, .inl ⟨.inr (by decide), by decide⟩⟩
  have four : t.Reports 4 := ⟨by decide, .inl ⟨.inr (by decide), by decide⟩⟩
  have order : t.entries.reverse.Perm t.entries := List.reverse_perm _
  have object : classify 4 t.entries = .object := by decide
  refine ⟨legal, two, four, order, object, ?_⟩
  exact ((classify_exact legal four (.refl _)).2.2.2 2 _ two order).trans object

end IsLegal

end Table

end ScriptServer.Script
