import Mathlib.Data.List.Dedup
import Mathlib.Data.List.Induction
import ScriptServer.Dictionary

/-!
# Dictionaries in key order

`insert` keeps the keys ascending, so `ofList` gives ascending keys for any pairs, and the pairs
themselves if their keys ascend. The order of the pairs matters only where two with one key have
different values.
-/

namespace ScriptServer.Dictionary

variable {α : Type} {d d' pairs pairs' : Dictionary α} {key k : String} {value : α} {e : String × α}

theorem lt_of_not_lt (hne : key ≠ k) (h : ¬ key < k) : k < key := by
  refine String.not_le.mp fun hle => ?_
  exact hne (String.le_antisymm hle (String.not_lt.mp h))

theorem mem_insert (h : e ∈ insert key value d) : e = (key, value) ∨ e ∈ d := by
  induction d with
  | nil => exact .inl (List.mem_singleton.mp h)
  | cons x rest ih =>
    obtain ⟨k, v⟩ := x
    rw [insert] at h
    split at h
    · exact (List.mem_cons.mp h).imp id (List.mem_cons_of_mem _)
    split at h
    · exact List.mem_cons.mp h
    · rcases List.mem_cons.mp h with rfl | h
      · exact .inr List.mem_cons_self
      · exact (ih h).imp id (List.mem_cons_of_mem _)

theorem Ascending.insert (h : Ascending d) : Ascending (insert key value d) := by
  induction d with
  | nil => exact List.pairwise_singleton _ _
  | cons x rest ih =>
    obtain ⟨k, v⟩ := x
    obtain ⟨hk, hrest⟩ := List.pairwise_cons.mp h
    rw [Dictionary.insert]
    split
    · next he => exact List.pairwise_cons.mpr ⟨fun e he' => he ▸ hk e he', hrest⟩
    split
    · next hlt =>
      refine List.pairwise_cons.mpr ⟨fun e he => ?_, h⟩
      rcases List.mem_cons.mp he with rfl | he
      · exact hlt
      · exact String.lt_trans hlt (hk e he)
    · next hne hlt =>
      refine List.pairwise_cons.mpr ⟨fun e he => ?_, ih hrest⟩
      rcases mem_insert he with rfl | he
      · exact lt_of_not_lt hne hlt
      · exact hk e he

/-- A key above all others comes last. -/
theorem insert_of_lt (h : ∀ e ∈ d, e.1 < key) : insert key value d = d ++ [(key, value)] := by
  induction d with
  | nil => rfl
  | cons x rest ih =>
    obtain ⟨k, v⟩ := x
    obtain ⟨hk, hrest⟩ := List.forall_mem_cons.mp h
    have hne : key ≠ k := fun he => String.lt_irrefl k (he ▸ hk)
    have hlt : ¬ key < k := fun hlt => String.lt_irrefl k (String.lt_trans hk hlt)
    rw [insert, if_neg hne, if_neg hlt, ih hrest]
    rfl

/-! ## The dictionary of some pairs -/

/-- The last pair is put into the dictionary of those before it. -/
theorem ofList_concat (pairs : List (String × α)) (key : String) (value : α) :
    ofList (pairs ++ [(key, value)]) = insert key value (ofList pairs) :=
  List.foldl_append

theorem ascending_ofList (pairs : List (String × α)) : Ascending (ofList pairs) := by
  induction pairs using List.reverseRecOn with
  | nil => exact List.Pairwise.nil
  | append_singleton pairs x ih =>
    rw [ofList_concat]
    exact ih.insert

theorem mem_ofList (h : e ∈ ofList pairs) : e ∈ pairs := by
  induction pairs using List.reverseRecOn with
  | nil => exact h
  | append_singleton pairs x ih =>
    rw [ofList_concat] at h
    rcases mem_insert h with rfl | h
    · exact List.mem_append_right _ List.mem_cons_self
    · exact List.mem_append_left _ (ih h)

theorem ofList_of_ascending (h : Ascending d) : ofList d = d := by
  induction d using List.reverseRecOn with
  | nil => rfl
  | append_singleton front x ih =>
    obtain ⟨hfront, -, hlast⟩ := List.pairwise_append.mp h
    have hlt : ∀ e ∈ front, e.1 < x.1 := fun e he => hlast e he x List.mem_cons_self
    rw [ofList_concat, ih hfront, insert_of_lt hlt]

theorem mem_keys_iff : key ∈ keys d ↔ (get? d key).isSome = true := by
  simp only [keys, get?, List.mem_map, List.lookup_isSome_iff, beq_iff_eq]
  exact exists_congr fun e => and_congr_right fun _ => eq_comm

theorem mem_keys_insert : k ∈ keys (insert key value d) ↔ k = key ∨ k ∈ keys d := by
  rw [mem_keys_iff, mem_keys_iff, get?_insert]
  split
  · next eq => exact iff_of_true rfl (.inl eq)
  · next ne => exact (or_iff_right ne).symm

theorem Ascending.mem_insert_iff (h : Ascending d) :
    e ∈ Dictionary.insert key value d ↔ e = (key, value) ∨ e ∈ d ∧ e.1 ≠ key := by
  induction d with
  | nil => simp [Dictionary.insert]
  | cons x rest ih =>
    obtain ⟨k, v⟩ := x
    obtain ⟨above, rest'⟩ := List.pairwise_cons.mp h
    -- The pairs behind the place of the key have other keys.
    have others (e : String × α) (le : key ≤ k) (mem : e ∈ rest) : e.1 ≠ key := by
      rintro rfl
      exact String.not_lt.mpr le (above e mem)
    rw [Dictionary.insert]
    split
    · next eq =>
      subst eq
      simp only [List.mem_cons]
      constructor
      · exact Or.imp_right fun mem => ⟨.inr mem, others e (String.le_refl _) mem⟩
      · rintro (rfl | ⟨rfl | mem, ne⟩)
        · exact .inl rfl
        · exact absurd rfl ne
        · exact .inr mem
    split
    · next ne lt =>
      rw [List.mem_cons]
      refine or_congr_right ⟨fun mem => ⟨mem, ?_⟩, And.left⟩
      rcases List.mem_cons.mp mem with rfl | mem
      · exact fun eq => ne eq.symm
      · exact others e (String.not_lt.mp (String.lt_asymm lt)) mem
    · next ne _ =>
      rw [List.mem_cons, ih rest', List.mem_cons, or_left_comm, or_and_right]
      refine or_congr_right (or_congr_left ⟨fun eq => ⟨eq, ?_⟩, And.left⟩)
      rw [eq]
      exact fun eq => ne eq.symm

/-- Of the pairs with one key the last one is an entry. -/
theorem mem_ofList_iff : e ∈ ofList pairs ↔
    ∃ front back, pairs = front ++ e :: back ∧ ∀ later ∈ back, later.1 ≠ e.1 := by
  induction pairs using List.reverseRecOn with
  | nil => simp [ofList]
  | append_singleton pairs x ih =>
    rw [ofList_concat, (ascending_ofList pairs).mem_insert_iff, ih]
    constructor
    · rintro (rfl | ⟨⟨front, back, rfl, last⟩, ne⟩)
      · exact ⟨pairs, [], rfl, nofun⟩
      · refine ⟨front, back ++ [x], by simp, fun later mem => ?_⟩
        rcases List.mem_append.mp mem with mem | mem
        · exact last later mem
        · rw [List.mem_singleton.mp mem]
          exact ne.symm
    · rintro ⟨front, back, split, last⟩
      rcases List.eq_nil_or_concat back with rfl | ⟨back, y, rfl⟩
      · exact .inl (List.singleton_inj.mp (List.append_inj' split rfl).2).symm
      · rw [List.concat_eq_append] at split last
        rw [← List.cons_append, ← List.append_assoc] at split
        obtain ⟨rfl, eq⟩ := List.append_inj' split rfl
        obtain rfl := (List.singleton_inj.mp eq).symm
        refine .inr ⟨⟨front, back, rfl, fun later mem => last later ?_⟩, ?_⟩
        · exact List.mem_append_left _ mem
        · exact (last y (List.mem_append_right _ List.mem_cons_self)).symm

theorem Ascending.mem_iff_get? (h : Ascending d) : (key, value) ∈ d ↔ get? d key = some value := by
  rw [get?, List.lookup_eq_some_iff]
  constructor
  · intro mem
    obtain ⟨front, back, rfl⟩ := List.append_of_mem mem
    refine ⟨front, back, rfl, fun e earlier => bne_iff_ne.mpr fun same => ?_⟩
    have below := (List.pairwise_append.mp h).2.2 e earlier (key, value) List.mem_cons_self
    exact String.lt_irrefl _ (same ▸ below)
  · rintro ⟨front, back, rfl, -⟩
    exact List.mem_append_right _ List.mem_cons_self

/-- The keys are those of the pairs. -/
theorem mem_keys_ofList : key ∈ keys (ofList pairs) ↔ key ∈ pairs.map (·.1) := by
  induction pairs using List.reverseRecOn with
  | nil => rfl
  | append_singleton pairs x ih =>
    rw [ofList_concat, mem_keys_insert, ih, List.map_append, List.mem_append, or_comm,
      List.map_singleton, List.mem_singleton]

theorem Ascending.nodup_keys (h : Ascending d) : (keys d).Nodup := by
  refine List.pairwise_map.mpr (List.Pairwise.imp (fun {a b} below (eq : a.1 = b.1) => ?_) h)
  rw [eq] at below
  exact String.lt_irrefl _ below

/-- There is an entry for every key of a pair. -/
theorem length_ofList (pairs : List (String × α)) :
    (ofList pairs).length = (pairs.map (·.1)).dedup.length := by
  have same : (keys (ofList pairs)).Perm (pairs.map (·.1)).dedup := by
    rw [List.perm_ext_iff_of_nodup (ascending_ofList pairs).nodup_keys (List.nodup_dedup _)]
    exact fun key => mem_keys_ofList.trans List.mem_dedup.symm
  rw [← same.length_eq, keys, List.length_map]

/-- The key of a pair has the value of a pair. -/
theorem exists_get?_ofList (h : e ∈ pairs) :
    ∃ value, get? (ofList pairs) e.1 = some value ∧ (e.1, value) ∈ pairs := by
  have key : e.1 ∈ keys (ofList pairs) := mem_keys_ofList.mpr (List.mem_map_of_mem h)
  obtain ⟨value, found⟩ := Option.isSome_iff_exists.mp (mem_keys_iff.mp key)
  exact ⟨value, found, mem_ofList ((ascending_ofList pairs).mem_iff_get?.mpr found)⟩

/-- Where keys are distinct every pair is found. -/
theorem get?_ofList (nodup : (pairs.map (·.1)).Nodup) (h : e ∈ pairs) :
    get? (ofList pairs) e.1 = some e.2 := by
  induction pairs using List.reverseRecOn with
  | nil => cases h
  | append_singleton pairs x ih =>
    rw [List.map_append, List.nodup_append] at nodup
    obtain ⟨front, -, apart⟩ := nodup
    rw [ofList_concat, get?_insert]
    rcases List.mem_append.mp h with mem | mem
    · have other : e.1 ≠ x.1 :=
        apart e.1 (List.mem_map_of_mem mem) x.1 (List.mem_singleton.mpr rfl)
      rw [if_neg other]
      exact ih front mem
    · rw [List.mem_singleton.mp mem, if_pos rfl]

theorem perm_insert (absent : key ∉ keys d) : (insert key value d).Perm ((key, value) :: d) := by
  induction d with
  | nil => exact .refl _
  | cons x rest ih =>
    obtain ⟨k, v⟩ := x
    simp only [keys, List.map_cons, List.mem_cons, not_or] at absent
    rw [insert, if_neg absent.1]
    split
    · exact .refl _
    · exact ((ih absent.2).cons _).trans (.swap _ _ _)

/-- Pairs with distinct keys are the entries. -/
theorem perm_ofList (nodup : (pairs.map (·.1)).Nodup) : (ofList pairs).Perm pairs := by
  induction pairs using List.reverseRecOn with
  | nil => exact .refl _
  | append_singleton pairs x ih =>
    rw [List.map_append, List.nodup_append] at nodup
    obtain ⟨front, -, apart⟩ := nodup
    have absent : x.1 ∉ keys (ofList pairs) := by
      rw [mem_keys_ofList]
      exact fun mem => apart x.1 mem x.1 (List.mem_singleton.mpr rfl) rfl
    rw [ofList_concat]
    refine (perm_insert absent).trans (((ih front).cons _).trans ?_)
    exact (List.perm_append_singleton x pairs).symm

/-- The order of pairs with distinct keys does not matter. -/
theorem ofList_eq_of_perm {pairs' : List (String × α)} (order : pairs.Perm pairs')
    (nodup : (pairs.map (·.1)).Nodup) : ofList pairs = ofList pairs' := by
  have nodup' : (pairs'.map (·.1)).Nodup := (order.map _).nodup_iff.mp nodup
  have same : (ofList pairs).Perm (ofList pairs') :=
    (perm_ofList nodup).trans (order.trans (perm_ofList nodup').symm)
  refine same.eq_of_pairwise (fun a b _ _ lt gt => ?_) (ascending_ofList _) (ascending_ofList _)
  exact absurd (String.lt_trans lt gt) (String.lt_irrefl _)

/-! ## Pairs with one key -/

/-- The pairs with this key have one value. -/
def AgreeAt (pairs : List (String × α)) (key : String) : Prop :=
  ∀ e ∈ pairs, ∀ e' ∈ pairs, e.1 = key → e'.1 = key → e.2 = e'.2

/-- Pairs with one key have one value. -/
def Agree (pairs : List (String × α)) : Prop :=
  ∀ e ∈ pairs, ∀ e' ∈ pairs, e.1 = e'.1 → e.2 = e'.2

instance [DecidableEq α] (pairs : List (String × α)) : Decidable (Agree pairs) :=
  inferInstanceAs (Decidable (∀ e ∈ pairs, ∀ e' ∈ pairs, e.1 = e'.1 → e.2 = e'.2))

theorem Agree.agreeAt (h : Agree pairs) (key : String) : AgreeAt pairs key :=
  fun e mem e' mem' eq eq' => h e mem e' mem' (eq.trans eq'.symm)

theorem agree_of_nodup (nodup : (pairs.map (·.1)).Nodup) : Agree pairs := by
  intro e mem e' mem' eq
  rw [List.inj_on_of_nodup_map nodup mem mem' eq]

theorem AgreeAt.perm (h : AgreeAt pairs key) (order : pairs'.Perm pairs) : AgreeAt pairs' key :=
  fun e mem e' mem' => h e (order.mem_iff.mp mem) e' (order.mem_iff.mp mem')

/-- A pair is an entry if no other with its key has another value. -/
theorem mem_ofList_of_agreeAt (h : AgreeAt pairs e.1) : e ∈ ofList pairs ↔ e ∈ pairs := by
  refine ⟨mem_ofList, fun mem => ?_⟩
  obtain ⟨value, found, mem'⟩ := exists_get?_ofList mem
  have same : e.2 = value := h e mem _ mem' rfl rfl
  rw [← same] at found
  exact (ascending_ofList pairs).mem_iff_get?.mpr found

/-- Later pairs replace earlier ones with their keys. -/
theorem mem_ofList_append {back : List (String × α)} : e ∈ ofList (pairs ++ back) ↔
    e ∈ ofList back ∨ e ∈ ofList pairs ∧ e.1 ∉ back.map (·.1) := by
  induction back using List.reverseRecOn with
  | nil =>
    rw [List.append_nil]
    simp [ofList]
  | append_singleton back x ih =>
    rw [← List.append_assoc, ofList_concat, ofList_concat, (ascending_ofList _).mem_insert_iff,
      (ascending_ofList _).mem_insert_iff, ih, List.map_append, List.mem_append, not_or,
      List.map_singleton, List.mem_singleton]
    tauto

/-- A dictionary is known by its entries. -/
theorem Ascending.ext (h : Ascending d) (h' : Ascending d') (same : ∀ e, e ∈ d ↔ e ∈ d') :
    d = d' := by
  have nodup {d : Dictionary α} (h : Ascending d) : d.Nodup := h.nodup_keys.of_map _
  have order : d.Perm d' := (List.perm_ext_iff_of_nodup (nodup h) (nodup h')).mpr same
  refine order.eq_of_pairwise (fun a b _ _ lt gt => ?_) h h'
  exact absurd (String.lt_trans lt gt) (String.lt_irrefl _)

theorem Ascending.keys_ext (h : Ascending d) (h' : Ascending d')
    (same : ∀ key, key ∈ keys d ↔ key ∈ keys d') : keys d = keys d' := by
  have order : (keys d).Perm (keys d') :=
    (List.perm_ext_iff_of_nodup h.nodup_keys h'.nodup_keys).mpr same
  refine order.eq_of_pairwise (fun a b _ _ lt gt => ?_) (List.pairwise_map.mpr h)
    (List.pairwise_map.mpr h')
  exact absurd (String.lt_trans lt gt) (String.lt_irrefl _)

end ScriptServer.Dictionary
