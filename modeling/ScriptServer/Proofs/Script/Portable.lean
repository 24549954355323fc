import ScriptServer.Proofs.Script.Building
import ScriptServer.Proofs.Script.Encoding
import ScriptServer.Proofs.Script.Order

/-!
# Portable values

A script may encode a value as JSON and decode the text to hand the value on. A value is `Portable`
if nothing is lost then: a table has either names or the positions from one on as keys, and no table
holds itself. Its tree has an array or an object for every table (`Spells`), and a value that shows
this tree is the first one again, in other tables (`Heap.Alike`).
-/

namespace ScriptServer.Script

/-- The language takes the values for the same. Numbers are the same if they are worth the same. -/
def Value.rawEquals : Value → Value → Bool
  | .float x, .float y => !x.isNaN && !y.isNaN && x.signedUnits == y.signedUnits
  | .float x, .integer i | .integer i, .float x =>
    !x.isNaN && x.signedUnits == i.toInt * Binary64.one
  | v, w => v == w

/-- No table, and nothing is lost in its text. -/
inductive Value.IsPlain : Value → Prop
  | bool (b : Bool) : IsPlain (.bool b)
  | integer {i : Int64} (within : i.toInt.natAbs ≤ 2 ^ 53) : IsPlain (.integer i)
  | float {x : Binary64} (finite : x.isFinite = true) : IsPlain (.float x)
  | text (s : String) : IsPlain (.ofText s)

namespace Heap

/-- A value of `h` and one of `g` have the same leaves under the same keys. Only a float that is an
integer up to `2 ^ 53` may be that integer in the other. -/
inductive Alike (h g : Heap) : Value → Value → Prop
  | leaf {v w : Value} (flat : ∀ id, v ≠ .table id) (equal : v.rawEquals w = true)
      (kind : w.kind = v.kind ∨
        v.kind = "number" ∧ ∃ i, w = .integer i ∧ i.toInt.natAbs ≤ 2 ^ 53) :
      Alike h g v w
  | table {id id' : Nat} (keys : (g.table id').keys.Perm (h.table id).keys)
      (inside : ∀ key ∈ (h.table id).keys,
        Alike h g ((h.table id).get key) ((g.table id').get key)) :
      Alike h g (.table id) (.table id')

/-- All leaves are plain, and at most `n` tables stand one inside the other, so that none holds
itself. A table has the positions from one on as its keys, or texts. -/
inductive Portable (h : Heap) : Nat → Value → Prop
  | plain {n : Nat} {v : Value} (plain : v.IsPlain) : Portable h n v
  | table {n id : Nat} (legal : (h.table id).IsLegal) (filled : (h.table id).entries ≠ [])
      (keys : (∃ m, (h.table id).IsSequence m) ∨ ∀ key ∈ (h.table id).keys, ∃ s, key = .ofText s)
      (inside : ∀ e ∈ (h.table id).entries, Portable h n e.2) : Portable h (n + 1) (.table id)

end Heap

/-- The tree has every leaf of the value, and an array or object with the same keys for every
table. -/
inductive Spells (h : Heap) : Value → Json.Tree → Prop
  | leaf {v : Value} (plain : v.IsPlain) : Spells h v v.leaf
  | table {id : Nat} {t : Json.Tree} {slots : List (Value × Json.Tree)}
      (some : slots? t = some slots) (legal : (h.table id).IsLegal)
      (keys : (h.table id).keys.Perm (slots.map (·.1)))
      (all : ∀ s ∈ slots, Spells h ((h.table id).get s.1) s.2) : Spells h (.table id) t

variable {h g : Heap} {opened : List Nat} {id lo n room : Nat} {v w : Value} {t : Json.Tree}

/-! ## Leaves -/

theorem ofNumber_ofInt {i : Int64} (within : i.toInt.natAbs ≤ 2 ^ 53) :
    ofNumber (Binary64.ofInt i.toInt) = .integer i := by
  have most : (Binary64.ofInt i.toInt).absAtMost Value.safeInteger = true := by
    rw [Binary64.absAtMost, (Binary64.sign_and_units_ofInt within).2, decide_eq_true_eq]
    exact Nat.mul_le_mul_right _ within
  rw [ofNumber, Binary64.isIntegral_ofInt within, most, Binary64.truncate_ofInt within,
    Int64.ofInt_toInt]
  rfl

/-- A finite float comes back as itself or as the integer that it is. -/
theorem alike_ofNumber {x : Binary64} (finite : x.isFinite = true) :
    h.Alike g (.float x) (ofNumber x) := by
  have number : x.isNaN = false := by
    rw [Binary64.isFinite_iff] at finite
    exact decide_eq_false (Nat.not_lt.mpr finite.le)
  unfold ofNumber
  split
  · next exact =>
    rw [Bool.and_eq_true] at exact
    have bound : x.truncate.natAbs ≤ 2 ^ 53 := Binary64.natAbs_truncate_le exact.2
    have same : (Int64.ofInt x.truncate).toInt = x.truncate :=
      Int64.toInt_ofInt_of_le (by omega) (by omega)
    refine .leaf (fun _ => Value.noConfusion) ?_ (.inr ⟨rfl, _, rfl, by rwa [same]⟩)
    rw [Value.rawEquals, number, same, Binary64.signedUnits_of_isIntegral exact.1,
      beq_self_eq_true]
    rfl
  · refine .leaf (fun _ => Value.noConfusion) ?_ (.inl rfl)
    rw [Value.rawEquals, number, beq_self_eq_true]
    rfl

theorem slots?_leaf (v : Value) : slots? v.leaf = none := by cases v <;> rfl

theorem isSmall_leaf (v : Value) : IsSmall v.leaf := by cases v <;> exact trivial

namespace Value.IsPlain

theorem ne_table (plain : v.IsPlain) (id : Nat) : v ≠ .table id := by
  cases plain <;> exact Value.noConfusion

theorem isNull_leaf (plain : v.IsPlain) : v.leaf.isNull = false := by cases plain <;> rfl

theorem finite_leaf (plain : v.IsPlain) : ∀ x ∈ v.leaf.numbers, x.isFinite = true := by
  cases plain with
  | integer within =>
    refine List.forall_mem_singleton.mpr (Binary64.isFinite_ofInt ?_)
    exact Nat.le_trans within (by decide)
  | float finite => exact List.forall_mem_singleton.mpr finite
  | _ => exact nofun

/-- A leaf comes back from its tree. -/
theorem alike_leaf (plain : v.IsPlain) : h.Alike g v (flatValue v.leaf) := by
  have same (eq : flatValue v.leaf = v) (equal : v.rawEquals v = true) :
      h.Alike g v (flatValue v.leaf) := .leaf plain.ne_table (by rwa [eq]) (.inl (by rw [eq]))
  cases plain with
  | bool b => exact same rfl (beq_self_eq_true _)
  | integer within => exact same (ofNumber_ofInt within) (beq_self_eq_true _)
  | float finite => exact alike_ofNumber finite
  | text s => exact same (by rw [leaf_ofText]; rfl) (beq_self_eq_true _)

end Value.IsPlain

namespace Heap.Portable

/-! ## Tables inside of each other -/

theorem succ (portable : h.Portable n v) : h.Portable (n + 1) v := by
  induction portable with
  | plain plain => exact .plain plain
  | table legal filled keys _ ih => exact .table legal filled keys ih

theorem of_reaches (portable : h.Portable n v) (reaches : h.Reaches v id) :
    h.Portable n (.table id) := by
  induction reaches generalizing n with
  | here => exact portable
  | entry mem _ ih =>
    cases portable with
    | plain plain => exact absurd rfl (plain.ne_table _)
    | table legal filled keys inside => exact (ih (inside _ mem)).succ

theorem isLegal (portable : h.Portable n (.table id)) : (h.table id).IsLegal := by
  cases portable with
  | plain plain => exact absurd rfl (plain.ne_table _)
  | table legal => exact legal

/-- A table that could be reached from its own entries would be portable with less room. -/
theorem not_onCycle (portable : h.Portable n (.table id)) : ¬ h.OnCycle id := by
  induction n with
  | zero =>
    cases portable with
    | plain plain => exact absurd rfl (plain.ne_table _)
  | succ n ih =>
    cases portable with
    | plain plain => exact absurd rfl (plain.ne_table _)
    | table legal filled keys inside =>
      rintro ⟨e, mem, reaches⟩
      exact ih ((inside e mem).of_reaches reaches) ⟨e, mem, reaches⟩

end Heap.Portable

/-! ## The tree of a portable value -/

theorem spells_array {items : List Json.Tree} (legal : (h.table id).IsLegal)
    (sequence : (h.table id).IsSequence items.length)
    (all : ∀ i (bound : i < items.length), Spells h ((h.table id).get (.ofNat (i + 1))) items[i]) :
    Spells h (.table id) (.array items) := by
  refine .table rfl legal ?_ (List.forall_mem_map.mpr fun p mem => ?_)
  · rw [keys_items]
    exact (legal.isSequence_iff sequence.small).mp sequence
  · obtain ⟨i, bound, rfl⟩ := List.mem_iff_getElem.mp mem
    rw [List.length_zipIdx] at bound
    rw [List.getElem_zipIdx, Nat.add_comm]
    exact all i bound

theorem spells_object {f : Value × Value → Json.Tree} (legal : (h.table id).IsLegal)
    (names : ∀ key ∈ (h.table id).keys, ∃ s, key = .ofText s)
    (all : ∀ e ∈ (h.table id).entries, Spells h e.2 (f e)) :
    Spells h (.table id)
      (.object (Dictionary.ofList ((h.table id).entries.map fun e => (e.1.keyText, f e)))) := by
  have named : ∀ e ∈ (h.table id).entries, .ofText e.1.keyText = e.1 := by
    intro e mem
    obtain ⟨s, eq⟩ := names e.1 (Table.mem_keys_of_mem mem)
    rw [eq, Value.keyText_ofText]
  have keys : ((h.table id).entries.map fun e => (e.1.keyText, f e)).map (fun m => .ofText m.1) =
      (h.table id).keys := by
    rw [List.map_map]
    exact List.map_congr_left named
  have apart : (((h.table id).entries.map fun e => (e.1.keyText, f e)).map (·.1)).Nodup := by
    refine List.Nodup.of_map Value.ofText ?_
    rw [List.map_map]
    exact keys ▸ legal.nodup
  refine .table rfl legal ?_ (List.forall_mem_map.mpr fun m mem => ?_)
  · rw [List.map_map, ← keys]
    exact ((Dictionary.perm_ofList apart).map _).symm
  · obtain ⟨e, entry, rfl⟩ := List.mem_map.mp (Dictionary.mem_ofList mem)
    dsimp only
    rw [named e entry, legal.get_of_mem entry]
    exact all e entry

/-- The unfolding of a portable value spells it where there is room for its tables and it leads to
no open one. -/
theorem Heap.Portable.spells (portable : h.Portable n v) (full : room + opened.length = maxDepth)
    (shallow : n ≤ room) (outside : ∀ o ∈ opened, ¬ h.Reaches v o) :
    Spells h v (unfold h room opened v) := by
  induction portable generalizing room opened with
  | plain plain =>
    rw [unfold_leaf plain.ne_table]
    exact .leaf plain
  | @table n id legal filled keys inside ih =>
    have acyclic := (Heap.Portable.table legal filled keys inside).not_onCycle
    have free : ¬ IsCut opened id := not_or.mpr ⟨fun mem => outside id mem .here, by omega⟩
    obtain ⟨inner, full', eq⟩ := unfold_free full free
    have later (e : Value × Value) (mem : e ∈ (h.table id).entries) :
        Spells h e.2 (unfold h inner (id :: opened) e.2) := by
      refine ih e mem full' (by rw [List.length_cons] at full'; omega) fun o open' reaches => ?_
      rcases List.mem_cons.mp open' with rfl | open'
      · exact acyclic ⟨e, mem, reaches⟩
      · exact outside o open' (.entry mem reaches)
    rw [eq]
    rcases keys with ⟨m, sequence⟩ | names
    · have length := legal.length_of_isSequence sequence
      have pos := List.length_pos_iff.mpr filled
      rw [legal.shape_eq_array_iff.mpr ⟨by omega, sequence⟩]
      refine spells_array legal (by simpa using sequence) fun i bound => ?_
      rw [List.length_map, List.length_range] at bound
      obtain ⟨e, mem, -, found⟩ := legal.entry_at sequence bound
      rw [List.getElem_map, List.getElem_range, found]
      exact later e mem
    · have object : (h.table id).shape = .object := by
        refine legal.shape_eq_object_iff.mpr ⟨filled, fun m sequence => ?_⟩
        have length := legal.length_of_isSequence sequence
        have pos := List.length_pos_iff.mpr filled
        obtain ⟨s, eq⟩ := names _ ((sequence.mem_keys _).mpr ⟨1, Nat.le_refl 1, by omega, rfl⟩)
        cases eq
      rw [object]
      exact spells_object legal names later

namespace Spells

theorem isNull (spells : Spells h v t) : t.isNull = false := by
  cases spells with
  | leaf plain => exact plain.isNull_leaf
  | table some =>
    cases t with
    | null => cases some
    | _ => rfl

theorem finite (spells : Spells h v t) : ∀ x ∈ t.numbers, x.isFinite = true := by
  induction spells with
  | leaf plain => exact plain.finite_leaf
  | @table id t slots some legal keys all ih =>
    intro x mem
    cases t with
    | array items =>
      cases some
      have each : ∀ t ∈ items, ∀ x ∈ t.numbers, x.isFinite = true := forall_items_iff.mp ih
      obtain ⟨t, item, inside⟩ := Json.Tree.mem_numbersItems.mp mem
      exact each t item x inside
    | object members =>
      cases some
      obtain ⟨m, member, inside⟩ := Json.Tree.mem_numbersMembers.mp mem
      exact ih _ (List.mem_map_of_mem member) x inside
    | _ => cases some

/-- There are as many slots as entries of the table. -/
theorem isSmall (spells : Spells h v t) : IsSmall t := by
  induction spells with
  | leaf => exact isSmall_leaf _
  | @table id t slots some legal keys all ih =>
    have length : (h.table id).entries.length = slots.length := by
      simpa [Table.keys] using keys.length_eq
    exact (isSmall_iff_of_slots some).mpr ⟨length ▸ legal.small, ih⟩

/-- What shows the tree is the value again, also if its tables are enumerated in another order. -/
theorem alike {g' : Heap} (spells : Spells h v t) (shows : Shows g lo t w)
    (order : ∀ id, (g'.table id).entries.Perm (g.table id).entries) : h.Alike g' v w := by
  induction spells generalizing lo w with
  | leaf plain =>
    cases shows with
    | flat => exact plain.alike_leaf
    | table some => rw [slots?_leaf] at some; cases some
  | @table id t slots some legal keys all ih =>
    cases shows with
    | flat flat => rw [some] at flat; cases flat
    | @table _ id' _ _ value some' apart low high entries inside =>
      obtain rfl := Option.some.inj (some.symm.trans some')
      have kept' : kept slots = slots :=
        List.filter_eq_self.mpr fun s mem => by rw [(all s mem).isNull]; rfl
      rw [kept'] at entries inside
      have keys' : (g.table id').keys = slots.map (·.1) := by
        rw [Table.keys, entries, List.map_map]
        rfl
      have legal' : (g.table id').IsLegal :=
        (apart.isLegal (kept'.symm ▸ entries) (kept'.symm ▸ inside)).1
      have arranged : (g'.table id').keys.Perm (g.table id').keys := (order id').map _
      refine .table (arranged.trans (keys' ▸ keys.symm)) fun key mem => ?_
      obtain ⟨s, slot, rfl⟩ := List.mem_map.mp (keys.mem_iff.mp mem)
      have found : (g'.table id').get s.1 = value s.1 := by
        rw [legal'.get_of_perm (order id')]
        exact legal'.get_of_mem (by rw [entries]; exact List.mem_map_of_mem slot)
      rw [found]
      exact ih s slot (inside s slot)

end Spells

/-! ## There and back -/

theorem decodeBytes_ofText {text : String} (decoded : Json.decode text = .ok t) (h : Heap) :
    decodeBytes (Utf8.ofText text) h = ([(ofTree t h).1], (ofTree t h).2) := by
  rw [decodeBytes, Utf8.ofText, Utf8.toText?_ofChars, String.ofList_toList]
  dsimp only
  rw [decoded]

/-- **Round trip.** A portable value whose tables stand at most 128 deep has a text, and what any
interpreter decodes from it is the value again, in new tables. -/
theorem jsonDecode_jsonEncode {ρ : Type} (s : Services ρ) (m : Machine ρ) {v : Value}
    (portable : m.heap.Portable 128 v) :
    ∃ text, Builtin.call s [v] .jsonEncode m = (.ok [.ofText text], m) ∧ ∀ m' : Machine ρ, ∃ w g,
      Builtin.call s [.ofText text] .jsonDecode m' = (.ok [w], { m' with heap := g }) ∧
        m'.heap.Grows g (fun _ => True) ∧ m.heap.Alike g v w := by
  have legal (id : Nat) (reaches : m.heap.Reaches v id) : (m.heap.table id).IsLegal :=
    (portable.of_reaches reaches).isLegal
  have spells : Spells m.heap v (toTree m.heap v) :=
    portable.spells rfl (Nat.le_refl _) fun _ => nofun
  have ordered : (toTree m.heap v).IsOrdered := (unfolds_unfold legal rfl).isOrdered
  obtain ⟨text, encoded⟩ := (Json.encode_ok_iff _).mpr spells.finite
  have decoded := decode_encode_toTree legal encoded
  refine ⟨text, ?_, fun m' => ?_⟩
  · have results : encodeValue m.heap v = [.ofText text] := by rw [encodeValue, encoded]
    exact congrArg (fun results => (Outcome.ok results, m)) results
  · obtain ⟨grows, shows⟩ := builds (toTree m.heap v) ordered spells.isSmall m'.heap
    have order := Heap.perm_entries_arrangedFrom (ofTree (toTree m.heap v) m'.heap).2
      m'.world.arrangement m'.heap.tables.size
    refine ⟨_, _, ?_, grows.arranged _, spells.alike shows order⟩
    have heap := decodeBytes_ofText decoded m'.heap
    exact congrArg (fun r : List Value × Heap => (Outcome.ok r.1,
      { m' with heap := r.2.arrangedFrom m'.world.arrangement m'.heap.tables.size })) heap

/-- A name that could be a position, the greatest integer of those that are all floats too, and
negative zero. -/
theorem jsonDecode_jsonEncode_names :
    let s : Services Unit := ⟨fun _ _ _ => (.ok 0, ()), fun _ _ _ _ => (.ok (), ()),
      fun _ _ w => (.ok (), (), w)⟩
    let h : Heap := ⟨#[
      ⟨[(.ofText "1", .table 1), (.ofText "x", .float ⟨0x8000000000000000⟩)], none⟩,
      ⟨[(.integer 2, .ofText "é"), (.integer 1, .integer 9007199254740992)], none⟩], #[], 0⟩
    let m : Machine Unit := ⟨h, [], [], [], [], [], (), .ofFiles ⟨[], []⟩ [] none⟩
    let text := "\x7b\"1\":[9007199254740992,\"é\"],\"x\":-0\x7d"
    h.Portable 128 (.table 0) ∧
      Builtin.call s [.table 0] .jsonEncode m = (.ok [.ofText text], m) ∧ ∃ w g,
        Builtin.call s [.ofText text] .jsonDecode m = (.ok [w], { m with heap := g }) ∧
          h.Alike g (.table 0) w := by
  intro s h m text
  have names : ∀ key ∈ (h.table 0).keys, ∃ s, key = .ofText s :=
    List.forall_mem_cons.mpr ⟨⟨"1", rfl⟩, List.forall_mem_singleton.mpr ⟨"x", rfl⟩⟩
  have outer : (h.table 0).IsLegal := by
    refine ⟨by decide, fun key mem => ?_, by decide, by decide⟩
    obtain ⟨s, rfl⟩ := names key mem
    exact Value.isKey_string _
  have inner : (h.table 1).IsLegal :=
    Table.isLegal_of_integers (by decide) (by decide) (by decide) (by decide)
  have sequence : (h.table 1).IsSequence 2 :=
    (inner.isSequence_iff (by decide)).mpr (List.Perm.swap ..)
  have items : ∀ e ∈ (h.table 1).entries, h.Portable 126 e.2 :=
    List.forall_mem_cons.mpr ⟨.plain (.text "é"),
      List.forall_mem_singleton.mpr (.plain (.integer (by decide)))⟩
  have members : ∀ e ∈ (h.table 0).entries, h.Portable 127 e.2 :=
    List.forall_mem_cons.mpr ⟨.table inner (List.cons_ne_nil _ _) (.inl ⟨2, sequence⟩) items,
      List.forall_mem_singleton.mpr (.plain (.float (by decide)))⟩
  have portable : h.Portable 128 (.table 0) :=
    .table outer (List.cons_ne_nil _ _) (.inr names) members
  have encoding : encodeValue h (.table 0) = [.ofText text] := by decide +kernel
  have call : Builtin.call s [.table 0] .jsonEncode m = (.ok [.ofText text], m) :=
    congrArg (fun results => (Outcome.ok results, m)) encoding
  obtain ⟨text', encoded, decodes⟩ := jsonDecode_jsonEncode s m portable
  obtain rfl : text' = text := by
    have same : Value.ofText text' = .ofText text := by
      injection (encoded.symm.trans call) with outcome
      injection outcome with results
      exact List.singleton_inj.mp results
    exact Utf8.ofText_injective (Value.string.inj same)
  obtain ⟨w, g, decoded, -, alike⟩ := decodes m
  exact ⟨portable, call, w, g, decoded, alike⟩

end ScriptServer.Script
