import ScriptServer.Proofs.Number.Integral
import ScriptServer.Proofs.Script.Sharing
import ScriptServer.Proofs.Text.Ascii
import ScriptServer.Script.Library

/-!
# Encoding values

The tree of a value has ascending keys at every object and nests no deeper than the decoder reads,
so a text that `json.encode` gives is decoded as that tree. Only a float that is not finite keeps
the function from giving a text, and only if it stays in the tree: an entry of an object is lost if
a later one has a key of the same text (`Remains`).
-/

namespace ScriptServer.Script

/-- The entry is not lost: no later one has a key of the same text. -/
def Table.Keeps (t : Table) (e : Value × Value) : Prop :=
  ∃ front back, t.entries = front ++ e :: back ∧ ∀ later ∈ back, later.1.keyText ≠ e.1.keyText

namespace Table

variable {t : Table} {e : Value × Value}

theorem Keeps.mem (keeps : t.Keeps e) : e ∈ t.entries := by
  obtain ⟨front, back, split, -⟩ := keeps
  rw [split]
  exact List.mem_append_right _ List.mem_cons_self

theorem keeps_of_nodup (nodup : (t.keys.map Value.keyText).Nodup) (mem : e ∈ t.entries) :
    t.Keeps e := by
  obtain ⟨front, back, split⟩ := List.append_of_mem mem
  refine ⟨front, back, split, fun later behind eq => ?_⟩
  rw [keys, split, List.map_map, List.map_append, List.map_cons] at nodup
  refine (List.nodup_cons.mp (List.nodup_append.mp nodup).2.1).1 ?_
  exact List.mem_map.mpr ⟨later, behind, eq⟩

/-- The entries that are kept are the members of the object. -/
theorem mem_members_iff {f : Value × Value → Json.Tree} {m : String × Json.Tree} :
    m ∈ Dictionary.ofList (t.entries.map fun e => (e.1.keyText, f e)) ↔
      ∃ e, t.Keeps e ∧ m = (e.1.keyText, f e) := by
  rw [Dictionary.mem_ofList_iff]
  constructor
  · rintro ⟨front, back, split, last⟩
    obtain ⟨front, rest, entries, -, rest'⟩ := List.map_eq_append_iff.mp split
    obtain ⟨e, back, rfl, rfl, rfl⟩ := List.map_eq_cons_iff.mp rest'
    refine ⟨e, ⟨front, back, entries, fun later behind => ?_⟩, rfl⟩
    exact last _ (List.mem_map_of_mem behind)
  · rintro ⟨e, ⟨front, back, split, last⟩, rfl⟩
    rw [split, List.map_append, List.map_cons]
    refine ⟨_, _, rfl, fun later behind => ?_⟩
    obtain ⟨e', behind', rfl⟩ := List.mem_map.mp behind
    exact last e' behind'

end Table

namespace Heap

/-- `v` comes up in the unfolding of `root` while the tables `opened` are open, and is not lost. -/
inductive Remains (h : Heap) (root : Value) : List Nat → Value → Prop
  | root : Remains h root [] root
  | entry {opened : List Nat} {id : Nat} {e : Value × Value} : Remains h root opened (.table id) →
      ¬ IsCut opened id → (h.table id).Keeps e → Remains h root (id :: opened) e.2

variable {h : Heap} {root v : Value} {opened : List Nat} {id room : Nat} {x : Binary64}

theorem Remains.occurs (remains : h.Remains root opened v) : h.Occurs root opened v := by
  induction remains with
  | root => exact .root
  | entry _ free keeps ih => exact .entry ih free keeps.mem

/-- Nothing is lost where the keys of each object have different texts. -/
theorem Occurs.remains (legal : h.IsLegal) (apart : ∀ id, h.NamesApart id)
    (occurs : h.Occurs root opened v) : h.Remains root opened v := by
  induction occurs with
  | root => exact .root
  | @entry opened id e _ free mem ih =>
    refine .entry ih free (Table.keeps_of_nodup ?_ mem)
    by_cases object : ∀ n, ¬ (h.table id).IsSequence n
    · exact apart id object
    · obtain ⟨n, sequence⟩ : ∃ n, (h.table id).IsSequence n := by simpa using object
      exact (legal id).nodup_names_of_isSequence sequence

end Heap

/-! ## The numbers of a tree -/

variable {h : Heap} {root v : Value} {opened : List Nat} {id room : Nat} {x : Binary64}

/-- The numbers of a table are those of the entries that it keeps. -/
theorem numbers_unfold_table (legal : h.IsLegal) (full : room + opened.length = maxDepth)
    (free : ¬ IsCut opened id) :
    ∃ inner, inner + (id :: opened).length = maxDepth ∧ ∀ x,
      x ∈ (unfold h room opened (.table id)).numbers ↔
        ∃ e, (h.table id).Keeps e ∧ x ∈ (unfold h inner (id :: opened) e.2).numbers := by
  obtain ⟨inner, full', eq⟩ := unfold_free full free
  refine ⟨inner, full', fun x => ?_⟩
  have here := legal id
  rw [eq]
  cases shape : (h.table id).shape with
  | empty =>
    refine iff_of_false List.not_mem_nil fun ⟨e, keeps, _⟩ => ?_
    have mem := keeps.mem
    rw [Table.shape_eq_empty_iff.mp shape] at mem
    cases mem
  | array n =>
    have sequence := (here.shape_eq_array_iff.mp shape).2
    have names := here.nodup_names_of_isSequence sequence
    simp only [Json.Tree.numbers, Json.Tree.mem_numbersItems, List.mem_map,
      exists_exists_and_eq_and]
    constructor
    · rintro ⟨i, bound, mem⟩
      obtain ⟨e, entry, -, found⟩ := here.entry_at sequence (List.mem_range.mp bound)
      exact ⟨e, Table.keeps_of_nodup names entry, found ▸ mem⟩
    · rintro ⟨⟨key, v⟩, keeps, mem⟩
      have entry := keeps.mem
      obtain ⟨i, low, high, rfl⟩ := (sequence.mem_keys key).mp (Table.mem_keys_of_mem entry)
      obtain ⟨i, rfl⟩ := Nat.exists_eq_add_of_le' low
      exact ⟨i, List.mem_range.mpr high, (here.get_of_mem entry).symm ▸ mem⟩
  | object =>
    simp only [Json.Tree.numbers, Json.Tree.mem_numbersMembers, Table.mem_members_iff]
    constructor
    · rintro ⟨m, ⟨e, keeps, rfl⟩, mem⟩
      exact ⟨e, keeps, mem⟩
    · rintro ⟨e, keeps, mem⟩
      exact ⟨_, ⟨e, keeps, rfl⟩, mem⟩

theorem mem_numbers_leaf : x ∈ v.leaf.numbers ↔ v.leaf = .number x := by
  cases v <;> simp [Value.leaf, Json.Tree.numbers, eq_comm]

/-- Every number of the tree stands for a value that remains. -/
theorem Heap.Remains.of_numbers (remains : h.Remains root opened v) (legal : h.IsLegal)
    (full : room + opened.length = maxDepth) (mem : x ∈ (unfold h room opened v).numbers) :
    ∃ inside w, h.Remains root inside w ∧ w.leaf = .number x := by
  induction room generalizing opened v with
  | zero =>
    rcases v.flat_or_table with flat | ⟨id, rfl⟩
    · rw [unfold_leaf flat] at mem
      exact ⟨opened, v, remains, mem_numbers_leaf.mp mem⟩
    · cases mem
  | succ room ih =>
    rcases v.flat_or_table with flat | ⟨id, rfl⟩
    · rw [unfold_leaf flat] at mem
      exact ⟨opened, v, remains, mem_numbers_leaf.mp mem⟩
    by_cases cut : IsCut opened id
    · rw [unfold_cut full cut] at mem
      cases mem
    obtain ⟨inner, full', numbers⟩ := numbers_unfold_table legal full cut
    obtain rfl : inner = room := by
      rw [List.length_cons] at full'
      omega
    obtain ⟨e, keeps, inside⟩ := (numbers x).mp mem
    exact ih (.entry remains cut keeps) full' inside

/-- The numbers of a value that remains are in the tree. -/
theorem Heap.Remains.numbers_subset (remains : h.Remains root opened v) (legal : h.IsLegal) :
    ∃ room, room + opened.length = maxDepth ∧
      ∀ x ∈ (unfold h room opened v).numbers, x ∈ (toTree h root).numbers := by
  induction remains with
  | root => exact ⟨maxDepth, rfl, fun x mem => mem⟩
  | entry _ free keeps ih =>
    obtain ⟨room, full, subset⟩ := ih
    obtain ⟨inner, full', numbers⟩ := numbers_unfold_table legal full free
    exact ⟨inner, full', fun x mem => subset x ((numbers x).mpr ⟨_, keeps, mem⟩)⟩

theorem mem_numbers_toTree (legal : h.IsLegal) :
    x ∈ (toTree h v).numbers ↔ ∃ opened w, h.Remains v opened w ∧ w.leaf = .number x := by
  constructor
  · exact fun mem => Heap.Remains.root.of_numbers legal rfl mem
  · rintro ⟨opened, w, remains, leaf⟩
    obtain ⟨room, full, subset⟩ := remains.numbers_subset legal
    have flat (id : Nat) : w ≠ .table id := by
      rintro rfl
      cases leaf
    refine subset x ?_
    rw [unfold_leaf flat]
    exact mem_numbers_leaf.mpr leaf

/-- A number that is not finite stands for a float: integers are rounded to finite ones. -/
theorem remains_of_not_finite (legal : h.IsLegal) (mem : x ∈ (toTree h v).numbers)
    (notFinite : x.isFinite = false) : ∃ opened, h.Remains v opened (.float x) := by
  obtain ⟨opened, w, remains, leaf⟩ := (mem_numbers_toTree legal).mp mem
  cases w with
  | integer i =>
    cases leaf
    have finite : (Binary64.ofInt i.toInt).isFinite = true := by
      refine Binary64.isFinite_ofInt ?_
      have low := i.le_toInt
      have high := i.toInt_lt
      omega
    rw [finite] at notFinite
    cases notFinite
  | float y =>
    cases leaf
    exact ⟨opened, remains⟩
  | _ => cases leaf

/-! ## Encoding and decoding -/

/-- The text of a value's tree is decoded as the tree: the depth at which the decoder gives up is
beyond every depth at which a table is unfolded. -/
theorem decode_encode_toTree (legal : ∀ id, h.Reaches v id → (h.table id).IsLegal) {text : String}
    (encoded : Json.encode (toTree h v) = .ok text) : Json.decode text = .ok (toTree h v) := by
  have unfolds : Unfolds h [] v (toTree h v) := unfolds_unfold legal rfl
  refine (Json.decode_encode unfolds.isOrdered encoded).1 ?_
  calc (toTree h v).depth ≤ (toTree h v).height := (toTree h v).depth_le_height
    _ ≤ maxDepth := unfolds.height_le
    _ ≤ Json.maxDepth := by decide

/-- **Encoding.** `json.encode` gives a text or nil and a message, and leaves the interpreter as it
was. The text is decoded as the tree of the value, bit for bit. There is a message just if a float
that is not finite comes up while the value is unfolded and stays in the tree, for which it is
enough that it comes up where the keys of each object have different texts; the message is that of
such a float. -/
theorem jsonEncode_decode {ρ : Type} (s : Services ρ) (args : List Value) (m : Machine ρ)
    (legal : m.heap.IsLegal) :
    ∃ results, Builtin.call s args .jsonEncode m = (.ok results, m) ∧
      ((∃ text, results = [.ofText text] ∧
          Json.decode text = .ok (toTree m.heap (argument args 1)) ∧
          ∀ opened x, m.heap.Remains (argument args 1) opened (.float x) → x.isFinite = true) ∨
        ∃ opened x, m.heap.Remains (argument args 1) opened (.float x) ∧ x.isFinite = false ∧
          results = [.nil, .ofText (Json.EncodeError.of x).message]) ∧
      (∀ opened w, m.heap.Remains (argument args 1) opened w →
        m.heap.Occurs (argument args 1) opened w) ∧
      ((∀ id, m.heap.NamesApart id) → ∀ opened w, m.heap.Occurs (argument args 1) opened w →
        m.heap.Remains (argument args 1) opened w) := by
  refine ⟨_, rfl, ?_, fun _ _ => Heap.Remains.occurs,
    fun apart _ _ => Heap.Occurs.remains legal apart⟩
  generalize argument args 1 = v
  rw [encodeValue]
  cases bad : Json.firstBad (toTree m.heap v).numbers with
  | none =>
    have finite := Json.firstBad_eq_none.mp bad
    obtain ⟨text, encoded⟩ := (Json.encode_ok_iff _).mpr finite
    rw [encoded]
    refine .inl ⟨text, rfl, decode_encode_toTree (fun id _ => legal id) encoded,
      fun opened x remains => ?_⟩
    exact finite x ((mem_numbers_toTree legal).mpr ⟨opened, _, remains, rfl⟩)
  | some x =>
    have mem : x ∈ (toTree m.heap v).numbers := List.mem_of_find?_eq_some bad
    have notFinite : x.isFinite = false := by simpa using List.find?_some bad
    obtain ⟨opened, remains⟩ := remains_of_not_finite legal mem notFinite
    rw [Json.encode_error bad]
    exact .inr ⟨opened, x, remains, notFinite, rfl⟩

/-- A list that holds itself, and bytes that are no text. -/
theorem jsonEncode_decode_cycle :
    let s : Services Unit := ⟨fun _ _ _ => (.ok 0, ()), fun _ _ _ _ => (.ok (), ()),
      fun _ _ w => (.ok (), (), w)⟩
    let h : Heap := ⟨#[⟨[(.integer 1, .table 0), (.integer 2, .string [0xFF])], none⟩], #[], 0⟩
    let m : Machine Unit := ⟨h, [], [], [], [], [], (), .ofFiles ⟨[], []⟩ [] none⟩
    h.IsLegal ∧ Builtin.call s [.table 0] .jsonEncode m =
        (.ok [.ofText "[\"table: 0x10000\",\"\uFFFD\"]"], m) ∧
      Json.decode "[\"table: 0x10000\",\"\uFFFD\"]" = .ok (toTree h (.table 0)) := by
  intro s h m
  have legal : h.IsLegal := Heap.isLegal_of_integers (by decide)
  have text : encodeValue h (.table 0) = [.ofText "[\"table: 0x10000\",\"\uFFFD\"]"] := by
    decide +kernel
  have call : Builtin.call s [.table 0] .jsonEncode m = (.ok (encodeValue h (.table 0)), m) := rfl
  obtain ⟨results, call', outcome, -⟩ := jsonEncode_decode s [.table 0] m legal
  rw [call, text] at call'
  obtain rfl : [.ofText "[\"table: 0x10000\",\"\uFFFD\"]"] = results := by
    injection congrArg Prod.fst call'
  refine ⟨legal, call.trans (by rw [text]), ?_⟩
  rcases outcome with ⟨text', same, decoded, -⟩ | ⟨opened, x, -, -, same⟩
  · obtain rfl := Utf8.ofText_injective (Value.string.inj (List.singleton_inj.mp same))
    exact decoded
  · cases same

/-- What is no number comes up first, under the key 1, and is lost to the entry of the text. -/
theorem encodeValue_lost :
    let nan : Binary64 := ⟨0x7FF8000000000000⟩
    let h : Heap := ⟨#[⟨[(.integer 1, .float nan), (.ofText "1", .bool true)], none⟩], #[], 0⟩
    h.IsLegal ∧ encodeValue h (.table 0) = [.ofText "\x7b\"1\":true\x7d"] ∧
      ¬ ((∃ message, encodeValue h (.table 0) = [.nil, .ofText message]) ↔
        ∃ opened x, h.Occurs (.table 0) opened (.float x) ∧ x.isFinite = false) := by
  intro nan h
  have legal : (h.table 0).IsLegal := by
    refine ⟨by decide, fun key mem => ?_, by decide, by decide⟩
    rcases List.mem_cons.mp mem with rfl | mem
    · exact Value.isKey_integer 1
    · rw [List.mem_singleton.mp mem]
      exact Value.isKey_string _
  have text : encodeValue h (.table 0) = [.ofText "\x7b\"1\":true\x7d"] := by decide +kernel
  have free : ¬ IsCut [] 0 := not_or.mpr ⟨List.not_mem_nil, by decide⟩
  have entry : (.integer 1, .float nan) ∈ (h.table 0).entries := List.mem_cons_self
  refine ⟨Heap.isLegal_of_tables (List.forall_mem_cons.mpr ⟨legal, nofun⟩), text, fun same => ?_⟩
  obtain ⟨message, refused⟩ := same.mpr ⟨[0], nan, .entry .root free entry, by decide⟩
  rw [text] at refused
  cases refused

end ScriptServer.Script
