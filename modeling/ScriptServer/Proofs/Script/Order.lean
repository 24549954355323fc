import ScriptServer.Proofs.Script.Building
import ScriptServer.Proofs.Script.Synthesis

/-!
# The order in which a table is enumerated

Two interpreters may enumerate the same entries in different orders. A result is read by its keys,
but its table of headers is read as it is enumerated, so the response is the same for all orders
just if the headers with one name have one value (`synthesize_order`).
-/

namespace ScriptServer.Script

variable {h h' : Heap} {t t' : Table} {id id' : Nat} {key key' v : Value}
  {es es' : List (Value × Value)}

/-! ## Tables with the same contents -/

/-- The values are tables with the same entries in any order, or they are one value. -/
def Reordered (h h' : Heap) : Value → Value → Prop
  | .table id, .table id' => (h'.table id').entries.Perm (h.table id).entries
  | v, v' => v' = v

theorem Reordered.cases {v' : Value} (reordered : Reordered h h' v v') :
    (∃ id id', v = .table id ∧ v' = .table id' ∧
      (h'.table id').entries.Perm (h.table id).entries) ∨ v' = v ∧ ∀ id, v ≠ .table id := by
  cases v with
  | table id =>
    cases v' with
    | table id' => exact .inl ⟨id, id', rfl, rfl, reordered⟩
    | _ => cases reordered
  | _ => exact .inr ⟨reordered, fun _ => Value.noConfusion⟩

/-- Two results with the same contents. The tables of their headers may be enumerated in different
orders, and all else is the same. -/
structure SameContents (h : Heap) (t : Table) (h' : Heap) (t' : Table) : Prop where
  fields : ∀ key, key ≠ .ofText "headers" → t'.get key = t.get key
  headers : Reordered h h' (t.field "headers") (t'.field "headers")

theorem Table.IsLegal.get_of_perm (legal : t.IsLegal) (order : t'.entries.Perm t.entries)
    (key : Value) : t'.get key = t.get key := by
  have nodup : (t'.entries.map (·.1)).Nodup := (order.map _).nodup_iff.mpr legal.nodup
  have found : t'.entries.lookup key.asKey = t.entries.lookup key.asKey := by
    ext v
    exact (Table.lookup_eq_some nodup).trans
      (order.mem_iff.trans (Table.lookup_eq_some legal.nodup).symm)
  rw [Table.get, Table.get, found]

/-- An interpreter that enumerates every table in an order of its own sees the same contents. -/
theorem Table.IsLegal.sameContents (legal : t.IsLegal) (order : t'.entries.Perm t.entries)
    (tables : ∀ id, (h'.table id).entries.Perm (h.table id).entries) : SameContents h t h' t' := by
  refine ⟨fun key _ => legal.get_of_perm order key, ?_⟩
  have field : t'.field "headers" = t.field "headers" := legal.get_of_perm order _
  rw [field]
  cases t.field "headers" with
  | table id => exact tables id
  | _ => rfl

namespace SameContents

variable (same : SameContents h (h.table id) h' (h'.table id')) (serverName : String)
include same

theorem status_eq : (synthesize h' serverName (.table id')).status =
    (synthesize h serverName (.table id)).status :=
  congrArg clampStatus (same.fields (.ofText "status") (by decide))

theorem body_eq : (synthesize h' serverName (.table id')).body =
    (synthesize h serverName (.table id)).body := by
  have field : (h'.table id').field "body" = (h.table id).field "body" :=
    same.fields (.ofText "body") (by decide)
  unfold synthesize
  simp only [field]

theorem givenHeaders_perm : (givenHeaders h' (.table id')).Perm (givenHeaders h (.table id)) := by
  rcases same.headers.cases with ⟨extra, extra', before, after, order⟩ | ⟨eq, none⟩
  · rw [givenHeaders_table before, givenHeaders_table after]
    exact order.map headerOf
  · rw [givenHeaders_eq_nil none, givenHeaders_eq_nil fun extra => eq ▸ none extra]

theorem mem_headers_iff_of_agreeAt {name value : String}
    (agree : Dictionary.AgreeAt (givenHeaders h (.table id)) name) :
    (name, value) ∈ (synthesize h' serverName (.table id')).headers ↔
      (name, value) ∈ (synthesize h serverName (.table id)).headers := by
  have order := same.givenHeaders_perm
  have agree' : Dictionary.AgreeAt (givenHeaders h' (.table id')) name := agree.perm order
  rw [mem_headers_iff, mem_headers_iff,
    Dictionary.mem_ofList_of_agreeAt (e := (name, value)) agree',
    Dictionary.mem_ofList_of_agreeAt (e := (name, value)) agree, order.mem_iff,
    (order.map _).mem_iff]

theorem keys_eq : (synthesize h' serverName (.table id')).headers.keys =
    (synthesize h serverName (.table id)).headers.keys := by
  refine (ascending_synthesize _ _ _).keys_ext (ascending_synthesize _ _ _) fun name => ?_
  have order := (same.givenHeaders_perm.append_left (defaultPairs serverName)).map (·.1)
  rw [headers_synthesize, headers_synthesize, Dictionary.mem_keys_ofList,
    Dictionary.mem_keys_ofList, order.mem_iff]

theorem get?_eq_of_agreeAt {name : String}
    (agree : Dictionary.AgreeAt (givenHeaders h (.table id)) name) :
    (synthesize h' serverName (.table id')).headers.get? name =
      (synthesize h serverName (.table id)).headers.get? name := by
  ext value
  exact (ascending_synthesize _ _ _).mem_iff_get?.symm.trans
    ((same.mem_headers_iff_of_agreeAt serverName agree).trans
      (ascending_synthesize _ _ _).mem_iff_get?)

theorem synthesize_eq (agree : Dictionary.Agree (givenHeaders h (.table id))) :
    synthesize h' serverName (.table id') = synthesize h serverName (.table id) := by
  have headers : (synthesize h' serverName (.table id')).headers =
      (synthesize h serverName (.table id)).headers :=
    (ascending_synthesize _ _ _).ext (ascending_synthesize _ _ _) fun e =>
      same.mem_headers_iff_of_agreeAt serverName (agree.agreeAt e.1)
  have status := same.status_eq serverName
  have body := same.body_eq serverName
  generalize synthesize h' serverName (.table id') = r' at *
  generalize synthesize h serverName (.table id) = r at *
  cases r
  cases r'
  simp_all

end SameContents

/-! ## An order for each header -/

theorem lookup_put (es : List (Value × Value)) (key v key' : Value) :
    (Table.put key v es).lookup key' = if key' = key then some v else es.lookup key' := by
  induction es with
  | nil => simp only [Table.put, List.lookup_cons, List.lookup_nil]; grind
  | cons e es ih =>
    obtain ⟨k, w⟩ := e
    rw [Table.put]
    split
    · next eq =>
      obtain rfl : k = key := eq
      simp only [List.lookup_cons]
      grind
    · simp only [List.lookup_cons, ih]
      grind

theorem get_set (some : v ≠ .nil) (key' : Value) :
    (t.set key v).get key' = if key'.asKey = key.asKey then v else t.get key' := by
  unfold Table.set Table.get
  dsimp only
  rw [if_neg some, lookup_put]
  split <;> rfl

theorem asKey_eq_ofText {s : String} (eq : key.asKey = (Value.ofText s).asKey) :
    key = .ofText s := by
  cases key with
  | float x =>
    unfold Value.asKey at eq
    dsimp only at eq
    split at eq <;> cases eq
  | _ => exact eq

/-- Any header that is given is the one of its name in some order. -/
theorem exists_order {extra : Nat} {e : Value × Value} (serverName : String)
    (headers : (h.table id).field "headers" = .table extra) (mem : e ∈ (h.table extra).entries) :
    ∃ h' id', SameContents h (h.table id) h' (h'.table id') ∧
      headerOf e ∈ (synthesize h' serverName (.table id')).headers := by
  -- A table of headers with this entry last, and a result with this table of headers.
  let last : Table := ⟨(h.table extra).entries.erase e ++ [e], none⟩
  let result := (h.table id).set (.ofText "headers") (.table h.tables.size)
  let g := (h.addTable last).2
  let g' := (g.addTable result).2
  have atResult : g'.table g.tables.size = result := Heap.table_addTable_self g result
  have atLast : g'.table h.tables.size = last := by
    have bound : h.tables.size < g.tables.size := by
      rw [Heap.size_addTable]
      omega
    rw [(Heap.grows_addTable g result).table _ bound trivial]
    exact Heap.table_addTable_self h last
  have field : (g'.table g.tables.size).field "headers" = .table h.tables.size := by
    rw [atResult]
    exact get_set Value.noConfusion _
  refine ⟨g', g.tables.size, ⟨fun key ne => ?_, ?_⟩, ?_⟩
  · rw [atResult, get_set Value.noConfusion, if_neg fun eq => ne (asKey_eq_ofText eq)]
  · rw [headers, field]
    show (g'.table h.tables.size).entries.Perm (h.table extra).entries
    rw [atLast]
    exact (List.perm_append_singleton e _).trans (List.perm_cons_erase mem).symm
  · have given : givenHeaders g' (.table g.tables.size) =
        ((h.table extra).entries.erase e).map headerOf ++ [headerOf e] := by
      rw [givenHeaders_table field, atLast, List.map_append]
      rfl
    rw [headers_synthesize, given, ← List.append_assoc]
    exact Dictionary.mem_ofList_iff.mpr ⟨_, [], rfl, nofun⟩

/-- **Orders.** Results with the same contents have one status, one body and the same names of
headers, in whichever order their headers are enumerated, and one value for each name of which no
two headers with different values are given. All of the response is the same in all orders just if
that holds of every name. -/
theorem synthesize_order (h : Heap) (serverName : String) (id : Nat) :
    let r := synthesize h serverName (.table id)
    let given := givenHeaders h (.table id)
    (∀ h' id', SameContents h (h.table id) h' (h'.table id') →
      let r' := synthesize h' serverName (.table id')
      r'.status = r.status ∧ r'.body = r.body ∧ r'.headers.keys = r.headers.keys ∧
        ∀ name, Dictionary.AgreeAt given name → r'.headers.get? name = r.headers.get? name) ∧
    ((∀ h' id', SameContents h (h.table id) h' (h'.table id') →
        synthesize h' serverName (.table id') = r) ↔
      Dictionary.Agree given) := by
  intro r given
  refine ⟨fun h' id' same => ⟨same.status_eq _, same.body_eq _, same.keys_eq _,
    fun name => same.get?_eq_of_agreeAt _⟩, fun all => ?_, fun agree h' id' same =>
    same.synthesize_eq _ agree⟩
  -- Each given header is in the one response that all orders have.
  have kept : ∀ e ∈ given, e ∈ r.headers := by
    intro e mem
    by_cases headers : ∃ extra, (h.table id).field "headers" = .table extra
    · obtain ⟨extra, headers⟩ := headers
      change e ∈ givenHeaders h (.table id) at mem
      rw [givenHeaders_table headers] at mem
      obtain ⟨entry, entered, rfl⟩ := List.mem_map.mp mem
      obtain ⟨h', id', same, last⟩ := exists_order serverName headers entered
      rwa [all h' id' same] at last
    · have none : given = [] := givenHeaders_eq_nil fun extra eq => headers ⟨extra, eq⟩
      rw [none] at mem
      cases mem
  have ascending : r.headers.Ascending := ascending_synthesize h serverName (.table id)
  intro e mem e' mem' eq
  have found := ascending.mem_iff_get?.mp (kept e mem)
  have found' := ascending.mem_iff_get?.mp (kept e' mem')
  rw [← eq, found] at found'
  exact Option.some.inj found'

/-! ## Headers the other way round -/

/-- A result whose only field is its table of headers. -/
theorem isLegal_result : (⟨[(.ofText "headers", .table 0)], none⟩ : Table).IsLegal :=
  ⟨by decide, List.forall_mem_singleton.mpr (Value.isKey_string _), by decide, by decide⟩

theorem perm_reverse (entries : List (Value × Value)) (result : Table) (id : Nat) :
    ((⟨#[⟨entries.reverse, none⟩, result], #[], 0⟩ : Heap).table id).entries.Perm
      ((⟨#[⟨entries, none⟩, result], #[], 0⟩ : Heap).table id).entries := by
  rcases id with _ | id
  · exact List.reverse_perm entries
  · rcases id with _ | id <;> exact .refl _

/-- Two spellings of one name with one value, and another name. -/
theorem synthesize_order_spellings :
    let entries := [(Value.ofText "x-a", Value.integer 1), (.ofText "X-A", .ofText "1"),
      (.ofText "x-b", .integer 2)]
    let result : Table := ⟨[(.ofText "headers", .table 0)], none⟩
    let h : Heap := ⟨#[⟨entries, none⟩, result], #[], 0⟩
    let h' : Heap := ⟨#[⟨entries.reverse, none⟩, result], #[], 0⟩
    SameContents h (h.table 1) h' (h'.table 1) ∧
      Dictionary.Agree (givenHeaders h (.table 1)) ∧
      synthesize h' "lume" (.table 1) = synthesize h "lume" (.table 1) := by
  intro entries result h h'
  have same : SameContents h (h.table 1) h' (h'.table 1) :=
    isLegal_result.sameContents (.refl _) (perm_reverse entries result)
  have given : givenHeaders h (.table 1) = [("X-A", "1"), ("X-A", "1"), ("X-B", "2")] := by
    show entries.map headerOf = _
    simp only [entries, headerOf, List.map_cons, List.map_nil, Value.display_ofText]
    decide
  have agree : Dictionary.Agree (givenHeaders h (.table 1)) := by
    rw [given]
    decide
  exact ⟨same, agree, ((synthesize_order h "lume" 1).2.mpr agree) h' 1 same⟩

/-- Two floats that are shown alike are one name of a header, whose value is that of the later. -/
theorem response_varies :
    let entries := [(Value.float ⟨0x3fb999999999999a⟩, Value.ofText "a"),
      (.float ⟨0x3fb999999999999b⟩, .ofText "b")]
    let result : Table := ⟨[(.ofText "headers", .table 0)], none⟩
    let h : Heap := ⟨#[⟨entries, none⟩, result], #[], 0⟩
    let h' : Heap := ⟨#[⟨entries.reverse, none⟩, result], #[], 0⟩
    (h.table 0).IsLegal ∧ (h.table 1).IsLegal ∧
      (∀ id, (h'.table id).entries.Perm (h.table id).entries) ∧
      (synthesize h "lume" (.table 1)).headers.get? "0.1" = some "b" ∧
      (synthesize h' "lume" (.table 1)).headers.get? "0.1" = some "a" := by
  intro entries result h h'
  have shown : (Value.float ⟨0x3fb999999999999a⟩).display = "0.1" ∧
      (Value.float ⟨0x3fb999999999999b⟩).display = "0.1" := by decide +kernel
  have given : givenHeaders h (.table 1) = [("0.1", "a"), ("0.1", "b")] := by
    show entries.map headerOf = _
    simp only [entries, headerOf, List.map_cons, List.map_nil, Value.display_ofText, shown]
    decide
  have given' : givenHeaders h' (.table 1) = [("0.1", "b"), ("0.1", "a")] := by
    show entries.reverse.map headerOf = _
    simp only [entries, headerOf, List.reverse_cons, List.reverse_nil, List.nil_append,
      List.cons_append, List.map_cons, List.map_nil, Value.display_ofText, shown]
    decide
  have isKey (bits : UInt64) (asKey : (Value.float ⟨bits⟩).asKey = .float ⟨bits⟩)
      (number : Binary64.isNaN ⟨bits⟩ = false) : (Value.float ⟨bits⟩).IsKey :=
    ⟨Value.noConfusion, asKey, fun x eq => Value.float.inj eq ▸ number⟩
  refine ⟨⟨by decide, ?_, by decide, by decide⟩, isLegal_result, perm_reverse entries result, ?_,
    ?_⟩
  · refine List.forall_mem_cons.mpr ⟨isKey _ (by decide +kernel) (by decide), ?_⟩
    exact List.forall_mem_singleton.mpr (isKey _ (by decide +kernel) (by decide))
  · rw [headers_synthesize, given]
    decide
  · rw [headers_synthesize, given']
    decide

end ScriptServer.Script
