import ScriptServer.Proofs.Dictionary
import ScriptServer.Proofs.Number.Value
import ScriptServer.Proofs.Script.Shapes
import ScriptServer.Script.Synthesis

/-!
# Responses to results

The headers of a response are those of the pairs that the defaults and the result's table of headers
give one after the other (`headers_synthesize`), so what holds of dictionaries made of pairs holds
of them. A later header replaces an earlier one of its name, and so the response depends on the
order of the table just where two entries with one name have values that are shown differently.
-/

namespace ScriptServer.Script

variable {h h' : Heap} {t t' : Table} {id : Nat} {v : Value}

/-! ## The status -/

/-- The number that a value is, if it is a finite one. -/
def Value.number? : Value → Option ℚ
  | .integer i => some i.toInt
  | .float x => if x.isFinite then some x.value else none
  | _ => none

theorem statusOf_range (code : Int) : 100 ≤ statusOf code ∧ statusOf code ≤ 599 := by
  unfold statusOf defaultStatus
  split <;> omega

theorem statusOf_eq {code : Int} (inside : 100 ≤ code ∧ code ≤ 599) :
    (statusOf code : Int) = code := by
  unfold statusOf
  split <;> omega

theorem statusOf_outside {code : Int} (outside : ¬ (100 ≤ code ∧ code ≤ 599)) :
    statusOf code = 200 := by
  unfold statusOf
  rw [if_neg (by omega)]
  rfl

/-- The status is that of the number without its fraction. -/
theorem clampStatus_eq (v : Value) :
    clampStatus v = (v.number?.map fun q => statusOf (wholePart q)).getD defaultStatus := by
  cases v with
  | integer i =>
    show statusOf i.toInt = statusOf (wholePart i.toInt)
    rw [wholePart_intCast]
  | float x =>
    unfold clampStatus Value.number?
    dsimp only
    split
    · show statusOf x.truncate = statusOf (wholePart x.value)
      rw [Binary64.truncate_eq]
    · rfl
  | _ => rfl

theorem clampStatus_range (v : Value) : 100 ≤ clampStatus v ∧ clampStatus v ≤ 599 := by
  rw [clampStatus_eq]
  cases v.number? with
  | none => decide
  | some q => exact statusOf_range _

theorem clampStatus_inside {q : ℚ} (number : v.number? = some q)
    (inside : 100 ≤ wholePart q ∧ wholePart q ≤ 599) : (clampStatus v : ℤ) = wholePart q := by
  rw [clampStatus_eq, number]
  exact statusOf_eq inside

theorem clampStatus_outside
    (outside : ∀ q, v.number? = some q → ¬ (100 ≤ wholePart q ∧ wholePart q ≤ 599)) :
    clampStatus v = 200 := by
  rw [clampStatus_eq]
  cases number : v.number? with
  | none => rfl
  | some q => exact statusOf_outside (outside q number)

/-! ## The headers -/

theorem Value.display_ofText (s : String) : (Value.ofText s).display = s := by
  rw [ofText, display, Utf8.ofText, Utf8.toTextLossy_ofChars, String.ofList_toList]

def defaultPairs (serverName : String) : List (String × String) :=
  [("Content-Type", defaultContentType), ("Server", serverName)]

/-- The header that an entry of a table of headers gives. -/
def headerOf (e : Value × Value) : String × String := (Http.canonical e.1.display, e.2.display)

/-- The headers that a result gives, in the order of the entries. -/
def givenHeaders (h : Heap) : Value → List (String × String)
  | .table id =>
    match (h.table id).field "headers" with
    | .table extra => (h.table extra).entries.map headerOf
    | _ => []
  | _ => []

theorem givenHeaders_table {extra : Nat} (headers : (h.table id).field "headers" = .table extra) :
    givenHeaders h (.table id) = (h.table extra).entries.map headerOf := by
  unfold givenHeaders
  dsimp only
  rw [headers]

theorem givenHeaders_eq_nil (none : ∀ extra, (h.table id).field "headers" ≠ .table extra) :
    givenHeaders h (.table id) = [] := by
  unfold givenHeaders
  dsimp only
  split
  · next extra headers => exact absurd headers (none extra)
  · rfl

theorem mergeHeaders_eq (entries : List (Value × Value)) (pairs : List (String × String)) :
    mergeHeaders entries (Dictionary.ofList pairs) =
      Dictionary.ofList (pairs ++ entries.map headerOf) := by
  unfold mergeHeaders Dictionary.ofList
  rw [List.foldl_append, List.foldl_map]
  rfl

theorem headers_synthesize (h : Heap) (serverName : String) (v : Value) :
    (synthesize h serverName v).headers =
      Dictionary.ofList (defaultPairs serverName ++ givenHeaders h v) := by
  unfold synthesize givenHeaders
  cases v with
  | table id =>
    dsimp only
    cases (h.table id).field "headers" with
    | table extra => exact mergeHeaders_eq _ _
    | _ => rfl
  | _ => rfl

/-- Headers come in the order of their names. -/
theorem ascending_synthesize (h : Heap) (serverName : String) (v : Value) :
    (synthesize h serverName v).headers.Ascending := by
  rw [headers_synthesize]
  exact Dictionary.ascending_ofList _

/-- A script can replace the content type and cannot remove it. -/
theorem contentType_mem_synthesize (h : Heap) (serverName : String) (v : Value) :
    "Content-Type" ∈ Dictionary.keys (synthesize h serverName v).headers := by
  rw [headers_synthesize, Dictionary.mem_keys_ofList]
  exact List.mem_cons_self

theorem defaultHeaders_eq (serverName : String) :
    Dictionary.ofList (defaultPairs serverName) = defaultPairs serverName := by
  apply Dictionary.ofList_of_ascending
  refine List.pairwise_cons.mpr ⟨fun e mem => ?_, List.pairwise_singleton _ _⟩
  rw [List.mem_singleton.mp mem]
  show "Content-Type" < "Server"
  decide

/-- A header is given, or it is a default one and none with its name is given. -/
theorem mem_headers_iff {serverName name value : String} :
    (name, value) ∈ (synthesize h serverName v).headers ↔
      (name, value) ∈ Dictionary.ofList (givenHeaders h v) ∨
        (name, value) ∈ defaultPairs serverName ∧ name ∉ (givenHeaders h v).map (·.1) := by
  rw [headers_synthesize, Dictionary.mem_ofList_append, defaultHeaders_eq]

/-- Where the names are distinct, each entry gives its header. -/
theorem mem_headers_of_nodup {serverName name value : String} {extra : Nat}
    (headers : (h.table id).field "headers" = .table extra)
    (distinct : ((h.table extra).keys.map fun key => Http.canonical key.display).Nodup) :
    (name, value) ∈ (synthesize h serverName (.table id)).headers ↔
      (∃ e ∈ (h.table extra).entries, name = Http.canonical e.1.display ∧ value = e.2.display) ∨
        (name, value) ∈ defaultPairs serverName ∧
          ∀ key ∈ (h.table extra).keys, Http.canonical key.display ≠ name := by
  have names : ((h.table extra).entries.map headerOf).map (·.1) =
      (h.table extra).keys.map fun key => Http.canonical key.display := by
    rw [Table.keys, List.map_map, List.map_map]
    rfl
  have agree := (Dictionary.agree_of_nodup (names ▸ distinct)).agreeAt name
  rw [mem_headers_iff, givenHeaders_table headers, names, List.mem_map,
    Dictionary.mem_ofList_of_agreeAt (e := (name, value)) agree, List.mem_map]
  simp only [headerOf, Prod.mk.injEq, not_exists, not_and, eq_comm, ne_eq]

/-! ## Responses -/

theorem synthesize_of_ne_table (other : ∀ id, v ≠ .table id) (serverName : String) :
    synthesize h serverName v = ⟨200, defaultPairs serverName, v.display⟩ := by
  cases v with
  | table id => exact absurd rfl (other id)
  | _ => exact congrArg (Synthesis.mk 200 · _) (defaultHeaders_eq serverName)

theorem status_range (h : Heap) (serverName : String) (v : Value) :
    100 ≤ (synthesize h serverName v).status ∧ (synthesize h serverName v).status ≤ 599 := by
  cases v with
  | table id => exact clampStatus_range _
  | _ => exact statusOf_range 200

/-- Metatables are not looked at. -/
theorem synthesize_of_entries (same : ∀ id, (h'.table id).entries = (h.table id).entries)
    (serverName : String) (v : Value) : synthesize h' serverName v = synthesize h serverName v := by
  have field (id : Nat) (name : String) : (h'.table id).field name = (h.table id).field name := by
    rw [Table.field, Table.get, same]
    rfl
  cases v with
  | table id =>
    unfold synthesize
    simp only [field, same]
  | _ => rfl

/-- **Responses.** The status lies between 100 and 599: it is the status of the table without its
fraction if that lies there, and 200 otherwise. A value that is no table is the body, with the
default headers. So are the headers of a table that has no table of headers. In a table of headers
whose names are distinct each entry gives its header, and a default one stays if its name is not
given. Metatables are not looked at. -/
theorem synthesize_exact (h : Heap) (serverName : String) (v : Value) :
    let r := synthesize h serverName v
    let defaults := [("Content-Type", "text/html;charset=UTF-8"), ("Server", serverName)]
    (100 ≤ r.status ∧ r.status ≤ 599) ∧
      ((∀ id, v ≠ .table id) → r = ⟨200, defaults, v.display⟩) ∧
      (∀ id, v = .table id →
        let t := h.table id
        (∀ q, (t.field "status").number? = some q → 100 ≤ wholePart q ∧ wholePart q ≤ 599 →
          (r.status : ℤ) = wholePart q) ∧
        ((∀ q, (t.field "status").number? = some q → ¬ (100 ≤ wholePart q ∧ wholePart q ≤ 599)) →
          r.status = 200) ∧
        r.body = (if t.field "body" = .nil then "" else (t.field "body").display) ∧
        ((∀ extra, t.field "headers" ≠ .table extra) → r.headers = defaults) ∧
        ∀ extra, t.field "headers" = .table extra →
          ((h.table extra).keys.map fun key => Http.canonical key.display).Nodup →
          r.headers.Ascending ∧ ∀ name value, (name, value) ∈ r.headers ↔
            (∃ e ∈ (h.table extra).entries,
              name = Http.canonical e.1.display ∧ value = e.2.display) ∨
            (name, value) ∈ defaults ∧
              ∀ key ∈ (h.table extra).keys, Http.canonical key.display ≠ name) ∧
      ∀ h' : Heap, (∀ id, (h'.table id).entries = (h.table id).entries) →
        synthesize h' serverName v = r := by
  intro r defaults
  refine ⟨status_range h serverName v, fun other => synthesize_of_ne_table other serverName, ?_,
    fun h' same => synthesize_of_entries same serverName v⟩
  rintro id rfl
  refine ⟨fun q => clampStatus_inside, clampStatus_outside, ?_, fun none => ?_,
    fun extra headers distinct => ⟨ascending_synthesize _ _ _, fun name value => ?_⟩⟩
  · show (synthesize h serverName (.table id)).body = _
    unfold synthesize
    dsimp only
    cases (h.table id).field "body" <;> rfl
  · show (synthesize h serverName (.table id)).headers = defaults
    rw [headers_synthesize, givenHeaders_eq_nil none, List.append_nil]
    exact defaultHeaders_eq serverName
  · exact mem_headers_of_nodup headers distinct

/-- A fraction in the status, a content type of the script, and a header named by a number. -/
theorem synthesize_exact_fraction :
    let headers : Table :=
      ⟨[(.ofText "content-type", .ofText "text/plain"), (.integer 7, .bool true)], some 1⟩
    let result : Table :=
      ⟨[(.ofText "status", .float ⟨0x40794e6666666666⟩), (.ofText "headers", .table 0)], some 1⟩
    let h : Heap := ⟨#[headers, result], #[], 0⟩
    let r := synthesize h "lume" (.table 1)
    (∃ q, (result.field "status").number? = some q ∧ wholePart q = 404) ∧
      result.field "headers" = .table 0 ∧
      (headers.keys.map fun key => Http.canonical key.display).Nodup ∧
      r.status = 404 ∧ r.body = "" ∧ ("Content-Type", "text/plain") ∈ r.headers ∧
      ("7", "true") ∈ r.headers ∧ ("Server", "lume") ∈ r.headers := by
  intro headers result h r
  have number : (result.field "status").number? = some (Binary64.value ⟨0x40794e6666666666⟩) := rfl
  have whole : wholePart (Binary64.value ⟨0x40794e6666666666⟩) = 404 := by
    rw [← Binary64.truncate_eq]
    decide +kernel
  have names :
      (headers.keys.map fun key => Http.canonical key.display) = ["Content-Type", "7"] := by
    simp only [headers, Table.keys, List.map_cons, List.map_nil, Value.display_ofText]
    decide
  have distinct : (headers.keys.map fun key => Http.canonical key.display).Nodup := by
    rw [names]
    decide
  have given : result.field "headers" = .table 0 := rfl
  obtain ⟨-, -, table, -⟩ := synthesize_exact h "lume" (.table 1)
  obtain ⟨inside, -, body, -, mem⟩ := table 1 rfl
  obtain ⟨-, mem⟩ := mem 0 given distinct
  refine ⟨⟨_, number, whole⟩, given, distinct, ?_, body, ?_, ?_, ?_⟩
  · have status := inside _ number (by rw [whole]; decide)
    rw [whole] at status
    exact_mod_cast status
  · refine (mem _ _).mpr (.inl ⟨_, List.mem_cons_self, ?_, ?_⟩)
    · show "Content-Type" = Http.canonical (Value.ofText "content-type").display
      rw [Value.display_ofText]
      decide
    · exact (Value.display_ofText "text/plain").symm
  · exact (mem _ _).mpr (.inl ⟨_, List.mem_cons_of_mem _ List.mem_cons_self, by decide, rfl⟩)
  · refine (mem _ _).mpr (.inr ⟨List.mem_cons_of_mem _ List.mem_cons_self, fun key given eq => ?_⟩)
    have name := List.mem_map_of_mem (f := fun key => Http.canonical key.display) given
    change _ ∈ headers.keys.map _ at name
    rw [names, eq] at name
    exact absurd name (by decide)

end ScriptServer.Script
