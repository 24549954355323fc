import ScriptServer.Proofs.Number.Literal
import ScriptServer.Proofs.Script.Encoding
import ScriptServer.Proofs.Text.Split

/-!
# The members of an object

A key that is no string can be read back from its text (`ofKeyText_keyText`), so no two such keys
have one text. Strings can: one that spells the text of another key, and strings that are no text
but are read alike (`Clashes`). An object has a member for each text, so it has fewer members than
the table has entries just if keys of it clash.
-/

namespace ScriptServer.Script

namespace Value

/-! ## Reading a name back -/

def ofAddress (n : Nat) : Value :=
  let id := (n - 0x10000) / 192
  if (n - 0x10000) % 192 = 0 then .table id
  else if (n - 0x10000) % 192 = 64 then .function id
  else .thread id

def ofKeyText (s : String) : Value :=
  match Text.integer? integerBound s.toList with
  | some i => .integer (.ofInt i)
  | none =>
    match Binary64.ofLiteral? s.toList with
    | some x => .float x
    | none =>
      match Text.splitOnce ':' s.toList with
      | some (_, address) => ofAddress (Json.hexValue (address.drop 3))
      | none =>
        if s = "true" then .bool true
        else if s = "false" then .bool false
        else .float (.ofPattern (decide (s = "-inf")) Binary64.infinity)

variable {k k' : Value} {x : Binary64} {id : Nat}

theorem ofKeyText_of_integer {cs : List Char} {i : Int}
    (h : Text.integer? integerBound cs = some i) :
    ofKeyText (String.ofList cs) = .integer (.ofInt i) := by
  rw [ofKeyText, String.toList_ofList, h]

theorem ofKeyText_integer (i : Int64) : ofKeyText (integer i).keyText = integer i := by
  have low := i.le_toInt
  have high := i.toInt_lt
  have read : Text.integer? integerBound (integerText i.toInt) = some i.toInt := by
    unfold integerText
    split
    · next negative =>
      have value : -(i.toInt.natAbs : Int) = i.toInt := by omega
      have small : i.toInt.natAbs ≤ integerBound := by rw [integerBound]; omega
      rw [List.singleton_append, Text.integer?_minus_decimal small, value]
    · next positive =>
      have value : (i.toInt.natAbs : Int) = i.toInt := by omega
      have small : i.toInt.natAbs < integerBound := by rw [integerBound]; omega
      rw [List.nil_append, Text.integer?_decimal small, value]
  rw [keyText, ofKeyText_of_integer read, Int64.ofInt_toInt]

/-! ### Floats -/

theorem ofLiteral?_shortest (finite : x.isFinite = true) :
    Binary64.ofLiteral? x.shortest = some x := by
  obtain ⟨l, wellFormed, text, value⟩ := Json.shortest_literal finite
  rw [← text, Json.ofLiteral?_text wellFormed, value]

theorem exactInteger?_ne_none (whole : x.isIntegral = true)
    (below : x.absBelow safeInteger = true) : exactInteger? x ≠ none := by
  have small : x.truncate.natAbs < 2 ^ 53 := by
    rw [Binary64.natAbs_truncate]
    refine Nat.div_lt_of_lt_mul ?_
    rwa [Binary64.absBelow, decide_eq_true_eq, Nat.mul_comm, safeInteger] at below
  have inside : -(integerBound : Int) ≤ x.truncate ∧ x.truncate < integerBound := by
    rw [integerBound]
    omega
  rw [exactInteger?, if_pos whole]
  dsimp only
  rw [if_pos inside]
  exact Option.some_ne_none _

/-- Of the whole floats up to `2 ^ 63` in absolute value only `2 ^ 63` itself is no integer of 64
bits. -/
theorem eq_beyond (none : exactInteger? x = none) (finite : x.isFinite = true)
    (whole : Binary64.one ∣ x.units) (small : x.units ≤ 2 ^ 63 * Binary64.one) :
    x = .ofPattern false (0x43E <<< 52) := by
  have integral : x.isIntegral = true := by
    rw [Binary64.isIntegral, finite, Nat.mod_eq_zero_of_dvd whole]
    rfl
  have abs : x.truncate.natAbs ≤ 2 ^ 63 := by
    rw [Binary64.natAbs_truncate]
    exact Nat.div_le_of_le_mul (by rwa [Nat.mul_comm])
  have outside : ¬ (-(integerBound : Int) ≤ x.truncate ∧ x.truncate < integerBound) := by
    intro inside
    rw [exactInteger?, if_pos integral] at none
    dsimp only at none
    rw [if_pos inside] at none
    cases none
  have value : x.truncate = 2 ^ 63 := by
    rw [integerBound] at outside
    omega
  have units := Binary64.signedUnits_of_isIntegral integral
  rw [value, Binary64.signedUnits] at units
  have pos : (0 : Int) < Binary64.one := by exact_mod_cast Binary64.one_pos
  cases sign : x.negative with
  | true =>
    rw [sign, if_pos rfl] at units
    omega
  | false =>
    rw [sign, if_neg Bool.false_ne_true] at units
    have same : Binary64.unitsOf x.pattern = Binary64.unitsOf (0x43E <<< 52) := by
      rw [Binary64.unitsOf_beyond]
      exact_mod_cast units
    rw [← Binary64.ofPattern_self x, sign, Binary64.unitsOf_strictMono.injective same]

theorem integer?_shortest (none : exactInteger? x = none) (finite : x.isFinite = true) :
    Text.integer? integerBound x.shortest = Option.none := by
  cases read : Text.integer? integerBound x.shortest with
  | none => rfl
  | some i =>
    obtain ⟨small, minus, literal⟩ := Binary64.ofLiteral?_of_integer? read
    rw [ofLiteral?_shortest finite] at literal
    have same := Option.some.inj literal
    obtain ⟨whole, bound⟩ := Binary64.ofDecimal_integer minus small
    rw [← same] at whole bound
    rw [eq_beyond none finite whole bound] at read
    -- The fewest digits that read back to `2 ^ 63` are those of a greater integer.
    have text : Text.integer? integerBound
        (Binary64.ofPattern false (0x43E <<< 52)).shortest = Option.none := by decide +kernel
    rw [text] at read
    cases read

theorem ofKeyText_finite (finite : x.isFinite = true) (none : exactInteger? x = none) :
    (float x).keyText = String.ofList x.shortest ∧
      ofKeyText (String.ofList x.shortest) = float x := by
  have bound : x.pattern < Binary64.infinity := Binary64.isFinite_iff.mp finite
  have number : ¬ x.isNaN = true := by
    rw [Binary64.isNaN, decide_eq_true_eq]
    exact Nat.not_lt.mpr bound.le
  have finite' : ¬ x.isInfinite = true := by
    rw [Binary64.isInfinite, decide_eq_true_eq]
    exact bound.ne
  have large : ¬ (x.isIntegral && x.absBelow safeInteger) = true := by
    intro both
    rw [Bool.and_eq_true] at both
    exact exactInteger?_ne_none both.1 both.2 none
  constructor
  · rw [keyText, floatKey, if_neg number, if_neg finite', if_neg large]
  · rw [ofKeyText, String.toList_ofList, integer?_shortest none finite,
      ofLiteral?_shortest finite]

theorem ofKeyText_infinite (negative : Bool) :
    ofKeyText (float (.ofPattern negative Binary64.infinity)).keyText =
      float (.ofPattern negative Binary64.infinity) := by
  cases negative <;> decide +kernel

/-- A float that is a key is infinite, or finite and not an integer of 64 bits. -/
theorem IsKey.float_cases (isKey : (float x).IsKey) :
    (∃ negative, x = .ofPattern negative Binary64.infinity) ∨
      x.isFinite = true ∧ exactInteger? x = none := by
  have number := isKey.isNumber x rfl
  rw [Binary64.isNaN, decide_eq_false_iff_not, Nat.not_lt] at number
  rcases Nat.eq_or_lt_of_le number with infinite | finite
  · exact .inl ⟨x.negative, by rw [← infinite, Binary64.ofPattern_self]⟩
  refine .inr ⟨Binary64.isFinite_iff.mpr finite, ?_⟩
  have asKey := isKey.asKey
  rw [Value.asKey] at asKey
  cases exact' : exactInteger? x with
  | none => rfl
  | some i =>
    rw [exact'] at asKey
    cases asKey

theorem isKey_float (none : exactInteger? x = none) (number : x.isNaN = false) :
    (float x).IsKey := by
  refine ⟨Value.noConfusion, ?_, fun y eq => ?_⟩
  · rw [asKey, none]
  · rw [← float.inj eq, number]

/-! ### Objects -/

theorem ofAddress_table (id : Nat) : ofAddress (table id).address = table id := by
  have place : ((table id).address - 0x10000) % 192 = 0 := by rw [address]; omega
  have number : ((table id).address - 0x10000) / 192 = id := by rw [address]; omega
  rw [ofAddress, number, if_pos place]

theorem ofAddress_function (id : Nat) : ofAddress (function id).address = function id := by
  have place : ((function id).address - 0x10000) % 192 = 64 := by rw [address]; omega
  have number : ((function id).address - 0x10000) / 192 = id := by rw [address]; omega
  rw [ofAddress, number, place]
  rfl

theorem ofAddress_thread (id : Nat) : ofAddress (thread id).address = thread id := by
  have place : ((thread id).address - 0x10000) % 192 = 128 := by rw [address]; omega
  have number : ((thread id).address - 0x10000) / 192 = id := by rw [address]; omega
  rw [ofAddress, number, place]
  rfl

/-- The kinds of objects, which have no text but their addresses. -/
def objectKinds : List String := ["table", "function", "thread"]

theorem ofKeyText_opaqueText (object : k.kind ∈ objectKinds) :
    ofKeyText k.opaqueText = ofAddress k.address := by
  have kinds : ∀ kind ∈ objectKinds,
      kind.toList ≠ [] ∧ ':' ∉ kind.toList ∧ kind.toList.all Text.isLower = true := by decide
  obtain ⟨some, colon, letters⟩ := kinds _ object
  obtain ⟨c, cs, kind⟩ := List.exists_cons_of_ne_nil some
  have text : k.opaqueText.toList =
      k.kind.toList ++ ':' :: (" 0x".toList ++ Text.hexadecimal 1 k.address) := by
    simp [opaqueText]
  have none : Binary64.ofLiteral? k.opaqueText.toList = none := by
    rw [kind, List.all_cons, Bool.and_eq_true] at letters
    rw [text, kind]
    exact Binary64.ofLiteral?_eq_none letters.1
  have whole : Text.integer? integerBound k.opaqueText.toList = Option.none := by
    cases read : Text.integer? integerBound k.opaqueText.toList with
    | none => rfl
    | some i =>
      obtain ⟨-, minus, literal⟩ := Binary64.ofLiteral?_of_integer? read
      rw [none] at literal
      cases literal
  rw [ofKeyText, whole, none, text, Text.splitOnce_append colon]
  change ofAddress (Json.hexValue (Text.hexadecimal 1 k.address)) = _
  rw [Json.hexValue_hexadecimal]

/-- The text of a key that is no string is read back as the key. -/
theorem ofKeyText_keyText (isKey : k.IsKey) (notString : ∀ bs, k ≠ string bs) :
    ofKeyText k.keyText = k := by
  cases k with
  | nil => exact absurd rfl isKey.ne_nil
  | bool b => cases b <;> decide +kernel
  | integer i => exact ofKeyText_integer i
  | float x =>
    rcases isKey.float_cases with ⟨negative, rfl⟩ | ⟨finite, none⟩
    · exact ofKeyText_infinite negative
    · obtain ⟨text, read⟩ := ofKeyText_finite finite none
      rw [text, read]
  | string bs => exact absurd rfl (notString bs)
  | table id => exact (ofKeyText_opaqueText (.head _)).trans (ofAddress_table id)
  | function id => exact (ofKeyText_opaqueText (.tail _ (.head _))).trans (ofAddress_function id)
  | thread id =>
    exact (ofKeyText_opaqueText (.tail _ (.tail _ (.head _)))).trans (ofAddress_thread id)

/-! ## Strings as keys -/

/-- A list of characters is checked to be ASCII one by one. -/
theorem ascii_of_all {cs : List Char} (h : (cs.all fun c => decide (c.toNat < 0x80)) = true) :
    ∀ c ∈ cs, c.toNat < 0x80 :=
  fun c mem => of_decide_eq_true (List.all_eq_true.mp h c mem)

theorem ascii_opaqueText (object : k.kind ∈ objectKinds) :
    ∀ c ∈ k.opaqueText.toList, c.toNat < 0x80 := by
  have kinds : ∀ kind ∈ objectKinds,
      (kind.toList.all fun c => decide (c.toNat < 0x80)) = true := by decide
  have digit : ∀ d < 16, d.digitChar.toNat < 0x80 := by decide
  intro c mem
  simp only [opaqueText, String.toList_append, String.toList_ofList, List.mem_append] at mem
  rcases mem with (mem | mem) | mem
  · exact ascii_of_all (kinds _ object) c mem
  · exact ascii_of_all (by decide) c mem
  · obtain ⟨d, small, rfl⟩ := Text.digitChar_of_mem_hexadecimal mem
    exact digit d small

/-- The text of a key that is no string is ASCII. -/
theorem ascii_keyText (isKey : k.IsKey) (notString : ∀ bs, k ≠ string bs) :
    ∀ c ∈ k.keyText.toList, c.toNat < 0x80 := by
  cases k with
  | nil => exact absurd rfl isKey.ne_nil
  | bool b => cases b <;> exact ascii_of_all (by decide)
  | integer i =>
    intro c mem
    rw [keyText, String.toList_ofList, integerText, List.mem_append] at mem
    rcases mem with sign | digit
    · split at sign
      · rw [List.mem_singleton.mp sign]
        decide
      · cases sign
    · have := Text.isDigit_iff.mp ((Text.isNumeral_decimal _).2 c digit)
      omega
  | float x =>
    rcases isKey.float_cases with ⟨negative, rfl⟩ | ⟨finite, none⟩
    · cases negative <;> exact ascii_of_all (by decide +kernel)
    · obtain ⟨l, wellFormed, text, -⟩ := Json.shortest_literal finite
      rw [(ofKeyText_finite finite none).1, String.toList_ofList, ← text]
      exact Json.ascii_text wellFormed
  | string bs => exact absurd rfl (notString bs)
  | table id => exact ascii_opaqueText (.head _)
  | function id => exact ascii_opaqueText (.tail _ (.head _))
  | thread id => exact ascii_opaqueText (.tail _ (.tail _ (.head _)))

def isMalformed : Value → Bool
  | string bs => (Utf8.toText? bs).isNone
  | _ => false

theorem text_or_malformed (k : Value) :
    (∃ s, k = ofText s) ∨ k.isMalformed = true ∨ ∀ bs, k ≠ string bs := by
  cases k with
  | string bs =>
    cases text : Utf8.toText? bs with
    | none => exact .inr (.inl (by rw [isMalformed, text]; rfl))
    | some s => exact .inl ⟨s, congrArg string (Utf8.toText?_eq_some.mp text)⟩
  | _ => exact .inr (.inr nofun)

theorem replacement_mem_of_malformed (malformed : k.isMalformed = true) :
    '\uFFFD' ∈ k.keyText.toList := by
  cases k with
  | string bs =>
    by_contra readable
    have text := (Utf8.toTextLossy_eq_iff readable).mp rfl
    rw [isMalformed, Utf8.toText?_eq_some.mpr text] at malformed
    cases malformed
  | _ => cases malformed

/-- Two keys have one text though they differ: one is a string that spells the text of the other, or
both are strings that are no text and are read alike. -/
def Clashes (k k' : Value) : Prop :=
  k ≠ k' ∧ (k = ofText k'.keyText ∨ k' = ofText k.keyText ∨
    k.isMalformed = true ∧ k'.isMalformed = true ∧ k.keyText = k'.keyText)

instance (k k' : Value) : Decidable (k.Clashes k') := inferInstanceAs (Decidable (_ ∧ _))

theorem keyText_ne_of_malformed (isKey : k.IsKey) (notString : ∀ bs, k ≠ string bs)
    (malformed : k'.isMalformed = true) : k'.keyText ≠ k.keyText := by
  intro eq
  have mem := replacement_mem_of_malformed malformed
  rw [eq] at mem
  exact absurd (ascii_keyText isKey notString _ mem) (by decide)

/-- Keys have one text just if they are one key or clash. -/
theorem keyText_eq_iff (isKey : k.IsKey) (isKey' : k'.IsKey) :
    k.keyText = k'.keyText ↔ k = k' ∨ k.Clashes k' := by
  constructor
  · intro eq
    refine or_iff_not_imp_left.mpr fun ne => ⟨ne, ?_⟩
    have spelled {s : String} {k : Value} (eq : (ofText s).keyText = k.keyText) :
        ofText s = ofText k.keyText := by
      rw [← eq, keyText_ofText]
    rcases k.text_or_malformed with ⟨s, rfl⟩ | malformed | notString
    · exact .inl (spelled eq)
    · rcases k'.text_or_malformed with ⟨s, rfl⟩ | malformed' | notString'
      · exact .inr (.inl (spelled eq.symm))
      · exact .inr (.inr ⟨malformed, malformed', eq⟩)
      · exact absurd eq (keyText_ne_of_malformed isKey' notString' malformed)
    · rcases k'.text_or_malformed with ⟨s, rfl⟩ | malformed' | notString'
      · exact .inr (.inl (spelled eq.symm))
      · exact absurd eq.symm (keyText_ne_of_malformed isKey notString malformed')
      · rw [← ofKeyText_keyText isKey notString, eq, ofKeyText_keyText isKey' notString'] at ne
        exact absurd rfl ne
  · rintro (rfl | ⟨-, spelled | spelled | ⟨-, -, eq⟩⟩)
    · rfl
    · rw [spelled, keyText_ofText]
    · rw [spelled, keyText_ofText]
    · exact eq

example : Clashes (.integer 1) (ofText "1") ∧ ¬ Clashes (.integer 1) (ofText "1.0") := by
  decide +kernel

end Value

/-! ## The members -/

namespace Table

variable {t : Table} {e : Value × Value}

theorem nodup_names_iff (legal : t.IsLegal) :
    (t.keys.map Value.keyText).Nodup ↔ ∀ k ∈ t.keys, ∀ k' ∈ t.keys, ¬ k.Clashes k' := by
  rw [List.nodup_map_iff_inj_on legal.nodup]
  refine forall₂_congr fun k mem => forall₂_congr fun k' mem' => ?_
  rw [Value.keyText_eq_iff (legal.isKey k mem) (legal.isKey k' mem')]
  constructor
  · exact fun same clash => clash.1 (same (.inr clash))
  · exact fun apart either => either.resolve_right apart

/-- An entry whose key clashes with no other is kept. -/
theorem keeps_of_not_clashes (legal : t.IsLegal) (mem : e ∈ t.entries)
    (apart : ∀ k ∈ t.keys, ¬ e.1.Clashes k) : t.Keeps e := by
  obtain ⟨front, back, split⟩ := List.append_of_mem mem
  refine ⟨front, back, split, fun later behind eq => ?_⟩
  have nodup := legal.nodup
  rw [keys, split, List.map_append, List.map_cons] at nodup
  have mem' : later ∈ t.entries := by
    rw [split]
    exact List.mem_append_right _ (List.mem_cons_of_mem _ behind)
  have isKey := legal.isKey _ (mem_keys_of_mem mem)
  have isKey' := legal.isKey _ (mem_keys_of_mem mem')
  rcases (Value.keyText_eq_iff isKey isKey').mp eq.symm with same | clash
  · refine (List.nodup_cons.mp (List.nodup_append.mp nodup).2.1).1 ?_
    rw [same]
    exact List.mem_map_of_mem behind
  · exact apart _ (mem_keys_of_mem mem') clash

end Table

theorem unfold_open {h : Heap} {room id : Nat} {opened : List Nat} (free : id ∉ opened)
    (object : (h.table id).shape = .object) :
    unfold h (room + 1) opened (.table id) =
      .object (Dictionary.ofList ((h.table id).entries.map fun e =>
        (e.1.keyText, unfold h room (id :: opened) e.2))) := by
  have absent : ¬ opened.contains id = true := fun mem => free (List.contains_iff_mem.mp mem)
  rw [unfold, if_neg absent]
  dsimp only
  rw [object]

/-- **Objects.** Let a table be unfolded that is no sequence and not open already. Its object has
one member for each text of a key, in ascending order: the last entry with such a key, under the
text and with the tree of its value. So no key is without a member, and an entry can only be lost to
one whose key clashes with its own. There is a member for each entry just if no keys clash. -/
theorem unfold_object {h : Heap} {room id : Nat} {opened : List Nat}
    (legal : (h.table id).IsLegal) (free : id ∉ opened) (object : (h.table id).shape = .object) :
    ∃ members, unfold h (room + 1) opened (.table id) = .object members ∧
      Dictionary.Ascending members ∧
      (∀ m, m ∈ members ↔
        ∃ e, (h.table id).Keeps e ∧ m = (e.1.keyText, unfold h room (id :: opened) e.2)) ∧
      (∀ k ∈ (h.table id).keys, k.keyText ∈ Dictionary.keys members) ∧
      (∀ e ∈ (h.table id).entries, (∀ k ∈ (h.table id).keys, ¬ e.1.Clashes k) →
        (e.1.keyText, unfold h room (id :: opened) e.2) ∈ members) ∧
      members.length = ((h.table id).keys.map Value.keyText).dedup.length ∧
      (members.length = (h.table id).entries.length ↔
        ∀ k ∈ (h.table id).keys, ∀ k' ∈ (h.table id).keys, ¬ k.Clashes k') := by
  have names : ((h.table id).entries.map fun e =>
      (e.1.keyText, unfold h room (id :: opened) e.2)).map (·.1) =
        (h.table id).keys.map Value.keyText := by
    rw [Table.keys, List.map_map, List.map_map]
    rfl
  have length := Dictionary.length_ofList ((h.table id).entries.map fun e =>
    (e.1.keyText, unfold h room (id :: opened) e.2))
  rw [names] at length
  refine ⟨_, unfold_open free object, Dictionary.ascending_ofList _,
    fun m => Table.mem_members_iff, fun k mem => ?_, fun e mem apart => ?_, length, ?_⟩
  · rw [Dictionary.mem_keys_ofList, names]
    exact List.mem_map_of_mem mem
  · exact Table.mem_members_iff.mpr ⟨e, Table.keeps_of_not_clashes legal mem apart, rfl⟩
  · rw [length, ← Table.nodup_names_iff legal, ← List.dedup_eq_self]
    have entries : ((h.table id).keys.map Value.keyText).length = (h.table id).entries.length := by
      rw [Table.keys, List.length_map, List.length_map]
    rw [← entries]
    exact ⟨(List.dedup_sublist _).eq_of_length, congrArg List.length⟩

/-- A boolean, the text of one, and a float beside the integer of its whole part. -/
theorem unfold_object_apart :
    let t : Table := ⟨[(.bool true, .integer 1), (.ofText "2.0", .integer 2),
      (.float ⟨0x4002000000000000⟩, .integer 3), (.integer 2, .integer 4)], none⟩
    let h : Heap := ⟨#[t], #[], 0⟩
    t.IsLegal ∧ 0 ∉ ([] : List Nat) ∧ t.shape = .object ∧
      ∃ members, toTree h (.table 0) = .object members ∧ members.length = 4 := by
  intro t h
  have legal : t.IsLegal := by
    refine ⟨by decide, ?_, by decide, by decide⟩
    have float : (Value.float ⟨0x4002000000000000⟩).IsKey :=
      Value.isKey_float (by decide +kernel) (by decide)
    simp only [Table.keys, t, List.map_cons, List.map_nil, List.forall_mem_cons]
    exact ⟨Value.isKey_bool true, Value.isKey_string _, float, Value.isKey_integer 2,
      List.forall_mem_nil _⟩
  have object : t.shape = .object := by decide +kernel
  obtain ⟨members, eq, -, -, -, -, -, full⟩ :=
    @unfold_object h 127 0 [] legal List.not_mem_nil object
  refine ⟨legal, List.not_mem_nil, object, members, eq, full.mpr ?_⟩
  change ∀ k ∈ t.keys, ∀ k' ∈ t.keys, ¬ k.Clashes k'
  decide +kernel

/-- The entry under the integer is lost to the later one under its text. -/
theorem unfold_object_lost :
    let t : Table := ⟨[(.integer 1, .ofText "a"), (.ofText "1", .ofText "b")], none⟩
    let h : Heap := ⟨#[t], #[], 0⟩
    t.IsLegal ∧ t.shape = .object ∧ t.entries.length = 2 ∧
      toTree h (.table 0) = .object [("1", .string "b")] := by
  intro t h
  have legal : t.IsLegal := by
    refine ⟨by decide, ?_, by decide, by decide⟩
    simp only [Table.keys, t, List.map_cons, List.map_nil, List.forall_mem_cons]
    exact ⟨Value.isKey_integer 1, Value.isKey_string _, List.forall_mem_nil _⟩
  have object : (h.table 0).shape = .object := by decide +kernel
  have number : (Value.integer 1).keyText = "1" := by decide +kernel
  have text (s : String) : unfold h 127 [0] (.ofText s) = .string s := by
    rw [unfold_leaf fun _ => Value.noConfusion, Value.leaf_ofText]
  refine ⟨legal, object, rfl, (unfold_open List.not_mem_nil object).trans ?_⟩
  change Json.Tree.object (Dictionary.ofList
    [((Value.integer 1).keyText, unfold h 127 [0] (.ofText "a")),
      ((Value.ofText "1").keyText, unfold h 127 [0] (.ofText "b"))]) = _
  rw [number, Value.keyText_ofText, text, text]
  rfl

end ScriptServer.Script
