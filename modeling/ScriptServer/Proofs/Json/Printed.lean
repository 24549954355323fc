import ScriptServer.Proofs.Json.RoundTrip

/-!
# What is written is one line

No control character below the space is written. In a string literal such characters are escaped,
whatever the string is, and there are none in the rest of a text. So nothing in a tree can end the
line that the tree is written on.
-/

namespace ScriptServer.Json

/-- No character is below the space. -/
def Printed (cs : List Char) : Prop := ∀ c ∈ cs, 0x20 ≤ c.toNat

theorem printed_append {a b : List Char} : Printed (a ++ b) ↔ Printed a ∧ Printed b :=
  List.forall_mem_append

theorem printed_cons {c : Char} {cs : List Char} :
    Printed (c :: cs) ↔ 0x20 ≤ c.toNat ∧ Printed cs :=
  List.forall_mem_cons

theorem printed_nil : Printed [] := by
  intro c mem
  cases mem

theorem printed_of_all {cs : List Char} (h : cs.all (fun c => 0x20 ≤ c.toNat) = true) :
    Printed cs :=
  fun c mem => of_decide_eq_true (List.all_eq_true.mp h c mem)

/-! ## Literals -/

theorem printed_digit {c : Char} (digit : Text.isDigit c = true) : 0x20 ≤ c.toNat :=
  Nat.le_trans (by decide) (Text.isDigit_iff.mp digit).1

theorem Piece.WellFormed.printed {p : Piece} (h : p.WellFormed) : Printed p.text := by
  cases p with
  | char c => exact List.forall_mem_singleton.mpr h.2.2
  | escape c =>
    have letters : escapes.all (fun e => 0x20 ≤ e.1.toNat) = true := by decide
    obtain ⟨e, mem, eq⟩ := List.lookup_isSome_iff.mp h
    rw [Piece.text, printed_cons, printed_cons, eq_of_beq eq]
    exact ⟨by decide, of_decide_eq_true (List.all_eq_true.mp letters e mem), printed_nil⟩
  | unicode ds =>
    rw [Piece.text, printed_cons, printed_cons]
    refine ⟨by decide, by decide, fun c mem => ?_⟩
    have digit := Text.isSome_hexValue?.mp (h.2 c mem)
    omega

theorem printed_quote (s : String) : Printed (quote s) := by
  rw [quote_eq_quoted, quoted, printed_cons, printed_append]
  refine ⟨by decide, ?_, List.forall_mem_singleton.mpr (by decide)⟩
  exact List.forall_mem_flatMap.mpr fun p mem => (wellFormed_piecesOf s.toList p mem).printed

theorem printed_shortest {x : Binary64} (finite : x.isFinite = true) : Printed x.shortest := by
  obtain ⟨whole, fraction, ⟨⟨-, digits⟩, -⟩, digits', text, -⟩ := Binary64.shortest_spells finite
  rw [text, printed_append, printed_append]
  refine ⟨?_, fun c mem => printed_digit (digits c mem), ?_⟩
  · unfold Binary64.sign
    split
    · exact List.forall_mem_singleton.mpr (by decide)
    · exact printed_nil
  · split
    · exact printed_nil
    · exact printed_cons.mpr ⟨by decide, fun c mem => printed_digit (digits' c mem)⟩

/-! ## Trees -/

theorem printed_commas {parts : List (List Char)} (h : ∀ part ∈ parts, Printed part) :
    Printed (commas parts) := by
  induction parts with
  | nil => exact printed_nil
  | cons part parts ih =>
    obtain ⟨first, others⟩ := List.forall_mem_cons.mp h
    cases parts with
    | nil => exact first
    | cons second parts =>
      have step : commas (part :: second :: parts) = part ++ ',' :: commas (second :: parts) := rfl
      rw [step, printed_append, printed_cons]
      exact ⟨first, by decide, ih others⟩

/-- Each part of a written array is a written item. -/
theorem encodeTree_of_mem_encodeItems {items : List Tree} {parts : List (List Char)}
    (h : encodeItems items = .ok parts) {part : List Char} (mem : part ∈ parts) :
    ∃ t ∈ items, encodeTree t = .ok part := by
  induction items generalizing parts with
  | nil => cases h; cases mem
  | cons t ts ih =>
    rw [encodeItems] at h
    split at h
    · cases h
    next first written =>
    split at h
    · cases h
    next others written' =>
    cases h
    rcases List.mem_cons.mp mem with rfl | mem
    · exact ⟨t, List.mem_cons_self, written⟩
    · obtain ⟨t', mem', written⟩ := ih written' mem
      exact ⟨t', List.mem_cons_of_mem t mem', written⟩

/-- Each part of a written object is a key and a written value. -/
theorem encodeTree_of_mem_encodeMembers {members : List (String × Tree)} {parts : List (List Char)}
    (h : encodeMembers members = .ok parts) {part : List Char} (mem : part ∈ parts) :
    ∃ m ∈ members, ∃ cs, encodeTree m.2 = .ok cs ∧ part = quote m.1 ++ ':' :: cs := by
  induction members generalizing parts with
  | nil => cases h; cases mem
  | cons m ms ih =>
    rw [encodeMembers] at h
    split at h
    · cases h
    next first written =>
    split at h
    · cases h
    next others written' =>
    cases h
    rcases List.mem_cons.mp mem with rfl | mem
    · exact ⟨m, List.mem_cons_self, first, written, rfl⟩
    · obtain ⟨m', mem', written⟩ := ih written' mem
      exact ⟨m', List.mem_cons_of_mem m mem', written⟩

theorem printed_encodeTree (t : Tree) : ∀ cs, encodeTree t = .ok cs → Printed cs := by
  induction t using Tree.induction with
  | null =>
    rintro cs ⟨⟩
    exact printed_of_all (by decide)
  | bool b =>
    rintro cs ⟨⟩
    cases b <;> exact printed_of_all (by decide)
  | string s =>
    rintro cs ⟨⟩
    exact printed_quote s
  | number x =>
    intro cs h
    rw [encodeTree, encodeNumber_eq] at h
    split at h
    · next finite =>
      cases h
      exact printed_shortest finite
    · cases h
  | array items ih =>
    intro cs h
    rw [encodeTree] at h
    split at h
    · next parts written =>
      cases h
      rw [printed_cons, printed_append]
      refine ⟨by decide, printed_commas fun part mem => ?_,
        List.forall_mem_singleton.mpr (by decide)⟩
      obtain ⟨t, mem, written⟩ := encodeTree_of_mem_encodeItems written mem
      exact ih t mem part written
    · cases h
  | object members ih =>
    intro cs h
    rw [encodeTree] at h
    split at h
    · next parts written =>
      cases h
      rw [printed_cons, printed_append]
      refine ⟨by decide, printed_commas fun part mem => ?_,
        List.forall_mem_singleton.mpr (by decide)⟩
      obtain ⟨m, mem', cs, value, rfl⟩ := encodeTree_of_mem_encodeMembers written mem
      exact printed_append.mpr
        ⟨printed_quote m.1, printed_cons.mpr ⟨by decide, ih m mem' cs value⟩⟩
    · cases h

/-- Whatever a tree holds, its text has no control character. -/
theorem printed_encode {t : Tree} {text : String} (h : encode t = .ok text) :
    Printed text.toList := by
  cases written : encodeTree t with
  | error e => rw [encode, written] at h; cases h
  | ok cs =>
    rw [encode, written] at h
    cases h
    rw [String.toList_ofList]
    exact printed_encodeTree t cs written

end ScriptServer.Json
