import ScriptServer.Proofs.Json.Lists

/-!
# The language of the JSON reader

`readValue` reads every document that fits into its levels and nothing else (`reads_value`). So
`decode` accepts the texts of RFC 8259 whose numbers are finite and whose values have at most
`maxDepth` containers around them, and gives their meaning (`decode_iff`).
-/

namespace ScriptServer.Json

open Document

/-! ## The parts of a document -/

/-- All number literals of the document are rounded to finite numbers. -/
def Document.Finite (doc : Document) : Prop := ∀ l ∈ doc.literals, l.value.isFinite = true

def valueForm : Form Document Tree where
  Writes doc cs := ∃ before text, cs = before ++ text ∧ Blank before ∧ doc.Spells text
  meaning := Document.meaning
  Fits d doc := doc.depth < d
  Finite := Document.Finite

def memberForm : Form (List Piece × Document) (String × Tree) where
  Writes m cs := ∃ before left value, cs = before ++ (quoted m.1 ++ (left ++ ':' :: value)) ∧
    Blank before ∧ (∀ p ∈ m.1, p.WellFormed) ∧ Blank left ∧ valueForm.Writes m.2 value
  meaning m := (String.ofList (content m.1), m.2.meaning)
  Fits d m := m.2.depth < d
  Finite m := m.2.Finite

theorem spellsItems_iff {items : List Document} {cs : List Char} :
    SpellsItems items cs ↔ Separated valueForm.Writes items cs := by
  induction items generalizing cs with
  | nil => exact Iff.rfl
  | cons item items ih =>
    simp only [SpellsItems, Separated, ih]
    constructor
    · rintro ⟨before, text, after, rest, rfl, hb, hs, ha, hrest⟩
      exact ⟨before ++ text, after, rest, rfl, ⟨before, text, rfl, hb, hs⟩, ha, hrest⟩
    · rintro ⟨_, after, rest, rfl, ⟨before, text, rfl, hb, hs⟩, ha, hrest⟩
      exact ⟨before, text, after, rest, rfl, hb, hs, ha, hrest⟩

theorem spellsMembers_iff {members : List (List Piece × Document)} {cs : List Char} :
    SpellsMembers members cs ↔ Separated memberForm.Writes members cs := by
  induction members generalizing cs with
  | nil => exact Iff.rfl
  | cons m members ih =>
    obtain ⟨key, value⟩ := m
    simp only [SpellsMembers, Separated, ih]
    constructor
    · rintro ⟨before, _, text, after, rest, rfl, hb, hkey, ⟨left, right, rfl, hl, hr⟩, hs, ha,
        hrest⟩
      refine ⟨before ++ (quoted key ++ (left ++ ':' :: (right ++ text))), after, rest, by simp,
        ⟨before, left, right ++ text, rfl, hb, hkey, hl, right, text, rfl, hr, hs⟩, ha, hrest⟩
    · rintro ⟨_, after, rest, rfl,
        ⟨before, left, _, rfl, hb, hkey, hl, right, text, rfl, hr, hs⟩, ha, hrest⟩
      refine ⟨before, left ++ ':' :: right, text, after, rest, by simp, hb, hkey,
        ⟨left, right, rfl, hl, hr⟩, hs, ha, hrest⟩

theorem meaningItems_eq_map (items : List Document) : meaningItems items = items.map meaning := by
  induction items with
  | nil => rfl
  | cons item items ih => rw [meaningItems, ih, List.map_cons]

theorem meaningMembers_eq_map (members : List (List Piece × Document)) :
    meaningMembers members = members.map memberForm.meaning := by
  induction members with
  | nil => rfl
  | cons m members ih => rw [meaningMembers, ih, List.map_cons]; rfl

theorem depthItems_lt {items : List Document} {d : Nat} :
    depthItems items < d + 1 ↔ ∀ x ∈ items, x.depth < d := by
  induction items with
  | nil => simp [depthItems]
  | cons item items ih =>
    rw [depthItems, Nat.max_lt, ih, List.forall_mem_cons, Nat.succ_lt_succ_iff]

theorem depthMembers_lt {members : List (List Piece × Document)} {d : Nat} :
    depthMembers members < d + 1 ↔ ∀ m ∈ members, m.2.depth < d := by
  induction members with
  | nil => simp [depthMembers]
  | cons m members ih =>
    rw [depthMembers, Nat.max_lt, ih, List.forall_mem_cons, Nat.succ_lt_succ_iff]

theorem finite_array {items : List Document} :
    (Document.array items).Finite ↔ ∀ x ∈ items, x.Finite := by
  simp only [Document.Finite, literals]
  induction items with
  | nil => simp [literalsItems]
  | cons item items ih =>
    rw [literalsItems, List.forall_mem_append, ih, List.forall_mem_cons]

theorem finite_object {members : List (List Piece × Document)} :
    (Document.object members).Finite ↔ ∀ m ∈ members, m.2.Finite := by
  simp only [Document.Finite, literals]
  induction members with
  | nil => simp [literalsMembers]
  | cons m members ih =>
    rw [literalsMembers, List.forall_mem_append, ih, List.forall_mem_cons]

theorem spells_array {items : List Document} {cs : List Char} :
    (Document.array items).Spells cs ↔
      ∃ tl, cs = '[' :: tl ∧ (valueForm.list ']').Writes items tl := by
  simp only [Spells, spellsItems_iff]
  constructor
  · rintro ⟨inner, rfl, h⟩
    exact ⟨_, rfl, inner, rfl, h⟩
  · rintro ⟨_, rfl, inner, rfl, h⟩
    exact ⟨inner, rfl, h⟩

theorem spells_object {members : List (List Piece × Document)} {cs : List Char} :
    (Document.object members).Spells cs ↔
      ∃ tl, cs = '\x7b' :: tl ∧ (memberForm.list '\x7d').Writes members tl := by
  simp only [Spells, spellsMembers_iff]
  constructor
  · rintro ⟨inner, rfl, h⟩
    exact ⟨_, rfl, inner, rfl, h⟩
  · rintro ⟨_, rfl, inner, rfl, h⟩
    exact ⟨inner, rfl, h⟩

/-! ## How values begin -/

theorem literal_head {l : Literal} (hl : l.WellFormed) :
    ∃ c tl, l.text = c :: tl ∧ (c = '-' ∨ Text.isDigit c = true) := by
  rw [Literal.text_eq]
  cases l.minus with
  | true => exact ⟨'-', _, rfl, .inl rfl⟩
  | false =>
    obtain ⟨c, tl, h⟩ := List.exists_cons_of_ne_nil hl.whole.1.1
    exact ⟨c, _, by rw [h]; rfl, .inr (hl.whole.1.2 c (h ▸ List.mem_cons_self))⟩

theorem not_blank_of_number {c : Char} (h : c = '-' ∨ Text.isDigit c = true) :
    isBlank c = false ∧ c ≠ ']' ∧ c ≠ '\x7d' := by
  rcases h with rfl | h
  · decide
  · have hd := Text.isDigit_iff.mp h
    have hne : ∀ d : Char, ¬ (48 ≤ d.toNat ∧ d.toNat ≤ 57) → c ≠ d := fun d hd' he => hd' (he ▸ hd)
    refine ⟨?_, hne _ (by decide), hne _ (by decide)⟩
    simp only [isBlank, Bool.or_eq_false_iff, beq_eq_false_iff_ne]
    exact ⟨⟨⟨hne _ (by decide), hne _ (by decide)⟩, hne _ (by decide)⟩, hne _ (by decide)⟩

/-- A value begins with neither white space nor a closing bracket. -/
theorem spells_head {doc : Document} {text : List Char} (h : doc.Spells text) :
    ∃ c tl, text = c :: tl ∧ isBlank c = false ∧ c ≠ ']' ∧ c ≠ '\x7d' := by
  cases doc with
  | null => exact ⟨'n', _, h, by decide⟩
  | bool b =>
    cases b
    · exact ⟨'f', _, h, by decide⟩
    · exact ⟨'t', _, h, by decide⟩
  | number l =>
    obtain ⟨hl, rfl⟩ := h
    obtain ⟨c, tl, htl, hc⟩ := literal_head hl
    exact ⟨c, tl, htl, not_blank_of_number hc⟩
  | string ps => exact ⟨'"', _, h.2, by decide⟩
  | array items =>
    obtain ⟨inner, rfl, _⟩ := h
    exact ⟨'[', _, rfl, by decide⟩
  | object members =>
    obtain ⟨inner, rfl, _⟩ := h
    exact ⟨'\x7b', _, rfl, by decide⟩

theorem valueForm_trims : valueForm.Trims where
  lead := by
    rintro doc front _ hf ⟨before, text, rfl, hb, hs⟩
    exact ⟨front ++ before, text, by rw [List.append_assoc], hf.append hb, hs⟩
  core := by
    rintro doc _ ⟨before, text, rfl, hb, hs⟩
    obtain ⟨c, tl, rfl, hc, h, h'⟩ := spells_head hs
    exact ⟨before, c, tl, rfl, hb, hc, h, h', [], c :: tl, rfl, blank_nil, hs⟩

theorem memberForm_trims : memberForm.Trims where
  lead := by
    rintro m front _ hf ⟨before, left, value, rfl, hb, hrest⟩
    exact ⟨front ++ before, left, value, by rw [List.append_assoc], hf.append hb, hrest⟩
  core := by
    rintro m _ ⟨before, left, value, rfl, hb, hrest⟩
    refine ⟨before, '"', _, rfl, hb, by decide, by decide, by decide, [], left, value, rfl,
      blank_nil, hrest⟩

/-! ## Members -/

variable {α β : Type} {d pos : Nat} {item : Reader Tree} {c : Char} {cs text rest : List Char}
  {c' : Cursor} {t : Tree}

theorem head_of_not_blank (h : isBlank c = false) : ∀ c' ∈ (c :: cs).head?, isBlank c' = false := by
  intro c' hc'
  rwa [← Option.some.inj hc']

/-- A member is read up to its value. -/
theorem readMember_append (item : Reader Tree) (pos : Nat) (rest : List Char) {key : List Piece}
    {before left : List Char} (hb : Blank before) (hkey : ∀ p ∈ key, p.WellFormed)
    (hl : Blank left) :
    ∃ pos', readMember item (Cursor.at pos (before ++ (quoted key ++ (left ++ ':' :: rest)))) =
      match item (Cursor.at pos' rest) with
      | .error e => .error e
      | .ok (value, c) => .ok ((String.ofList (content key), value), c) := by
  have hskip := skipBlank_append pos hb
    (show ∀ c ∈ (quoted key ++ (left ++ ':' :: rest)).head?, isBlank c = false from
      head_of_not_blank (by decide))
  have hquote : (Cursor.at (pos + before.length) (quoted key ++ (left ++ ':' :: rest))).peek =
      some (byte '"') := (peek_eq_byte (by decide)).mpr rfl
  obtain ⟨pos₁, hs⟩ : ∃ pos₁, _ = Except.ok (_, Cursor.at pos₁ _) :=
    ⟨_, readString_append (pos + before.length) (left ++ ':' :: rest) hkey⟩
  have hskip' := skipBlank_append pos₁ hl
    (show ∀ c ∈ (':' :: rest).head?, isBlank c = false from head_of_not_blank (by decide))
  have hcolon : (Cursor.at (pos₁ + left.length) (':' :: rest)).peek = some (byte ':') :=
    (peek_eq_byte (by decide)).mpr rfl
  refine ⟨pos₁ + left.length + 1, ?_⟩
  cases hitem : item (Cursor.at (pos₁ + left.length + 1) rest) <;>
    simp only [readMember, hskip, if_pos hquote, hs, hskip', if_pos hcolon, hitem,
      step_ascii (show (':').toNat < 0x80 by decide)]

theorem reads_member (hr : Reads valueForm d item) : Reads memberForm d (readMember item) := by
  constructor
  · intro pos cs y c' h
    obtain ⟨before, rest, rfl, hb, -, hskip⟩ := skipBlank_at pos cs
    simp only [readMember, hskip] at h
    split at h
    · split at h
      · cases h
      · next key c₁ hs =>
        obtain ⟨ps, rest, pos₁, rfl, hps, rfl, rfl⟩ := readString_sound hs
        obtain ⟨left, rest, rfl, hl, -, hskip'⟩ := skipBlank_at pos₁ rest
        simp only [hskip'] at h
        split at h
        · next hcolon =>
          rw [peek_eq_byte (by decide)] at hcolon
          obtain ⟨tl, rfl⟩ := eq_cons_of_head? hcolon
          rw [step_ascii (by decide)] at h
          split at h
          · cases h
          · next hitem =>
            cases h
            obtain ⟨doc, text, rest, pos', rfl, hw, hfits, hfin, rfl, rfl⟩ := hr.sound hitem
            exact ⟨(ps, doc), before ++ (quoted ps ++ (left ++ ':' :: text)), rest, pos', by simp,
              ⟨before, left, text, rfl, hb, hps, hl, hw⟩, hfits, hfin, rfl, rfl⟩
        · cases h
    · cases h
  · rintro pos ⟨key, doc⟩ _ rest ⟨before, left, value, rfl, hb, hkey, hl, hw⟩ hfin hends hfits
    obtain ⟨pos₁, h⟩ := readMember_append item pos (value ++ rest) hb hkey hl
    obtain ⟨pos', hitem⟩ := hr.fits pos₁ hw hfin hends hfits
    refine ⟨pos', ?_⟩
    simp only [List.append_assoc, List.cons_append] at h ⊢
    rw [h, hitem]
    rfl
  · rintro pos ⟨key, doc⟩ _ rest ⟨before, left, value, rfl, hb, hkey, hl, hw⟩ hfin hends hfits
    obtain ⟨pos₁, h⟩ := readMember_append item pos (value ++ rest) hb hkey hl
    obtain ⟨off, hitem⟩ := hr.deep pos₁ hw hfin hends hfits
    refine ⟨off, ?_⟩
    simp only [List.append_assoc, List.cons_append] at h ⊢
    rw [h, hitem]

/-! ## Containers -/

def behind (F : Form α β) (container : α → Document) : Form α Tree where
  Writes := F.Writes
  meaning x := (container x).meaning
  Fits d x := (container x).depth < d + 1
  Finite x := (container x).Finite

theorem reads_array (hr : Reads valueForm d item) :
    Reads (behind (valueForm.list ']') .array) d (readArray item) := by
  rw [readArray_eq]
  have hlist := reads_list .afterElement valueForm_trims hr (.inl rfl)
  refine hlist.map (G := behind _ .array) Tree.array Iff.rfl (fun items => ?_) depthItems_lt
    finite_array
  show meaning (.array items) = _
  rw [meaning, meaningItems_eq_map]
  rfl

theorem reads_object (hr : Reads valueForm d item) :
    Reads (behind (memberForm.list '\x7d') .object) d (readObject item) := by
  rw [readObject_eq]
  have hlist := reads_list .afterMember memberForm_trims (reads_member hr) (.inr rfl)
  refine hlist.map (G := behind _ .object) (fun ms => Tree.object (Dictionary.ofList ms)) Iff.rfl
    (fun members => ?_) depthMembers_lt finite_object
  show meaning (.object members) = _
  rw [meaning, meaningMembers_eq_map]
  rfl

/-! ## Words -/

theorem readWord_sound {word : String} {start : Nat} {ws : List Char}
    (hws : ∀ c ∈ ws, c.toNat < 0x80)
    (h : readWord word start (Utf8.ofChars ws) (Cursor.at pos cs) = .ok c') :
    ∃ rest pos', cs = ws ++ rest ∧ c' = Cursor.at pos' rest := by
  induction ws generalizing pos cs with
  | nil => cases h; exact ⟨cs, pos, rfl, rfl⟩
  | cons w ws ih =>
    obtain ⟨hw, htl⟩ := List.forall_mem_cons.mp hws
    rw [Utf8.ofChars_cons, encode_ascii hw, List.singleton_append] at h
    cases cs with
    | nil => cases h
    | cons c cs =>
      simp only [readWord, peek_cons, lead_eq_byte hw] at h
      split at h
      · next hc =>
        subst hc
        rw [step_ascii hw] at h
        obtain ⟨rest, pos', rfl, rfl⟩ := ih htl h
        exact ⟨rest, pos', rfl, rfl⟩
      · cases h

theorem readWord_append (word : String) (start pos : Nat) (rest : List Char) {ws : List Char}
    (hws : ∀ c ∈ ws, c.toNat < 0x80) :
    ∃ pos', readWord word start (Utf8.ofChars ws) (Cursor.at pos (ws ++ rest)) =
      .ok (Cursor.at pos' rest) := by
  induction ws generalizing pos with
  | nil => exact ⟨pos, rfl⟩
  | cons w ws ih =>
    obtain ⟨hw, hws⟩ := List.forall_mem_cons.mp hws
    obtain ⟨pos', h⟩ := ih (pos + 1) hws
    refine ⟨pos', ?_⟩
    rw [Utf8.ofChars_cons, encode_ascii hw, List.singleton_append, List.cons_append]
    simp only [readWord, peek_cons, lead_eq_byte hw, ↓reduceIte, step_ascii hw, h]

theorem readLiteral_sound {word : String} {v : Tree}
    (hw : (word.toList.all fun c => c.toNat < 0x80) = true)
    (h : readLiteral word v (Cursor.at pos cs) = .ok (t, c')) :
    ∃ rest pos', cs = word.toList ++ rest ∧ t = v ∧ c' = Cursor.at pos' rest := by
  unfold readLiteral at h
  split at h
  · next hword =>
    cases h
    obtain ⟨rest, pos', rfl, rfl⟩ := readWord_sound (by simpa using hw) hword
    exact ⟨rest, pos', rfl, rfl, rfl⟩
  · cases h

theorem readLiteral_append (word : String) (v : Tree) (pos : Nat) (rest : List Char)
    (hw : (word.toList.all fun c => c.toNat < 0x80) = true) :
    ∃ pos', readLiteral word v (Cursor.at pos (word.toList ++ rest)) =
      .ok (v, Cursor.at pos' rest) := by
  obtain ⟨pos', h⟩ := readWord_append word pos pos rest (by simpa using hw)
  refine ⟨pos', ?_⟩
  unfold readLiteral
  rw [at_pos, Utf8.ofText, h]

/-! ## Values -/

/-- Behind white space the first character tells what is read. -/
theorem readValue_cons (d pos : Nat) (c : Char) (cs : List Char) {before : List Char}
    (hb : Blank before) (hc : isBlank c = false) :
    readValue (d + 1) (Cursor.at pos (before ++ c :: cs)) =
      let here := Cursor.at (pos + before.length) (c :: cs)
      let behind := Cursor.at (pos + before.length + 1) cs
      if c = 'n' then readLiteral "null" .null here
      else if c = 't' then readLiteral "true" (.bool true) here
      else if c = 'f' then readLiteral "false" (.bool false) here
      else if c = '"' then
        match readString here with
        | .error e => .error e
        | .ok (s, c) => .ok (.string s, c)
      else if c = '[' then readArray (readValue d) behind
      else if c = '\x7b' then readObject (readValue d) behind
      else if c = '-' ∨ Text.isDigit c = true then readNumber here
      else .error (here.unexpected .value) := by
  rw [readValue, skipBlank_append pos hb (head_of_not_blank hc)]
  simp only [peek_cons, isDigitByte_lead, lead_eq_byte (show ('n').toNat < 0x80 by decide),
    lead_eq_byte (show ('t').toNat < 0x80 by decide),
    lead_eq_byte (show ('f').toNat < 0x80 by decide),
    lead_eq_byte (show ('"').toNat < 0x80 by decide),
    lead_eq_byte (show ('[').toNat < 0x80 by decide),
    lead_eq_byte (show ('\x7b').toNat < 0x80 by decide),
    lead_eq_byte (show ('-').toNat < 0x80 by decide)]
  by_cases harray : c = '['
  · subst harray
    exact congrArg (readArray (readValue d)) (step_ascii (by decide))
  by_cases hobject : c = '\x7b'
  · subst hobject
    exact congrArg (readObject (readValue d)) (step_ascii (by decide))
  · cases readString (Cursor.at (pos + before.length) (c :: cs)) <;>
      simp only [if_neg harray, if_neg hobject]

/-- What a successful reading has read, with the white space in front of it. -/
theorem written_at {doc : Document} {before text : List Char} (hb : Blank before)
    (hs : doc.Spells text) : valueForm.Writes doc (before ++ text) :=
  ⟨before, text, rfl, hb, hs⟩

theorem readValue_sound (ih : Reads valueForm d (readValue d))
    (h : readValue (d + 1) (Cursor.at pos cs) = .ok (t, c')) :
    ∃ doc text rest pos', cs = text ++ rest ∧ valueForm.Writes doc text ∧ doc.depth < d + 1 ∧
      doc.Finite ∧ doc.meaning = t ∧ c' = Cursor.at pos' rest := by
  obtain ⟨before, rest, rfl, hb, hrest, hskip⟩ := skipBlank_at pos cs
  cases rest with
  | nil => simp only [readValue, hskip, peek_nil] at h; cases h
  | cons c cs =>
  rw [readValue_cons d pos c cs hb (hrest c rfl)] at h
  simp only at h
  have flat : ∀ (doc : Document) {text rest : List Char} {pos' : Nat}, c :: cs = text ++ rest →
      doc.Spells text → doc.depth = 0 → doc.Finite → doc.meaning = t → c' = Cursor.at pos' rest →
      ∃ doc text rest pos', before ++ c :: cs = text ++ rest ∧ valueForm.Writes doc text ∧
        doc.depth < d + 1 ∧ doc.Finite ∧ doc.meaning = t ∧ c' = Cursor.at pos' rest := by
    intro doc text rest pos' hcs hs hd hfin ht hc'
    exact ⟨doc, before ++ text, rest, pos', by rw [hcs, List.append_assoc], written_at hb hs,
      by omega, hfin, ht, hc'⟩
  split at h
  · obtain ⟨rest, pos', hcs, rfl, rfl⟩ := readLiteral_sound (by decide) h
    exact flat .null hcs rfl rfl (by simp [Document.Finite, literals]) rfl rfl
  split at h
  · obtain ⟨rest, pos', hcs, rfl, rfl⟩ := readLiteral_sound (by decide) h
    exact flat (.bool true) hcs rfl rfl (by simp [Document.Finite, literals]) rfl rfl
  split at h
  · obtain ⟨rest, pos', hcs, rfl, rfl⟩ := readLiteral_sound (by decide) h
    exact flat (.bool false) hcs rfl rfl (by simp [Document.Finite, literals]) rfl rfl
  split at h
  · split at h
    · cases h
    · next hs =>
      cases h
      obtain ⟨ps, rest, pos', hcs, hps, rfl, rfl⟩ := readString_sound hs
      exact flat (.string ps) hcs ⟨hps, rfl⟩ rfl (by simp [Document.Finite, literals]) rfl rfl
  split at h
  · next harray =>
    subst harray
    obtain ⟨items, text, rest, pos', rfl, hw, hfits, hfin, rfl, rfl⟩ := (reads_array ih).sound h
    exact ⟨.array items, before ++ '[' :: text, rest, pos', by simp,
      written_at hb (spells_array.mpr ⟨text, rfl, hw⟩), hfits, hfin, rfl, rfl⟩
  split at h
  · next hobject =>
    subst hobject
    obtain ⟨members, text, rest, pos', rfl, hw, hfits, hfin, rfl, rfl⟩ := (reads_object ih).sound h
    exact ⟨.object members, before ++ '\x7b' :: text, rest, pos', by simp,
      written_at hb (spells_object.mpr ⟨text, rfl, hw⟩), hfits, hfin, rfl, rfl⟩
  split at h
  · obtain ⟨l, rest, hcs, hl, hfin, rfl, rfl⟩ := readNumber_sound h
    exact flat (.number l) hcs ⟨hl, rfl⟩ rfl (by simpa [Document.Finite, literals] using hfin)
      rfl rfl
  · cases h

/-- A number is read behind the white space in front of it. -/
theorem readValue_number (d pos : Nat) (rest : List Char) {l : Literal} {before : List Char}
    (hb : Blank before) (hl : l.WellFormed) :
    readValue (d + 1) (Cursor.at pos (before ++ (l.text ++ rest))) =
      readNumber (Cursor.at (pos + before.length) (l.text ++ rest)) := by
  obtain ⟨c, tl, htl, hc⟩ := literal_head hl
  rw [htl, List.cons_append, readValue_cons d pos c _ hb (not_blank_of_number hc).1]
  have hne : ∀ e : Char, e ≠ '-' → Text.isDigit e = false → c ≠ e := by
    rintro e he hd rfl
    rcases hc with h | h
    · exact he h
    · rw [hd] at h; cases h
  simp only [hne 'n' (by decide) (by decide), hne 't' (by decide) (by decide),
    hne 'f' (by decide) (by decide), hne '"' (by decide) (by decide),
    hne '[' (by decide) (by decide), hne '\x7b' (by decide) (by decide), hc, ↓reduceIte]

/-- A document that is no array or object is read at any level. -/
theorem readValue_flat (d pos : Nat) {doc : Document} {before : List Char} (hb : Blank before)
    (hs : doc.Spells text) (hfin : doc.Finite) (hends : EndsNumber rest)
    (harray : ∀ items, doc ≠ .array items) (hobject : ∀ members, doc ≠ .object members) :
    ∃ pos', readValue (d + 1) (Cursor.at pos (before ++ (text ++ rest))) =
      .ok (doc.meaning, Cursor.at pos' rest) := by
  cases doc with
  | array items => exact absurd rfl (harray items)
  | object members => exact absurd rfl (hobject members)
  | null =>
    obtain ⟨pos', h⟩ := readLiteral_append "null" .null (pos + before.length) rest (by decide)
    refine ⟨pos', ?_⟩
    rw [hs]
    refine (readValue_cons d pos 'n' _ hb (by decide)).trans ?_
    exact h
  | bool b =>
    cases b with
    | false =>
      obtain ⟨pos', h⟩ :=
        readLiteral_append "false" (.bool false) (pos + before.length) rest (by decide)
      refine ⟨pos', ?_⟩
      rw [hs]
      refine (readValue_cons d pos 'f' _ hb (by decide)).trans ?_
      exact h
    | true =>
      obtain ⟨pos', h⟩ :=
        readLiteral_append "true" (.bool true) (pos + before.length) rest (by decide)
      refine ⟨pos', ?_⟩
      rw [hs]
      refine (readValue_cons d pos 't' _ hb (by decide)).trans ?_
      exact h
  | string ps =>
    obtain ⟨hps, rfl⟩ := hs
    have h := readString_append (pos + before.length) rest hps
    refine ⟨pos + before.length + width (quoted ps), ?_⟩
    rw [quoted_append] at h ⊢
    rw [readValue_cons d pos '"' _ hb (by decide)]
    simp only [show ¬ '"' = 'n' by decide, show ¬ '"' = 't' by decide, show ¬ '"' = 'f' by decide,
      ↓reduceIte, h, meaning]
  | number l =>
    obtain ⟨hl, rfl⟩ := hs
    have hfin' : l.value.isFinite = true := hfin l (List.mem_singleton.mpr rfl)
    refine ⟨pos + before.length + l.text.length, ?_⟩
    rw [readValue_number d pos rest hb hl, readNumber_append _ hl hends hfin']
    rfl

/-- The reader of values reads what fits into its levels. -/
theorem reads_value (d : Nat) : Reads valueForm d (readValue d) := by
  induction d with
  | zero =>
    constructor
    · intro pos cs y c' h
      cases h
    · rintro pos doc _ rest - - - hfits
      exact absurd hfits (Nat.not_lt_zero _)
    · intro pos doc text rest _ _ _ _
      exact ⟨pos, rfl⟩
  | succ d ih =>
    constructor
    · intro pos cs t c' h
      exact readValue_sound ih h
    · rintro pos doc _ rest ⟨before, text, rfl, hb, hs⟩ hfin hends hfits
      rw [List.append_assoc]
      cases doc with
      | array items =>
        obtain ⟨tl, rfl, hw⟩ := spells_array.mp hs
        obtain ⟨pos', h⟩ := (reads_array ih).fits (pos + before.length + 1) hw hfin hends hfits
        exact ⟨pos', (readValue_cons d pos '[' (tl ++ rest) hb (by decide)).trans h⟩
      | object members =>
        obtain ⟨tl, rfl, hw⟩ := spells_object.mp hs
        obtain ⟨pos', h⟩ := (reads_object ih).fits (pos + before.length + 1) hw hfin hends hfits
        exact ⟨pos', (readValue_cons d pos '\x7b' (tl ++ rest) hb (by decide)).trans h⟩
      | _ => exact readValue_flat d pos hb hs hfin hends nofun nofun
    · rintro pos doc _ rest ⟨before, text, rfl, hb, hs⟩ hfin hends hfits
      rw [List.append_assoc]
      cases doc with
      | array items =>
        obtain ⟨tl, rfl, hw⟩ := spells_array.mp hs
        obtain ⟨off, h⟩ := (reads_array ih).deep (pos + before.length + 1) hw hfin hends hfits
        exact ⟨off, (readValue_cons d pos '[' (tl ++ rest) hb (by decide)).trans h⟩
      | object members =>
        obtain ⟨tl, rfl, hw⟩ := spells_object.mp hs
        obtain ⟨off, h⟩ := (reads_object ih).deep (pos + before.length + 1) hw hfin hends hfits
        exact ⟨off, (readValue_cons d pos '\x7b' (tl ++ rest) hb (by decide)).trans h⟩
      | _ => exact absurd (Nat.succ_pos d) hfits

/-! ## Texts -/

theorem IsTextOf.written {doc : Document} (h : doc.IsTextOf cs) :
    ∃ text after, cs = text ++ after ∧ valueForm.Writes doc text ∧ Blank after := by
  obtain ⟨before, text, after, rfl, hb, hs, ha⟩ := h
  exact ⟨before ++ text, after, rfl, written_at hb hs, ha⟩

/-- A text of a document is decoded if no value lies too deep in it. -/
theorem decode_of_isTextOf {doc : Document} {text : String} (h : doc.IsTextOf text.toList)
    (hfin : doc.Finite) :
    (doc.depth ≤ maxDepth → decode text = .ok doc.meaning) ∧
      (maxDepth < doc.depth → ∃ off, decode text = .error ⟨.tooDeep, off⟩) := by
  obtain ⟨body, after, htext, hw, ha⟩ := IsTextOf.written h
  have hends := endsNumber_blank ha endsNumber_nil
  rw [List.append_nil] at hends
  have hstart : (⟨0, Utf8.ofText text⟩ : Cursor) = Cursor.at 0 (body ++ after) := by
    rw [Utf8.ofText, htext, Cursor.at]
  unfold decode
  rw [hstart]
  constructor
  · intro hd
    obtain ⟨pos', hr⟩ := (reads_value (maxDepth + 1)).fits 0 hw hfin hends (Nat.lt_succ_of_le hd)
    have hskip := skipBlank_append pos' ha
      (show ∀ c ∈ ([] : List Char).head?, isBlank c = false by simp)
    rw [List.append_nil] at hskip
    simp only [hr, hskip]
    rfl
  · intro hd
    obtain ⟨off, hr⟩ := (reads_value (maxDepth + 1)).deep 0 hw hfin hends
      (Nat.not_lt_of_le (Nat.succ_le_of_lt hd))
    exact ⟨off, by rw [hr]⟩

theorem isTextOf_of_decode {text : String} (h : decode text = .ok t) :
    ∃ doc : Document, doc.IsTextOf text.toList ∧ doc.depth ≤ maxDepth ∧ doc.Finite ∧
      doc.meaning = t := by
  have hstart : (⟨0, Utf8.ofText text⟩ : Cursor) = Cursor.at 0 text.toList := rfl
  unfold decode at h
  rw [hstart] at h
  split at h
  · cases h
  · next hr =>
    obtain ⟨doc, body, rest, pos', htext, ⟨before, inner, rfl, hb, hs⟩, hd, hfin, rfl, rfl⟩ :=
      (reads_value (maxDepth + 1)).sound hr
    obtain ⟨after, end', rfl, ha, -, hskip⟩ := skipBlank_at pos' rest
    simp only [hskip, at_rest, List.isEmpty_iff, Utf8.ofChars] at h
    split at h
    · next hend =>
      cases h
      have hnil : end' = [] := ofChars_eq_nil.mp hend
      subst hnil
      exact ⟨doc, ⟨before, inner, after, by rw [htext, List.append_nil], hb, hs, ha⟩,
        Nat.le_of_lt_succ hd, hfin, rfl⟩
    · cases h

/-- `decode` accepts the JSON texts of RFC 8259 in which every number is rounded to a finite one and
no value has more than `maxDepth` containers around it, and it gives their meaning. -/
theorem decode_iff (text : String) (t : Tree) :
    decode text = .ok t ↔ ∃ doc : Document, doc.IsTextOf text.toList ∧ doc.depth ≤ maxDepth ∧
      (∀ l ∈ doc.literals, l.value.isFinite = true ∧
        Binary64.IsNearest l.value.pattern l.units ∧ l.value.negative = l.minus) ∧
      doc.meaning = t := by
  constructor
  · intro h
    obtain ⟨doc, htext, hd, hfin, hmean⟩ := isTextOf_of_decode h
    exact ⟨doc, htext, hd, fun l hl => ⟨hfin l hl, l.value_isNearest⟩, hmean⟩
  · rintro ⟨doc, htext, hd, hfin, rfl⟩
    exact (decode_of_isTextOf htext fun l hl => (hfin l hl).1).1 hd

end ScriptServer.Json
