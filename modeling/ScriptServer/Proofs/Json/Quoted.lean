import ScriptServer.Proofs.Json.Cursor

/-!
# String literals

The reader takes the pieces of a literal one by one and looks ahead only behind the first half of a
surrogate pair. `readString_sound` and `readString_append` relate it to lists of pieces and their
`content`.
-/

namespace ScriptServer.Json

open Utf8

variable {pos start fuel : Nat} {c ch : Char} {cs ds es rest : List Char} {c' : Cursor}
  {ps : List Piece}

/-! ## Hexadecimal escapes -/

def HexQuad (ds : List Char) : Prop := (Piece.unicode ds).WellFormed

theorem hexByte?_lead (c : Char) : Text.hexByte? (lead c) = Text.hexValue? c := by
  unfold Text.hexByte?
  rcases toNat_lead c with ⟨h, _⟩ | ⟨h, hc⟩
  · rw [h, Char.ofNat_toNat]
  · have hlt := (lead c).toNat_lt
    have hto : (Char.ofNat (lead c).toNat).toNat = (lead c).toNat :=
      toNat_ofNat_valid (.inl (by omega))
    have hnone : ∀ d : Char, 0x80 ≤ d.toNat → Text.hexValue? d = none := fun d hd => by
      cases hv : Text.hexValue? d with
      | none => rfl
      | some v =>
        have := Text.ascii_of_hexValue? (c := d) (by rw [hv]; rfl)
        omega
    rw [hnone _ (by omega), hnone _ hc]

def hexFrom (acc : Nat) (ds : List Char) : Nat :=
  ds.foldl (fun n c => n * 16 + (Text.hexValue? c).getD 0) acc

theorem readHex_sound {k acc n : Nat} (h : readHex k acc (Cursor.at pos cs) = .ok (n, c')) :
    ∃ ds rest, cs = ds ++ rest ∧ ds.length = k ∧ (∀ c ∈ ds, (Text.hexValue? c).isSome = true) ∧
      n = hexFrom acc ds ∧ c' = Cursor.at (pos + k) rest := by
  induction k generalizing acc pos cs with
  | zero =>
    cases h
    exact ⟨[], cs, rfl, rfl, by simp, rfl, rfl⟩
  | succ k ih =>
    cases cs with
    | nil => cases h
    | cons c cs =>
      simp only [readHex, peek_cons, hexByte?_lead] at h
      cases hd : Text.hexValue? c with
      | none => rw [hd] at h; cases h
      | some d =>
        have hsome : (Text.hexValue? c).isSome = true := by rw [hd]; rfl
        simp only [hd, step_ascii (Text.ascii_of_hexValue? hsome)] at h
        obtain ⟨ds, rest, rfl, rfl, hds, rfl, rfl⟩ := ih h
        refine ⟨c :: ds, rest, rfl, rfl, List.forall_mem_cons.mpr ⟨hsome, hds⟩, ?_, ?_⟩
        · rw [hexFrom, hexFrom, List.foldl_cons, hd]; rfl
        · congr 1; omega

theorem readHex_append (acc pos : Nat) (rest : List Char)
    (hds : ∀ c ∈ ds, (Text.hexValue? c).isSome = true) :
    readHex ds.length acc (Cursor.at pos (ds ++ rest)) =
      .ok (hexFrom acc ds, Cursor.at (pos + ds.length) rest) := by
  induction ds generalizing acc pos with
  | nil => rfl
  | cons c ds ih =>
    obtain ⟨hc, hds⟩ := List.forall_mem_cons.mp hds
    obtain ⟨d, hd⟩ := Option.isSome_iff_exists.mp hc
    rw [List.length_cons, readHex, List.cons_append, peek_cons]
    simp only [hexByte?_lead, hd, step_ascii (Text.ascii_of_hexValue? hc)]
    rw [ih _ _ hds, hexFrom, hexFrom, List.foldl_cons, hd]
    congr 3; omega

theorem readQuad_sound {n : Nat} (h : readHex 4 0 (Cursor.at pos cs) = .ok (n, c')) :
    ∃ ds rest, cs = ds ++ rest ∧ HexQuad ds ∧ n = hexValue ds ∧ c' = Cursor.at (pos + 4) rest := by
  obtain ⟨ds, rest, hcs, hlen, hds, hn, hc⟩ := readHex_sound h
  exact ⟨ds, rest, hcs, ⟨hlen, hds⟩, hn, hc⟩

theorem readQuad_append (hds : HexQuad ds) :
    readHex 4 0 (Cursor.at pos (ds ++ rest)) = .ok (hexValue ds, Cursor.at (pos + 4) rest) := by
  have h := readHex_append 0 pos rest hds.2
  rw [hds.1] at h
  exact h

/-- The text begins with the introduction of a hexadecimal escape. -/
def Introduces (cs : List Char) : Prop := ∃ tl, cs = '\\' :: 'u' :: tl

theorem atHexEscape_iff : atHexEscape (Cursor.at pos cs) = true ↔ Introduces cs := by
  rw [atHexEscape, beq_iff_eq, at_rest]
  constructor
  · intro h
    cases cs with
    | nil => cases h
    | cons c cs =>
      obtain ⟨bs, hbs⟩ := exists_encode c
      rw [ofChars_cons, hbs, List.cons_append, List.take_succ_cons] at h
      have hc := (lead_eq_byte (by decide)).mp (List.cons.inj h).1
      subst hc
      rw [encode_ascii (by decide)] at hbs
      have htl := (List.cons.inj h).2
      rw [← (List.cons.inj hbs).2, List.nil_append] at htl
      cases cs with
      | nil => cases htl
      | cons d cs =>
        obtain ⟨bs', hbs'⟩ := exists_encode d
        rw [ofChars_cons, hbs', List.cons_append, List.take_succ_cons] at htl
        have hd := (lead_eq_byte (by decide)).mp (List.cons.inj htl).1
        subst hd
        exact ⟨cs, rfl⟩
  · rintro ⟨tl, rfl⟩
    rw [ofChars_cons, ofChars_cons, encode_ascii (by decide), encode_ascii (by decide)]
    rfl

theorem step_introduction (cs : List Char) :
    (Cursor.at pos ('\\' :: 'u' :: cs)).step.step = Cursor.at (pos + 2) cs := by
  rw [step_ascii (by decide), step_ascii (by decide)]

/-- A text does not begin with the second half of a surrogate pair. -/
def NoSecondHalf (rest : List Char) : Prop :=
  ∀ es tl, rest = '\\' :: 'u' :: (es ++ tl) → HexQuad es → isLowSurrogate (hexValue es) = false

theorem readUnicode_sound (h : readUnicode (Cursor.at pos cs) = .ok (ch, c')) :
    ∃ ds, HexQuad ds ∧
      ((∃ es rest pos', cs = ds ++ ('\\' :: 'u' :: (es ++ rest)) ∧ HexQuad es ∧
        (isHighSurrogate (hexValue ds) && isLowSurrogate (hexValue es)) = true ∧
        ch = pairedUnits (hexValue ds) (hexValue es) ∧ c' = Cursor.at pos' rest) ∨
      ∃ rest pos', cs = ds ++ rest ∧ ch = loneUnit (hexValue ds) ∧ c' = Cursor.at pos' rest ∧
        (isHighSurrogate (hexValue ds) = true → NoSecondHalf rest)) := by
  unfold readUnicode at h
  cases hfirst : readHex 4 0 (Cursor.at pos cs) with
  | error e => simp only [hfirst] at h; cases h
  | ok r =>
    obtain ⟨n, c⟩ := r
    obtain ⟨ds, rest, rfl, hds, rfl, rfl⟩ := readQuad_sound hfirst
    refine ⟨ds, hds, ?_⟩
    simp only [hfirst] at h
    split at h
    next hhigh =>
      have hlone : loneUnit (hexValue ds) = '\uFFFD' := by rw [loneUnit, hhigh]; rfl
      split at h
      · next hintro =>
        obtain ⟨tl, rfl⟩ := atHexEscape_iff.mp hintro
        rw [step_introduction] at h
        cases hsecond : readHex 4 0 (Cursor.at (pos + 4 + 2) tl) with
        | error e => simp only [hsecond] at h; cases h
        | ok r =>
          obtain ⟨m, c⟩ := r
          obtain ⟨es, rest, rfl, hes, rfl, rfl⟩ := readQuad_sound hsecond
          simp only [hsecond] at h
          split at h
          · next hlow =>
            simp only [Except.ok.injEq, Prod.mk.injEq] at h
            obtain ⟨rfl, rfl⟩ := h
            exact .inl ⟨es, rest, _, rfl, hes, by rw [hhigh, hlow]; rfl, by rw [pairedUnits], rfl⟩
          · next hlow =>
            cases h
            refine .inr ⟨_, _, rfl, hlone.symm, rfl, fun _ es' tl' heq hes' => ?_⟩
            have htl := (List.cons.inj (List.cons.inj heq).2).2
            obtain ⟨rfl, _⟩ := List.append_inj htl (by rw [hes.1, hes'.1])
            exact Bool.eq_false_iff.mpr hlow
      · next hintro =>
        cases h
        refine .inr ⟨_, _, rfl, hlone.symm, rfl, fun _ es tl heq _ => ?_⟩
        exact absurd (atHexEscape_iff.mpr ⟨_, heq⟩) hintro
    next hhigh =>
      have hvac : isHighSurrogate (hexValue ds) = true → NoSecondHalf rest :=
        fun h => absurd h hhigh
      split at h
      · next hlow =>
        cases h
        exact .inr ⟨_, _, rfl, by rw [loneUnit, hlow, Bool.or_true]; rfl, rfl, hvac⟩
      · next hlow =>
        cases h
        refine .inr ⟨_, _, rfl, ?_, rfl, hvac⟩
        rw [loneUnit, Bool.eq_false_iff.mpr hhigh, Bool.eq_false_iff.mpr hlow]
        rfl

theorem readUnicode_pair (pos : Nat) (rest : List Char) (hds : HexQuad ds) (hes : HexQuad es)
    (h : (isHighSurrogate (hexValue ds) && isLowSurrogate (hexValue es)) = true) :
    readUnicode (Cursor.at pos (ds ++ ('\\' :: 'u' :: (es ++ rest)))) =
      .ok (pairedUnits (hexValue ds) (hexValue es), Cursor.at (pos + 10) rest) := by
  obtain ⟨hhigh, hlow⟩ := Bool.and_eq_true_iff.mp h
  simp only [readUnicode, readQuad_append hds, hhigh, ↓reduceIte, step_introduction,
    atHexEscape_iff.mpr ⟨_, rfl⟩, readQuad_append hes, hlow]
  rfl

/-- Behind an escape that begins no pair the reader goes on. A further escape has to be whole, since
the reader looks at it. -/
theorem readUnicode_lone (pos : Nat) (hds : HexQuad ds)
    (hrest : isHighSurrogate (hexValue ds) = true → Introduces rest →
      ∃ es tl, rest = '\\' :: 'u' :: (es ++ tl) ∧ HexQuad es ∧
        isLowSurrogate (hexValue es) = false) :
    readUnicode (Cursor.at pos (ds ++ rest)) =
      .ok (loneUnit (hexValue ds), Cursor.at (pos + 4) rest) := by
  simp only [readUnicode, readQuad_append hds]
  cases hhigh : isHighSurrogate (hexValue ds) with
  | true =>
    rw [loneUnit, hhigh, Bool.true_or]
    simp only [↓reduceIte]
    split
    · next hintro =>
      obtain ⟨es, tl, rfl, hes, hlow⟩ := hrest hhigh (atHexEscape_iff.mp hintro)
      simp only [step_introduction, readQuad_append hes, hlow, Bool.false_eq_true, ↓reduceIte]
    · rfl
  | false =>
    rw [loneUnit, hhigh, Bool.false_or]
    simp only [Bool.false_eq_true, ↓reduceIte]
    split <;> rfl

theorem readUnicode_error {e : DecodeError} (pos : Nat) (h : readHex 4 0 (Cursor.at pos cs) = .error e) :
    readUnicode (Cursor.at pos cs) = .error e := by
  simp only [readUnicode, h]

/-- Behind a first half of a pair the failure of the second escape is met already. -/
theorem readUnicode_second {e : DecodeError} (pos : Nat) (hds : HexQuad ds)
    (hhigh : isHighSurrogate (hexValue ds) = true)
    (h : readHex 4 0 (Cursor.at (pos + 6) cs) = .error e) :
    readUnicode (Cursor.at pos (ds ++ ('\\' :: 'u' :: cs))) = .error e := by
  simp only [readUnicode, readQuad_append hds, hhigh, ↓reduceIte, step_introduction,
    atHexEscape_iff.mpr ⟨_, rfl⟩, show pos + 4 + 2 = pos + 6 from rfl, h]

/-! ## Escapes -/

theorem simpleEscape?_lead (c : Char) : simpleEscape? (lead c) = escapes.lookup c := by
  simp only [simpleEscape?, lead_eq_byte (show ('"').toNat < 0x80 by decide),
    lead_eq_byte (show ('\\').toNat < 0x80 by decide),
    lead_eq_byte (show ('/').toNat < 0x80 by decide),
    lead_eq_byte (show ('b').toNat < 0x80 by decide),
    lead_eq_byte (show ('f').toNat < 0x80 by decide),
    lead_eq_byte (show ('n').toNat < 0x80 by decide),
    lead_eq_byte (show ('r').toNat < 0x80 by decide),
    lead_eq_byte (show ('t').toNat < 0x80 by decide), escapes, List.lookup_cons, List.lookup_nil]
  grind

theorem ascii_of_escape (h : (escapes.lookup c).isSome = true) : c.toNat < 0x80 := by
  by_contra hc
  have hne : ∀ d : Char, d.toNat < 0x80 → (c == d) = false := fun d hd =>
    beq_eq_false_iff_ne.mpr fun he => hc (he ▸ hd)
  simp only [escapes, List.lookup_cons, List.lookup_nil, hne '"' (by decide),
    hne '\\' (by decide), hne '/' (by decide), hne 'b' (by decide), hne 'f' (by decide),
    hne 'n' (by decide), hne 'r' (by decide), hne 't' (by decide)] at h
  cases h

/-- A character and its bytes are taken as they are. -/
def Plain (b : UInt8) : Prop := b ≠ byte '"' ∧ b ≠ byte '\\' ∧ ¬ b < 0x20

theorem plain_of_mem_encode (h : (Piece.char c).WellFormed) :
    ∀ b ∈ String.utf8EncodeChar c, Plain b := by
  intro b hb
  obtain ⟨hquote, hslash, hlow⟩ := h
  by_cases hc : c.toNat < 0x80
  · rw [encode_ascii hc, List.mem_singleton] at hb
    subst hb
    rw [← lead_ascii hc]
    refine ⟨fun h => hquote ((lead_eq_byte (by decide)).mp h),
      fun h => hslash ((lead_eq_byte (by decide)).mp h), ?_⟩
    rw [UInt8.lt_iff_toNat_lt, lead_ascii hc, toNat_byte hc]
    exact Nat.not_lt.mpr hlow
  · have hge := mem_encode_ge (Nat.le_of_not_lt hc) hb
    refine ⟨?_, ?_, ?_⟩
    · rintro rfl; revert hge; decide
    · rintro rfl; revert hge; decide
    · rw [UInt8.lt_iff_toNat_lt]
      exact Nat.not_lt.mpr (Nat.le_trans (by decide) hge)

/-! ## The body of a string -/

def prepend (bs : Bytes) : Except DecodeError (Bytes × Cursor) → Except DecodeError (Bytes × Cursor)
  | .ok (out, c) => .ok (bs ++ out, c)
  | .error e => .error e

theorem prepend_ok {bs out : Bytes} {r : Except DecodeError (Bytes × Cursor)}
    (h : prepend bs r = .ok (out, c')) : ∃ out', r = .ok (out', c') ∧ out = bs ++ out' := by
  cases r with
  | error e => cases h
  | ok r => cases h; exact ⟨r.1, rfl, rfl⟩

theorem prepend_nil (r : Except DecodeError (Bytes × Cursor)) : prepend [] r = r := by
  cases r <;> rfl

theorem prepend_append (bs bs' : Bytes) (r : Except DecodeError (Bytes × Cursor)) :
    prepend (bs ++ bs') r = prepend bs (prepend bs' r) := by
  cases r with
  | error e => rfl
  | ok r => simp only [prepend, List.append_assoc]

theorem body_plain {b : UInt8} (hb : Plain b) (bs : Bytes) :
    readStringBody start (fuel + 1) ⟨pos, b :: bs⟩ =
      prepend [b] (readStringBody start fuel ⟨pos + 1, bs⟩) := by
  obtain ⟨hquote, hslash, hlow⟩ := hb
  simp only [readStringBody, Cursor.peek, List.head?_cons, hquote, ↓reduceIte, hslash, hlow,
    Cursor.step, List.tail_cons]
  cases readStringBody start fuel ⟨pos + 1, bs⟩ <;> rfl

/-- The bytes of a character are taken one after the other. -/
theorem body_plains (start pos fuel : Nat) {bs : Bytes} (hbs : ∀ b ∈ bs, Plain b) (more : Bytes) :
    readStringBody start (bs.length + fuel) ⟨pos, bs ++ more⟩ =
      prepend bs (readStringBody start fuel ⟨pos + bs.length, more⟩) := by
  induction bs generalizing pos with
  | nil =>
    rw [List.length_nil, Nat.zero_add, List.nil_append, Nat.add_zero]
    cases readStringBody start fuel ⟨pos, more⟩ <;> rfl
  | cons b bs ih =>
    obtain ⟨hb, hbs⟩ := List.forall_mem_cons.mp hbs
    rw [List.length_cons, Nat.add_right_comm, List.cons_append, body_plain hb, ih _ hbs,
      Nat.add_right_comm pos 1, Nat.add_assoc pos]
    cases readStringBody start fuel ⟨pos + (bs.length + 1), more⟩ <;> rfl

theorem body_short {bs : Bytes} (hbs : ∀ b ∈ bs, Plain b) (hfuel : fuel < bs.length) (more : Bytes)
    (out : Bytes) : readStringBody start fuel ⟨pos, bs ++ more⟩ ≠ .ok (out, c') := by
  induction fuel generalizing pos bs out with
  | zero => intro h; cases h
  | succ fuel ih =>
    cases bs with
    | nil => cases hfuel
    | cons b bs =>
      obtain ⟨hb, hbs⟩ := List.forall_mem_cons.mp hbs
      rw [List.cons_append, body_plain hb]
      intro h
      obtain ⟨out', h, _⟩ := prepend_ok h
      exact ih hbs (Nat.lt_of_succ_lt_succ hfuel) out' h

theorem body_quote (cs : List Char) :
    readStringBody start (fuel + 1) (Cursor.at pos ('"' :: cs)) =
      .ok ([], Cursor.at (pos + 1) cs) := by
  simp only [readStringBody, peek_cons, lead_ascii (show ('"').toNat < 0x80 by decide), ↓reduceIte,
    step_ascii (show ('"').toNat < 0x80 by decide)]

theorem body_escape (cs : List Char) :
    readStringBody start (fuel + 1) (Cursor.at pos ('\\' :: cs)) =
      match readEscape (Cursor.at (pos + 1) cs) with
      | .error e => .error e
      | .ok (ch, c) => prepend (String.utf8EncodeChar ch) (readStringBody start fuel c) := by
  have hne : ¬ byte '\\' = byte '"' := by decide
  simp only [readStringBody, peek_cons, lead_ascii (show ('\\').toNat < 0x80 by decide), hne,
    ↓reduceIte, step_ascii (show ('\\').toNat < 0x80 by decide)]
  cases readEscape (Cursor.at (pos + 1) cs) with
  | error e => rfl
  | ok r => simp only; cases readStringBody start fuel r.2 <;> rfl

theorem readEscape_simple (h : escapes.lookup c = some ch) :
    readEscape (Cursor.at pos (c :: rest)) = .ok (ch, Cursor.at (pos + 1) rest) := by
  have hc : c.toNat < 0x80 := ascii_of_escape (by rw [h]; rfl)
  simp only [readEscape, peek_cons, simpleEscape?_lead, h, step_ascii hc]

theorem readEscape_unicode (cs : List Char) :
    readEscape (Cursor.at pos ('u' :: cs)) = readUnicode (Cursor.at (pos + 1) cs) := by
  have hu : 'u'.toNat < 0x80 := by decide
  have hnone : simpleEscape? (byte 'u') = none := by decide
  simp only [readEscape, peek_cons, hnone, lead_ascii hu, ↓reduceIte, step_ascii hu]

theorem readEscape_sound (h : readEscape (Cursor.at pos cs) = .ok (ch, c')) :
    (∃ c rest, cs = c :: rest ∧ escapes.lookup c = some ch ∧ c' = Cursor.at (pos + 1) rest) ∨
      ∃ tl, cs = 'u' :: tl ∧ readUnicode (Cursor.at (pos + 1) tl) = .ok (ch, c') := by
  cases cs with
  | nil => cases h
  | cons c cs =>
    cases hl : escapes.lookup c with
    | some ch' =>
      rw [readEscape_simple hl] at h
      cases h
      exact .inl ⟨c, cs, rfl, hl, rfl⟩
    | none =>
      by_cases hu : c = 'u'
      · subst hu
        rw [readEscape_unicode] at h
        exact .inr ⟨cs, rfl, h⟩
      · have hne : ¬ lead c = byte 'u' := fun h => hu ((lead_eq_byte (by decide)).mp h)
        simp only [readEscape, peek_cons, simpleEscape?_lead, hl, hne, ↓reduceIte] at h
        cases h

def spelling (ps : List Piece) : List Char := ps.flatMap Piece.text

theorem spelling_cons (p : Piece) (ps : List Piece) : spelling (p :: ps) = p.text ++ spelling ps :=
  rfl

theorem spelling_unicode (ds : List Char) (ps : List Piece) (rest : List Char) :
    spelling (.unicode ds :: ps) ++ rest = '\\' :: 'u' :: (ds ++ (spelling ps ++ rest)) := by
  rw [spelling_cons, Piece.text, List.append_assoc]; rfl

theorem content_escape (h : escapes.lookup c = some ch) :
    content (.escape c :: ps) = ch :: content ps := by
  rw [content, h]; rfl

/-- An escape that no second half of a pair follows stands for itself. -/
theorem content_lone (rest : List Char) (hwf : ∀ p ∈ ps, p.WellFormed)
    (h : isHighSurrogate (hexValue ds) = true → NoSecondHalf (spelling ps ++ rest)) :
    content (.unicode ds :: ps) = loneUnit (hexValue ds) :: content ps := by
  cases ps with
  | nil => rfl
  | cons p ps =>
    cases p with
    | char c => rfl
    | escape c => rfl
    | unicode es =>
      rw [content]
      split
      · next hpair =>
        obtain ⟨hhigh, hlow⟩ := Bool.and_eq_true_iff.mp hpair
        have hes := List.forall_mem_cons.mp hwf
        have := h hhigh es (spelling ps ++ rest) (by simp [spelling_cons, Piece.text]) hes.1
        rw [hlow] at this
        cases this
      · rfl

/-- What the body of a string was read from. -/
structure Body (cs : List Char) (bs : Bytes) (c' : Cursor) : Prop where
  spelled : ∃ ps rest pos', cs = spelling ps ++ '"' :: rest ∧ (∀ p ∈ ps, p.WellFormed) ∧
    bs = ofChars (content ps) ∧ c' = Cursor.at pos' rest

namespace Body

variable {bs : Bytes}

theorem close (pos : Nat) (cs : List Char) : Body ('"' :: cs) [] (Cursor.at pos cs) :=
  ⟨[], cs, pos, rfl, by simp, rfl, rfl⟩

theorem char (h : Body cs bs c') (hwf : (Piece.char c).WellFormed) :
    Body (c :: cs) (String.utf8EncodeChar c ++ bs) c' := by
  obtain ⟨ps, rest, pos', rfl, hps, rfl, rfl⟩ := h.spelled
  exact ⟨.char c :: ps, rest, pos', rfl, List.forall_mem_cons.mpr ⟨hwf, hps⟩, rfl, rfl⟩

theorem escape (h : Body cs bs c') (hl : escapes.lookup c = some ch) :
    Body ('\\' :: c :: cs) (String.utf8EncodeChar ch ++ bs) c' := by
  obtain ⟨ps, rest, pos', rfl, hps, rfl, rfl⟩ := h.spelled
  refine ⟨.escape c :: ps, rest, pos', rfl, List.forall_mem_cons.mpr ⟨?_, hps⟩, ?_, rfl⟩
  · show (escapes.lookup c).isSome = true
    rw [hl]; rfl
  · rw [content_escape hl, ofChars_cons]

theorem pair (h : Body cs bs c') (hds : HexQuad ds) (hes : HexQuad es)
    (hpair : (isHighSurrogate (hexValue ds) && isLowSurrogate (hexValue es)) = true) :
    Body ('\\' :: 'u' :: (ds ++ ('\\' :: 'u' :: (es ++ cs))))
      (String.utf8EncodeChar (pairedUnits (hexValue ds) (hexValue es)) ++ bs) c' := by
  obtain ⟨ps, rest, pos', rfl, hps, rfl, rfl⟩ := h.spelled
  refine ⟨.unicode ds :: .unicode es :: ps, rest, pos', ?_,
    List.forall_mem_cons.mpr ⟨hds, List.forall_mem_cons.mpr ⟨hes, hps⟩⟩, ?_, rfl⟩
  · rw [spelling_unicode, spelling_unicode]
  · rw [content, if_pos hpair, ofChars_cons]

theorem lone (h : Body cs bs c') (hds : HexQuad ds)
    (hno : isHighSurrogate (hexValue ds) = true → NoSecondHalf cs) :
    Body ('\\' :: 'u' :: (ds ++ cs)) (String.utf8EncodeChar (loneUnit (hexValue ds)) ++ bs) c' := by
  obtain ⟨ps, rest, pos', rfl, hps, rfl, rfl⟩ := h.spelled
  refine ⟨.unicode ds :: ps, rest, pos', ?_, List.forall_mem_cons.mpr ⟨hds, hps⟩, ?_, rfl⟩
  · rw [spelling_unicode]
  · rw [content_lone _ hps hno, ofChars_cons]

end Body

/-- No string has a control character. -/
theorem body_control {bs : Bytes} (hlow : c.toNat < 0x20) :
    readStringBody start fuel (Cursor.at pos (c :: cs)) ≠ .ok (bs, c') := by
  cases fuel with
  | zero => intro h; cases h
  | succ fuel =>
    have hc : c.toNat < 0x80 := by omega
    have hlt : lead c < 0x20 := by
      rw [UInt8.lt_iff_toNat_lt, lead_ascii hc, toNat_byte hc]
      exact hlow
    have hquote : ¬ lead c = byte '"' := fun h => by
      rw [(lead_eq_byte (by decide)).mp h] at hlow
      exact absurd hlow (by decide)
    have hslash : ¬ lead c = byte '\\' := fun h => by
      rw [(lead_eq_byte (by decide)).mp h] at hlow
      exact absurd hlow (by decide)
    intro h
    simp only [readStringBody, peek_cons, hlt, hquote, hslash, ↓reduceIte] at h
    cases h

theorem body_sound {bs : Bytes} (h : readStringBody start fuel (Cursor.at pos cs) = .ok (bs, c')) :
    Body cs bs c' := by
  induction fuel using Nat.strongRecOn generalizing pos cs bs with
  | _ fuel ih =>
  cases fuel with
  | zero => cases h
  | succ fuel =>
  cases cs with
  | nil => cases h
  | cons c cs =>
  by_cases hquote : c = '"'
  · subst hquote
    rw [body_quote] at h
    cases h
    exact .close _ cs
  by_cases hslash : c = '\\'
  · subst hslash
    rw [body_escape] at h
    cases hesc : readEscape (Cursor.at (pos + 1) cs) with
    | error e => rw [hesc] at h; cases h
    | ok r =>
      obtain ⟨ch, c₁⟩ := r
      rw [hesc] at h
      obtain ⟨out, hbody, rfl⟩ := prepend_ok h
      rcases readEscape_sound hesc with ⟨c, rest, rfl, hl, rfl⟩ | ⟨tl, rfl, hu⟩
      · exact (ih fuel (Nat.lt_succ_self _) hbody).escape hl
      · obtain ⟨ds, hds, ⟨es, rest, pos₁, rfl, hes, hpair, hch, rfl⟩ |
          ⟨rest, pos₁, rfl, rfl, rfl, hno⟩⟩ := readUnicode_sound hu
        · rw [hch]
          exact (ih fuel (Nat.lt_succ_self _) hbody).pair hds hes hpair
        · exact (ih fuel (Nat.lt_succ_self _) hbody).lone hds hno
  · -- a character that stands for itself, unless it is a control character
    have hlow : 0x20 ≤ c.toNat := Nat.le_of_not_lt fun hlow => body_control hlow h
    have hwf : (Piece.char c).WellFormed := ⟨hquote, hslash, hlow⟩
    have hplain := plain_of_mem_encode hwf
    obtain ⟨tl, htl⟩ := exists_encode c
    have hlen : (String.utf8EncodeChar c).length = tl.length + 1 := by rw [htl]; rfl
    by_cases hfuel : fuel + 1 < (String.utf8EncodeChar c).length
    · exact absurd h (body_short hplain hfuel _ _)
    · obtain ⟨fuel', hf⟩ := Nat.exists_eq_add_of_le (Nat.le_of_not_lt hfuel)
      rw [hf, Cursor.at, ofChars_cons, body_plains _ _ _ hplain] at h
      obtain ⟨out, hbody, rfl⟩ := prepend_ok h
      exact (ih fuel' (by omega) hbody).char hwf

theorem width_text_pos (p : Piece) : 0 < width p.text :=
  width_pos (by cases p <;> exact List.cons_ne_nil _ _)

theorem width_spelling_cons (p : Piece) (ps : List Piece) :
    width (spelling (p :: ps)) = width p.text + width (spelling ps) := by
  rw [spelling_cons, width_append]

theorem width_char (c : Char) : width (Piece.char c).text = (String.utf8EncodeChar c).length := by
  rw [Piece.text, width, ofChars_cons, ofChars_nil, List.append_nil]

theorem width_escape (h : (escapes.lookup c).isSome = true) : width (Piece.escape c).text = 2 := by
  rw [Piece.text, width_ascii (by decide), width_ascii (ascii_of_escape h), width_nil]

theorem width_unicode (hds : HexQuad ds) : width (Piece.unicode ds).text = 6 := by
  rw [Piece.text, width_ascii (by decide), width_ascii (by decide),
    width_of_ascii fun c hc => Text.ascii_of_hexValue? (hds.2 c hc), hds.1]

/-- Enough fuel for pieces is enough for one of them and the rest. -/
theorem fuel_cons {p : Piece} (h : width (spelling (p :: ps)) < fuel) :
    ∃ fuel', fuel = fuel' + 1 ∧ width (spelling ps) < fuel' := by
  have := width_text_pos p
  rw [width_spelling_cons] at h
  exact ⟨fuel - 1, by omega, by omega⟩

/-- Where no piece is a hexadecimal escape at the front, only what follows can introduce one. -/
theorem introduces_of_spelling (hwf : ∀ p ∈ ps, p.WellFormed)
    (hps : ∀ es ps', ps = .unicode es :: ps' → False) (h : Introduces (spelling ps ++ rest)) :
    ps = [] := by
  obtain ⟨tl, h⟩ := h
  cases ps with
  | nil => rfl
  | cons p ps =>
    have hp := hwf p List.mem_cons_self
    cases p with
    | char c => exact absurd (List.cons.inj h).1 hp.2.1
    | escape c =>
      have hc : c = 'u' := (List.cons.inj (List.cons.inj h).2).1
      subst hc
      cases hp
    | unicode es => exact (hps es ps rfl).elim

/-- Where a hexadecimal escape is introduced, its digits cannot be read. -/
def NoHexEscape (rest : List Char) : Prop :=
  ∀ tl, rest = '\\' :: 'u' :: tl → ∀ pos, ∃ e, readHex 4 0 (Cursor.at pos tl) = .error e

theorem body_unicode (cs : List Char) :
    readStringBody start (fuel + 1) (Cursor.at pos ('\\' :: 'u' :: cs)) =
      match readUnicode (Cursor.at (pos + 2) cs) with
      | .error e => .error e
      | .ok (ch, c) => prepend (String.utf8EncodeChar ch) (readStringBody start fuel c) := by
  rw [body_escape, readEscape_unicode]

/-- The digits behind a first half are looked at before their escape is reached. -/
theorem body_early {e : DecodeError} (start fuel fuel' : Nat) (hds : HexQuad ds)
    (hhigh : isHighSurrogate (hexValue ds) = true)
    (he : readHex 4 0 (Cursor.at (pos + 8) cs) = .error e) :
    readStringBody start (fuel + 1)
        (Cursor.at pos ('\\' :: 'u' :: (ds ++ ('\\' :: 'u' :: cs)))) = .error e ∧
      readStringBody start (fuel' + 1) (Cursor.at (pos + 6) ('\\' :: 'u' :: cs)) = .error e := by
  constructor
  · rw [body_unicode, readUnicode_second _ hds hhigh he]
  · rw [body_unicode, readUnicode_error _ he]

/-- The pieces are read, and then what is behind them. If they end in the first half of a pair and a
hexadecimal escape follows, its failure is met early, but it is the same. -/
theorem body_spelling (start pos : Nat) (hwf : ∀ p ∈ ps, p.WellFormed) (hrest : NoHexEscape rest)
    (hfuel : width (spelling ps) < fuel) :
    ∃ fuel', fuel ≤ fuel' + width (spelling ps) ∧
      readStringBody start fuel (Cursor.at pos (spelling ps ++ rest)) =
        prepend (ofChars (content ps))
          (readStringBody start fuel' (Cursor.at (pos + width (spelling ps)) rest)) := by
  induction ps using content.induct generalizing fuel pos with
  | case1 => exact ⟨fuel, Nat.le_add_right _ _, (prepend_nil _).symm⟩
  | case2 c ps ih =>
    obtain ⟨hc, hps⟩ := List.forall_mem_cons.mp hwf
    rw [width_spelling_cons, width_char] at hfuel ⊢
    obtain ⟨fuel, rfl⟩ := Nat.exists_eq_add_of_le (Nat.le_of_lt (Nat.lt_of_le_of_lt
      (Nat.le_add_right _ _) hfuel))
    obtain ⟨fuel', hle, h⟩ := ih (pos + (String.utf8EncodeChar c).length) hps
      (show width (spelling ps) < fuel by omega)
    refine ⟨fuel', by omega, ?_⟩
    have hrun := body_plains start pos fuel (plain_of_mem_encode hc)
      (ofChars (spelling ps ++ rest))
    rw [content, ofChars_cons, prepend_append, ← Nat.add_assoc, ← h]
    exact hrun
  | case3 c ps ih =>
    obtain ⟨fuel, rfl, hless⟩ := fuel_cons hfuel
    obtain ⟨hc, hps⟩ := List.forall_mem_cons.mp hwf
    obtain ⟨ch, hch⟩ := Option.isSome_iff_exists.mp hc
    obtain ⟨fuel', hle, h⟩ := ih (pos + 2) hps hless
    rw [width_spelling_cons, width_escape hc, ← Nat.add_assoc]
    refine ⟨fuel', by omega, ?_⟩
    simp only [spelling_cons, Piece.text, List.cons_append, List.nil_append]
    rw [body_escape, readEscape_simple hch, content_escape hch, ofChars_cons, prepend_append, ← h]
  | case4 ds es ps hpair ih =>
    obtain ⟨fuel, rfl, hless⟩ := fuel_cons hfuel
    obtain ⟨hds, hps⟩ := List.forall_mem_cons.mp hwf
    obtain ⟨hes, hps⟩ := List.forall_mem_cons.mp hps
    rw [width_spelling_cons, width_unicode hes] at hless
    obtain ⟨fuel', hle, h⟩ := ih (pos + 12) hps (show width (spelling ps) < fuel by omega)
    rw [width_spelling_cons, width_spelling_cons, width_unicode hds, width_unicode hes,
      ← Nat.add_assoc, ← Nat.add_assoc]
    refine ⟨fuel', by omega, ?_⟩
    rw [spelling_unicode, spelling_unicode, body_unicode, readUnicode_pair _ _ hds hes hpair,
      content, if_pos hpair, ofChars_cons, prepend_append, ← h]
  | case5 ds es ps hpair ih =>
    obtain ⟨fuel, rfl, hless⟩ := fuel_cons hfuel
    obtain ⟨hds, hps⟩ := List.forall_mem_cons.mp hwf
    have hes := hps _ List.mem_cons_self
    have hsecond : isHighSurrogate (hexValue ds) = true →
        isLowSurrogate (hexValue es) = false := by
      intro hhigh
      rw [hhigh, Bool.true_and] at hpair
      exact Bool.eq_false_iff.mpr hpair
    have hu := readUnicode_lone (pos + 2) hds fun hhigh _ =>
      ⟨es, spelling ps ++ rest, spelling_unicode es ps rest, hes, hsecond hhigh⟩
    obtain ⟨fuel', hle, h⟩ := ih (pos + 6) hps hless
    rw [width_spelling_cons, width_unicode hds, ← Nat.add_assoc]
    refine ⟨fuel', by omega, ?_⟩
    rw [spelling_unicode, body_unicode, hu, content, if_neg hpair, ofChars_cons, prepend_append, ← h]
  | case6 ds ps hno ih =>
    obtain ⟨fuel, rfl, hless⟩ := fuel_cons hfuel
    obtain ⟨hds, hps⟩ := List.forall_mem_cons.mp hwf
    rw [width_spelling_cons, width_unicode hds, ← Nat.add_assoc, spelling_unicode]
    by_cases hearly : isHighSurrogate (hexValue ds) = true ∧ Introduces (spelling ps ++ rest)
    · obtain ⟨hhigh, hintro⟩ := hearly
      have hnil := introduces_of_spelling hps (fun es ps' h => hno es ps' h) hintro
      subst hnil
      obtain ⟨tl, rfl⟩ := hintro
      obtain ⟨e, he⟩ := hrest tl rfl (pos + 8)
      obtain ⟨fuel, rfl⟩ := Nat.exists_eq_add_of_lt hless
      obtain ⟨hnow, hlater⟩ := body_early start (width (spelling []) + fuel + 1)
        (width (spelling []) + fuel) hds hhigh he
      refine ⟨width (spelling []) + fuel + 1, by omega, hnow.trans ?_⟩
      rw [show width (spelling []) = 0 from rfl, Nat.add_zero] at hlater ⊢
      rw [hlater]
      rfl
    · have hcontent := content_lone rest hps fun hhigh _ tl h _ =>
        absurd ⟨hhigh, _, h⟩ hearly
      have hu := readUnicode_lone (pos + 2) hds fun hhigh h => absurd ⟨hhigh, h⟩ hearly
      obtain ⟨fuel', hle, h⟩ := ih (pos + 6) hps hless
      refine ⟨fuel', by omega, ?_⟩
      rw [body_unicode, hu, hcontent, ofChars_cons, prepend_append, ← h]

theorem body_append (start pos : Nat) (rest : List Char) (hwf : ∀ p ∈ ps, p.WellFormed)
    (hfuel : width (spelling ps) < fuel) :
    readStringBody start fuel (Cursor.at pos (spelling ps ++ '"' :: rest)) =
      .ok (ofChars (content ps), Cursor.at (pos + width (spelling ps) + 1) rest) := by
  obtain ⟨fuel', hle, h⟩ := body_spelling start pos hwf
    (show NoHexEscape ('"' :: rest) from fun _ h => by cases h) hfuel
  obtain ⟨fuel', rfl⟩ := Nat.exists_eq_add_of_le' (show 1 ≤ fuel' by omega)
  rw [h, body_quote, prepend, List.append_nil]

/-! ## Reading a string -/

theorem quoted_append (ps : List Piece) (rest : List Char) :
    quoted ps ++ rest = '"' :: (spelling ps ++ '"' :: rest) := by
  simp [quoted, spelling]

theorem readString_sound {s : String} (h : readString (Cursor.at pos cs) = .ok (s, c')) :
    ∃ ps rest pos', cs = quoted ps ++ rest ∧ (∀ p ∈ ps, p.WellFormed) ∧
      s = String.ofList (content ps) ∧ c' = Cursor.at pos' rest := by
  unfold readString at h
  split at h
  · next hp =>
    rw [peek_eq_byte (by decide)] at hp
    obtain ⟨tl, rfl⟩ := eq_cons_of_head? hp
    rw [step_ascii (by decide)] at h
    split at h
    · cases h
    · next hb =>
      obtain ⟨ps, rest, pos', rfl, hwf, rfl, rfl⟩ := (body_sound hb).spelled
      simp only [toText?_ofChars] at h
      cases h
      exact ⟨ps, rest, pos', (quoted_append ps rest).symm, hwf, rfl, rfl⟩
  · cases h

theorem width_quoted (ps : List Piece) : width (quoted ps) = width (spelling ps) + 2 := by
  have h := quoted_append ps []
  rw [List.append_nil] at h
  rw [h, width_ascii (by decide), width_append, width_ascii (by decide), width_nil]

theorem readString_append (pos : Nat) (rest : List Char) (hwf : ∀ p ∈ ps, p.WellFormed) :
    readString (Cursor.at pos (quoted ps ++ rest)) =
      .ok (String.ofList (content ps), Cursor.at (pos + width (quoted ps)) rest) := by
  have hfuel : width (spelling ps) < (ofChars (quoted ps ++ rest)).length := by
    change _ < width (quoted ps ++ rest)
    rw [width_append, width_quoted]
    omega
  have hp : (Cursor.at pos (quoted ps ++ rest)).peek = some (byte '"') :=
    (peek_eq_byte (by decide)).mpr rfl
  have hstep : (Cursor.at pos (quoted ps ++ rest)).step =
      Cursor.at (pos + 1) (spelling ps ++ '"' :: rest) := by
    rw [quoted_append, step_ascii (by decide)]
  unfold readString
  rw [if_pos hp, hstep, at_pos, at_rest, body_append pos (pos + 1) rest hwf hfuel]
  simp only [toText?_ofChars, width_quoted]
  congr 3
  omega

end ScriptServer.Json
