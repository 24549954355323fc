import ScriptServer.Proofs.Json.Walking

/-!
# Where numbers, words and strings stop

The readers of the tokens walk along their languages. The parts of a number are read one after the
other, so they follow from one lemma each. A string is different, since behind the first half of a
surrogate pair its reader looks further ahead than the next byte: every input is some pieces and
then a closing quote or something `Broken`, and `readString_broken` says which failure this gives.
-/

namespace ScriptServer.Json

variable {α β : Type} {L M : List Char → Prop} {pos start fuel : Nat} {c d : Char}
  {cs front rest rest' : List Char} {place : Place}

/-! ## Numbers -/

def silent (f : Cursor → Except DecodeError Cursor) : Reader Unit := fun c =>
  match f c with
  | .error e => .error e
  | .ok c => .ok ((), c)

/-- Goes behind the next byte if it is one of those that `p` names. -/
def skipOne (p : Option UInt8 → Prop) [DecidablePred p] : Reader Unit := fun c =>
  .ok ((), if p c.peek then c.step else c)

theorem noDigit_of_lead {c c' : Char} (h : lead c = lead c') (hc : Text.isDigit c = false) :
    Text.isDigit c' = false := by
  rw [← isDigitByte_lead, ← h, isDigitByte_lead, hc]

theorem SameLead.noDigit (h : SameLead rest rest') (hr : NoDigit rest) : NoDigit rest' :=
  h.head noDigit_of_lead hr

theorem walks_skipOne {p : Option UInt8 → Prop} [DecidablePred p] (hnone : ¬ p none)
    (hp : ∀ c, p (some (lead c)) → c.toNat < 0x80) (pos : Nat) (cs : List Char) :
    Walks (fun t => t = [] ∨ ∃ c, t = [c] ∧ p (some (lead c))) (skipOne p) pos cs := by
  by_cases h : p (cs.head?.map lead)
  · cases cs with
    | nil => exact absurd h hnone
    | cons c cs =>
      have hc : p (some (lead c)) := h
      refine (((Walks.give () (pos + 1) cs).step (hp c hc)).congr fun cs' hcs => ?_).mono ?_
      · rw [skipOne, hcs.peek pos, peek_cons, if_pos hc]
      · rintro _ ⟨_, rfl, rfl⟩
        exact .inr ⟨c, rfl, hc⟩
  · refine ((Walks.give () pos cs).congr fun cs' hcs => ?_).mono fun t ht => .inl ht
    rw [skipOne, hcs.peek pos, peek_at, if_neg h]

theorem walks_digits (place : Place) (pos : Nat) (cs : List Char) :
    Walks Text.IsNumeral (silent (readDigits place)) pos cs := by
  obtain ⟨ds, rest, rfl, hds, hrest, -⟩ := skipDigits_at pos cs
  by_cases hne : ds = []
  · subst hne
    refine (Walks.refuse ⟨['1'], by simp [Text.IsNumeral]; decide⟩ place pos rest).congr
      fun cs' hcs => ?_
    have hskip : skipDigits (Cursor.at pos cs') = Cursor.at pos cs' :=
      skipDigits_append hds (hcs.noDigit hrest)
    simp only [silent, readDigits, hskip, ↓reduceIte]
  · refine .sure () ds ⟨hne, hds⟩ fun rest' h => ?_
    simp only [silent, readDigits_append ⟨hne, hds⟩ (h.noDigit hrest),
      width_of_ascii fun c hc => ascii_of_isDigit (hds c hc)]

theorem walks_whole (pos : Nat) (cs : List Char) :
    Walks Text.IsWhole (silent readWhole) pos cs := by
  have hL : ∃ t, Text.IsWhole t := ⟨['0'], Text.isWhole_zero⟩
  cases cs with
  | nil =>
    refine (Walks.refuse hL .numeral pos []).congr fun cs' hcs => ?_
    rw [hcs.eq_nil]
    rfl
  | cons c cs =>
    by_cases h0 : c = '0'
    · subst h0
      refine .sure () ['0'] Text.isWhole_zero fun rest' _ => ?_
      simp only [silent, readWhole, List.singleton_append, peek_cons, lead_ascii
        (show '0'.toNat < 0x80 by decide), ↓reduceIte, step_ascii (show '0'.toNat < 0x80 by decide),
        width_ascii (show '0'.toNat < 0x80 by decide), width_nil, Nat.zero_add]
    by_cases hc : Text.isDigit c = true
    · obtain ⟨ds, rest, heq, hds, hrest, -⟩ := skipDigits_at pos (c :: cs)
      have hwhole : Text.IsWhole ds := by
        cases ds with
        | nil =>
          rw [List.nil_append] at heq
          rw [← heq] at hrest
          exact absurd (hrest c rfl) (by rw [hc]; decide)
        | cons d ds =>
          obtain ⟨rfl, rfl⟩ := List.cons.inj heq
          exact ⟨⟨List.cons_ne_nil _ _, hds⟩, fun h => absurd (Option.some.inj h) h0⟩
      rw [heq]
      refine .sure () ds hwhole fun rest' h => ?_
      simp only [silent, readWhole_append hwhole (h.noDigit hrest),
        width_of_ascii fun c hc => ascii_of_isDigit (hds c hc)]
    · refine (Walks.refuse hL .numeral pos (c :: cs)).congr fun cs' hcs => ?_
      have hzero : ¬ lead c = byte '0' := fun h => h0 ((lead_eq_byte (by decide)).mp h)
      have hdigit : ¬ (byte '1' ≤ lead c ∧ lead c ≤ byte '9') := fun h =>
        hc ((isNonzeroDigit_lead c).mp h).1
      simp only [silent, readWhole, hcs.peek pos, peek_cons, if_neg hzero, if_neg hdigit]

theorem walks_fraction (pos : Nat) (cs : List Char) :
    Walks (fun t => ∃ f, t = fractionText f ∧ ∀ ds ∈ f, Text.IsNumeral ds)
      (silent readFraction) pos cs := by
  have heq : silent readFraction = fun c =>
      if c.peek = some (byte '.') then silent (readDigits .fraction) c.step else .ok ((), c) := by
    funext c
    by_cases hp : c.peek = some (byte '.') <;> simp only [silent, readFraction, hp, ↓reduceIte]
  rw [heq]
  refine .step_or (by decide) (fun tl _ => walks_digits _ _ tl)
    ((Walks.give () pos cs).mono ?_) fun ds hds => ⟨some ds, rfl, by simpa using hds⟩
  rintro _ rfl
  exact ⟨none, rfl, by simp⟩

def IsSign (b : Option UInt8) : Prop := b = some (byte '+') ∨ b = some (byte '-')

instance : DecidablePred IsSign := fun _ => inferInstanceAs (Decidable (_ ∨ _))

theorem isSign_lead (c : Char) : IsSign (some (lead c)) ↔ c = '+' ∨ c = '-' := by
  rw [IsSign, Option.some.injEq, Option.some.injEq, lead_eq_byte (by decide),
    lead_eq_byte (by decide)]

def readPower : Reader Unit :=
  andThen (skipOne IsSign) fun _ => silent (readDigits .exponent)

theorem walks_power (pos : Nat) (cs : List Char) :
    Walks (fun t => ∃ sign : Option Char, ∃ ds, t = sign.toList ++ ds ∧
      (∀ s ∈ sign, s = '+' ∨ s = '-') ∧ Text.IsNumeral ds) readPower pos cs := by
  have hsign : ∀ c, IsSign (some (lead c)) → c.toNat < 0x80 := fun c h => by
    rcases (isSign_lead c).mp h with rfl | rfl <;> decide
  refine ((walks_skipOne (by simp [IsSign]) hsign pos cs).andThen
    ⟨['1'], by simp [Text.IsNumeral]; decide⟩ fun _ _ _ _ _ => walks_digits _ _ _).mono ?_
  rintro _ ⟨_, ds, rfl, rfl | ⟨c, rfl, hc⟩, hds⟩
  · exact ⟨none, ds, rfl, by simp, hds⟩
  · exact ⟨some c, ds, rfl, by simpa using (isSign_lead c).mp hc, hds⟩

theorem walks_exponent (pos : Nat) (cs : List Char) :
    Walks (fun t => ∃ e, t = exponentText e ∧ ∀ x ∈ e, x.WellFormed)
      (silent readExponent) pos cs := by
  have hpower : ∀ c : Cursor, c.peek = some (byte 'e') ∨ c.peek = some (byte 'E') →
      silent readExponent c = readPower c.step := fun c hc => by
    simp only [silent, readExponent, if_pos hc, readPower, andThen, skipOne, IsSign]
    rfl
  by_cases h : cs.head? = some 'e' ∨ cs.head? = some 'E'
  · obtain ⟨marker, tl, rfl, hm⟩ : ∃ m tl, cs = m :: tl ∧ (m = 'e' ∨ m = 'E') := by
      rcases h with h | h <;> obtain ⟨tl, rfl⟩ := eq_cons_of_head? h
      · exact ⟨_, _, rfl, .inl rfl⟩
      · exact ⟨_, _, rfl, .inr rfl⟩
    have hascii : marker.toNat < 0x80 := by rcases hm with rfl | rfl <;> decide
    refine (((walks_power (pos + 1) tl).step hascii).congr fun cs' hcs => hpower _ ?_).mono ?_
    · rw [hcs.peek pos, peek_eq_either (by decide) (by decide)]
      exact h
    · rintro _ ⟨_, rfl, sign, ds, rfl, hs, hds⟩
      exact ⟨some ⟨marker, sign, ds⟩, rfl, by simpa using ⟨hm, hs, hds⟩⟩
  · refine ((Walks.give () pos cs).congr fun cs' hcs => ?_).mono ?_
    · have hp : ¬ ((Cursor.at pos cs').peek = some (byte 'e') ∨
          (Cursor.at pos cs').peek = some (byte 'E')) := by
        rw [hcs.peek pos, peek_eq_either (by decide) (by decide)]
        exact h
      simp only [silent, readExponent, if_neg hp]
    · rintro _ rfl
      exact ⟨none, rfl, by simp⟩

def IsLiteral (t : List Char) : Prop := ∃ l : Literal, t = l.text ∧ l.WellFormed

theorem walks_skipNumber (pos : Nat) (cs : List Char) :
    Walks IsLiteral (silent skipNumber) pos cs := by
  have heq : ∀ c, silent skipNumber c =
      andThen (skipOne (· = some (byte '-'))) (fun _ => andThen (silent readWhole) fun _ =>
        andThen (silent readFraction) fun _ => silent readExponent) c := by
    intro c
    simp only [silent, skipNumber, andThen, skipOne, bind, Except.bind]
    cases readWhole (if c.peek = some (byte '-') then c.step else c) with
    | error e => rfl
    | ok c₁ =>
      simp only
      cases readFraction c₁ with
      | error e => rfl
      | ok c₂ => rfl
  have hminus : ∀ c, some (lead c) = some (byte '-') → c.toNat < 0x80 := fun c h => by
    rw [Option.some.injEq, lead_eq_byte (by decide)] at h
    subst h
    decide
  have hexp : ∃ t, ∃ e : Option Exponent, t = exponentText e ∧ ∀ x ∈ e, x.WellFormed :=
    ⟨[], none, rfl, by simp⟩
  have hfraction := fun pos cs => (walks_fraction pos cs).andThen hexp
    fun _ _ _ _ _ => walks_exponent _ _
  have hwhole := fun pos cs => (walks_whole pos cs).andThen
    ⟨[], [], [], rfl, ⟨none, rfl, by simp⟩, ⟨none, rfl, by simp⟩⟩ fun _ _ _ _ _ => hfraction _ _
  refine (((walks_skipOne (by simp) hminus pos cs).andThen
    ⟨['0'], ['0'], [], rfl, Text.isWhole_zero, [], [], rfl, ⟨none, rfl, by simp⟩,
      ⟨none, rfl, by simp⟩⟩ fun _ _ _ _ _ => hwhole _ _).congr fun cs' _ => heq _).mono ?_
  rintro _ ⟨m, _, rfl, hm, w, _, rfl, hw, _, _, rfl, ⟨f, rfl, hf⟩, ⟨e, rfl, he⟩⟩
  have hminus' : ∃ minus, m = minusText minus := by
    rcases hm with rfl | ⟨c, rfl, hc⟩
    · exact ⟨false, rfl⟩
    · rw [Option.some.injEq, lead_eq_byte (by decide)] at hc
      exact ⟨true, by rw [hc]; rfl⟩
  obtain ⟨minus, rfl⟩ := hminus'
  exact ⟨⟨minus, w, f, e⟩, by rw [Literal.text_eq], hw, hf, he⟩

theorem silent_ok {f : Cursor → Except DecodeError Cursor} {c c' : Cursor} :
    silent f c = .ok ((), c') ↔ f c = .ok c' := by
  unfold silent
  cases f c <;> simp

theorem silent_error {f : Cursor → Except DecodeError Cursor} {c : Cursor} {e : DecodeError} :
    silent f c = .error e ↔ f c = .error e := by
  unfold silent
  cases f c <;> simp

/-- A literal that is read is one, so its value is never missing; it may only be too large. -/
theorem walks_number (pos : Nat) (cs : List Char) : Walks IsLiteral readNumber pos cs := by
  have hskip := walks_skipNumber pos cs
  cases hread : skipNumber (Cursor.at pos cs) with
  | error e =>
    refine .fail (by simp only [readNumber, hread])
      ((hskip.halts (silent_error.mpr hread)).imp id fun _ h => ?_)
    simp only [readNumber, silent_error.mp h]
  | ok c' =>
    obtain ⟨_, rest, rfl, ⟨l, rfl, hl⟩, again⟩ := hskip.goes (silent_ok.mpr hread)
    have hwidth := width_of_ascii (ascii_text hl)
    have hnumber : ∀ rest', SameLead rest rest' → readNumber (Cursor.at pos (l.text ++ rest')) =
        if l.value.isFinite then .ok (.number l.value, Cursor.at (pos + width l.text) rest')
        else .error ⟨.outOfRange (String.ofList l.text), pos⟩ := fun rest' h => by
      have hs := silent_ok.mp (again rest' h)
      rw [hwidth] at hs ⊢
      exact readNumber_of_skip hl hs
    by_cases hfin : l.value.isFinite = true
    · refine .sure (.number l.value) l.text ⟨l, rfl, hl⟩ fun rest' h => ?_
      rw [hnumber rest' h, if_pos hfin]
    · have herror := hnumber rest (.refl _)
      rw [if_neg hfin] at herror
      exact .fail herror (.limit trivial (Nat.le_add_right _ _))

/-! ## Words -/

/-- An input that ends too early is reported at some place before its end. -/
theorem Walks.ended {r : Reader α} {e : DecodeError} (hr : r (Cursor.at pos []) = .error e)
    (hcause : e.cause.AtEnd) (hle : e.offset ≤ pos) (hL : ∃ t, L t) : Walks L r pos [] :=
  .fail hr (.ending hcause hle hL)

theorem walks_word (word : String) {ws : List Char} (hws : ∀ c ∈ ws, c.toNat < 0x80)
    (hle : start ≤ pos) (cs : List Char) :
    Walks (· = ws) (silent (readWord word start (Utf8.ofChars ws))) pos cs := by
  induction ws generalizing pos cs with
  | nil => exact (Walks.give () pos cs).congr fun _ _ => rfl
  | cons w ws ih =>
    obtain ⟨hw, htl⟩ := List.forall_mem_cons.mp hws
    rw [Utf8.ofChars_cons, encode_ascii hw, List.singleton_append]
    cases cs with
    | nil => exact .ended rfl trivial hle ⟨w :: ws, rfl⟩
    | cons c cs =>
      by_cases hc : c = w
      · subst hc
        refine (((ih htl (Nat.le_succ_of_le hle) cs).step hw).congr fun cs' h => ?_).mono ?_
        · simp only [silent, readWord, h.peek pos, peek_cons, lead_ascii hw, ↓reduceIte]
        · rintro _ ⟨_, rfl, rfl⟩
          rfl
      · refine (Walks.refuse (L := (· = w :: ws)) ⟨_, rfl⟩ (.literal word) pos (c :: cs)).congr fun cs' h => ?_
        have hne : ¬ lead c = byte w := fun h => hc ((lead_eq_byte hw).mp h)
        simp only [silent, readWord, h.peek pos, peek_cons, if_neg hne]

theorem walks_literal {word : String} (v : Tree)
    (hw : (word.toList.all fun c => c.toNat < 0x80) = true) (pos : Nat) (cs : List Char) :
    Walks (· = word.toList) (readLiteral word v) pos cs := by
  refine ((walks_word word (by simpa using hw) (Nat.le_refl pos) cs).mapRead
    fun _ => v).congr fun cs' _ => ?_
  simp only [readLiteral, mapRead, silent, at_pos, Utf8.ofText]
  cases readWord word pos (Utf8.ofChars word.toList) (Cursor.at pos cs') <;> rfl

/-! ## Strings -/

/-- A string cannot go on: `front` begins a piece or is empty, and `rest`, if there is any of it,
does not continue it. -/
inductive Broken : Place → List Char → List Char → Prop
  | char {rest : List Char} (h : ∀ c ∈ rest.head?, c.toNat < 0x20) : Broken .stringBody [] rest
  | escape {rest : List Char} (h : ∀ c ∈ rest.head?, escapes.lookup c = none ∧ c ≠ 'u') :
    Broken .escapeCode ['\\'] rest
  | digits {ds rest : List Char} (hlen : ds.length < 4) (hds : ∀ c ∈ ds, (Text.hexValue? c).isSome = true)
    (h : ∀ c ∈ rest.head?, Text.hexValue? c = none) : Broken .hexEscape ('\\' :: 'u' :: ds) rest

def brokenError (start pos : Nat) (place : Place) (front rest : List Char) : DecodeError :=
  if front ++ rest = [] then ⟨.unterminatedString, start⟩
  else (Cursor.at (pos + width front) rest).unexpected place

theorem lead_lt_space (c : Char) : lead c < 0x20 ↔ c.toNat < 0x20 := by
  rw [UInt8.lt_iff_toNat_lt]
  change _ < 32 ↔ _
  have := toNat_lead c
  omega

theorem Broken.congr (h : Broken place front rest) (hrest : SameLead rest rest') :
    Broken place front rest' := by
  cases h with
  | char h =>
    refine .char (hrest.head (fun {c c'} hlead hc => ?_) h)
    rwa [← lead_lt_space, ← hlead, lead_lt_space]
  | escape h =>
    refine .escape (hrest.head (fun {c c'} hlead hc => ?_) h)
    rw [← simpleEscape?_lead, ← hlead, simpleEscape?_lead]
    refine ⟨hc.1, fun hu => hc.2 ?_⟩
    subst hu
    exact (lead_eq_byte (by decide)).mp (hlead.trans (lead_ascii (by decide)))
  | digits hlen hds h =>
    refine .digits hlen hds (hrest.head (fun {c c'} hlead hc => ?_) h)
    rw [← hexByte?_lead, ← hlead, hexByte?_lead, hc]

/-- What is broken was right so far. -/
theorem Broken.opens (h : Broken place front rest) :
    ∃ more ps, front ++ more = spelling ps ++ ['"'] ∧ ∀ p ∈ ps, p.WellFormed := by
  cases h with
  | char => exact ⟨['"'], [], rfl, by simp⟩
  | escape =>
    refine ⟨['n', '"'], [.escape 'n'], rfl, ?_⟩
    rw [List.forall_mem_singleton]
    show (escapes.lookup 'n').isSome = true
    decide
  | @digits ds _ hlen hds =>
    refine ⟨List.replicate (4 - ds.length) '0' ++ ['"'],
      [.unicode (ds ++ List.replicate (4 - ds.length) '0')], by simp [spelling, Piece.text], ?_⟩
    rw [List.forall_mem_singleton]
    refine ⟨by rw [List.length_append, List.length_replicate]; omega, fun c hc => ?_⟩
    rcases List.mem_append.mp hc with hc | hc
    · exact hds c hc
    · rw [List.eq_of_mem_replicate hc]
      decide

theorem readHex_broken {k : Nat} {ds : List Char} (acc pos : Nat) (hlen : ds.length < k)
    (hds : ∀ c ∈ ds, (Text.hexValue? c).isSome = true)
    (h : ∀ c ∈ rest.head?, Text.hexValue? c = none) :
    readHex k acc (Cursor.at pos (ds ++ rest)) =
      .error ((Cursor.at (pos + ds.length) rest).unexpected .hexEscape) := by
  obtain ⟨k, rfl⟩ := Nat.exists_eq_succ_of_ne_zero (Nat.ne_of_gt (Nat.zero_lt_of_lt hlen))
  induction ds generalizing acc pos k with
  | nil =>
    cases rest with
    | nil => rfl
    | cons c rest =>
      simp only [readHex, List.nil_append, peek_cons, hexByte?_lead, h c rfl, List.length_nil,
        Nat.add_zero]
  | cons c ds ih =>
    obtain ⟨hc, hds⟩ := List.forall_mem_cons.mp hds
    obtain ⟨v, hv⟩ := Option.isSome_iff_exists.mp hc
    obtain ⟨k, rfl⟩ := Nat.exists_eq_succ_of_ne_zero
      (show k ≠ 0 by rintro rfl; simp at hlen)
    rw [readHex, List.cons_append, peek_cons]
    simp only [hexByte?_lead, hv, step_ascii (Text.ascii_of_hexValue? hc)]
    rw [ih _ _ hds _ (Nat.lt_of_succ_lt_succ hlen), List.length_cons, Nat.add_assoc,
      Nat.add_comm 1]

theorem Broken.noHexEscape (h : Broken place front rest) : NoHexEscape (front ++ rest) := by
  intro tl htl pos
  cases h with
  | char h =>
    rw [List.nil_append] at htl
    subst htl
    exact absurd (h _ rfl) (by decide)
  | escape h =>
    have hrest : rest = 'u' :: tl := (List.cons.inj htl).2
    subst hrest
    exact absurd rfl (h _ rfl).2
  | digits hlen hds h =>
    have hrest := (List.cons.inj (List.cons.inj htl).2).2
    subst hrest
    exact ⟨_, readHex_broken 0 pos hlen hds h⟩

theorem body_broken (h : Broken place front rest) (start pos fuel : Nat) :
    readStringBody start (fuel + 1) (Cursor.at pos (front ++ rest)) =
      .error (brokenError start pos place front rest) := by
  cases h with
  | char h =>
    cases rest with
    | nil => rfl
    | cons c rest =>
      have hlow : c.toNat < 0x20 := h c rfl
      have hquote : ¬ lead c = byte '"' := fun he => by
        rw [(lead_eq_byte (by decide)).mp he] at hlow
        exact absurd hlow (by decide)
      have hslash : ¬ lead c = byte '\\' := fun he => by
        rw [(lead_eq_byte (by decide)).mp he] at hlow
        exact absurd hlow (by decide)
      simp only [List.nil_append, readStringBody, peek_cons, if_neg hquote, if_neg hslash,
        if_pos ((lead_lt_space c).mpr hlow), brokenError, reduceCtorEq, ↓reduceIte, width_nil,
        Nat.add_zero]
  | escape h =>
    rw [List.singleton_append, body_escape, brokenError, if_neg (by simp),
      width_ascii (by decide), width_nil]
    cases rest with
    | nil => rfl
    | cons c rest =>
      obtain ⟨hnone, hu⟩ := h c rfl
      have hne : ¬ lead c = byte 'u' := fun he => hu ((lead_eq_byte (by decide)).mp he)
      simp only [readEscape, peek_cons, simpleEscape?_lead, hnone, if_neg hne, Nat.zero_add]
  | @digits ds _ hlen hds h =>
    have hascii : width ds = ds.length :=
      width_of_ascii fun c hc => Text.ascii_of_hexValue? (hds c hc)
    rw [List.cons_append, List.cons_append, body_unicode,
      readUnicode_error _ (readHex_broken 0 _ hlen hds h), brokenError, if_neg (by simp),
      width_ascii (by decide), width_ascii (by decide), hascii]
    simp only [Nat.add_comm, Nat.add_left_comm]

/-- What a string ends with: a quote, or something that breaks it. -/
def Ends (tl : List Char) : Prop :=
  (∃ rest, tl = '"' :: rest) ∨ ∃ place front rest, tl = front ++ rest ∧ Broken place front rest

theorem split_hex (k : Nat) (cs : List Char) : ∃ ds rest, cs = ds ++ rest ∧
    (∀ c ∈ ds, (Text.hexValue? c).isSome = true) ∧
    (ds.length = k ∨ ds.length < k ∧ ∀ c ∈ rest.head?, Text.hexValue? c = none) := by
  induction k generalizing cs with
  | zero => exact ⟨[], cs, rfl, by simp, .inl rfl⟩
  | succ k ih =>
    cases cs with
    | nil => exact ⟨[], [], rfl, by simp, .inr ⟨Nat.succ_pos k, by simp⟩⟩
    | cons c cs =>
      cases hc : Text.hexValue? c with
      | none => exact ⟨[], c :: cs, rfl, by simp, .inr ⟨Nat.succ_pos k, by simpa using hc⟩⟩
      | some v =>
        obtain ⟨ds, rest, rfl, hds, hlen⟩ := ih cs
        refine ⟨c :: ds, rest, rfl, List.forall_mem_cons.mpr ⟨by rw [hc]; rfl, hds⟩, ?_⟩
        rw [List.length_cons]
        exact hlen.imp (congrArg (· + 1)) (And.imp_left Nat.succ_lt_succ)

/-- Every input is some pieces and an end. -/
theorem exists_spelling (cs : List Char) :
    ∃ ps tl, cs = spelling ps ++ tl ∧ (∀ p ∈ ps, p.WellFormed) ∧ Ends tl := by
  induction hn : cs.length using Nat.strongRecOn generalizing cs with
  | _ n ih =>
  have ends : ∀ {tl}, Ends tl → ∃ ps tl', tl = spelling ps ++ tl' ∧ (∀ p ∈ ps, p.WellFormed) ∧
      Ends tl' := fun h => ⟨[], _, rfl, by simp, h⟩
  -- a piece, and the pieces of what follows
  have piece : ∀ (p : Piece) (rest : List Char), p.WellFormed → rest.length < n →
      ∃ ps tl, p.text ++ rest = spelling ps ++ tl ∧ (∀ p ∈ ps, p.WellFormed) ∧ Ends tl := by
    intro p rest hp hlt
    obtain ⟨ps, tl, rfl, hps, htl⟩ := ih _ hlt rest rfl
    exact ⟨p :: ps, tl, by rw [spelling_cons, List.append_assoc],
      List.forall_mem_cons.mpr ⟨hp, hps⟩, htl⟩
  cases cs with
  | nil => exact ends (.inr ⟨_, [], [], rfl, .char (by simp)⟩)
  | cons c cs =>
  rw [List.length_cons] at hn
  by_cases hquote : c = '"'
  · subst hquote
    exact ends (.inl ⟨cs, rfl⟩)
  by_cases hslash : c = '\\'
  · subst hslash
    cases cs with
    | nil => exact ends (.inr ⟨_, ['\\'], [], rfl, .escape (by simp)⟩)
    | cons d cs =>
    rw [List.length_cons] at hn
    cases hl : escapes.lookup d with
    | some ch =>
      exact piece (.escape d) cs (show (escapes.lookup d).isSome = true by rw [hl]; rfl) (by omega)
    | none =>
    by_cases hu : d = 'u'
    · subst hu
      obtain ⟨ds, rest, rfl, hds, hlen | ⟨hlen, hrest⟩⟩ := split_hex 4 cs
      · rw [List.length_append] at hn
        exact piece (.unicode ds) rest ⟨hlen, hds⟩ (by omega)
      · exact ends (.inr ⟨_, '\\' :: 'u' :: ds, rest, rfl, .digits hlen hds hrest⟩)
    · refine ends (.inr ⟨_, ['\\'], d :: cs, rfl, .escape fun c hc => ?_⟩)
      rw [← Option.some.inj hc]
      exact ⟨hl, hu⟩
  by_cases hlow : c.toNat < 0x20
  · exact ends (.inr ⟨_, [], c :: cs, rfl, .char (by simpa using hlow)⟩)
  · exact piece (.char c) cs ⟨hquote, hslash, Nat.le_of_not_lt hlow⟩ (by omega)

theorem readString_broken {ps : List Piece} (hwf : ∀ p ∈ ps, p.WellFormed)
    (h : Broken place front rest) (pos : Nat) :
    readString (Cursor.at pos ('"' :: (spelling ps ++ (front ++ rest)))) =
      .error (brokenError pos (pos + 1 + width (spelling ps)) place front rest) := by
  have hp : (Cursor.at pos ('"' :: (spelling ps ++ (front ++ rest)))).peek = some (byte '"') :=
    (peek_eq_byte (by decide)).mpr rfl
  have hfuel : width (spelling ps) < width ('"' :: (spelling ps ++ (front ++ rest))) := by
    rw [width_ascii (by decide), width_append]
    omega
  obtain ⟨fuel, hle, hbody⟩ := body_spelling pos (pos + 1) hwf h.noHexEscape hfuel
  obtain ⟨fuel, rfl⟩ := Nat.exists_eq_add_of_le' (show 1 ≤ fuel by omega)
  rw [body_broken h] at hbody
  rw [width] at hbody
  unfold readString
  rw [if_pos hp, step_ascii (by decide), at_pos, at_rest, hbody]
  rfl

def IsQuoted (t : List Char) : Prop := ∃ ps, t = quoted ps ∧ ∀ p ∈ ps, p.WellFormed

theorem brokenError_nil (place : Place) (front : List Char) (hle : start ≤ pos) :
    (brokenError start pos place front []).cause.AtEnd ∧
      (brokenError start pos place front []).offset ≤ pos + width front := by
  unfold brokenError
  split
  · exact ⟨trivial, Nat.le_trans hle (Nat.le_add_right _ _)⟩
  · exact ⟨trivial, Nat.le_refl _⟩

theorem brokenError_cons (start pos : Nat) (place : Place) (front : List Char) (c : Char)
    (rest : List Char) : brokenError start pos place front (c :: rest) =
      ⟨.unexpectedByte (lead c) place, pos + width front⟩ := by
  rw [brokenError, if_neg (by simp), Cursor.unexpected, peek_cons]
  rfl

theorem Broken.opens_quoted {ps : List Piece} (h : Broken place front rest)
    (hwf : ∀ p ∈ ps, p.WellFormed) : Opens IsQuoted ('"' :: (spelling ps ++ front)) := by
  obtain ⟨more, ps', hmore, hps'⟩ := h.opens
  refine ⟨more, ps ++ ps', ?_, fun p hp => (List.mem_append.mp hp).elim (hwf p) (hps' p)⟩
  rw [List.cons_append, List.append_assoc, hmore, quoted, List.flatMap_append, List.append_assoc]
  rfl

/-- A broken string fails where it breaks, or at its end. -/
theorem halts_broken {ps : List Piece} (hwf : ∀ p ∈ ps, p.WellFormed)
    (h : Broken place front rest) (pos : Nat) :
    Halts IsQuoted readString pos ('"' :: (spelling ps ++ (front ++ rest)))
      (brokenError pos (pos + 1 + width (spelling ps)) place front rest) := by
  have hopens := h.opens_quoted hwf
  have hwidth : width ('"' :: (spelling ps ++ front)) = 1 + width (spelling ps) + width front := by
    rw [width_ascii (by decide), width_append]
    omega
  cases rest with
  | nil =>
    obtain ⟨hcause, hoffset⟩ := brokenError_nil place front
      (show pos ≤ pos + 1 + width (spelling ps) by omega)
    rw [List.append_nil]
    exact .ending hcause (by omega) hopens
  | cons c rest =>
    rw [brokenError_cons]
    refine .byte ('"' :: (spelling ps ++ front)) (c :: rest) (by simp) (List.cons_ne_nil _ _)
      hopens trivial (by rw [hwidth]; simp only [Nat.add_assoc]) fun rest' hrest => ?_
    rw [List.cons_append, List.append_assoc, readString_broken hwf (h.congr hrest)]
    cases rest' with
    | nil => cases hrest
    | cons c' rest' => rw [brokenError_cons, Option.some.inj hrest]

theorem walks_string (pos : Nat) (cs : List Char) : Walks IsQuoted readString pos cs := by
  by_cases hq : cs.head? = some '"'
  · obtain ⟨tl, rfl⟩ := eq_cons_of_head? hq
    obtain ⟨ps, tl, rfl, hps, ⟨rest, rfl⟩ | ⟨place, front, rest, rfl, hb⟩⟩ := exists_spelling tl
    · rw [← quoted_append]
      exact .sure (String.ofList (content ps)) (quoted ps) ⟨ps, rfl, hps⟩ fun rest' _ =>
        readString_append pos rest' hps
    · exact .fail (readString_broken hps hb pos) (halts_broken hps hb pos)
  · refine (Walks.refuse ⟨quoted [], [], rfl, by simp⟩ .stringStart pos cs).congr fun cs' hcs => ?_
    have hp : ¬ (Cursor.at pos cs').peek = some (byte '"') := by
      rw [hcs.peek pos, peek_eq_byte (by decide)]
      exact hq
    simp only [readString, if_neg hp]

end ScriptServer.Json
