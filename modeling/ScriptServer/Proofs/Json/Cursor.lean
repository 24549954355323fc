import ScriptServer.Proofs.Json.Grammar
import ScriptServer.Proofs.Text.Utf8

/-!
# Cursors over a text

The reader walks bytes, the grammar is written over characters. `Cursor.at pos cs` stands before the
characters `cs`; `lead` is the byte at which it looks. An ASCII character is told by this byte, and
a step goes behind it.
-/

namespace ScriptServer.Json

open Utf8

/-! ## The first byte of a character -/

def lead (c : Char) : UInt8 := (String.utf8EncodeChar c).headD 0

theorem encode_ascii {c : Char} (h : c.toNat < 0x80) : String.utf8EncodeChar c = [byte c] :=
  encode_one h

theorem toNat_byte {c : Char} (h : c.toNat < 0x80) : (byte c).toNat = c.toNat :=
  toNat_ofNat_of_lt (by omega)

theorem exists_encode (c : Char) : ∃ bs, String.utf8EncodeChar c = lead c :: bs := by
  have hne : String.utf8EncodeChar c ≠ [] := by
    by_cases h : c.toNat < 0x80
    · rw [encode_ascii h]; exact List.cons_ne_nil _ _
    · intro h0
      have := next_encode c []
      rw [h0] at this
      cases this
  obtain ⟨b, bs, h⟩ := List.exists_cons_of_ne_nil hne
  exact ⟨bs, by rw [lead, h]; rfl⟩

theorem lead_ascii {c : Char} (h : c.toNat < 0x80) : lead c = byte c := by
  rw [lead, encode_ascii h]; rfl

/-- The first byte is the character or both lie outside ASCII. -/
theorem toNat_lead (c : Char) :
    (lead c).toNat = c.toNat ∧ c.toNat < 0x80 ∨ 0x80 ≤ (lead c).toNat ∧ 0x80 ≤ c.toNat := by
  by_cases h : c.toNat < 0x80
  · exact .inl ⟨by rw [lead_ascii h, toNat_byte h], h⟩
  · obtain ⟨bs, hbs⟩ := exists_encode c
    exact .inr ⟨mem_encode_ge (by omega) (hbs ▸ List.mem_cons_self), by omega⟩

theorem lead_eq_byte {c d : Char} (hd : d.toNat < 0x80) : lead c = byte d ↔ c = d := by
  rw [← UInt8.toNat_inj, toNat_byte hd, ← Char.toNat_inj]
  have := toNat_lead c
  omega

theorem isDigitByte_lead (c : Char) : isDigitByte (lead c) = Text.isDigit c := by
  rw [Bool.eq_iff_iff, Text.isDigit_iff, isDigitByte, Bool.and_eq_true, decide_eq_true_eq,
    decide_eq_true_eq, UInt8.le_iff_toNat_le, UInt8.le_iff_toNat_le]
  change 48 ≤ _ ∧ _ ≤ 57 ↔ _
  have := toNat_lead c
  omega

theorem isBlankByte_lead (c : Char) : isBlankByte (lead c) = isBlank c := by
  rw [Bool.eq_iff_iff]
  simp only [isBlankByte, isBlank, Bool.or_eq_true, beq_iff_eq]
  rw [lead_eq_byte (by decide), lead_eq_byte (by decide), lead_eq_byte (by decide),
    lead_eq_byte (by decide)]
  tauto

theorem ascii_of_isDigit {c : Char} (h : Text.isDigit c = true) : c.toNat < 0x80 := by
  have := Text.isDigit_iff.mp h
  omega

theorem ascii_of_isBlank {c : Char} (h : isBlank c = true) : c.toNat < 0x80 := by
  simp only [isBlank, Bool.or_eq_true, beq_iff_eq] at h
  rcases h with ((rfl | rfl) | rfl) | rfl <;> decide

/-! ## Looking and stepping -/

def Cursor.at (pos : Nat) (cs : List Char) : Cursor := ⟨pos, ofChars cs⟩

variable {pos : Nat} {c d : Char} {cs : List Char}

@[simp] theorem at_pos : (Cursor.at pos cs).pos = pos := rfl

@[simp] theorem at_rest : (Cursor.at pos cs).rest = ofChars cs := rfl

@[simp] theorem peek_nil : (Cursor.at pos []).peek = none := rfl

@[simp] theorem peek_cons : (Cursor.at pos (c :: cs)).peek = some (lead c) := by
  obtain ⟨bs, h⟩ := exists_encode c
  rw [Cursor.peek, at_rest, ofChars_cons, h]; rfl

theorem peek_eq_byte (hd : d.toNat < 0x80) :
    (Cursor.at pos cs).peek = some (byte d) ↔ cs.head? = some d := by
  cases cs with
  | nil => simp
  | cons c cs => rw [peek_cons, Option.some.injEq, lead_eq_byte hd, List.head?_cons,
      Option.some.injEq]

theorem peek_eq_either {d' : Char} (hd : d.toNat < 0x80) (hd' : d'.toNat < 0x80) :
    ((Cursor.at pos cs).peek = some (byte d) ∨ (Cursor.at pos cs).peek = some (byte d')) ↔
      (cs.head? = some d ∨ cs.head? = some d') := by
  rw [peek_eq_byte hd, peek_eq_byte hd']

theorem step_ascii (h : c.toNat < 0x80) :
    (Cursor.at pos (c :: cs)).step = Cursor.at (pos + 1) cs := by
  simp only [Cursor.step, Cursor.at, ofChars_cons, encode_ascii h]; rfl

theorem eq_cons_of_head? (h : cs.head? = some c) : ∃ tl, cs = c :: tl := by
  cases cs with
  | nil => cases h
  | cons _ tl => exact ⟨tl, by rw [Option.some.inj h]⟩

theorem ofChars_eq_nil : ofChars cs = [] ↔ cs = [] := by
  cases cs with
  | nil => simp
  | cons c cs =>
    obtain ⟨bs, h⟩ := exists_encode c
    simp [h]

theorem length_le_ofChars (cs : List Char) : cs.length ≤ (ofChars cs).length := by
  induction cs with
  | nil => exact Nat.le_refl _
  | cons c cs ih =>
    obtain ⟨bs, h⟩ := exists_encode c
    rw [ofChars_cons, h]
    simp only [List.length_cons, List.length_append]
    omega

theorem length_ofChars_ascii (h : ∀ c ∈ cs, c.toNat < 0x80) : (ofChars cs).length = cs.length := by
  induction cs with
  | nil => rfl
  | cons c cs ih =>
    obtain ⟨hc, hcs⟩ := List.forall_mem_cons.mp h
    rw [ofChars_cons, encode_ascii hc, List.singleton_append, List.length_cons, ih hcs,
      List.length_cons]

def width (cs : List Char) : Nat := (ofChars cs).length

@[simp] theorem width_nil : width [] = 0 := rfl

@[simp] theorem width_append (a b : List Char) : width (a ++ b) = width a + width b := by
  rw [width, ofChars_append, List.length_append, width, width]

theorem width_ascii (h : c.toNat < 0x80) (cs : List Char) : width (c :: cs) = width cs + 1 := by
  rw [width, ofChars_cons, encode_ascii h, List.singleton_append, List.length_cons, width]

theorem width_of_ascii (h : ∀ c ∈ cs, c.toNat < 0x80) : width cs = cs.length :=
  length_ofChars_ascii h

theorem width_pos (h : cs ≠ []) : 0 < width cs :=
  List.length_pos_of_ne_nil (mt ofChars_eq_nil.mp h)

/-! ## Going behind characters of a kind -/

section

variable {p : UInt8 → Bool} {q : Char → Bool}

/-- What is skipped are characters of the kind, and none of it follows. -/
theorem skipWhile_at (hp : ∀ c, p (lead c) = q c) (hq : ∀ c, q c = true → c.toNat < 0x80)
    (pos : Nat) (cs : List Char) :
    ∃ front rest, cs = front ++ rest ∧ (∀ c ∈ front, q c = true) ∧
      (∀ c ∈ rest.head?, q c = false) ∧
      Cursor.skipWhile p pos (ofChars cs) = Cursor.at (pos + front.length) rest := by
  induction cs generalizing pos with
  | nil => exact ⟨[], [], rfl, by simp, by simp, rfl⟩
  | cons c cs ih =>
    cases hc : q c with
    | true =>
      obtain ⟨front, rest, rfl, hfront, hrest, h⟩ := ih (pos + 1)
      refine ⟨c :: front, rest, rfl, ?_, hrest, ?_⟩
      · exact List.forall_mem_cons.mpr ⟨hc, hfront⟩
      · have hpc := hp c
        rw [ofChars_cons, encode_ascii (hq c hc), List.singleton_append, Cursor.skipWhile,
          ← lead_ascii (hq c hc), hpc, hc, if_pos rfl, h, List.length_cons]
        congr 1; omega
    | false =>
      obtain ⟨bs, hbs⟩ := exists_encode c
      refine ⟨[], c :: cs, rfl, by simp, by simpa using hc, ?_⟩
      rw [Cursor.at, ofChars_cons, hbs, List.cons_append, Cursor.skipWhile, hp c, hc]
      rfl

/-- Where characters of a kind end is determined. -/
theorem append_inj_of_kind {front front' rest rest' : List Char}
    (h : front ++ rest = front' ++ rest') (hf : ∀ c ∈ front, q c = true)
    (hf' : ∀ c ∈ front', q c = true)
    (hr : ∀ c ∈ rest.head?, q c = false) (hr' : ∀ c ∈ rest'.head?, q c = false) :
    front = front' ∧ rest = rest' := by
  induction front generalizing front' with
  | nil =>
    cases front' with
    | nil => exact ⟨rfl, h⟩
    | cons c front' =>
      rw [List.nil_append] at h
      rw [h] at hr
      exact absurd (hf' c List.mem_cons_self) (by rw [hr c rfl]; decide)
  | cons c front ih =>
    cases front' with
    | nil =>
      rw [List.nil_append] at h
      rw [← h] at hr'
      exact absurd (hf c List.mem_cons_self) (by rw [hr' c rfl]; decide)
    | cons c' front' =>
      obtain ⟨rfl, htl⟩ := List.cons.inj h
      obtain ⟨rfl, rfl⟩ := ih htl (List.forall_mem_cons.mp hf).2 (List.forall_mem_cons.mp hf').2
      exact ⟨rfl, rfl⟩

/-- Characters of a kind are skipped up to the first other one. -/
theorem skipWhile_append (hp : ∀ c, p (lead c) = q c) (hq : ∀ c, q c = true → c.toNat < 0x80)
    (pos : Nat) {front rest : List Char} (hf : ∀ c ∈ front, q c = true)
    (hr : ∀ c ∈ rest.head?, q c = false) :
    Cursor.skipWhile p pos (ofChars (front ++ rest)) = Cursor.at (pos + front.length) rest := by
  obtain ⟨front', rest', h, hf', hr', heq⟩ := skipWhile_at hp hq pos (front ++ rest)
  obtain ⟨rfl, rfl⟩ := append_inj_of_kind h hf hf' hr hr'
  exact heq

end

/-! ## White space -/

theorem skipBlank_at (pos : Nat) (cs : List Char) :
    ∃ front rest, cs = front ++ rest ∧ Blank front ∧ (∀ c ∈ rest.head?, isBlank c = false) ∧
      skipBlank (Cursor.at pos cs) = Cursor.at (pos + front.length) rest :=
  skipWhile_at isBlankByte_lead (fun _ => ascii_of_isBlank) pos cs

theorem skipBlank_append (pos : Nat) {front rest : List Char} (hf : Blank front)
    (hr : ∀ c ∈ rest.head?, isBlank c = false) :
    skipBlank (Cursor.at pos (front ++ rest)) = Cursor.at (pos + front.length) rest :=
  skipWhile_append isBlankByte_lead (fun _ => ascii_of_isBlank) pos hf hr

theorem Blank.append {a b : List Char} (ha : Blank a) (hb : Blank b) : Blank (a ++ b) :=
  fun c hc => (List.mem_append.mp hc).elim (ha c) (hb c)

theorem blank_nil : Blank [] := fun _ h => absurd h List.not_mem_nil

end ScriptServer.Json
