import Mathlib.Data.List.Basic
import ScriptServer.Text.Utf8

/-!
# Texts survive their bytes

`next_encode`: the bytes of a character are read as that character, whatever follows them, and by
`eq_append_of_next` a character is read from its own bytes only. From this a text is read back from
its bytes, by the strict reader and by the lossy one, and from no others unless the lossy reader
puts a U+FFFD into it. The bytes of a character outside ASCII are all at least `0x80`, so none of
them passes for an ASCII character.
-/

namespace ScriptServer.Utf8

theorem toNat_ofNat_of_lt {n : Nat} (h : n < 256) : (UInt8.ofNat n).toNat = n := by
  rw [UInt8.toNat_ofNat']; omega

/-! ## The bytes of a character -/

section

variable {c : Char}

theorem char_range (c : Char) : c.toNat < 0xD800 ∨ 0xDFFF < c.toNat ∧ c.toNat < 0x110000 := c.valid

theorem encode_one (h : c.toNat < 0x80) : String.utf8EncodeChar c = [UInt8.ofNat c.toNat] := by
  have h1 : c.toNat ≤ 0x7f := by omega
  simp only [String.utf8EncodeChar, Char.toNat_val, h1, ↓reduceIte]

theorem encode_two (h1 : 0x80 ≤ c.toNat) (h2 : c.toNat < 0x800) :
    String.utf8EncodeChar c =
      [UInt8.ofNat (c.toNat / 64 + 0xC0), UInt8.ofNat (c.toNat % 64 + 0x80)] := by
  have h1' : ¬ c.toNat ≤ 0x7f := by omega
  have h2' : c.toNat ≤ 0x7ff := by omega
  have hm : c.toNat / 64 % 0x20 = c.toNat / 64 := Nat.mod_eq_of_lt (by omega)
  simp only [String.utf8EncodeChar, Char.toNat_val, h1', h2', ↓reduceIte, hm]

theorem encode_three (h1 : 0x800 ≤ c.toNat) (h2 : c.toNat < 0x10000) :
    String.utf8EncodeChar c =
      [UInt8.ofNat (c.toNat / 4096 + 0xE0), UInt8.ofNat (c.toNat / 64 % 64 + 0x80),
        UInt8.ofNat (c.toNat % 64 + 0x80)] := by
  have h0' : ¬ c.toNat ≤ 0x7f := by omega
  have h1' : ¬ c.toNat ≤ 0x7ff := by omega
  have h2' : c.toNat ≤ 0xffff := by omega
  have hm : c.toNat / 4096 % 0x10 = c.toNat / 4096 := Nat.mod_eq_of_lt (by omega)
  simp only [String.utf8EncodeChar, Char.toNat_val, h0', h1', h2', ↓reduceIte, hm]

theorem encode_four (h : 0x10000 ≤ c.toNat) :
    String.utf8EncodeChar c =
      [UInt8.ofNat (c.toNat / 262144 + 0xF0), UInt8.ofNat (c.toNat / 4096 % 64 + 0x80),
        UInt8.ofNat (c.toNat / 64 % 64 + 0x80), UInt8.ofNat (c.toNat % 64 + 0x80)] := by
  have hr := char_range c
  have h0' : ¬ c.toNat ≤ 0x7f := by omega
  have h1' : ¬ c.toNat ≤ 0x7ff := by omega
  have h2' : ¬ c.toNat ≤ 0xffff := by omega
  have hm : c.toNat / 262144 % 0x08 = c.toNat / 262144 := Nat.mod_eq_of_lt (by omega)
  simp only [String.utf8EncodeChar, Char.toNat_val, h0', h1', h2', ↓reduceIte, hm]

theorem mem_encode_ge (h : 0x80 ≤ c.toNat) {b : UInt8} (hb : b ∈ String.utf8EncodeChar c) :
    0x80 ≤ b.toNat := by
  have hr := char_range c
  have key : ∀ {n : Nat}, 0x80 ≤ n → n < 256 → 0x80 ≤ (UInt8.ofNat n).toNat := fun h1 h2 => by
    rwa [toNat_ofNat_of_lt h2]
  by_cases h2 : c.toNat < 0x800
  · rw [encode_two h h2] at hb
    simp only [List.mem_cons, List.not_mem_nil, or_false] at hb
    rcases hb with rfl | rfl <;> exact key (by omega) (by omega)
  by_cases h3 : c.toNat < 0x10000
  · rw [encode_three (by omega) h3] at hb
    simp only [List.mem_cons, List.not_mem_nil, or_false] at hb
    rcases hb with rfl | rfl | rfl <;> exact key (by omega) (by omega)
  · rw [encode_four (by omega)] at hb
    simp only [List.mem_cons, List.not_mem_nil, or_false] at hb
    rcases hb with rfl | rfl | rfl | rfl <;> exact key (by omega) (by omega)

end

/-! ## Reading the front -/

theorem tail_cons {k bits used n : Nat} {low high : UInt8} (rest : Bytes) (hn : n < 256)
    (hlow : low.toNat ≤ n) (hhigh : n ≤ high.toNat) :
    tail (k + 1) low high bits used (UInt8.ofNat n :: rest) =
      tail k 0x80 0xBF (bits * 64 + (n - 0x80)) (used + 1) rest := by
  have h : low ≤ UInt8.ofNat n ∧ UInt8.ofNat n ≤ high := by
    rw [UInt8.le_iff_toNat_le, UInt8.le_iff_toNat_le, toNat_ofNat_of_lt hn]
    exact ⟨hlow, hhigh⟩
  simp only [tail, h, and_self, ↓reduceIte, toNat_ofNat_of_lt hn]

theorem next_cons {n : Nat} {lead : Lead} (rest : Bytes) (hn : n < 256) (hlow : 0x80 ≤ n)
    (hlead : Lead.of? (UInt8.ofNat n) = some lead) :
    next (UInt8.ofNat n :: rest) =
      some (tail lead.follow lead.low lead.high lead.bits 1 rest) := by
  have h : ¬ UInt8.ofNat n < 0x80 := by
    rw [UInt8.lt_iff_toNat_lt, toNat_ofNat_of_lt hn]; exact Nat.not_lt.mpr hlow
  simp only [next, h, ↓reduceIte, hlead]

theorem lead_two {n : Nat} (h1 : 2 ≤ n) (h2 : n < 32) :
    Lead.of? (UInt8.ofNat (n + 0xC0)) = some ⟨1, 0x80, 0xBF, n⟩ := by
  unfold Lead.of?
  rw [toNat_ofNat_of_lt (by omega)]
  simp only
  rw [if_pos (by omega), Nat.add_sub_cancel]

/-- The narrow ranges keep out longer spellings than needed and surrogates only. -/
theorem lead_three {n : Nat} (h : n < 16) :
    ∃ low high, Lead.of? (UInt8.ofNat (n + 0xE0)) = some ⟨2, low, high, n⟩ ∧
      low.toNat = (if n = 0 then 0xA0 else 0x80) ∧
      high.toNat = (if n = 13 then 0x9F else 0xBF) := by
  unfold Lead.of?
  rw [toNat_ofNat_of_lt (by omega)]
  simp only
  rw [if_neg (by omega)]
  by_cases h0 : n = 0
  · subst h0; exact ⟨_, _, rfl, rfl, rfl⟩
  · rw [if_neg (by omega)]
    by_cases h13 : n = 13
    · subst h13; exact ⟨_, _, rfl, rfl, rfl⟩
    · rw [if_neg (by omega), if_pos (by omega), Nat.add_sub_cancel]
      exact ⟨_, _, rfl, by rw [if_neg h0]; rfl, by rw [if_neg h13]; rfl⟩

/-- The narrow ranges keep out longer spellings than needed and values above U+10FFFF only. -/
theorem lead_four {n : Nat} (h : n < 5) :
    ∃ low high, Lead.of? (UInt8.ofNat (n + 0xF0)) = some ⟨3, low, high, n⟩ ∧
      low.toNat = (if n = 0 then 0x90 else 0x80) ∧
      high.toNat = (if n = 4 then 0x8F else 0xBF) := by
  rcases (show n = 0 ∨ n = 1 ∨ n = 2 ∨ n = 3 ∨ n = 4 by omega) with rfl | rfl | rfl | rfl | rfl <;>
    exact ⟨_, _, rfl, rfl, rfl⟩

/-- A character is read off the front of its bytes. -/
theorem next_encode (c : Char) (rest : Bytes) :
    next (String.utf8EncodeChar c ++ rest) = some (.char c, rest) := by
  have hr := char_range c
  have hc : ∀ n, n = c.toNat → Char.ofNat n = c := fun n hn => hn ▸ Char.ofNat_toNat c
  by_cases h1 : c.toNat < 0x80
  · have h : UInt8.ofNat c.toNat < 0x80 := by
      rw [UInt8.lt_iff_toNat_lt, toNat_ofNat_of_lt (by omega)]; exact h1
    rw [encode_one h1]
    simp only [List.cons_append, List.nil_append, next, h, ↓reduceIte,
      toNat_ofNat_of_lt (show c.toNat < 256 by omega), Char.ofNat_toNat]
  by_cases h2 : c.toNat < 0x800
  · rw [encode_two (by omega) h2]
    simp only [List.cons_append, List.nil_append]
    rw [next_cons _ (by omega) (by omega) (lead_two (by omega) (by omega))]
    simp only
    rw [tail_cons _ (by omega) (by simp) (by simp; omega), tail, hc _ (by omega)]
  by_cases h3 : c.toNat < 0x10000
  · rw [encode_three (by omega) h3]
    simp only [List.cons_append, List.nil_append]
    obtain ⟨low, high, hl, hlow, hhigh⟩ := lead_three (n := c.toNat / 4096) (by omega)
    rw [next_cons _ (by omega) (by omega) hl]
    simp only
    rw [tail_cons _ (by omega) (by split at hlow <;> omega) (by split at hhigh <;> omega),
      tail_cons _ (by omega) (by simp) (by simp; omega), tail, hc _ (by omega)]
  · rw [encode_four (by omega)]
    simp only [List.cons_append, List.nil_append]
    obtain ⟨low, high, hl, hlow, hhigh⟩ := lead_four (n := c.toNat / 262144) (by omega)
    rw [next_cons _ (by omega) (by omega) hl]
    simp only
    rw [tail_cons _ (by omega) (by split at hlow <;> omega) (by split at hhigh <;> omega),
      tail_cons _ (by omega) (by simp) (by simp; omega),
      tail_cons _ (by omega) (by simp) (by simp; omega), tail, hc _ (by omega)]

/-! ## What was at the front -/

section

variable {b b₁ b₂ b₃ : UInt8} {n : Nat}

theorem toNat_ofNat_valid (valid : n.isValidChar) : (Char.ofNat n).toNat = n := by
  rw [Char.ofNat, dif_pos valid]
  rfl

theorem ofNat_eq_byte (eq : n = b.toNat) : UInt8.ofNat n = b := by
  rw [eq, UInt8.ofNat_toNat]

theorem encode_ofNat_two (bound : 2 ≤ n ∧ n < 32) (first : b.toNat = n + 0xC0)
    (follow : 0x80 ≤ b₁.toNat ∧ b₁.toNat ≤ 0xBF) :
    String.utf8EncodeChar (Char.ofNat (n * 64 + (b₁.toNat - 0x80))) = [b, b₁] := by
  have value := toNat_ofNat_valid (n := n * 64 + (b₁.toNat - 0x80)) (.inl (by omega))
  rw [encode_two (by omega) (by omega), ofNat_eq_byte (b := b) (by omega),
    ofNat_eq_byte (b := b₁) (by omega)]

/-- What two bytes spell and surrogates are kept out. -/
theorem encode_ofNat_three (bound : n < 16) (first : b.toNat = n + 0xE0)
    (follow : 0x80 ≤ b₁.toNat ∧ b₁.toNat ≤ 0xBF) (follow₂ : 0x80 ≤ b₂.toNat ∧ b₂.toNat ≤ 0xBF)
    (long : n = 0 → 0xA0 ≤ b₁.toNat) (noHalf : n = 13 → b₁.toNat ≤ 0x9F) :
    String.utf8EncodeChar
      (Char.ofNat ((n * 64 + (b₁.toNat - 0x80)) * 64 + (b₂.toNat - 0x80))) = [b, b₁, b₂] := by
  have valid : ((n * 64 + (b₁.toNat - 0x80)) * 64 + (b₂.toNat - 0x80)).isValidChar := by
    unfold Nat.isValidChar
    omega
  have value := toNat_ofNat_valid valid
  rw [encode_three (by omega) (by omega), ofNat_eq_byte (b := b) (by omega),
    ofNat_eq_byte (b := b₁) (by omega), ofNat_eq_byte (b := b₂) (by omega)]

/-- What three bytes spell and values above U+10FFFF are kept out. -/
theorem encode_ofNat_four (bound : n < 5) (first : b.toNat = n + 0xF0)
    (follow : 0x80 ≤ b₁.toNat ∧ b₁.toNat ≤ 0xBF) (follow₂ : 0x80 ≤ b₂.toNat ∧ b₂.toNat ≤ 0xBF)
    (follow₃ : 0x80 ≤ b₃.toNat ∧ b₃.toNat ≤ 0xBF) (long : n = 0 → 0x90 ≤ b₁.toNat)
    (within : n = 4 → b₁.toNat ≤ 0x8F) :
    String.utf8EncodeChar (Char.ofNat
      (((n * 64 + (b₁.toNat - 0x80)) * 64 + (b₂.toNat - 0x80)) * 64 + (b₃.toNat - 0x80))) =
        [b, b₁, b₂, b₃] := by
  have valid : (((n * 64 + (b₁.toNat - 0x80)) * 64 + (b₂.toNat - 0x80)) * 64 +
      (b₃.toNat - 0x80)).isValidChar := by
    unfold Nat.isValidChar
    omega
  have value := toNat_ofNat_valid valid
  rw [encode_four (by omega), ofNat_eq_byte (b := b) (by omega),
    ofNat_eq_byte (b := b₁) (by omega), ofNat_eq_byte (b := b₂) (by omega),
    ofNat_eq_byte (b := b₃) (by omega)]

end

/-- What a lead byte announces is spelled by two, three or four bytes. -/
theorem lead_cases {b : UInt8} {lead : Lead} (h : Lead.of? b = some lead) :
    (∃ n, (2 ≤ n ∧ n < 32) ∧ b.toNat = n + 0xC0 ∧ lead = ⟨1, 0x80, 0xBF, n⟩) ∨
      (∃ n low high, n < 16 ∧ b.toNat = n + 0xE0 ∧ lead = ⟨2, low, high, n⟩ ∧
        low.toNat = (if n = 0 then 0xA0 else 0x80) ∧
        high.toNat = (if n = 13 then 0x9F else 0xBF)) ∨
      ∃ n low high, n < 5 ∧ b.toNat = n + 0xF0 ∧ lead = ⟨3, low, high, n⟩ ∧
        low.toNat = (if n = 0 then 0x90 else 0x80) ∧
        high.toNat = (if n = 4 then 0x8F else 0xBF) := by
  unfold Lead.of? at h
  generalize b.toNat = k at h ⊢
  simp only at h
  split at h
  · next two =>
    cases h
    exact .inl ⟨k - 0xC0, by omega, by omega, rfl⟩
  split at h
  · next zero => cases h; exact .inr (.inl ⟨0, _, _, by omega, by omega, rfl, rfl, rfl⟩)
  split at h
  · next thirteen => cases h; exact .inr (.inl ⟨13, _, _, by omega, by omega, rfl, rfl, rfl⟩)
  split at h
  · next three =>
    cases h
    refine .inr (.inl ⟨k - 0xE0, _, _, by omega, by omega, rfl, ?_, ?_⟩)
    · rw [if_neg (by omega)]; rfl
    · rw [if_neg (by omega)]; rfl
  split at h
  · next zero => cases h; exact .inr (.inr ⟨0, _, _, by omega, by omega, rfl, rfl, rfl⟩)
  split at h
  · next four =>
    cases h
    refine .inr (.inr ⟨k - 0xF0, _, _, by omega, by omega, rfl, ?_, ?_⟩)
    · rw [if_neg (by omega)]; rfl
    · rw [if_neg (by omega)]; rfl
  split at h
  · next last => cases h; exact .inr (.inr ⟨4, _, _, by omega, by omega, rfl, rfl, rfl⟩)
  · cases h

theorem tail_eq_char {k bits used : Nat} {low high : UInt8} {bs rest : Bytes} {c : Char}
    (h : tail (k + 1) low high bits used bs = (.char c, rest)) :
    ∃ b bs', bs = b :: bs' ∧ (low.toNat ≤ b.toNat ∧ b.toNat ≤ high.toNat) ∧
      tail k 0x80 0xBF (bits * 64 + (b.toNat - 0x80)) (used + 1) bs' = (.char c, rest) := by
  cases bs with
  | nil => cases h
  | cons b bs' =>
    rw [tail] at h
    split at h
    · next inside => exact ⟨b, bs', rfl, inside, h⟩
    · cases h

/-- The last of the bytes that follow gives the character. -/
theorem tail_one_eq_char {bits used : Nat} {low high : UInt8} {bs rest : Bytes} {c : Char}
    (h : tail 1 low high bits used bs = (.char c, rest)) :
    ∃ b, bs = b :: rest ∧ (low.toNat ≤ b.toNat ∧ b.toNat ≤ high.toNat) ∧
      c = Char.ofNat (bits * 64 + (b.toNat - 0x80)) := by
  obtain ⟨b, bs', rfl, inside, h⟩ := tail_eq_char h
  rw [tail, Prod.mk.injEq, Front.char.injEq] at h
  exact ⟨b, by rw [h.2], inside, h.1.symm⟩

/-- A character that is read stands at the front with its bytes. -/
theorem eq_append_of_next {bs rest : Bytes} {c : Char} (h : next bs = some (.char c, rest)) :
    bs = String.utf8EncodeChar c ++ rest := by
  cases bs with
  | nil => cases h
  | cons b bs =>
    rw [next] at h
    split at h
    · next ascii =>
      have small : b.toNat < 0x80 := UInt8.lt_iff_toNat_lt.mp ascii
      simp only [Option.some.injEq, Prod.mk.injEq, Front.char.injEq] at h
      obtain ⟨rfl, rfl⟩ := h
      have value := toNat_ofNat_valid (n := b.toNat) (.inl (by omega))
      rw [encode_one (by omega), ofNat_eq_byte value]
      rfl
    split at h
    · cases h
    next lead announced =>
    have h := Option.some.inj h
    rcases lead_cases announced with ⟨n, bound, first, rfl⟩ |
      ⟨n, low, high, bound, first, rfl, least, greatest⟩ |
      ⟨n, low, high, bound, first, rfl, least, greatest⟩
    · obtain ⟨b₁, rfl, follow, char⟩ := tail_one_eq_char h
      rw [char, encode_ofNat_two bound first follow]
      rfl
    · obtain ⟨b₁, bs, rfl, ⟨above, below⟩, h⟩ := tail_eq_char h
      obtain ⟨b₂, rfl, follow₂, char⟩ := tail_one_eq_char h
      dsimp only at above below
      rw [char, encode_ofNat_three bound first ?_ follow₂ ?_ ?_]
      · rfl
      all_goals split at least <;> split at greatest <;> omega
    · obtain ⟨b₁, bs, rfl, ⟨above, below⟩, h⟩ := tail_eq_char h
      obtain ⟨b₂, bs, rfl, follow₂, h⟩ := tail_eq_char h
      obtain ⟨b₃, rfl, follow₃, char⟩ := tail_one_eq_char h
      dsimp only at above below
      rw [char, encode_ofNat_four bound first ?_ follow₂ follow₃ ?_ ?_]
      · rfl
      all_goals split at least <;> split at greatest <;> omega

/-! ## Whole texts -/

theorem fronts_ofChars (cs : List Char) : fronts (ofChars cs) = cs.map Front.char := by
  induction cs with
  | nil => rw [fronts]; rfl
  | cons c cs ih =>
    rw [fronts]
    simp only [ofChars_cons]
    split
    · rename_i h
      rw [next_encode] at h; cases h
    · rename_i f rest h
      rw [next_encode] at h; cases h
      rw [ih, List.map_cons]

theorem toTextLossy_ofChars (cs : List Char) : toTextLossy (ofChars cs) = String.ofList cs := by
  rw [toTextLossy, fronts_ofChars, List.map_map]
  exact congrArg String.ofList (List.map_id cs)

theorem eq_nil_of_next {bs : Bytes} (h : next bs = none) : bs = [] := by
  cases bs with
  | nil => rfl
  | cons b bs =>
    rw [next] at h
    repeat' split at h
    all_goals cases h

/-- Without U+FFFD in its text, a byte string spells that text. -/
theorem eq_ofChars_of_fronts {bs : Bytes} {cs : List Char} (read : (fronts bs).map Front.lossy = cs)
    (readable : '\uFFFD' ∉ cs) : bs = ofChars cs := by
  induction bs using fronts.induct generalizing cs with
  | case1 bs none =>
    obtain rfl := eq_nil_of_next none
    rw [fronts] at read
    subst read
    rfl
  | case2 bs f rest front ih =>
    rw [fronts] at read
    split at read
    · next none =>
      rw [none] at front
      cases front
    next f' rest' front' =>
    rw [front] at front'
    cases front'
    subst read
    rw [List.map_cons, List.mem_cons, not_or] at readable
    cases f with
    | char c =>
      have later := ih rfl readable.2
      calc bs = String.utf8EncodeChar c ++ rest := eq_append_of_next front
        _ = _ := congrArg _ later
    | _ => exact absurd rfl readable.1

/-- Only a text with U+FFFD in it can be read from bytes that are not its own. -/
theorem toTextLossy_eq_iff {bs : Bytes} {s : String} (readable : '\uFFFD' ∉ s.toList) :
    toTextLossy bs = s ↔ bs = ofText s := by
  constructor
  · rintro rfl
    rw [toTextLossy, String.toList_ofList] at readable
    rw [ofText, toTextLossy, String.toList_ofList]
    exact eq_ofChars_of_fronts rfl readable
  · rintro rfl
    rw [ofText, toTextLossy_ofChars, String.ofList_toList]

theorem chars_ofChars (pos : Nat) (cs : List Char) : chars pos (ofChars cs) = .ok cs := by
  induction cs generalizing pos with
  | nil => rw [chars]; rfl
  | cons c cs ih =>
    rw [chars]
    simp only [ofChars_cons]
    split
    · rename_i h
      rw [next_encode] at h; cases h
    · rename_i c' rest h
      rw [next_encode] at h; cases h
      rw [ih]
    · rename_i f rest hne h
      rw [next_encode] at h; cases h
      exact absurd rfl (hne c)

theorem toText?_ofChars (cs : List Char) : toText? (ofChars cs) = some (String.ofList cs) := by
  simp only [toText?, toText, chars_ofChars, Except.map, Except.toOption]

/-- What the strict reader accepts are the bytes of the text it gives. -/
theorem ofChars_of_chars {pos : Nat} {bs : Bytes} {cs : List Char} (h : chars pos bs = .ok cs) :
    bs = ofChars cs := by
  induction bs using fronts.induct generalizing pos cs with
  | case1 bs none =>
    obtain rfl := eq_nil_of_next none
    rw [chars] at h
    cases h
    rfl
  | case2 bs f rest front ih =>
    rw [chars] at h
    split at h
    · next none =>
      rw [none] at front
      cases front
    · next c rest' front' =>
      rw [front] at front'
      cases front'
      split at h
      · next cs later =>
        cases h
        calc bs = String.utf8EncodeChar c ++ rest := eq_append_of_next front
          _ = _ := congrArg _ (ih later)
      · cases h
    · cases h

theorem toText?_eq_some {bs : Bytes} {s : String} : toText? bs = some s ↔ bs = ofText s := by
  constructor
  · intro h
    rw [toText?, toText] at h
    cases read : chars 0 bs with
    | error e =>
      rw [read] at h
      cases h
    | ok cs =>
      rw [read] at h
      cases h
      rw [ofText, String.toList_ofList]
      exact ofChars_of_chars read
  · rintro rfl
    rw [ofText, toText?_ofChars, String.ofList_toList]

/-- The bytes of characters at the front are those of the characters at the front. -/
theorem exists_append_of_ofChars {front cs : List Char} {bs : Bytes}
    (h : ofChars front ++ bs = ofChars cs) : ∃ rest, cs = front ++ rest ∧ bs = ofChars rest := by
  induction front generalizing cs with
  | nil => exact ⟨cs, rfl, h⟩
  | cons c front ih =>
    have hnext := next_encode c (ofChars front ++ bs)
    rw [← List.append_assoc, ← ofChars_cons, h] at hnext
    cases cs with
    | nil => cases hnext
    | cons d cs =>
      rw [ofChars_cons, next_encode] at hnext
      simp only [Option.some.injEq, Prod.mk.injEq, Front.char.injEq] at hnext
      obtain ⟨rest, rfl, rfl⟩ := ih hnext.2.symm
      exact ⟨rest, by rw [hnext.1, List.cons_append], rfl⟩

end ScriptServer.Utf8
