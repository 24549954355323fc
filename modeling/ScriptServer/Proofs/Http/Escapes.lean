import ScriptServer.Proofs.Http.Percent

/-!
# Texts with escapes

What decoding makes of any text, with escapes in it or with percent signs that begin none. A percent
sign is no digit, so decoding falls apart in front of each (`percentDecodeBytes_append`), and a text
can be decoded piece by piece. The bytes that `decodeFrom` asks for by their positions are all
there.
-/

namespace ScriptServer.Http

variable {cs front back : List Char} {b high low : UInt8} {bs rest : Bytes} {i : Nat}

/-! ## Pieces of bytes -/

/-- The byte that two digits at the front stand for behind a percent sign. -/
def digits? : Bytes → Option UInt8
  | high :: low :: _ => escaped? high low
  | _ => none

theorem percentDecodeBytes_keep (none : digits? rest = none) :
    percentDecodeBytes (b :: rest) = b :: percentDecodeBytes rest := by
  match rest with
  | [] => rfl
  | [_] => rfl
  | high :: low :: tail =>
    have noEscape : escaped? high low = Option.none := none
    rw [percentDecodeBytes, noEscape]
    split <;> rfl

theorem hexByte?_sign : Text.hexByte? 0x25 = none := by decide

theorem digits?_sign (rest : Bytes) : digits? (0x25 :: rest) = none := by
  cases rest with
  | nil => rfl
  | cons low tail =>
    show escaped? 0x25 low = none
    rw [escaped?, hexByte?_sign]

theorem digits?_second (b : UInt8) (rest : Bytes) : digits? (b :: 0x25 :: rest) = none := by
  show escaped? b 0x25 = none
  rw [escaped?, hexByte?_sign]
  split
  · next second => cases second
  · rfl

/-- A percent sign belongs to no escape that began before it. -/
theorem percentDecodeBytes_append (front rest : Bytes) :
    percentDecodeBytes (front ++ 0x25 :: rest) =
      percentDecodeBytes front ++ percentDecodeBytes (0x25 :: rest) := by
  fun_induction percentDecodeBytes front with
  | case1 => rfl
  | case2 a => exact percentDecodeBytes_keep (digits?_sign rest)
  | case3 a b =>
    show percentDecodeBytes (a :: b :: 0x25 :: rest) = a :: b :: percentDecodeBytes (0x25 :: rest)
    rw [percentDecodeBytes_keep (digits?_second b rest),
      percentDecodeBytes_keep (digits?_sign rest)]
  | case4 high low tail b escape ih =>
    show percentDecodeBytes (0x25 :: high :: low :: (tail ++ 0x25 :: rest)) = _
    rw [percentDecodeBytes_escape escape, ih, List.cons_append]
  | case5 high low tail none ih =>
    show percentDecodeBytes (0x25 :: (high :: low :: tail ++ 0x25 :: rest)) = _
    have kept : digits? (high :: low :: tail ++ 0x25 :: rest) = Option.none := none
    rw [percentDecodeBytes_keep kept, ih, List.cons_append]
  | case6 a high low tail other ih =>
    show percentDecodeBytes (a :: (high :: low :: tail ++ 0x25 :: rest)) = _
    rw [percentDecodeBytes_cons_of_ne other, ih, List.cons_append]

theorem percentDecodeBytes_plain (plain : 0x25 ∉ bs) : percentDecodeBytes bs = bs := by
  induction bs with
  | nil => rfl
  | cons b bs ih =>
    rw [List.mem_cons, not_or] at plain
    rw [percentDecodeBytes_cons_of_ne (Ne.symm plain.1), ih plain.2]

/-! ## Positions -/

/-- The byte to write for a position and the number of further positions that go into it. There is
no result if a byte is asked for that is behind the end. -/
def decodeAt (bs : Bytes) (i : Nat) : Option (UInt8 × Nat) :=
  bs[i]?.bind fun b =>
    if b = 0x25 ∧ i + 2 < bs.length then
      bs[i + 1]?.bind fun high => bs[i + 2]?.map fun low =>
        match escaped? high low with
        | some e => (e, 2)
        | none => (b, 0)
    else some (b, 0)

def decodeFrom (bs : Bytes) (i : Nat) : Option Bytes :=
  if i < bs.length then
    (decodeAt bs i).bind fun (b, further) => (decodeFrom bs (i + 1 + further)).map (b :: ·)
  else some []
termination_by bs.length - i

theorem digits?_of_short (short : rest.length < 2) : digits? rest = none := by
  match rest with
  | [] => rfl
  | [_] => rfl
  | _ :: _ :: _ => exact absurd short (by simp)

theorem decodeAt_spec (inside : i < bs.length) :
    ∃ b further, decodeAt bs i = some (b, further) ∧
      percentDecodeBytes (bs.drop i) = b :: percentDecodeBytes (bs.drop (i + 1 + further)) := by
  unfold decodeAt
  rw [List.getElem?_eq_getElem inside, Option.bind_some, List.drop_eq_getElem_cons inside]
  split
  · next sign =>
    have second : i + 1 < bs.length := by omega
    have front : bs.drop (i + 1) = bs[i + 1] :: bs[i + 2] :: bs.drop (i + 3) := by
      rw [List.drop_eq_getElem_cons second, List.drop_eq_getElem_cons sign.2]
    rw [List.getElem?_eq_getElem second, List.getElem?_eq_getElem sign.2]
    cases escape : escaped? bs[i + 1] bs[i + 2] with
    | some e =>
      refine ⟨e, 2, by simp [escape], ?_⟩
      rw [sign.1, front, percentDecodeBytes_escape escape]
    | none =>
      refine ⟨bs[i], 0, by simp [escape], percentDecodeBytes_keep ?_⟩
      rw [front]
      exact escape
  · next other =>
    refine ⟨bs[i], 0, rfl, ?_⟩
    by_cases sign : bs[i] = 0x25
    · have short : ¬ i + 2 < bs.length := fun long => other ⟨sign, long⟩
      apply percentDecodeBytes_keep
      apply digits?_of_short
      rw [List.length_drop]
      omega
    · exact percentDecodeBytes_cons_of_ne sign _

/-- Every byte that is asked for is there. -/
theorem decodeFrom_eq (bs : Bytes) (i : Nat) :
    decodeFrom bs i = some (percentDecodeBytes (bs.drop i)) := by
  fun_induction decodeFrom bs i with
  | case1 i inside ih =>
    obtain ⟨b, further, step, eq⟩ := decodeAt_spec inside
    rw [step, eq, Option.bind_some]
    dsimp only
    rw [ih further, Option.map_some]
  | case2 i outside =>
    rw [List.drop_eq_nil_of_le (Nat.not_lt.mp outside)]
    rfl

/-! ## Texts -/

def beginsHex : List Char → Bool
  | high :: low :: _ => (Text.hexValue? high).isSome && (Text.hexValue? low).isSome
  | _ => false

/-- A byte that is a digit is the character at the front. -/
theorem exists_of_hexByte? (eq : Utf8.ofChars cs = b :: bs)
    (digit : (Text.hexByte? b).isSome = true) :
    ∃ c cs', cs = c :: cs' ∧ bs = Utf8.ofChars cs' ∧ Text.hexByte? b = Text.hexValue? c := by
  have value : (Char.ofNat b.toNat).toNat = b.toNat := by
    have := b.toNat_lt
    exact Utf8.toNat_ofNat_valid (.inl (by omega))
  have ascii := Text.ascii_of_hexValue? digit
  have front : Utf8.ofChars [.ofNat b.toNat] = [b] := by
    rw [Utf8.ofChars_cons, Utf8.encode_one ascii, value, UInt8.ofNat_toNat]
    rfl
  have split : Utf8.ofChars [.ofNat b.toNat] ++ bs = Utf8.ofChars cs := by rw [front, eq]; rfl
  obtain ⟨cs', rfl, later⟩ := Utf8.exists_append_of_ofChars split
  exact ⟨_, cs', rfl, later, rfl⟩

theorem digits?_ofChars (plain : beginsHex cs = false) : digits? (Utf8.ofChars cs) = none := by
  match eq : Utf8.ofChars cs with
  | [] => rfl
  | [_] => rfl
  | high :: low :: tail =>
    show escaped? high low = none
    unfold escaped?
    split
    · next h l first second =>
      obtain ⟨c, cs, rfl, eq, digit⟩ := exists_of_hexByte? eq (Option.isSome_of_eq_some first)
      obtain ⟨d, cs, rfl, -, digit'⟩ := exists_of_hexByte? eq.symm (Option.isSome_of_eq_some second)
      rw [beginsHex, ← digit, ← digit', first, second] at plain
      cases plain
    · rfl

theorem ofText_sign (s : String) : Utf8.ofText ("%" ++ s) = 0x25 :: Utf8.ofText s := by
  rw [Utf8.ofText_append]
  rfl

/-- A percent sign without digits stays, and what stands before and behind it is decoded by
itself. -/
theorem percentDecode_sign (before behind : String) (plain : beginsHex behind.toList = false) :
    percentDecode (before ++ ("%" ++ behind)) =
      percentDecode before ++ ("%" ++ percentDecode behind) := by
  have keeps : percentDecodeBytes (0x25 :: Utf8.ofText behind) =
      0x25 :: percentDecodeBytes (Utf8.ofText behind) :=
    percentDecodeBytes_keep (digits?_ofChars plain)
  unfold percentDecode
  rw [Utf8.ofText_append, ofText_sign, percentDecodeBytes_append, keeps,
    Utf8.toTextLossy_append (by decide), Utf8.toTextLossy_cons (by decide)]
  rfl

/-- An escape is replaced by its byte. What stands behind it is decoded by itself, whatever the byte
is. -/
theorem percentDecode_escape (before behind : String) {high low : Char} {h l : Nat}
    (highDigit : Text.hexValue? high = some h) (lowDigit : Text.hexValue? low = some l) :
    percentDecode (before ++ (String.ofList ['%', high, low] ++ behind)) =
      Utf8.toTextLossy (percentDecodeBytes (Utf8.ofText before) ++
        (h * 16 + l).toUInt8 :: percentDecodeBytes (Utf8.ofText behind)) := by
  have ascii := Text.ascii_of_hexValue? (Option.isSome_of_eq_some highDigit)
  have ascii' := Text.ascii_of_hexValue? (Option.isSome_of_eq_some lowDigit)
  have bytes : Utf8.ofText (String.ofList ['%', high, low]) =
      [0x25, .ofNat high.toNat, .ofNat low.toNat] := by
    rw [Utf8.ofText, String.toList_ofList, Utf8.ofChars_cons, Utf8.ofChars_cons, Utf8.ofChars_cons,
      Utf8.encode_one ascii, Utf8.encode_one ascii']
    rfl
  have escaped : escaped? (.ofNat high.toNat) (.ofNat low.toNat) = some (h * 16 + l).toUInt8 := by
    rw [escaped?, hexByte?_ofNat ascii, hexByte?_ofNat ascii', highDigit, lowDigit]
  unfold percentDecode
  rw [Utf8.ofText_append, Utf8.ofText_append, bytes]
  apply congrArg
  exact (percentDecodeBytes_append _ _).trans (congrArg _ (percentDecodeBytes_escape escaped _))

theorem percentDecode_plain {raw : String} (plain : '%' ∉ raw.toList) :
    percentDecode raw = raw := by
  have bytes : 0x25 ∉ Utf8.ofText raw := fun mem =>
    plain ((Utf8.ofNat_mem_ofChars (n := 0x25) (by decide)).mp mem)
  unfold percentDecode
  rw [percentDecodeBytes_plain bytes, Utf8.ofText, Utf8.toTextLossy_ofChars, String.ofList_toList]

/-! ## What escapes stand for -/

/-- An escape of the byte stands in the bytes. -/
def HasEscapedByte (bs : Bytes) (b : UInt8) : Prop :=
  ∃ high low, escaped? high low = some b ∧ [0x25, high, low] <:+: bs

/-- An escape of the number stands in the text. -/
def HasEscape (cs : List Char) (n : Nat) : Prop :=
  ∃ high low h l, Text.hexValue? high = some h ∧ Text.hexValue? low = some l ∧ h * 16 + l = n ∧
    ['%', high, low] <:+: cs

theorem not_hasEscapedByte_nil : ¬ HasEscapedByte [] b := by
  rintro ⟨high, low, -, inside⟩
  cases List.infix_nil.mp inside

theorem hasEscapedByte_cons {a : UInt8} : HasEscapedByte (a :: bs) b ↔
    a = 0x25 ∧ digits? bs = some b ∨ HasEscapedByte bs b := by
  unfold HasEscapedByte
  simp only [List.infix_cons_iff, and_or_left, exists_or]
  refine or_congr_left ⟨?_, ?_⟩
  · rintro ⟨high, low, escape, more, eq⟩
    cases eq
    exact ⟨rfl, escape⟩
  · rintro ⟨rfl, front⟩
    match bs with
    | [] => cases front
    | [_] => cases front
    | high :: low :: rest => exact ⟨high, low, front, rest, rfl⟩

theorem isSome_of_escaped? (h : escaped? high low = some b) :
    (Text.hexByte? high).isSome = true ∧ (Text.hexByte? low).isSome = true := by
  unfold escaped? at h
  split at h
  · next first second => exact ⟨Option.isSome_of_eq_some first, Option.isSome_of_eq_some second⟩
  · cases h

/-- What is neither a digit nor a percent sign stays, and comes from escapes besides. -/
theorem mem_percentDecodeBytes (noDigit : Text.hexByte? b = none) (noSign : b ≠ 0x25) :
    b ∈ percentDecodeBytes bs ↔ b ∈ bs ∨ HasEscapedByte bs b := by
  -- The byte is no part of an escape, so none is lost where one is decoded.
  have apart {d : UInt8} (digit : (Text.hexByte? d).isSome = true) : b ≠ d ∧ d ≠ 0x25 := by
    constructor <;> rintro rfl
    · rw [noDigit] at digit
      cases digit
    · rw [hexByte?_sign] at digit
      cases digit
  fun_induction percentDecodeBytes bs with
  | case1 => simp [not_hasEscapedByte_nil]
  | case2 a => simp [hasEscapedByte_cons, not_hasEscapedByte_nil, digits?]
  | case3 a c => simp [hasEscapedByte_cons, not_hasEscapedByte_nil, digits?]
  | case4 high low tail e escape ih =>
    obtain ⟨first, second⟩ := isSome_of_escaped? escape
    have front : digits? (high :: low :: tail) = some e := escape
    simp only [hasEscapedByte_cons, front, List.mem_cons, noSign, apart first, apart second, ih]
    grind
  | case5 high low tail none ih =>
    have front : digits? (high :: low :: tail) = Option.none := none
    rw [hasEscapedByte_cons, front, List.mem_cons, List.mem_cons]
    simp only [ih, noSign, false_or, reduceCtorEq, and_false]
  | case6 a high low tail other ih =>
    rw [hasEscapedByte_cons, List.mem_cons, List.mem_cons (a := b) (b := a)]
    simp only [ih, other, false_and, false_or, or_assoc]

theorem hasEscapedByte_ofChars {n : Nat} (small : n < 256) :
    HasEscapedByte (Utf8.ofChars cs) (.ofNat n) ↔ HasEscape cs n := by
  constructor
  · rintro ⟨high, low, escape, front, rest, eq⟩
    rw [List.append_assoc] at eq
    obtain ⟨before, behind, rfl, -, later⟩ :=
      Utf8.exists_split_of_ofChars (n := 0x25) (by decide) eq.symm
    obtain ⟨first, second⟩ := isSome_of_escaped? escape
    obtain ⟨c, behind, rfl, later', digit⟩ := exists_of_hexByte? later.symm first
    obtain ⟨d, behind, rfl, -, digit'⟩ := exists_of_hexByte? later'.symm second
    obtain ⟨h, value⟩ := Option.isSome_iff_exists.mp first
    obtain ⟨l, value'⟩ := Option.isSome_iff_exists.mp second
    rw [escaped?, value, value'] at escape
    refine ⟨c, d, h, l, digit ▸ value, digit' ▸ value', ?_, before, behind, by simp⟩
    have least := Text.hexValue?_lt (digit ▸ value)
    have least' := Text.hexValue?_lt (digit' ▸ value')
    have same := congrArg UInt8.toNat (Option.some.inj escape)
    rwa [Nat.toUInt8, Utf8.toNat_ofNat_of_lt (by omega), Utf8.toNat_ofNat_of_lt small] at same
  · rintro ⟨high, low, h, l, value, value', rfl, before, behind, rfl⟩
    have ascii := Text.ascii_of_hexValue? (Option.isSome_of_eq_some value)
    have ascii' := Text.ascii_of_hexValue? (Option.isSome_of_eq_some value')
    refine ⟨.ofNat high.toNat, .ofNat low.toNat, ?_, Utf8.ofChars before, Utf8.ofChars behind, ?_⟩
    · rw [escaped?, hexByte?_ofNat ascii, hexByte?_ofNat ascii', value, value']
    · rw [Utf8.ofChars_append, Utf8.ofChars_append, Utf8.ofChars_cons, Utf8.ofChars_cons,
        Utf8.ofChars_cons, Utf8.encode_one ascii, Utf8.encode_one ascii']
      rfl

/-- An ASCII character that is neither a digit nor a percent sign is in the decoded text just if it
was there before or an escape stands for it. -/
theorem mem_percentDecode {raw : String} {c : Char} (ascii : c.toNat < 0x80)
    (noDigit : Text.hexValue? c = none) (noSign : c ≠ '%') :
    c ∈ (percentDecode raw).toList ↔ c ∈ raw.toList ∨ HasEscape raw.toList c.toNat := by
  have noDigit' : Text.hexByte? (.ofNat c.toNat) = none := by rw [hexByte?_ofNat ascii, noDigit]
  have noSign' : UInt8.ofNat c.toNat ≠ 0x25 := by
    intro eq
    have := congrArg UInt8.toNat eq
    rw [Utf8.toNat_ofNat_of_lt (by omega)] at this
    exact noSign (Char.toNat_inj.mp this)
  have bytes := @Utf8.ofNat_mem_toTextLossy _ ascii (percentDecodeBytes (Utf8.ofText raw))
  rw [mem_percentDecodeBytes noDigit' noSign', Utf8.ofText, hasEscapedByte_ofChars (by omega),
    Utf8.ofNat_mem_ofChars ascii, Char.ofNat_toNat] at bytes
  exact bytes

/-- **Decoding.** A text that writes bytes, each as an escape or as its character, is read as what
the bytes spell. In any text a percent sign stays that has no two digits behind it, an escape is
replaced by its byte, and either way what is behind is decoded by itself, so that no byte of an
escape becomes part of another. All else stays. The bytes that are asked for on the way are all
there. -/
theorem percentDecode_exact :
    (∀ raw bs, Encodes raw.toList bs → percentDecode raw = Utf8.toTextLossy bs) ∧
      (∀ before behind : String, beginsHex behind.toList = false →
        percentDecode (before ++ ("%" ++ behind)) =
          percentDecode before ++ ("%" ++ percentDecode behind)) ∧
      (∀ (before behind : String) (high low : Char) (h l : Nat),
        Text.hexValue? high = some h → Text.hexValue? low = some l →
          percentDecode (before ++ (String.ofList ['%', high, low] ++ behind)) =
            Utf8.toTextLossy (percentDecodeBytes (Utf8.ofText before) ++
              (h * 16 + l).toUInt8 :: percentDecodeBytes (Utf8.ofText behind))) ∧
      (∀ raw : String, '%' ∉ raw.toList → percentDecode raw = raw) ∧
      ∀ raw, (decodeFrom (Utf8.ofText raw) 0).map Utf8.toTextLossy = some (percentDecode raw) := by
  refine ⟨fun raw bs encodes => ?_, percentDecode_sign, fun before behind high low h l => ?_,
    fun raw => percentDecode_plain, fun raw => ?_⟩
  · rw [percentDecode, Utf8.ofText, percentDecodeBytes_of_encodes encodes]
  · exact percentDecode_escape before behind
  · rw [decodeFrom_eq, List.drop_zero, Option.map_some]
    rfl

/-- A percent sign in front of digits, encoded; one without digits; and a character of two
escapes. -/
theorem percentDecode_exact_doubly :
    Encodes "%2541".toList [0x25, 0x34, 0x31] ∧ percentDecode "%2541" = "%41" ∧
      beginsHex "4".toList = false ∧ '%' ∉ "5".toList ∧ percentDecode "5%4" = "5%4" ∧
      Text.hexValue? '8' = some 8 ∧ Text.hexValue? 'a' = some 10 ∧
      percentDecode "%C3%8a" = "Ê" := by
  obtain ⟨encoded, sign, escape, plain, -⟩ := percentDecode_exact
  have encodes : Encodes "%2541".toList [0x25, 0x34, 0x31] :=
    .escape (h := 2) (l := 5) rfl rfl (.plain (by decide) (by decide)
      (.plain (by decide) (by decide) .nil))
  refine ⟨encodes, ?_, rfl, by decide, ?_, rfl, rfl, ?_⟩
  · exact (encoded _ _ encodes).trans (Utf8.toTextLossy_ofChars ['%', '4', '1'])
  · have pieces := sign "5" "4" rfl
    rwa [plain "5" (by decide), plain "4" (by decide)] at pieces
  · have bytes := escape "%C3" "" '8' 'a' 8 10 rfl rfl
    exact bytes.trans (Utf8.toTextLossy_ofChars ['Ê'])

end ScriptServer.Http
