import ScriptServer.Http.Request
import ScriptServer.Proofs.Text.Ascii
import ScriptServer.Proofs.Text.Digits

/-!
# Decoding what was encoded

`Encodes` says which texts write given bytes with percent escapes. Decoding finds the bytes again,
whichever of these texts it is.
-/

namespace ScriptServer.Http

/-- The characters write bytes, each as an escape in any letter case or, unless it is a percent
sign, as the ASCII character that it stands for. -/
inductive Encodes : List Char → Bytes → Prop where
  | nil : Encodes [] []
  | plain {cs : List Char} {bs : Bytes} {c : Char} (ascii : c.toNat < 0x80) (noEscape : c ≠ '%') :
    Encodes cs bs → Encodes (c :: cs) (UInt8.ofNat c.toNat :: bs)
  | escape {cs : List Char} {bs : Bytes} {high low : Char} {h l : Nat}
    (highDigit : Text.hexValue? high = some h) (lowDigit : Text.hexValue? low = some l) :
    Encodes cs bs → Encodes ('%' :: high :: low :: cs) ((h * 16 + l).toUInt8 :: bs)

theorem percentDecodeBytes_cons_of_ne {b : UInt8} (h : b ≠ 0x25) (rest : Bytes) :
    percentDecodeBytes (b :: rest) = b :: percentDecodeBytes rest := by
  match rest with
  | [] => rfl
  | [_] => rfl
  | _ :: _ :: _ => rw [percentDecodeBytes, if_neg h]

theorem percentDecodeBytes_escape {high low b : UInt8} (h : escaped? high low = some b)
    (rest : Bytes) :
    percentDecodeBytes (0x25 :: high :: low :: rest) = b :: percentDecodeBytes rest := by
  rw [percentDecodeBytes, if_pos rfl, h]

theorem hexByte?_ofNat {c : Char} (ascii : c.toNat < 0x80) :
    Text.hexByte? (.ofNat c.toNat) = Text.hexValue? c := by
  rw [Text.hexByte?, Utf8.toNat_ofNat_of_lt (by omega), Char.ofNat_toNat]

theorem percentDecodeBytes_of_encodes {cs : List Char} {bs : Bytes} (h : Encodes cs bs) :
    percentDecodeBytes (Utf8.ofChars cs) = bs := by
  induction h with
  | nil => rfl
  | @plain cs bs c ascii noEscape _ ih =>
    have noSign : UInt8.ofNat c.toNat ≠ 0x25 := by
      intro eq
      have := congrArg UInt8.toNat eq
      rw [Utf8.toNat_ofNat_of_lt (by omega)] at this
      exact noEscape (Char.toNat_inj.mp this)
    rw [Utf8.ofChars_cons, Utf8.encode_one ascii, List.singleton_append,
      percentDecodeBytes_cons_of_ne noSign, ih]
  | @escape cs bs high low h l highDigit lowDigit _ ih =>
    have ascii := Text.ascii_of_hexValue? (Option.isSome_iff_exists.mpr ⟨h, highDigit⟩)
    have ascii' := Text.ascii_of_hexValue? (Option.isSome_iff_exists.mpr ⟨l, lowDigit⟩)
    have escaped : escaped? (.ofNat high.toNat) (.ofNat low.toNat) = some (h * 16 + l).toUInt8 := by
      rw [escaped?, hexByte?_ofNat ascii, hexByte?_ofNat ascii', highDigit, lowDigit]
    rw [Utf8.ofChars_cons, Utf8.ofChars_cons, Utf8.ofChars_cons, Utf8.encode_one ascii,
      Utf8.encode_one ascii']
    exact (percentDecodeBytes_escape escaped _).trans (congrArg _ ih)

/-- A text is read back from any of its encodings. -/
theorem percentDecode_of_encodes {raw text : String} (h : Encodes raw.toList (Utf8.ofText text)) :
    percentDecode raw = text := by
  rw [percentDecode, Utf8.ofText, percentDecodeBytes_of_encodes h, Utf8.ofText,
    Utf8.toTextLossy_ofChars, String.ofList_toList]

/-! ## The path of a target -/

/-- What stands before the first question mark of a target. -/
def rawPath (target : String) : String := String.ofList (target.toList.takeWhile (· != '?'))

theorem ofTarget_method (method target : String) :
    (Request.ofTarget method target).method = Text.toUpper method := by
  unfold Request.ofTarget
  cases Text.splitOnce '?' target.toList <;> rfl

theorem ofTarget_path (method target : String) :
    (Request.ofTarget method target).path = percentDecode (rawPath target) := by
  have before (cs : List Char) :
      ((Text.splitOnce '?' cs).map (·.1)).getD cs = cs.takeWhile (· != '?') := by
    induction cs with
    | nil => rfl
    | cons c cs ih =>
      by_cases mark : c = '?'
      · simp [Text.splitOnce, mark]
      · rw [List.takeWhile_cons_of_pos (by simpa using mark), ← ih, Text.splitOnce, if_neg mark]
        cases Text.splitOnce '?' cs <;> rfl
  rw [rawPath, ← before target.toList, Request.ofTarget]
  cases Text.splitOnce '?' target.toList with
  | none => exact congrArg percentDecode String.ofList_toList.symm
  | some parts => rfl

end ScriptServer.Http
