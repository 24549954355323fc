import ScriptServer.Proofs.Text.Ascii
import ScriptServer.Text.Basic

/-!
# Letter case

Only ASCII letters have a case. So what is to be shown of a text and its other spellings is shown of
the ASCII characters, by looking at each, and of characters that stay as they are.
-/

namespace ScriptServer.Text

variable {c : Char}

/-! ## Letters by their codes -/

theorem isLower_iff : isLower c = true ↔ 97 ≤ c.toNat ∧ c.toNat ≤ 122 := by
  rw [isLower, Bool.and_eq_true, decide_eq_true_eq, decide_eq_true_eq]
  rfl

theorem isUpper_iff : isUpper c = true ↔ 65 ≤ c.toNat ∧ c.toNat ≤ 90 := by
  rw [isUpper, Bool.and_eq_true, decide_eq_true_eq, decide_eq_true_eq]
  rfl

/-! ## Upper case -/

theorem upper_of_lower (h : 97 ≤ c.toNat ∧ c.toNat ≤ 122) : (upper c).toNat = c.toNat - 32 := by
  have letter : 'a' ≤ c ∧ c ≤ 'z' := h
  rw [upper, if_pos letter, Utf8.toNat_ofNat_ascii (by omega)]

theorem upper_of_not_lower (h : ¬(97 ≤ c.toNat ∧ c.toNat ≤ 122)) : upper c = c := if_neg h

theorem upper_upper (c : Char) : upper (upper c) = upper c := by
  by_cases lower : 97 ≤ c.toNat ∧ c.toNat ≤ 122
  · have above := upper_of_lower lower
    exact upper_of_not_lower (by omega)
  · rw [upper_of_not_lower lower, upper_of_not_lower lower]

theorem upper_eq_underscore : upper c = '_' ↔ c = '_' := by
  by_cases lower : 97 ≤ c.toNat ∧ c.toNat ≤ 122
  · have above := upper_of_lower lower
    have code : ('_').toNat = 95 := rfl
    rw [← Char.toNat_inj, ← Char.toNat_inj, above, code]
    omega
  · rw [upper_of_not_lower lower]

/-! ## Lower case -/

theorem lower_of_not_upper (h : ¬(65 ≤ c.toNat ∧ c.toNat ≤ 90)) : lower c = c := if_neg h

/-- What holds of the ASCII characters and of those that have no other case holds of all. -/
theorem forall_of_ascii {p : Char → Prop} (ascii : ∀ n < 0x80, p (.ofNat n))
    (other : ∀ c, upper c = c → lower c = c → p c) (c : Char) : p c := by
  by_cases short : c.toNat < 0x80
  · have h := ascii c.toNat short
    rwa [Char.ofNat_toNat] at h
  · exact other c (upper_of_not_lower (by omega)) (lower_of_not_upper (by omega))

theorem lower_lower (c : Char) : lower (lower c) = lower c := by
  apply forall_of_ascii (p := fun c => lower (lower c) = lower c)
  · decide
  · intro c _ same
    rw [same, same]

theorem upper_lower (c : Char) : upper (lower c) = upper c := by
  apply forall_of_ascii (p := fun c => upper (lower c) = upper c)
  · decide
  · intro c _ same
    rw [same]

theorem lower_upper (c : Char) : lower (upper c) = lower c := by
  apply forall_of_ascii (p := fun c => lower (upper c) = lower c)
  · decide
  · intro c same _
    rw [same]

theorem toLower_toLower (s : String) : toLower (toLower s) = toLower s := by
  simp only [toLower, String.toList_ofList, List.map_map]
  congr 2
  exact funext lower_lower

end ScriptServer.Text
