import Mathlib.Data.List.TakeWhile
import ScriptServer.Number.Literal
import ScriptServer.Proofs.Number.Integral
import ScriptServer.Proofs.Text.Digits

/-!
# Literals of whole numbers

A text that is read as a whole number is read as a float too, by the value that its digits have.
-/

namespace ScriptServer

variable {cs ds : List Char} {bound n : Nat} {i : Int}

theorem Text.digits_of_isDigit (h : ∀ c ∈ ds, isDigit c = true) : digits ds = (ds, []) := by
  rw [digits, List.takeWhile_eq_self_iff.mpr h, List.dropWhile_eq_nil_iff.mpr h]

namespace Binary64

open Text

theorem takeSign_of_ne {c : Char} (minus : c ≠ '-') (plus : c ≠ '+') :
    takeSign (c :: cs) = (false, c :: cs) := by
  unfold takeSign
  split
  · next eq => exact absurd (List.cons.inj eq).1 minus
  · next eq => exact absurd (List.cons.inj eq).1 plus
  · rfl

theorem takeSign_of_isDigit {c : Char} (h : isDigit c = true) :
    takeSign (c :: cs) = (false, c :: cs) := by
  refine takeSign_of_ne ?_ ?_
  · rintro rfl
    exact absurd h (by decide)
  · rintro rfl
    exact absurd h (by decide)

theorem takeSign_of_isNumeral (h : IsNumeral ds) : takeSign ds = (false, ds) := by
  obtain ⟨c, cs, rfl⟩ := List.exists_cons_of_ne_nil h.1
  exact takeSign_of_isDigit (h.2 c List.mem_cons_self)

theorem ofLiteral?_digits {minus : Bool} (sign : takeSign cs = (minus, ds)) (h : IsNumeral ds) :
    ofLiteral? cs = some (ofDecimal minus (digitsValue ds) 0) := by
  have some' : ds.isEmpty = false := List.isEmpty_eq_false_iff.mpr h.1
  have read : digits ds = (ds, []) := digits_of_isDigit h.2
  simp [ofLiteral?, sign, read, some', literalExponent?]

/-- No literal begins with a letter. -/
theorem ofLiteral?_eq_none {c : Char} (letter : isLower c = true) :
    ofLiteral? (c :: cs) = none := by
  have other {d : Char} (h : isLower d = false) : c ≠ d := by
    rintro rfl
    rw [h] at letter
    cases letter
  have noDigit : isDigit c = false := by
    simp only [isLower, Bool.and_eq_true, decide_eq_true_eq, Char.le_def,
      UInt32.le_iff_toNat_le] at letter
    refine eq_false_of_ne_true fun digit => ?_
    have bound : c.toNat ≤ 57 := (isDigit_iff.mp digit).2
    have low : 97 ≤ c.toNat := letter.1
    omega
  have sign : takeSign (c :: cs) = (false, c :: cs) :=
    takeSign_of_ne (other (by decide)) (other (by decide))
  have read : digits (c :: cs) = ([], c :: cs) := by simp [digits, noDigit]
  have point : c ≠ '.' := other (by decide)
  simp [ofLiteral?, sign, read, point]

/-- What is read as a whole number is a literal of its digits. -/
theorem ofLiteral?_of_integer? (h : integer? bound cs = some i) :
    i.natAbs ≤ bound ∧ ∃ minus, ofLiteral? cs = some (ofDecimal minus i.natAbs 0) := by
  unfold integer? at h
  split at h
  · next ds =>
    split at h
    · cases h
    next digits =>
    simp only at h
    split at h
    · next small =>
      cases h
      rw [Int.natAbs_neg, Int.natAbs_natCast]
      exact ⟨small, true, ofLiteral?_digits rfl (isNumeral_of_check digits)⟩
    · cases h
  · obtain ⟨n, natural, rfl⟩ := Option.map_eq_some_iff.mp h
    obtain ⟨ds, written, numeral, rfl, small⟩ := natural?_eq_some natural
    refine ⟨small.le, false, ofLiteral?_digits ?_ numeral⟩
    rcases written with rfl | rfl
    · exact takeSign_of_isNumeral numeral
    · rfl

theorem ofDecimal_integer (minus : Bool) (small : n ≤ 2 ^ 63) :
    one ∣ (ofDecimal minus n 0).units ∧ (ofDecimal minus n 0).units ≤ 2 ^ 63 * one := by
  have near := nearestDecimal_isNearest n 0
  rw [decimalUnits, zpow_zero, mul_one] at near
  have bound : nearestDecimal n 0 < 2 ^ 63 := Nat.lt_of_le_of_lt near.le_infinity infinity_lt
  rw [units, ofDecimal, pattern_ofPattern minus bound]
  exact near.integer small

end Binary64

end ScriptServer
