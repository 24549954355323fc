import ScriptServer.Proofs.Number.Rounding

/-!
# The values of numbers

`value` is the rational number that the bits of a finite number stand for: a fraction, with a one in
front of it unless the exponent is the least, on the scale of the exponent. Without its sign it is
the number of units (`absValue_eq`), and `truncate` is what is left of it without its fraction
(`truncate_eq`).
-/

namespace ScriptServer

/-- A rational number without its fraction. -/
def wholePart (q : ℚ) : ℤ := if 0 ≤ q then ⌊q⌋ else ⌈q⌉

theorem wholePart_intCast (i : ℤ) : wholePart i = i := by
  unfold wholePart
  split
  · exact Int.floor_intCast i
  · exact Int.ceil_intCast i

namespace Binary64

/-- The absolute value of a finite number. The exponent stands in the eleven bits below the sign. -/
def absValue (x : Binary64) : ℚ :=
  let exponent : ℕ := x.bits.toNat / 2 ^ 52 % 2 ^ 11
  let fraction : ℕ := x.bits.toNat % 2 ^ 52
  if exponent = 0 then (fraction : ℚ) * 2 ^ (-1074 : ℤ)
  else ((2 ^ 52 + fraction : ℕ) : ℚ) * 2 ^ ((exponent : ℤ) - 1075)

def value (x : Binary64) : ℚ := if x.negative then -x.absValue else x.absValue

theorem absValue_eq (x : Binary64) : x.absValue = x.units / one := by
  have exponent : x.bits.toNat / 2 ^ 52 % 2 ^ 11 = x.pattern / 2 ^ 52 := by
    have := x.bits.toNat_lt
    rw [pattern, Nat.one_shiftLeft]
    omega
  have fraction : x.bits.toNat % 2 ^ 52 = x.pattern % 2 ^ 52 := by
    rw [pattern, Nat.one_shiftLeft]
    omega
  have base : (2 : ℚ) ≠ 0 := by norm_num
  have scale : (1 : ℚ) / one = 2 ^ (-1074 : ℤ) := by
    rw [one_eq, one_div, zpow_neg]
    rfl
  unfold absValue units unitsOf
  rw [exponent, fraction, Nat.one_shiftLeft]
  generalize x.pattern = p
  rw [div_eq_mul_one_div, scale]
  by_cases small : p < 2 ^ 52
  · have least : p / 2 ^ 52 = 0 := Nat.div_eq_of_lt small
    rw [if_pos least, if_pos small, Nat.mod_eq_of_lt small]
  · have some : p / 2 ^ 52 ≠ 0 := by omega
    rw [if_neg some, if_neg small, Nat.shiftLeft_eq, Nat.cast_mul, mul_assoc]
    congr 1
    rw [Nat.cast_pow, Nat.cast_ofNat, ← zpow_natCast, ← zpow_add₀ base]
    congr 1
    omega

theorem absValue_nonneg (x : Binary64) : 0 ≤ x.absValue := by
  rw [absValue_eq]
  positivity

theorem abs_value (x : Binary64) : |x.value| = x.absValue := by
  unfold value
  split
  · rw [abs_neg, abs_of_nonneg x.absValue_nonneg]
  · exact abs_of_nonneg x.absValue_nonneg

/-- Cutting off the fraction of the absolute value cuts it off the value. -/
theorem truncate_eq (x : Binary64) : x.truncate = wholePart x.value := by
  have floor : ⌊x.absValue⌋ = (x.units / one : ℕ) := by
    rw [absValue_eq]
    exact Rat.floor_natCast_div_natCast _ _
  unfold wholePart value truncate
  dsimp only
  split
  · next negative =>
    split
    · next nonneg =>
      have zero : x.absValue = 0 := by
        have := x.absValue_nonneg
        linarith
      rw [zero, Int.floor_zero] at floor
      rw [zero, neg_zero, Int.floor_zero, ← floor, neg_zero]
    · rw [Int.ceil_neg, floor]
  · rw [if_pos x.absValue_nonneg, floor]

end Binary64

end ScriptServer
