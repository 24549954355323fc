import ScriptServer.Proofs.Number.Value
import ScriptServer.Proofs.Number.Shortest

/-!
# Significant digits

`IsRounded n q r` says that `r` is `q` with `n` significant digits, without saying how the digits
are found, and `IsRounded.unique` that there is only one. `scientific` finds them
(`scientific_positional`), and `fixed` finds the same ones at the place at which they end
(`fixed_of_digits`), also where the rounding carries into the next power of ten.
-/

namespace ScriptServer

/-! ## Rounding -/

/-- `m` is the integer nearest to `q`, the even one of two. -/
def IsRound (q : ℚ) (m : ℤ) : Prop :=
  |(m : ℚ) - q| ≤ 1 / 2 ∧ (|(m : ℚ) - q| = 1 / 2 → Even m)

theorem isRound_roundEven (num : ℕ) {den : ℕ} (pos : 0 < den) :
    IsRound (num / den) (roundEven num den) := by
  obtain ⟨near, even⟩ := @roundEven_spec num den pos
  refine ⟨by exact_mod_cast near, fun tie => ?_⟩
  have := even (by exact_mod_cast tie)
  rw [Int.even_iff]
  omega

theorem IsRound.unique {q : ℚ} {m m' : ℤ} (h : IsRound q m) (h' : IsRound q m') : m = m' := by
  by_contra ne
  have sum : |(m : ℚ) - m'| ≤ |(m : ℚ) - q| + |(m' : ℚ) - q| := by
    rw [abs_sub_comm (m' : ℚ)]
    exact abs_sub_le _ _ _
  have apart : (1 : ℚ) ≤ |(m : ℚ) - m'| := by
    have : (1 : ℤ) ≤ |m - m'| := Int.one_le_abs (by omega)
    exact_mod_cast this
  -- Both are half a unit away, and one of two neighbours is odd.
  have even := h.2 (by linarith [h.1, h'.1])
  have even' := h'.2 (by linarith [h.1, h'.1])
  have near : |m - m'| ≤ 1 := by
    have : |(m : ℚ) - m'| ≤ 1 := by linarith [h.1, h'.1]
    exact_mod_cast this
  rw [abs_le] at near
  rw [Int.even_iff] at even even'
  omega

/-- `10 ^ e` is the power of ten of the first digit of `q`, for zero that of its only digit. -/
def HasExponent (q : ℚ) (e : ℤ) : Prop := q = 0 ∧ e = 0 ∨ 10 ^ e ≤ |q| ∧ |q| < 10 ^ (e + 1)

/-- `r` is `q` with `n` significant digits: the nearest multiple of the power of ten at which the
last of them stands, and the even one of two. -/
def IsRounded (n : ℕ) (q r : ℚ) : Prop :=
  ∃ k m : ℤ, HasExponent q k ∧ r = m * 10 ^ (k + 1 - n) ∧ IsRound (q / 10 ^ (k + 1 - n)) m

theorem HasExponent.unique {q : ℚ} {e e' : ℤ} (h : HasExponent q e) (h' : HasExponent q e') :
    e = e' := by
  have ten : (1 : ℚ) < 10 := by norm_num
  have positive {e : ℤ} : ¬ (10 : ℚ) ^ e ≤ |0| := by
    rw [abs_zero, not_le]
    exact zpow_pos (by norm_num) e
  rcases h with ⟨rfl, rfl⟩ | ⟨low, high⟩
  · rcases h' with ⟨-, rfl⟩ | ⟨low', -⟩
    · rfl
    · exact absurd low' positive
  · rcases h' with ⟨rfl, -⟩ | ⟨low', high'⟩
    · exact absurd low positive
    · have lt := (zpow_lt_zpow_iff_right₀ ten).mp (lt_of_le_of_lt low high')
      have lt' := (zpow_lt_zpow_iff_right₀ ten).mp (lt_of_le_of_lt low' high)
      omega

theorem HasExponent.neg {q : ℚ} {e : ℤ} (h : HasExponent q e) : HasExponent (-q) e := by
  unfold HasExponent
  rwa [neg_eq_zero, abs_neg]

theorem IsRound.neg {q : ℚ} {m : ℤ} (h : IsRound q m) : IsRound (-q) (-m) := by
  have distance : |((-m : ℤ) : ℚ) - -q| = |(m : ℚ) - q| := by
    rw [Int.cast_neg, neg_sub_neg, abs_sub_comm]
  unfold IsRound
  rwa [distance, even_neg]

/-- Rounding goes by the absolute value. -/
theorem IsRounded.neg {n : ℕ} {q r : ℚ} (h : IsRounded n q r) : IsRounded n (-q) (-r) := by
  obtain ⟨k, m, exponent, rfl, round⟩ := h
  refine ⟨k, -m, exponent.neg, ?_, ?_⟩
  · rw [Int.cast_neg, neg_mul]
  · rw [neg_div]
    exact round.neg

/-- There is only one number with `n` significant digits to round to. -/
theorem IsRounded.unique {n : ℕ} {q r r' : ℚ} (h : IsRounded n q r) (h' : IsRounded n q r') :
    r = r' := by
  obtain ⟨k, m, exponent, rfl, round⟩ := h
  obtain ⟨k', m', exponent', rfl, round'⟩ := h'
  obtain rfl := exponent.unique exponent'
  rw [round.unique round']

namespace Decimal

open Binary64 (one)

/-- The first digit stands one place below the magnitude. -/
theorem magnitude_spec {v : ℕ} (pos : 0 < v) :
    10 ^ (magnitude v - 1) ≤ (v : ℚ) / one ∧ (v : ℚ) / one < 10 ^ magnitude v := by
  have unit : (0 : ℚ) < one := Binary64.one_pos
  have unit' : 0 < one := by exact_mod_cast unit
  unfold magnitude
  rw [le_div_iff₀ unit, div_lt_iff₀ unit]
  split
  · next large =>
    obtain ⟨low, high⟩ := Text.decimal_bounds (Nat.div_pos large unit')
    have some := Text.length_decimal_pos (v / one)
    generalize (Text.decimal (v / one)).length = k at low high some
    rw [Nat.le_div_iff_mul_le unit'] at low
    rw [Nat.div_lt_iff_lt_mul unit'] at high
    have exponent : (k : ℤ) - 1 = (k - 1 : ℕ) := by omega
    rw [exponent, zpow_natCast, zpow_natCast]
    exact ⟨by exact_mod_cast low, by exact_mod_cast high⟩
  · next small =>
    have quotient : 0 < (one - 1) / v := Nat.div_pos (by omega) pos
    obtain ⟨low, high⟩ := Text.decimal_bounds quotient
    have some := Text.length_decimal_pos ((one - 1) / v)
    generalize (Text.decimal ((one - 1) / v)).length = k at low high some
    rw [Nat.le_div_iff_mul_le pos] at low
    rw [Nat.div_lt_iff_lt_mul pos] at high
    have low' : 10 ^ (k - 1) * v < one := by omega
    have high' : one ≤ 10 ^ k * v := by omega
    have exponent : 1 - (k : ℤ) - 1 = -(k : ℕ) := by omega
    have exponent' : 1 - (k : ℤ) = -(k - 1 : ℕ) := by omega
    rw [exponent, exponent', zpow_neg, zpow_neg, zpow_natCast, zpow_natCast,
      inv_mul_le_iff₀ (by positivity), lt_inv_mul_iff₀ (by positivity)]
    exact ⟨by exact_mod_cast high', by exact_mod_cast low'⟩

theorem hasExponent_magnitude {v : ℕ} (pos : 0 < v) :
    HasExponent ((v : ℚ) / one) (magnitude v - 1) := by
  obtain ⟨low, high⟩ := magnitude_spec pos
  have nonneg : 0 ≤ (v : ℚ) / one := div_nonneg (Nat.cast_nonneg v) Binary64.one_pos.le
  right
  rw [abs_of_nonneg nonneg, sub_add_cancel]
  exact ⟨low, high⟩

/-- A value over a grid is the quotient of two integers. -/
theorem onGrid_eq (v : ℕ) (exp : ℤ) :
    0 < (onGrid v exp).2 ∧
      ((onGrid v exp).1 : ℚ) / ((onGrid v exp).2 : ℕ) = (v : ℚ) / one / 10 ^ exp := by
  have unit : (0 : ℚ) < one := Binary64.one_pos
  have unit' : 0 < one := by exact_mod_cast unit
  unfold onGrid
  refine ⟨Nat.mul_pos unit' (Nat.pow_pos (by decide)), ?_⟩
  rcases Int.le_total 0 exp with nonneg | nonpos
  · have zero : (-exp).toNat = 0 := by omega
    have power : (10 : ℚ) ^ exp = 10 ^ exp.toNat := by
      rw [← zpow_natCast, Int.toNat_of_nonneg nonneg]
    simp only [zero, power, Nat.pow_eq, Nat.cast_mul, Nat.cast_pow, Nat.cast_ofNat, pow_zero,
      mul_one, div_div]
  · have zero : exp.toNat = 0 := by omega
    have power : (10 : ℚ) ^ exp = (10 ^ (-exp).toNat)⁻¹ := by
      rw [← zpow_natCast, ← zpow_neg, Int.toNat_of_nonneg (by omega), neg_neg]
    simp only [zero, power, Nat.pow_eq, Nat.cast_mul, Nat.cast_pow, Nat.cast_ofNat, pow_zero,
      mul_one, div_inv_eq_mul, div_mul_eq_mul_div]

end Decimal

/-! ## Digits of a number -/

section

variable {places : ℕ} {q : ℚ} {k m : ℤ}

/-- The digits of a value between two powers of ten lie between two powers of ten, the upper one
included. -/
theorem IsRound.bounds (low : 10 ^ k ≤ q) (high : q < 10 ^ (k + 1))
    (round : IsRound (q / 10 ^ (k - places)) m) : 10 ^ places ≤ m ∧ m ≤ 10 ^ (places + 1) := by
  have ten : (10 : ℚ) ≠ 0 := by norm_num
  have grid : (0 : ℚ) < 10 ^ (k - places) := zpow_pos (by norm_num) _
  have low' : (10 : ℚ) ^ places ≤ q / 10 ^ (k - places) := by
    rw [le_div_iff₀ grid, ← zpow_natCast, ← zpow_add₀ ten]
    rwa [show (places : ℤ) + (k - places) = k by omega]
  have high' : q / 10 ^ (k - places) < 10 ^ (places + 1) := by
    rw [div_lt_iff₀ grid, ← zpow_natCast, ← zpow_add₀ ten]
    rwa [show ((places + 1 : ℕ) : ℤ) + (k - places) = k + 1 by omega]
  obtain ⟨below, above⟩ := abs_le.mp round.1
  constructor
  · refine Int.lt_add_one_iff.mp ?_
    have : (10 : ℚ) ^ places < m + 1 := by linarith
    exact_mod_cast this
  · refine Int.lt_add_one_iff.mp ?_
    have : (m : ℚ) < 10 ^ (places + 1) + 1 := by linarith
    exact_mod_cast this

/-- A carry into the next power of ten is the same on the next grid. -/
theorem IsRound.carry (round : IsRound (q / 10 ^ (k - places)) (10 ^ (places + 1))) :
    IsRound (q / 10 ^ (k + 1 - places)) (10 ^ places) := by
  have ten : (10 : ℚ) ≠ 0 := by norm_num
  have next : q / 10 ^ (k + 1 - places) = q / 10 ^ (k - places) / 10 := by
    rw [div_div, ← zpow_add_one₀ ten]
    congr 2
    omega
  have near := abs_le.mp round.1
  rw [next]
  generalize q / 10 ^ (k - places) = y at near
  push_cast at near ⊢
  rw [pow_succ] at near
  -- The value is a tenth as far from the power of ten as it was, so this is no tie.
  have close : |(10 : ℚ) ^ places - y / 10| < 1 / 2 := by
    rw [abs_lt]
    constructor <;> linarith
  exact ⟨by exact_mod_cast close.le, fun tie => absurd (by exact_mod_cast tie) close.ne⟩

end

/-- The digits of a value, one before the point and `places` behind it, and the exponent of ten that
goes with them. -/
structure Digits (places : ℕ) (q : ℚ) (m : ℕ) (exp : ℤ) : Prop where
  round : IsRound (q / 10 ^ (exp - places)) m
  rounded : IsRounded (places + 1) q (m * 10 ^ (exp - places))
  exponent : HasExponent (m * 10 ^ (exp - places)) exp

theorem digits_zero (places : ℕ) : Digits places 0 0 0 := by
  have round : IsRound (0 / 10 ^ (0 - (places : ℤ))) (0 : ℕ) := by
    rw [zero_div, Nat.cast_zero]
    exact ⟨by norm_num, fun _ => Even.zero⟩
  refine ⟨round, ⟨0, 0, .inl ⟨rfl, rfl⟩, by simp, ?_⟩, .inl ⟨by simp, rfl⟩⟩
  rw [zero_div] at round ⊢
  exact round

/-- Digits that are enough for the places stand for a value with that exponent. -/
theorem hasExponent_digits {places m : ℕ} {exp : ℤ} (low : 10 ^ places ≤ m)
    (high : m < 10 ^ (places + 1)) : HasExponent (m * 10 ^ (exp - places)) exp := by
  have ten : (10 : ℚ) ≠ 0 := by norm_num
  have grid : (0 : ℚ) < 10 ^ (exp - places) := zpow_pos (by norm_num) _
  right
  rw [abs_of_nonneg (by positivity)]
  constructor
  · have : (10 : ℚ) ^ exp = 10 ^ places * 10 ^ (exp - places) := by
      rw [← zpow_natCast, ← zpow_add₀ ten]
      congr 1
      omega
    rw [this]
    exact mul_le_mul_of_nonneg_right (by exact_mod_cast low) grid.le
  · have : (10 : ℚ) ^ (exp + 1) = 10 ^ (places + 1) * 10 ^ (exp - places) := by
      rw [← zpow_natCast, ← zpow_add₀ ten]
      congr 1
      push_cast
      omega
    rw [this]
    exact mul_lt_mul_of_pos_right (by exact_mod_cast high) grid

namespace Binary64

open Decimal

variable {x : Binary64}

/-- The digits of a number that is not zero: those on the grid of its first digit, unless the
rounding carries into the next power of ten. -/
theorem scientific_eq (places : ℕ) (some : x.units ≠ 0) :
    ∃ m exp, Digits places x.absValue m exp ∧ 10 ^ places ≤ m ∧ m < 10 ^ (places + 1) ∧
      x.scientific places = (x.sign ++ (Text.decimal m).take 1 ++
        if places = 0 then [] else '.' :: (Text.decimal m).drop 1, exp) := by
  have pos : 0 < x.units := Nat.pos_of_ne_zero some
  have exponent := hasExponent_magnitude pos
  obtain ⟨low, high⟩ := magnitude_spec pos
  rw [← sub_add_cancel (magnitude x.units) 1] at high
  rw [← absValue_eq] at low high exponent
  unfold scientific
  rw [if_neg some]
  dsimp only
  generalize magnitude x.units - 1 = exp at *
  obtain ⟨den, quotient⟩ := onGrid_eq x.units (exp - places)
  have round := isRound_roundEven (onGrid x.units (exp - places)).1 den
  rw [quotient, ← absValue_eq] at round
  generalize roundEven _ _ = m at round ⊢
  obtain ⟨least, most⟩ := round.bounds low high
  have rounded : IsRounded (places + 1) x.absValue (m * 10 ^ (exp - places)) := by
    refine ⟨exp, m, exponent, ?_, ?_⟩
    · rw [Int.cast_natCast, Nat.cast_add_one, add_sub_add_right_eq_sub]
    · rwa [Nat.cast_add_one, add_sub_add_right_eq_sub]
  by_cases carry : m = Nat.pow 10 (places + 1)
  · rw [if_pos carry]
    have value : ((m : ℕ) : ℚ) * 10 ^ (exp - places) =
        (10 ^ places : ℕ) * 10 ^ (exp + 1 - places) := by
      rw [carry, Nat.pow_eq, show exp + 1 - (places : ℤ) = exp - places + 1 by omega,
        zpow_add_one₀ (by norm_num)]
      push_cast
      ring
    rw [value] at rounded
    rw [carry, Nat.pow_eq, Nat.cast_pow, Nat.cast_ofNat] at round
    have round' : IsRound (x.absValue / 10 ^ (exp + 1 - places)) (10 ^ places : ℕ) := by
      rw [Nat.cast_pow, Nat.cast_ofNat]
      exact round.carry
    have bound : 10 ^ places < 10 ^ (places + 1) := Nat.pow_lt_pow_succ (by decide)
    exact ⟨10 ^ places, exp + 1, ⟨round', rounded, hasExponent_digits le_rfl bound⟩, le_rfl,
      bound, rfl⟩
  · rw [if_neg carry]
    have least' : 10 ^ places ≤ m := by exact_mod_cast least
    have most' : m < 10 ^ (places + 1) := by
      have : m ≤ 10 ^ (places + 1) := by exact_mod_cast most
      exact Nat.lt_of_le_of_ne this carry
    exact ⟨m, exp, ⟨round, rounded, hasExponent_digits least' most'⟩, least', most', rfl⟩

/-- A number of places behind the point. -/
theorem positional_neg (m places : ℕ) :
    positional ⟨m, -places⟩ =
      if places = 0 then Text.decimal m
      else if places < (Text.decimal m).length then
        (Text.decimal m).take ((Text.decimal m).length - places) ++
          '.' :: (Text.decimal m).drop ((Text.decimal m).length - places)
      else '0' :: '.' ::
        (List.replicate (places - (Text.decimal m).length) '0' ++ Text.decimal m) := by
  have none : (-(places : ℤ)).toNat = 0 := by omega
  unfold positional
  dsimp only
  rw [neg_neg, Int.toNat_natCast, none, List.replicate_zero, List.append_nil]

/-- The mantissa has its point behind the first digit. -/
theorem scientific_positional (x : Binary64) (places : ℕ) :
    ∃ m exp, Digits places x.absValue m exp ∧
      x.scientific places = (x.sign ++ positional ⟨m, -places⟩, exp) := by
  by_cases zero : x.units = 0
  · have none : x.absValue = 0 := by rw [absValue_eq, zero, Nat.cast_zero, zero_div]
    refine ⟨0, 0, none ▸ digits_zero places, ?_⟩
    have digit : Text.decimal 0 = ['0'] := rfl
    rw [positional_neg, digit, List.length_singleton]
    unfold scientific
    rw [if_pos zero, List.append_assoc]
    by_cases whole : places = 0
    · rw [if_pos whole, if_pos whole, List.append_nil]
    · have zeros : List.replicate places '0' = List.replicate (places - 1) '0' ++ ['0'] := by
        rw [← List.replicate_succ', Nat.sub_add_cancel (Nat.pos_of_ne_zero whole)]
      rw [if_neg whole, if_neg whole, if_neg (by omega), zeros]
      rfl
  · obtain ⟨m, exp, digits, low, high, eq⟩ := scientific_eq places zero
    refine ⟨m, exp, digits, ?_⟩
    have length : (Text.decimal m).length = places + 1 := by
      rw [Text.length_decimal, Nat.log_eq_of_pow_le_of_lt_pow low high]
    rw [eq, positional_neg, length, List.append_assoc]
    by_cases whole : places = 0
    · rw [if_pos whole, if_pos whole, List.append_nil, List.take_of_length_le (by omega)]
    · rw [if_neg whole, if_neg whole, if_pos (by omega), Nat.add_sub_cancel_left]

/-- What is rounded at a fixed place is written with the point before it. -/
theorem fixed_positional (x : Binary64) (places : ℕ) :
    x.fixed places =
      x.sign ++ positional ⟨roundEven (x.units * Nat.pow 10 places) one, -places⟩ := by
  rw [positional_neg]
  unfold fixed
  dsimp only
  generalize roundEven _ _ = m
  have some := Text.length_decimal_pos m
  generalize Text.decimal m = ds at some ⊢
  rw [List.append_assoc]
  congr 1
  by_cases whole : places = 0
  · subst whole
    rw [if_pos rfl, if_pos rfl, show 0 + 1 - ds.length = 0 by omega, List.replicate_zero,
      List.nil_append, Nat.sub_zero, List.take_length, List.append_nil]
  · rw [if_neg whole, if_neg whole]
    by_cases lt : places < ds.length
    · rw [if_pos lt, show places + 1 - ds.length = 0 by omega, List.replicate_zero,
        List.nil_append]
    · have length : (List.replicate (places + 1 - ds.length) '0' ++ ds).length = places + 1 := by
        rw [List.length_append, List.length_replicate]
        omega
      have front : List.replicate (places + 1 - ds.length) '0' =
          '0' :: List.replicate (places - ds.length) '0' := by
        rw [← List.replicate_succ]
        congr 1
        omega
      rw [if_neg lt, length, Nat.add_sub_cancel_left, front]
      rfl

/-- The digits at a fixed place are the same, however large the first of them is. -/
theorem fixed_of_digits {places m : ℕ} {exp : ℤ} (digits : Digits places x.absValue m exp)
    (le : exp ≤ places) :
    x.fixed (places - exp).toNat = x.sign ++ positional ⟨m, exp - places⟩ := by
  have back : -(((places : ℤ) - exp).toNat : ℤ) = exp - places := by omega
  have same : roundEven (x.units * Nat.pow 10 (places - exp).toNat) one = m := by
    have unit : 0 < one := by exact_mod_cast one_pos
    have round := isRound_roundEven (x.units * Nat.pow 10 (places - exp).toNat) unit
    have quotient : ((x.units * Nat.pow 10 (places - exp).toNat : ℕ) : ℚ) / one =
        x.absValue / 10 ^ (exp - places) := by
      rw [← back, zpow_neg, zpow_natCast, div_inv_eq_mul, absValue_eq, Nat.pow_eq]
      push_cast
      ring
    rw [quotient] at round
    exact_mod_cast round.unique digits.round
  rw [fixed_positional, same, back]

end Binary64

end ScriptServer
