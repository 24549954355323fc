import ScriptServer.Proofs.Number.Value

/-!
# Floats and integers

An integer of 64 bits is rounded to a finite float, and one up to `2 ^ 53` to a float of its own
value. A float without a fraction is the float of its integer part, but for the sign of zero. A
count is rounded to a float that stands for it (`carries_ofInt`).
-/

namespace ScriptServer.Binary64

/-- The number with zero in place of negative zero. -/
def unsigned (x : Binary64) : Binary64 := if x.pattern = 0 then ofPattern false 0 else x

theorem unsigned_of_ne_zero {x : Binary64} (ne : x.pattern ≠ 0) : x.unsigned = x := if_neg ne

theorem pattern_unsigned (x : Binary64) : x.unsigned.pattern = x.pattern := by
  unfold unsigned
  split
  · next zero => rw [zero, pattern_ofPattern false (by decide)]
  · rfl

/-- The values are the same. -/
theorem signedUnits_unsigned (x : Binary64) : x.unsigned.signedUnits = x.signedUnits := by
  by_cases zero : x.pattern = 0
  · have none : x.units = 0 := by rw [units, zero]; rfl
    have none' : x.unsigned.units = 0 := by rw [units, pattern_unsigned, zero]; rfl
    simp only [signedUnits, none, none', Int.natCast_zero, Int.neg_zero, ite_self]
  · rw [unsigned_of_ne_zero zero]

/-- A pattern is the nearest one to its own value. -/
theorem nearest_unitsOf {p : Nat} (le : p ≤ infinity) : nearest (unitsOf p) 1 = p := by
  have near := nearest_isNearest (unitsOf p) Nat.one_pos
  rw [Nat.cast_one, div_one] at near
  exact near.unique (isNearest_self le)

theorem units_of_isIntegral {x : Binary64} (whole : x.isIntegral = true) :
    x.isFinite = true ∧ x.units = x.units / one * one := by
  rw [isIntegral, Bool.and_eq_true, beq_iff_eq] at whole
  exact ⟨whole.1, (Nat.div_mul_cancel (Nat.dvd_of_mod_eq_zero whole.2)).symm⟩

theorem natAbs_truncate (x : Binary64) : x.truncate.natAbs = x.units / one := by
  unfold truncate
  split <;> simp only [Int.natAbs_neg, Int.natAbs_natCast]

theorem natAbs_truncate_le {x : Binary64} {n : Nat} (most : x.absAtMost n = true) :
    x.truncate.natAbs ≤ n := by
  rw [absAtMost, decide_eq_true_eq] at most
  rw [natAbs_truncate]
  exact Nat.div_le_of_le_mul (by rwa [Nat.mul_comm] at most)

/-- A float without a fraction is the float of its integer part. -/
theorem ofInt_truncate {x : Binary64} (whole : x.isIntegral = true) :
    ofInt x.truncate = x.unsigned := by
  obtain ⟨finite, multiple⟩ := units_of_isIntegral whole
  rw [ofInt, natAbs_truncate, ← multiple, units, nearest_unitsOf (isFinite_iff.mp finite).le]
  by_cases zero : x.pattern = 0
  · have none : x.units = 0 := by rw [units, zero]; rfl
    have notNegative : decide (x.truncate < 0) = false := by
      have := natAbs_truncate x
      rw [none, Nat.zero_div] at this
      exact decide_eq_false (by omega)
    rw [notNegative, zero, unsigned, if_pos zero]
  · have some : 0 < x.units / one := by
      refine Nat.pos_of_ne_zero fun none => zero (unitsOf_strictMono.injective ?_)
      rw [none, Nat.zero_mul] at multiple
      exact multiple
    have sign : decide (x.truncate < 0) = x.negative := by
      simp only [truncate]
      split
      · next negative => rw [negative, decide_eq_true (by omega)]
      · next positive => rw [eq_false_of_ne_true positive, decide_eq_false (by omega)]
    rw [sign, ofPattern_self, unsigned_of_ne_zero zero]

/-- An integer that is not too large is rounded to a finite float. -/
theorem isFinite_ofInt_of_le {i : Int} {k : Nat} (small : i.natAbs ≤ 2 ^ k) (below : k ≤ 1022) :
    (ofInt i).isFinite = true := by
  have near := nearest_isNearest (i.natAbs * one) Nat.one_pos
  rw [Nat.cast_one, div_one, Nat.cast_mul] at near
  have bound : nearest (i.natAbs * one) 1 < infinity := by
    refine Nat.lt_of_le_of_ne near.le_infinity fun eq => ?_
    -- Zero would be nearer than infinity.
    have far := near.nearest 0 (Nat.zero_le _)
    have zero : ((unitsOf 0 : Nat) : ℚ) = 0 := rfl
    rw [eq, distance, distance, unitsOf_infinity, ← sub_mul, zero, zero_sub, abs_neg] at far
    have small' : (i.natAbs : ℚ) ≤ 2 ^ k := by exact_mod_cast small
    have large : (2 : ℚ) ^ k * 2 < 2 ^ 1024 := by
      rw [← pow_succ]
      exact pow_lt_pow_right₀ (by norm_num) (by omega)
    have some : (0 : ℚ) < 2 ^ k := by positivity
    generalize (2 : ℚ) ^ 1024 = top at far large
    have pos := one_pos
    have nonneg : (0 : ℚ) ≤ i.natAbs := Nat.cast_nonneg _
    rw [abs_of_nonneg (mul_nonneg nonneg pos.le),
      abs_of_nonneg (mul_nonneg (by linarith) pos.le)] at far
    linarith [le_of_mul_le_mul_right far pos]
  rw [isFinite_iff, ofInt, pattern_ofPattern _ (Nat.lt_trans bound infinity_lt)]
  exact bound

/-- An integer of 64 bits is rounded to a finite float. -/
theorem isFinite_ofInt {i : Int} (small : i.natAbs ≤ 2 ^ 63) : (ofInt i).isFinite = true :=
  isFinite_ofInt_of_le small (by decide)

/-! ## Integers that a float holds -/

theorem signedUnits_of_isIntegral {x : Binary64} (whole : x.isIntegral = true) :
    x.signedUnits = x.truncate * one := by
  have multiple : (x.units : Int) = (x.units / one : Nat) * one := by
    exact_mod_cast (units_of_isIntegral whole).2
  simp only [signedUnits, truncate]
  split <;> rw [multiple]
  rw [Int.neg_mul]

/-- The leading one of an integer up to `2 ^ 53` can be moved to where a pattern has it. -/
theorem exists_shift {k : Nat} (pos : 0 < k) (small : k ≤ 2 ^ 53) :
    ∃ j ≤ 52, 2 ^ 52 ≤ k * 2 ^ j ∧ k * 2 ^ j ≤ 2 ^ 53 := by
  by_cases top : k = 2 ^ 53
  · exact ⟨0, Nat.zero_le _, by rw [top]; decide⟩
  have ne : k ≠ 0 := Nat.ne_of_gt pos
  have bound : k.log2 < 53 := (Nat.log2_lt ne).mpr (by omega)
  refine ⟨52 - k.log2, Nat.sub_le .., ?_, ?_⟩
  · calc 2 ^ 52 = 2 ^ k.log2 * 2 ^ (52 - k.log2) := by rw [← Nat.pow_add]; congr 1; omega
      _ ≤ k * 2 ^ (52 - k.log2) := Nat.mul_le_mul_right _ (Nat.log2_self_le ne)
  · calc k * 2 ^ (52 - k.log2) ≤ 2 ^ (k.log2 + 1) * 2 ^ (52 - k.log2) :=
        Nat.mul_le_mul_right _ Nat.lt_log2_self.le
      _ = 2 ^ 53 := by rw [← Nat.pow_add]; congr 1; omega

/-- Every integer up to `2 ^ 53` is the value of a pattern. -/
theorem exists_pattern {k : Nat} (small : k ≤ 2 ^ 53) : ∃ p ≤ infinity, unitsOf p = k * one := by
  rcases Nat.eq_zero_or_pos k with rfl | pos
  · exact ⟨0, Nat.zero_le _, by rw [Nat.zero_mul]; rfl⟩
  obtain ⟨j, le, low, high⟩ := exists_shift pos small
  refine ⟨(1074 - j) * 2 ^ 52 + k * 2 ^ j, ?_, ?_⟩
  · rw [infinity, Nat.shiftLeft_eq]
    omega
  · rw [unitsOf_grid (.inr low) high, Nat.mul_assoc, ← Nat.pow_add, one, Nat.one_shiftLeft,
      Nat.add_sub_cancel' (by omega)]

/-- From `2 ^ 53` on every pattern stands for an integer. -/
theorem one_dvd_unitsOf {p : Nat} (large : 2 ^ 53 * one ≤ unitsOf p) : one ∣ unitsOf p := by
  obtain ⟨s, m, rfl, grid, small⟩ := exists_grid p
  rw [unitsOf_grid grid small.le] at large ⊢
  have step : one < 2 ^ s := by
    refine Nat.lt_of_mul_lt_mul_left (a := 2 ^ 53) (Nat.lt_of_le_of_lt large ?_)
    exact Nat.mul_lt_mul_of_pos_right small (Nat.two_pow_pos s)
  rw [one, Nat.one_shiftLeft] at step ⊢
  have le := ((Nat.pow_lt_pow_iff_right (by decide)).mp step).le
  exact Nat.dvd_mul_left_of_dvd (Nat.pow_dvd_pow 2 le) m

/-- The pattern of `2 ^ 63`. -/
theorem unitsOf_beyond : unitsOf (0x43E <<< 52) = 2 ^ 63 * one := by decide +kernel

/-- What is nearest to an integer up to `2 ^ 63` is such an integer. -/
theorem IsNearest.integer {p n : Nat} (near : IsNearest p (n * one)) (small : n ≤ 2 ^ 63) :
    one ∣ unitsOf p ∧ unitsOf p ≤ 2 ^ 63 * one := by
  have nearestSelf {k p' : Nat} (le : p' ≤ infinity) (value : unitsOf p' = k * one) :
      IsNearest p' (k * one) := by
    have self := isNearest_self le
    rwa [value, Nat.cast_mul] at self
  have order {a b : Nat} (le : a ≤ b) : ((a : ℚ) * one) ≤ b * one :=
    mul_le_mul_of_nonneg_right (Nat.cast_le.mpr le) one_pos.le
  constructor
  · by_cases exact' : n ≤ 2 ^ 53
    · obtain ⟨p', le, value⟩ := exists_pattern exact'
      rw [near.unique (nearestSelf le value), value]
      exact Nat.dvd_mul_left ..
    · obtain ⟨p', le, value⟩ := exists_pattern (Nat.le_refl (2 ^ 53))
      have above := (nearestSelf le value).mono near (order (Nat.le_of_not_le exact'))
      refine one_dvd_unitsOf ?_
      rw [← value]
      exact unitsOf_strictMono.monotone above
  · rw [← unitsOf_beyond]
    have self := nearestSelf (by decide) unitsOf_beyond
    exact unitsOf_strictMono.monotone (near.mono self (order small))

section

variable {i : Int} (small : i.natAbs ≤ 2 ^ 53)
include small

theorem sign_and_units_ofInt :
    (ofInt i).negative = decide (i < 0) ∧ (ofInt i).units = i.natAbs * one := by
  obtain ⟨p, le, value⟩ := exists_pattern small
  have bound : p < 2 ^ 63 := Nat.lt_of_le_of_lt le infinity_lt
  rw [ofInt, units, ← value, nearest_unitsOf le, pattern_ofPattern _ bound,
    negative_ofPattern _ bound]
  exact ⟨rfl, rfl⟩

theorem isIntegral_ofInt : (ofInt i).isIntegral = true := by
  rw [isIntegral, isFinite_ofInt (by omega), (sign_and_units_ofInt small).2, Nat.mul_mod_left]
  rfl

theorem truncate_ofInt : (ofInt i).truncate = i := by
  obtain ⟨sign, value⟩ := sign_and_units_ofInt small
  rw [truncate, sign, value, Nat.mul_div_cancel _ (by decide)]
  simp only [decide_eq_true_eq]
  split <;> omega

end

/-! ## Counts -/

/-- A float stands for a count: it is the nearest one, with an even pattern if two are nearest, and
up to `2 ^ 53` it is the count. -/
structure Carries (x : Binary64) (n : Nat) : Prop where
  finite : x.isFinite = true
  positive : x.negative = false
  nearest : ∀ y : Binary64, y.isFinite = true → |x.value - n| ≤ |y.value - n|
  even : ∀ y : Binary64, y.isFinite = true → y.negative = false → y ≠ x →
    |x.value - n| = |y.value - n| → x.pattern % 2 = 0
  exact : n ≤ 2 ^ 53 → x.value = n

section

variable {x : Binary64} {n k : Nat}

theorem value_of_positive (positive : x.negative = false) : x.value = x.absValue :=
  if_neg (Bool.eq_false_iff.mp positive)

theorem abs_absValue_sub (x : Binary64) (n : Nat) :
    |x.absValue - n| = distance x.pattern (n * one) / one := by
  have pos := one_pos
  rw [absValue_eq, distance, ← abs_of_pos pos, ← abs_div, abs_of_pos pos, sub_div,
    mul_div_cancel_right₀ _ pos.ne']
  rfl

theorem abs_absValue_sub_le (x : Binary64) (n : Nat) : |x.absValue - n| ≤ |x.value - n| := by
  have apart := abs_abs_sub_abs_le_abs_sub x.value n
  rwa [abs_value, Nat.abs_cast] at apart

theorem carries_ofInt (small : n ≤ 2 ^ k) (below : k ≤ 1022) : Carries (ofInt n) n := by
  have finite : (ofInt n).isFinite = true := isFinite_ofInt_of_le small below
  have bound : nearest (n * one) 1 < 2 ^ 63 :=
    Nat.lt_of_le_of_lt (nearest_isNearest _ Nat.one_pos).le_infinity infinity_lt
  have float : ofInt n = ofPattern false (nearest (n * one) 1) := by
    rw [ofInt, decide_eq_false (by omega), Int.natAbs_natCast]
  have positive : (ofInt n).negative = false := by
    rw [float, negative_ofPattern _ bound]
  have near : IsNearest (ofInt n).pattern (n * one) := by
    have near := nearest_isNearest (n * one) Nat.one_pos
    rw [Nat.cast_one, div_one, Nat.cast_mul] at near
    rwa [float, pattern_ofPattern _ bound]
  have inUnits : |(ofInt n).value - n| = distance (ofInt n).pattern (n * one) / one := by
    rw [value_of_positive positive, abs_absValue_sub]
  refine ⟨finite, positive, fun y finite' => ?_, fun y finite' positive' ne tie => ?_,
    fun small => ?_⟩
  · rw [inUnits]
    refine le_trans ?_ (abs_absValue_sub_le y n)
    rw [abs_absValue_sub]
    exact div_le_div_of_nonneg_right (near.nearest _ (isFinite_iff.mp finite').le) one_pos.le
  · rw [inUnits, value_of_positive positive', abs_absValue_sub,
      div_left_inj' one_pos.ne'] at tie
    refine near.even _ (isFinite_iff.mp finite').le (fun same => ne ?_) tie
    rw [← ofPattern_self y, ← ofPattern_self (ofInt n), same, positive, positive']
  · rw [value_of_positive positive, absValue_eq, (sign_and_units_ofInt (i := n) small).2,
      Int.natAbs_natCast, Nat.cast_mul, mul_div_cancel_right₀ _ one_pos.ne']

end

end ScriptServer.Binary64
