import Mathlib.Data.Rat.Cast.Order
import Mathlib.Tactic
import ScriptServer.Number.Binary64

/-!
# Rounding to the nearest pattern

`IsNearest p q` says what the pattern of a rational number of units has to be, without saying how it
is found, and `IsNearest.unique` that there is only one. `nearest` finds it
(`nearest_isNearest`), and so does `nearestDecimal` where it cuts the computation short
(`nearestDecimal_isNearest`). Hence decimals of one value are rounded alike.
-/

namespace ScriptServer

/-! ## Rounding a quotient -/

theorem roundEven_floor (num den : Nat) :
    num / den ≤ roundEven num den ∧ roundEven num den ≤ num / den + 1 := by
  unfold roundEven
  simp only
  split
  · omega
  · split <;> omega

theorem le_roundEven {num den a : Nat} (hd : 0 < den) (h : a * den ≤ num) :
    a ≤ roundEven num den :=
  Nat.le_trans ((Nat.le_div_iff_mul_le hd).mpr h) (roundEven_floor num den).1

theorem roundEven_le {num den a : Nat} (hd : 0 < den) (h : num < a * den) :
    roundEven num den ≤ a := by
  have := (Nat.div_lt_iff_lt_mul hd).mpr h
  have := (roundEven_floor num den).2
  omega

/-- `roundEven` is at most half a unit away, and even if it is just that. -/
theorem roundEven_spec {num den : Nat} (hd : 0 < den) :
    |(roundEven num den : ℚ) - num / den| ≤ 1 / 2 ∧
      (|(roundEven num den : ℚ) - num / den| = 1 / 2 → roundEven num den % 2 = 0) := by
  have hd' : (0 : ℚ) < den := by exact_mod_cast hd
  have hr : num % den < den := Nat.mod_lt _ hd
  have hq : (num : ℚ) / den = (num / den : Nat) + (num % den : Nat) / (den : ℚ) := by
    rw [div_eq_iff hd'.ne', add_mul, div_mul_cancel₀ _ hd'.ne']
    exact_mod_cast (Nat.div_add_mod' num den).symm
  unfold roundEven
  simp only [hq]
  generalize num / den = q
  generalize num % den = r at hr
  have hfrac : (r : ℚ) / den * den = r := div_mul_cancel₀ _ hd'.ne'
  have h0 : (0 : ℚ) ≤ (r : ℚ) / den := by positivity
  generalize (r : ℚ) / den = f at hfrac h0
  split
  · next h =>
    have h' : 2 * (r : ℚ) < den := by exact_mod_cast h
    have hf : f < 1 / 2 := by nlinarith
    have e : |(q : ℚ) - (q + f)| = f := by
      rw [sub_add_cancel_left, abs_neg, abs_of_nonneg h0]
    rw [e]
    exact ⟨hf.le, fun h => absurd h hf.ne⟩
  · split
    · next h =>
      have h' : (den : ℚ) < 2 * r := by exact_mod_cast h
      have hf : 1 / 2 < f := by nlinarith
      have hf1 : f < 1 := by
        have : (r : ℚ) < den := by exact_mod_cast hr
        nlinarith
      have e : |((q + 1 : Nat) : ℚ) - (q + f)| = 1 - f := by
        rw [abs_of_nonneg (by push_cast; linarith)]; push_cast; ring
      rw [e]
      exact ⟨by linarith, fun h => by linarith⟩
    · next h1 h2 =>
      have h' : (den : ℚ) = 2 * r := by exact_mod_cast (show den = 2 * r by omega)
      have hf : f = 1 / 2 := by nlinarith
      have hm : q % 2 = 0 ∨ q % 2 = 1 := by omega
      have e : |((q + q % 2 : Nat) : ℚ) - (q + f)| = 1 / 2 := by
        rcases hm with hm | hm <;> rw [hm, hf] <;> push_cast
        · rw [show (q : ℚ) + 0 - (q + 1 / 2) = -(1 / 2) by ring, abs_neg, abs_of_pos (by norm_num)]
        · rw [show (q : ℚ) + 1 - (q + 1 / 2) = 1 / 2 by ring, abs_of_pos (by norm_num)]
      rw [e]
      exact ⟨le_rfl, fun _ => by omega⟩

namespace Binary64

/-! ## The values of patterns -/

/-- Patterns are written on the grid of the multiples of `2 ^ s`. -/
theorem unitsOf_grid {s m : Nat} (h : s = 0 ∨ 2 ^ 52 ≤ m) (hm : m ≤ 2 ^ 53) :
    unitsOf (s * 2 ^ 52 + m) = m * 2 ^ s := by
  simp only [unitsOf, Nat.shiftLeft_eq, Nat.one_mul]
  by_cases hsmall : s * 2 ^ 52 + m < 2 ^ 52
  · have hs : s = 0 := by omega
    subst hs
    rw [if_pos hsmall]; omega
  · rw [if_neg hsmall]
    rcases Nat.lt_or_eq_of_le hm with hm | rfl
    · have hdiv : (s * 2 ^ 52 + m) / 2 ^ 52 = s + 1 := by omega
      have hmod : (s * 2 ^ 52 + m) % 2 ^ 52 = m - 2 ^ 52 := by omega
      rw [hdiv, hmod, Nat.add_sub_cancel, Nat.add_sub_cancel' (by omega)]
    · have hdiv : (s * 2 ^ 52 + 2 ^ 53) / 2 ^ 52 = s + 2 := by omega
      have hmod : (s * 2 ^ 52 + 2 ^ 53) % 2 ^ 52 = 0 := by omega
      rw [hdiv, hmod, show s + 2 - 1 = s + 1 by omega, Nat.pow_succ 2 s]; omega

theorem exists_grid (p : Nat) :
    ∃ s m, p = s * 2 ^ 52 + m ∧ (s = 0 ∨ 2 ^ 52 ≤ m) ∧ m < 2 ^ 53 :=
  ⟨p / 2 ^ 52 - 1, p - (p / 2 ^ 52 - 1) * 2 ^ 52, by omega, by omega, by omega⟩

theorem unitsOf_lt_succ (p : Nat) : unitsOf p < unitsOf (p + 1) := by
  obtain ⟨s, m, rfl, h, hm⟩ := exists_grid p
  rw [unitsOf_grid h hm.le, Nat.add_assoc, unitsOf_grid (by omega) (by omega)]
  exact Nat.mul_lt_mul_of_pos_right (Nat.lt_succ_self m) (Nat.two_pow_pos s)

theorem unitsOf_strictMono : StrictMono unitsOf := strictMono_nat_of_lt_succ unitsOf_lt_succ

/-! ## The nearest pattern -/

/-- How far a pattern is from `q` units. -/
def distance (p : Nat) (q : ℚ) : ℚ := |(unitsOf p : ℚ) - q|

/-- The grid on which `nearest` looks for `num / den`. -/
theorem nearest_grid (num : Nat) {den : Nat} (hd : 0 < den) :
    let s := Nat.log2 (num / den) - 52
    let m := roundEven num (den * 2 ^ s)
    (s = 0 ∨ 2 ^ 52 ≤ m ∧ 2 ^ 52 * 2 ^ s * den ≤ num) ∧ m ≤ 2 ^ 53 := by
  intro s m
  have hden : 0 < den * 2 ^ s := Nat.mul_pos hd (Nat.two_pow_pos s)
  have hlt : num / den < 2 ^ 53 * 2 ^ s := by
    rw [← Nat.pow_add]
    refine Nat.lt_of_lt_of_le Nat.lt_log2_self (Nat.pow_le_pow_right (by decide) ?_)
    omega
  have hm : m ≤ 2 ^ 53 := by
    refine roundEven_le hden ?_
    rw [Nat.div_lt_iff_lt_mul hd] at hlt
    rw [Nat.mul_comm den, ← Nat.mul_assoc]; exact hlt
  refine ⟨?_, hm⟩
  by_cases hs : s = 0
  · exact .inl hs
  · have hne : num / den ≠ 0 := by
      intro h0
      apply hs
      show Nat.log2 (num / den) - 52 = 0
      rw [h0]; rfl
    have hle : 2 ^ 52 * 2 ^ s ≤ num / den := by
      rw [← Nat.pow_add, show 52 + s = Nat.log2 (num / den) by omega]
      exact Nat.log2_self_le hne
    rw [Nat.le_div_iff_mul_le hd] at hle
    refine .inr ⟨le_roundEven hden ?_, hle⟩
    rw [Nat.mul_comm den, ← Nat.mul_assoc]; exact hle

/-- On one grid no whole multiple is closer than the one that `roundEven` gives. -/
theorem closer_multiple {x : ℚ} {m k : Nat} (h : |(m : ℚ) - x| ≤ 1 / 2)
    (heven : |(m : ℚ) - x| = 1 / 2 → m % 2 = 0) (hne : k ≠ m) :
    |(m : ℚ) - x| ≤ |(k : ℚ) - x| ∧ (|(m : ℚ) - x| = |(k : ℚ) - x| → m % 2 = 0) := by
  have hk : (1 : ℚ) ≤ |(k : ℚ) - m| := by
    have : (1 : ℤ) ≤ |(k : ℤ) - m| := Int.one_le_abs (by omega)
    exact_mod_cast this
  have htri : |(k : ℚ) - m| ≤ |(k : ℚ) - x| + |(m : ℚ) - x| := by
    rw [abs_sub_comm (m : ℚ) x]; exact abs_sub_le _ _ _
  exact ⟨by linarith, fun he => heven (by linarith)⟩

/-- A pattern written on a grid is as far from `q` as its multiple is from the scaled `q`. -/
theorem distance_grid {s m p : Nat} (hp : unitsOf p = m * 2 ^ s) (q : ℚ) :
    distance p q = 2 ^ s * |(m : ℚ) - q / 2 ^ s| := by
  have h2 : (0 : ℚ) < 2 ^ s := by positivity
  rw [distance, hp, ← abs_of_pos h2, ← abs_mul, abs_of_pos h2, mul_sub, mul_div_cancel₀ _ h2.ne']
  push_cast
  rw [mul_comm]

section

variable {s m r p : Nat} {q : ℚ}

/-- A pattern on the same grid or a coarser one is not closer. -/
theorem closer_coarser {s' m' : Nat} (hr : unitsOf r = m * 2 ^ s)
    (hhalf : |(m : ℚ) - q / 2 ^ s| ≤ 1 / 2) (heven : |(m : ℚ) - q / 2 ^ s| = 1 / 2 → m % 2 = 0)
    (hp : unitsOf p = m' * 2 ^ s') (hle : s ≤ s') (hne : p ≠ r) :
    distance r q ≤ distance p q ∧ (distance r q = distance p q → m % 2 = 0) := by
  have h2 : (0 : ℚ) < 2 ^ s := by positivity
  have hk : unitsOf p = (m' * 2 ^ (s' - s)) * 2 ^ s := by
    rw [hp, Nat.mul_assoc, ← Nat.pow_add, Nat.sub_add_cancel hle]
  have hkm : m' * 2 ^ (s' - s) ≠ m := fun h =>
    hne (unitsOf_strictMono.injective (by rw [hk, hr, h]))
  obtain ⟨hcloser, htie⟩ := closer_multiple hhalf heven hkm
  rw [distance_grid hr, distance_grid hk]
  exact ⟨mul_le_mul_of_nonneg_left hcloser h2.le, fun he => htie (mul_left_cancel₀ h2.ne' he)⟩

/-- A pattern below the grid is farther than the first point of the grid, which is not closer. -/
theorem closer_below (hr : unitsOf r = m * 2 ^ s) (hhalf : |(m : ℚ) - q / 2 ^ s| ≤ 1 / 2)
    (heven : |(m : ℚ) - q / 2 ^ s| = 1 / 2 → m % 2 = 0)
    (hp : (unitsOf p : ℚ) < 2 ^ 52 * 2 ^ s) (hq : (2 : ℚ) ^ 52 * 2 ^ s ≤ q) :
    distance r q < distance p q := by
  have h2 : (0 : ℚ) < 2 ^ s := by positivity
  have hfirst : |(m : ℚ) - q / 2 ^ s| ≤ |((2 ^ 52 : Nat) : ℚ) - q / 2 ^ s| := by
    by_cases h : 2 ^ 52 = m
    · rw [h]
    · exact (closer_multiple hhalf heven h).1
  calc distance r q
      = 2 ^ s * |(m : ℚ) - q / 2 ^ s| := distance_grid hr q
    _ ≤ 2 ^ s * |((2 ^ 52 : Nat) : ℚ) - q / 2 ^ s| := mul_le_mul_of_nonneg_left hfirst h2.le
    _ = |(2 : ℚ) ^ 52 * 2 ^ s - q| := by
        rw [← abs_of_pos h2, ← abs_mul, abs_of_pos h2, mul_sub, mul_div_cancel₀ _ h2.ne']
        norm_num [mul_comm]
    _ = q - 2 ^ 52 * 2 ^ s := by rw [abs_sub_comm, abs_of_nonneg (by linarith)]
    _ < q - unitsOf p := by linarith
    _ = distance p q := by rw [distance, abs_sub_comm, abs_of_nonneg (by linarith)]

end

/-- The pattern before it is cut off at infinity, compared with any other. -/
theorem nearest_unbounded (num : Nat) {den : Nat} (hd : 0 < den) (p : Nat) :
    let s := Nat.log2 (num / den) - 52
    let r := s * 2 ^ 52 + roundEven num (den * 2 ^ s)
    p ≠ r → distance r (num / den) ≤ distance p (num / den) ∧
      (distance r (num / den) = distance p (num / den) → r % 2 = 0) := by
  intro s r hne
  obtain ⟨hlow, hhigh⟩ := nearest_grid num hd
  obtain ⟨hhalf, heven⟩ := @roundEven_spec num _ (Nat.mul_pos hd (Nat.two_pow_pos s))
  change s = 0 ∨ 2 ^ 52 ≤ roundEven num (den * 2 ^ s) ∧ _ at hlow
  change roundEven num (den * 2 ^ s) ≤ 2 ^ 53 at hhigh
  have hx : (num : ℚ) / ((den * 2 ^ s : Nat) : ℚ) = (num : ℚ) / den / 2 ^ s := by
    push_cast; rw [div_div]
  rw [hx] at hhalf heven
  have hr : unitsOf r = roundEven num (den * 2 ^ s) * 2 ^ s :=
    unitsOf_grid (hlow.imp id And.left) hhigh
  have hparity : r % 2 = roundEven num (den * 2 ^ s) % 2 := by
    show (s * 2 ^ 52 + roundEven num (den * 2 ^ s)) % 2 = _
    omega
  rw [hparity]
  obtain ⟨s', m', hgrid, hs', hm'⟩ := exists_grid p
  have hp : unitsOf p = m' * 2 ^ s' := hgrid ▸ unitsOf_grid hs' hm'.le
  by_cases hle : s ≤ s'
  · exact closer_coarser hr hhalf heven hp hle hne
  · -- a pattern of a finer grid lies below the grid of `r`
    obtain ⟨-, hnum⟩ := hlow.resolve_left (by omega)
    have hfirst : (2 : ℚ) ^ 52 * 2 ^ s ≤ num / den := by
      have hd' : (0 : ℚ) < den := by exact_mod_cast hd
      rw [le_div_iff₀ hd']
      exact_mod_cast hnum
    have hbelow : unitsOf p < 2 ^ 52 * 2 ^ s := by
      rw [← unitsOf_grid (s := s) (m := 2 ^ 52) (.inr le_rfl) (by decide)]
      exact unitsOf_strictMono (by omega)
    have hlt := closer_below hr hhalf heven (by exact_mod_cast hbelow) hfirst
    exact ⟨hlt.le, fun he => absurd he hlt.ne⟩

/-- `p` is the pattern nearest to `q` units, the even one of two. Infinity counts as the value that
would follow the greatest finite one, so what lies half a step or more above that one is next to
infinity. -/
structure IsNearest (p : Nat) (q : ℚ) : Prop where
  le_infinity : p ≤ infinity
  nearest : ∀ p' ≤ infinity, distance p q ≤ distance p' q
  even : ∀ p' ≤ infinity, p' ≠ p → distance p q = distance p' q → p % 2 = 0

theorem nearest_isNearest (num : Nat) {den : Nat} (hd : 0 < den) :
    IsNearest (nearest num den) (num / den) := by
  have key := nearest_unbounded num hd
  simp only at key
  generalize hs : Nat.log2 (num / den) - 52 = s at key
  generalize hm : roundEven num (den * 2 ^ s) = m at key
  have hr : nearest num den = min infinity (s * 2 ^ 52 + m) := by
    simp only [nearest, hs, Nat.shiftLeft_eq, hm]
  rw [hr]
  generalize s * 2 ^ 52 + m = r at *
  generalize (num : ℚ) / den = q at *
  by_cases hle : r ≤ infinity
  · rw [Nat.min_eq_right hle]
    refine ⟨hle, fun p _ => ?_, fun p _ hne => (key p hne).2⟩
    by_cases h : p = r
    · rw [h]
    · exact (key p h).1
  · -- `q` is closer to `r` than to infinity, so it lies above infinity
    rw [Nat.min_eq_left (by omega)]
    have habove : (unitsOf infinity : ℚ) < q := by
      have hlt : (unitsOf infinity : ℚ) < unitsOf r := by
        exact_mod_cast unitsOf_strictMono (Nat.lt_of_not_le hle)
      by_contra hq
      have := (key infinity (by omega)).1
      simp only [distance] at this
      rw [abs_of_nonneg (by linarith), abs_of_nonneg (by linarith)] at this
      linarith
    have hlt : ∀ p ≤ infinity, p ≠ infinity → distance infinity q < distance p q := by
      intro p hp hne
      have : (unitsOf p : ℚ) < unitsOf infinity := by
        exact_mod_cast unitsOf_strictMono (Nat.lt_of_le_of_ne hp hne)
      simp only [distance]
      rw [abs_of_neg (by linarith), abs_of_neg (by linarith)]
      linarith
    refine ⟨le_rfl, fun p hp => ?_, fun p hp hne he => absurd he (hlt p hp hne).ne⟩
    by_cases h : p = infinity
    · rw [h]
    · exact (hlt p hp h).le

/-- There is only one nearest pattern. -/
theorem IsNearest.unique {p p' : Nat} {q : ℚ} (h : IsNearest p q) (h' : IsNearest p' q) :
    p = p' := by
  wlog hlt : p < p' generalizing p p'
  · rcases Nat.lt_trichotomy p p' with h1 | h1 | h1
    · exact this h h' h1
    · exact h1
    · exact (this h' h h1).symm
  exfalso
  have he : distance p q = distance p' q :=
    le_antisymm (h.nearest p' h'.le_infinity) (h'.nearest p h.le_infinity)
  have hp := h.even p' h'.le_infinity (by omega) he
  have hp' := h'.even p h.le_infinity (by omega) he.symm
  -- both are even, so there is a pattern between them, and that one is closer
  have h1 : (unitsOf p : ℚ) < unitsOf (p + 1) := by exact_mod_cast unitsOf_lt_succ p
  have h2 : (unitsOf (p + 1) : ℚ) < unitsOf p' := by
    exact_mod_cast unitsOf_strictMono (show p + 1 < p' by omega)
  have hmid := h.nearest (p + 1) (by have := h'.le_infinity; omega)
  simp only [distance] at he hmid
  have hb : (unitsOf p : ℚ) ≤ q ∧ q ≤ unitsOf p' := by
    constructor
    · by_contra hq
      rw [abs_of_nonneg (by linarith), abs_of_nonneg (by linarith)] at he
      linarith
    · by_contra hq
      rw [abs_of_nonpos (by linarith), abs_of_nonpos (by linarith)] at he
      linarith
  rw [abs_of_nonpos (by linarith), abs_of_nonneg (by linarith)] at he
  rw [abs_of_nonpos (by linarith)] at hmid
  rcases abs_cases ((unitsOf (p + 1) : ℚ) - q) with ⟨h3, _⟩ | ⟨h3, _⟩ <;> linarith

/-- The nearest pattern does not fall where the value grows. -/
theorem IsNearest.mono {p p' : Nat} {q q' : ℚ} (h : IsNearest p q) (h' : IsNearest p' q')
    (le : q ≤ q') : p ≤ p' := by
  by_contra lt
  have below : (unitsOf p' : ℚ) < unitsOf p := by
    exact_mod_cast unitsOf_strictMono (Nat.lt_of_not_le lt)
  -- Both values are at the middle between the patterns, so they are one value.
  have near := h.nearest p' h'.le_infinity
  have near' := h'.nearest p h.le_infinity
  rw [distance, distance] at near near'
  have middle : ((unitsOf p : ℚ) + unitsOf p') / 2 ≤ q := by
    by_contra small
    rw [abs_of_pos (by linarith), le_abs] at near
    rcases near with near | near <;> linarith
  have middle' : q' ≤ ((unitsOf p : ℚ) + unitsOf p') / 2 := by
    by_contra large
    rw [abs_of_neg (by linarith : (unitsOf p' : ℚ) - q' < 0), le_abs] at near'
    rcases near' with near' | near' <;> linarith
  obtain rfl : q = q' := by linarith
  exact lt (h.unique h').le

/-! ## Numbers that need no search -/

theorem isNearest_self {p : Nat} (hp : p ≤ infinity) : IsNearest p (unitsOf p) := by
  have h0 : distance p (unitsOf p) = 0 := by rw [distance, sub_self, abs_zero]
  refine ⟨hp, fun p' _ => h0 ▸ abs_nonneg _, fun p' _ hne he => absurd ?_ hne⟩
  rw [h0, distance, eq_comm, abs_eq_zero, sub_eq_zero] at he
  exact unitsOf_strictMono.injective (by exact_mod_cast he)

/-- The only pattern that is closer than the others is the nearest one. -/
theorem isNearest_of_lt {p : Nat} {q : ℚ} (hp : p ≤ infinity)
    (h : ∀ p' ≤ infinity, p' ≠ p → distance p q < distance p' q) : IsNearest p q := by
  refine ⟨hp, fun p' hp' => ?_, fun p' hp' hne he => absurd he (h p' hp' hne).ne⟩
  by_cases he : p' = p
  · rw [he]
  · exact (h p' hp' he).le

theorem isNearest_infinity {q : ℚ} (h : (unitsOf infinity : ℚ) ≤ q) : IsNearest infinity q := by
  refine isNearest_of_lt le_rfl fun p hp hne => ?_
  have : (unitsOf p : ℚ) < unitsOf infinity := by
    exact_mod_cast unitsOf_strictMono (Nat.lt_of_le_of_ne hp hne)
  simp only [distance]
  rw [abs_of_nonpos (by linarith), abs_of_neg (by linarith)]
  linarith

theorem isNearest_zero {q : ℚ} (h0 : 0 ≤ q) (h : q < 1 / 2) : IsNearest 0 q := by
  refine isNearest_of_lt (Nat.zero_le _) fun p _ hne => ?_
  have h1 : (1 : ℚ) ≤ unitsOf p := by
    have : unitsOf 0 < unitsOf p := unitsOf_strictMono (Nat.pos_of_ne_zero hne)
    exact_mod_cast Nat.lt_of_le_of_lt (Nat.zero_le _) this
  have hz : ((unitsOf 0 : Nat) : ℚ) = 0 := rfl
  simp only [distance, hz]
  rw [abs_of_nonpos (by linarith), abs_of_nonneg (by linarith)]
  linarith

theorem one_eq : (one : ℚ) = 2 ^ 1074 := by
  simp only [one, Nat.one_shiftLeft, Nat.cast_pow, Nat.cast_ofNat]

theorem unitsOf_infinity : (unitsOf infinity : ℚ) = 2 ^ 1024 * (one : ℚ) := by
  have h : unitsOf infinity = 2 ^ 52 * 2 ^ 2046 := by
    rw [show infinity = 2046 * 2 ^ 52 + 2 ^ 52 by decide, unitsOf_grid (.inr le_rfl) (by decide)]
  have hexp : 52 + 2046 = 1024 + 1074 := rfl
  rw [h, Nat.cast_mul, Nat.cast_pow, Nat.cast_pow, Nat.cast_ofNat, one_eq]
  generalize 52 = a, 2046 = b, 1024 = c, 1074 = d at hexp ⊢
  rw [← pow_add, hexp, pow_add]

theorem one_pos : (0 : ℚ) < one := by
  rw [one_eq]; exact pow_pos (by norm_num) _

/-! ## Decimals -/

theorem two_pow_lt_ten_pow {n : Nat} (h : n < 1200) : (2 : ℚ) ^ n < 10 ^ (400 : ℤ) := by
  calc (2 : ℚ) ^ n < 2 ^ (3 * 400) := pow_lt_pow_right₀ (by norm_num) h
    _ = (2 ^ 3) ^ 400 := pow_mul 2 3 400
    _ ≤ 10 ^ 400 := pow_le_pow_left₀ (by norm_num) (by norm_num) 400
    _ = 10 ^ (400 : ℤ) := (zpow_natCast 10 400).symm

theorem ten_pow_mul_one_lt : 10 ^ (-400 : ℤ) * (one : ℚ) < 1 / 2 := by
  have h : (one : ℚ) * 2 < 10 ^ (400 : ℤ) := by
    have hn : 1074 + 1 < 1200 := by decide
    rw [one_eq]
    generalize 1074 = n at hn ⊢
    rw [← pow_succ]
    exact two_pow_lt_ten_pow hn
  rw [zpow_neg, inv_mul_lt_iff₀ (zpow_pos (by norm_num) _), mul_one_div, lt_div_iff₀ (by norm_num)]
  exact h

theorem ten_zpow_pos (exp : Int) : (0 : ℚ) < 10 ^ exp := zpow_pos (by norm_num) exp

def decimalUnits (digits : Nat) (exp : Int) : ℚ := (digits : ℚ) * 10 ^ exp * one

theorem isNearest_infinity_of_exp {digits : Nat} {exp : Int} (hd : digits ≠ 0) (h : 400 < exp) :
    IsNearest infinity (decimalUnits digits exp) := by
  have hd' : (1 : ℚ) ≤ digits := by exact_mod_cast Nat.pos_of_ne_zero hd
  refine isNearest_infinity ?_
  rw [unitsOf_infinity]
  refine mul_le_mul_of_nonneg_right ?_ one_pos.le
  calc (2 : ℚ) ^ 1024 ≤ 10 ^ (400 : ℤ) := (two_pow_lt_ten_pow (by decide)).le
    _ ≤ 10 ^ exp := zpow_le_zpow_right₀ (by norm_num) h.le
    _ = 1 * 10 ^ exp := (one_mul _).symm
    _ ≤ digits * 10 ^ exp := mul_le_mul_of_nonneg_right hd' (ten_zpow_pos exp).le

theorem isNearest_zero_of_exp {digits : Nat} {exp : Int}
    (h : exp + (Nat.log2 digits + 1) < -400) : IsNearest 0 (decimalUnits digits exp) := by
  have hten := ten_zpow_pos exp
  have hone := one_pos
  refine isNearest_zero (mul_nonneg (mul_nonneg (Nat.cast_nonneg _) hten.le) hone.le) ?_
  have hdig : (digits : ℚ) ≤ 10 ^ (Nat.log2 digits + 1) := by
    have h : digits < 2 ^ (Nat.log2 digits + 1) := Nat.lt_log2_self
    exact_mod_cast h.le.trans (Nat.pow_le_pow_left (by decide) _)
  have hpow : (10 : ℚ) ^ (Nat.log2 digits + 1) * 10 ^ exp =
      10 ^ (exp + (Nat.log2 digits + 1) : ℤ) := by
    rw [zpow_add₀ (by norm_num), mul_comm, ← Nat.cast_succ, zpow_natCast]
  calc decimalUnits digits exp ≤ 10 ^ (Nat.log2 digits + 1) * 10 ^ exp * one :=
        mul_le_mul_of_nonneg_right (mul_le_mul_of_nonneg_right hdig hten.le) hone.le
    _ = 10 ^ (exp + (Nat.log2 digits + 1) : ℤ) * one := by rw [hpow]
    _ ≤ 10 ^ (-400 : ℤ) * one :=
        mul_le_mul_of_nonneg_right (zpow_le_zpow_right₀ (by norm_num) h.le) hone.le
    _ < 1 / 2 := ten_pow_mul_one_lt

theorem decimalUnits_eq_div (digits : Nat) (exp : Int) :
    decimalUnits digits exp =
      ((digits * 10 ^ exp.toNat * one : Nat) : ℚ) / ((10 ^ (-exp).toNat : Nat) : ℚ) := by
  unfold decimalUnits
  generalize one = u
  rcases Int.le_total 0 exp with h | h
  · rw [show (-exp).toNat = 0 by omega, pow_zero, Nat.cast_one, div_one]
    conv_lhs => rw [← Int.toNat_of_nonneg h, zpow_natCast]
    push_cast
    rfl
  · rw [show exp.toNat = 0 by omega, pow_zero, Nat.mul_one]
    conv_lhs => rw [show exp = -((-exp).toNat : ℤ) by omega, zpow_neg, zpow_natCast]
    push_cast
    rw [div_eq_mul_inv, mul_right_comm]

/-- `nearestDecimal` rounds the value of the decimal, also where it does not compute it. -/
theorem nearestDecimal_isNearest (digits : Nat) (exp : Int) :
    IsNearest (nearestDecimal digits exp) (decimalUnits digits exp) := by
  unfold nearestDecimal
  split
  · next h =>
    rw [h, decimalUnits, Nat.cast_zero, zero_mul, zero_mul]
    exact isNearest_self (Nat.zero_le _)
  next h0 =>
  split
  · next h => exact isNearest_infinity_of_exp h0 h
  split
  · next h => exact isNearest_zero_of_exp h
  · rw [decimalUnits_eq_div]
    exact nearest_isNearest _ (Nat.pow_pos (by decide))

/-- Decimals of one value round to one pattern. -/
theorem nearestDecimal_congr {d d' : Nat} {e e' : Int} (h : (d : ℚ) * 10 ^ e = d' * 10 ^ e') :
    nearestDecimal d e = nearestDecimal d' e' := by
  have h' : decimalUnits d e = decimalUnits d' e' := by rw [decimalUnits, h, decimalUnits]
  exact (nearestDecimal_isNearest d e).unique (h' ▸ nearestDecimal_isNearest d' e')

/-- The decimal whose value a pattern has is read back as the pattern. -/
theorem nearestDecimal_exact {p d : Nat} {e : Int} (hp : p ≤ infinity)
    (h : decimalUnits d e = unitsOf p) : nearestDecimal d e = p :=
  (nearestDecimal_isNearest d e).unique (h ▸ isNearest_self hp)

/-! ## Sign and pattern -/

theorem infinity_lt : infinity < 2 ^ 63 := by decide

theorem pattern_ofPattern (negative : Bool) {p : Nat} (hp : p < 2 ^ 63) :
    (ofPattern negative p).pattern = p := by
  simp only [pattern, ofPattern, UInt64.toNat_ofNat', Nat.one_shiftLeft]
  cases negative <;> simp only [Bool.false_eq_true, ↓reduceIte] <;> omega

theorem negative_ofPattern (negative : Bool) {p : Nat} (hp : p < 2 ^ 63) :
    (ofPattern negative p).negative = negative := by
  simp only [Binary64.negative, ofPattern, UInt64.toNat_ofNat', Nat.one_shiftLeft]
  cases negative <;> simp only [Bool.false_eq_true, ↓reduceIte, decide_eq_true_eq,
    decide_eq_false_iff_not] <;> omega

theorem ofPattern_self (x : Binary64) : ofPattern x.negative x.pattern = x := by
  obtain ⟨bits⟩ := x
  have h64 := bits.toNat_lt
  simp only [ofPattern, negative, pattern, decide_eq_true_eq, Nat.one_shiftLeft]
  have h : (if 2 ^ 63 ≤ bits.toNat then 2 ^ 63 + bits.toNat % 2 ^ 63 else bits.toNat % 2 ^ 63) =
      bits.toNat := by
    split <;> omega
  rw [h, UInt64.ofNat_toNat]

theorem isFinite_iff {x : Binary64} : x.isFinite = true ↔ x.pattern < infinity := by
  rw [isFinite, decide_eq_true_eq]

end Binary64

end ScriptServer
