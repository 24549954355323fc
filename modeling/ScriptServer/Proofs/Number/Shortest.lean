import ScriptServer.Number.Decimal
import ScriptServer.Proofs.Number.Rounding
import ScriptServer.Proofs.Text.Digits

/-!
# The shortest decimal reads back

`Decimal.ofPattern` keeps a decimal only if `nearestDecimal` gives the pattern for it, and falls
back to the exact value, so the text of a finite number is read as the number it was written for
(`shortest_spells`). The text is a sign, a whole part and maybe a fraction.
-/

namespace ScriptServer

open Text

namespace Decimal

/-! ## The chosen decimal -/

theorem onGrid?_readsBack {pattern v : Nat} {exp : Int} {d : Decimal}
    (h : onGrid? pattern v exp = some d) : Binary64.nearestDecimal d.digits d.exp = pattern := by
  simp only [onGrid?] at h
  split at h
  · next hlow =>
    cases h
    simp only [Bool.and_eq_true, beq_iff_eq] at hlow
    exact hlow.1
  · split at h
    · next hhigh => cases h; exact beq_iff_eq.mp hhigh
    · cases h

/-- Zeros at the end go without changing the value. -/
theorem strip_value (fuel : Nat) (d : Decimal) :
    ((strip fuel d).digits : ℚ) * 10 ^ (strip fuel d).exp = d.digits * 10 ^ d.exp := by
  induction fuel generalizing d with
  | zero => rfl
  | succ fuel ih =>
    rw [strip]
    split
    · next h =>
      have hd : (d.digits : ℚ) = (d.digits / 10 : Nat) * 10 := by
        exact_mod_cast (Nat.div_mul_cancel (Nat.dvd_of_mod_eq_zero h)).symm
      rw [ih, hd, zpow_add_one₀ (by norm_num)]
      ring
    · rfl

theorem nearestDecimal_zero (exp : Int) : Binary64.nearestDecimal 0 exp = 0 := rfl

variable {p : Nat}

theorem exact_readsBack (hp : p ≤ Binary64.infinity) :
    Binary64.nearestDecimal (Binary64.unitsOf p * Nat.pow 5 1074) (-1074) = p := by
  refine Binary64.nearestDecimal_exact hp ?_
  have hexp : (-1074 : Int) = -((1074 : Nat) : Int) := rfl
  simp only [Binary64.decimalUnits, Binary64.one_eq, Nat.pow_eq, Nat.cast_mul, Nat.cast_pow,
    Nat.cast_ofNat]
  rw [hexp]
  generalize 1074 = n
  have h10 : (5 : ℚ) ^ n * 2 ^ n = 10 ^ n := by rw [← mul_pow]; norm_num
  have hne : (10 : ℚ) ^ n ≠ 0 := pow_ne_zero _ (by norm_num)
  rw [zpow_neg, zpow_natCast, mul_right_comm, mul_assoc (Binary64.unitsOf p : ℚ), h10,
    mul_inv_cancel_right₀ hne]

theorem ofPattern_readsBack (hp : p ≤ Binary64.infinity) :
    Binary64.nearestDecimal (ofPattern p).digits (ofPattern p).exp = p := by
  unfold ofPattern
  simp only
  split
  · next d h =>
    obtain ⟨n, _, hd⟩ := List.exists_of_findSome?_eq_some h
    rw [Binary64.nearestDecimal_congr (strip_value 17 d)]
    exact onGrid?_readsBack hd
  · simp only [exact_readsBack hp]

theorem digits_ofPattern_ne_zero (h0 : p ≠ 0) (hp : p ≤ Binary64.infinity) :
    (ofPattern p).digits ≠ 0 := by
  intro h
  have := ofPattern_readsBack hp
  rw [h, nearestDecimal_zero] at this
  exact h0 this.symm

/-! ## The written decimal -/

/-- The parts of a decimal text before and behind the point. -/
structure Spells (d : Decimal) (whole fraction : List Char) : Prop where
  isWhole : IsWhole whole
  isDigit : ∀ c ∈ fraction, Text.isDigit c = true
  value : (digitsValue (whole ++ fraction) : ℚ) * 10 ^ (-(fraction.length : Int)) =
    d.digits * 10 ^ d.exp

section

variable {d : Decimal} {ds : List Char}

/-- No digit stands behind the point. -/
theorem spells_integer (hw : IsWhole ds) (h0 : ds.head? ≠ some '0')
    (hv : digitsValue ds = d.digits) (hexp : (-d.exp).toNat = 0) :
    Spells d (ds ++ List.replicate d.exp.toNat '0') [] := by
  have he : d.exp = (d.exp.toNat : Int) := by omega
  refine ⟨hw.append h0 fun c => isDigit_of_mem_zeros, by simp, ?_⟩
  rw [List.append_nil, digitsValue_append, digitsValue_zeros, hv, List.length_replicate, he,
    zpow_natCast, Int.toNat_natCast]
  push_cast
  rw [List.length_nil, Nat.cast_zero, neg_zero, zpow_zero, mul_one, add_zero]

/-- The point stands between the digits. -/
theorem spells_split {places : Nat} (hw : IsWhole ds) (h0 : ds.head? ≠ some '0')
    (hv : digitsValue ds = d.digits) (hplaces : -(places : Int) = d.exp)
    (hlt : places < ds.length) :
    Spells d (ds.take (ds.length - places)) (ds.drop (ds.length - places)) := by
  have hlen : (ds.drop (ds.length - places)).length = places := by
    rw [List.length_drop]; omega
  have htake : ds.take (ds.length - places) ≠ [] := by
    rw [ne_eq, List.take_eq_nil_iff]
    rintro (h | h)
    · omega
    · exact hw.1.1 h
  refine ⟨⟨⟨htake, fun c hc => hw.1.2 c (List.mem_of_mem_take hc)⟩, fun h => ?_⟩,
    fun c hc => hw.1.2 c (List.mem_of_mem_drop hc), ?_⟩
  · rw [List.head?_take, if_neg (by omega)] at h
    exact absurd h h0
  · rw [List.take_append_drop, hv, hlen, hplaces]

/-- A zero stands before the point, and zeros behind it. -/
theorem spells_small {places : Nat} (hw : IsWhole ds) (hv : digitsValue ds = d.digits)
    (hplaces : -(places : Int) = d.exp) (hle : ds.length ≤ places) :
    Spells d ['0'] (List.replicate (places - ds.length) '0' ++ ds) := by
  have hlen : (List.replicate (places - ds.length) '0' ++ ds).length = places := by
    rw [List.length_append, List.length_replicate]; omega
  refine ⟨isWhole_zero, ?_, ?_⟩
  · intro c hc
    exact (List.mem_append.mp hc).elim isDigit_of_mem_zeros (hw.1.2 c)
  · rw [← List.append_assoc, digitsValue_append, digitsValue_append, digitsValue_zeros, hv,
      hlen, hplaces]
    rw [show digitsValue ['0'] = 0 from rfl]
    simp

end

theorem positional_spells {d : Decimal} (hd : d.digits ≠ 0) :
    ∃ whole fraction, Spells d whole fraction ∧
      d.positional = whole ++ if fraction = [] then [] else '.' :: fraction := by
  have hw := isWhole_decimal hd
  have h0 := head_decimal hd
  have hv := digitsValue_decimal d.digits
  unfold positional
  simp only
  generalize decimal d.digits = ds at *
  have hpos : 0 < ds.length := List.length_pos_iff.mpr hw.1.1
  by_cases hexp : (-d.exp).toNat = 0
  · rw [if_pos hexp]
    exact ⟨_, [], spells_integer hw h0 hv hexp, by simp⟩
  rw [if_neg hexp]
  have hplaces : -((-d.exp).toNat : Int) = d.exp := by omega
  generalize (-d.exp).toNat = places at *
  by_cases hlt : places < ds.length
  · rw [if_pos hlt]
    refine ⟨_, _, spells_split hw h0 hv hplaces hlt, ?_⟩
    rw [if_neg (List.ne_nil_of_length_pos (by rw [List.length_drop]; omega))]
  · rw [if_neg hlt]
    refine ⟨_, _, spells_small hw hv hplaces (Nat.le_of_not_lt hlt), ?_⟩
    rw [if_neg (List.ne_nil_of_length_pos (by rw [List.length_append]; omega))]
    rfl

/-- Zero has a zero on both sides of the point. -/
theorem positional_zero_spells {exp : Int} (neg : exp < 0) :
    ∃ whole fraction, Spells ⟨0, exp⟩ whole fraction ∧
      positional ⟨0, exp⟩ = whole ++ if fraction = [] then [] else '.' :: fraction := by
  have places : 1 ≤ (-exp).toNat := by omega
  have back : -((-exp).toNat : Int) = exp := by omega
  unfold positional
  dsimp only
  generalize (-exp).toNat = n at places back
  have digit : decimal 0 = ['0'] := rfl
  rw [digit, if_neg (by omega), List.length_singleton, if_neg (by omega)]
  refine ⟨_, _, spells_small isWhole_zero rfl back places, ?_⟩
  rw [if_neg (List.append_ne_nil_of_right_ne_nil _ (List.cons_ne_nil _ _))]
  rfl

end Decimal

namespace Binary64

/-- The text of a finite number: its sign, a whole part, maybe a fraction, and together they are
read as the number. -/
theorem shortest_spells {x : Binary64} (hx : x.isFinite = true) :
    ∃ whole fraction, IsWhole whole ∧ (∀ c ∈ fraction, isDigit c = true) ∧
      x.shortest = x.sign ++ (whole ++ if fraction = [] then [] else '.' :: fraction) ∧
      ofDecimal x.negative (digitsValue (whole ++ fraction)) (-(fraction.length : Int)) = x := by
  have hp := (isFinite_iff.mp hx).le
  unfold shortest
  by_cases h0 : x.pattern = 0
  · refine ⟨['0'], [], isWhole_zero, by simp, by rw [if_pos h0]; rfl, ?_⟩
    have := ofPattern_self x
    rw [h0] at this
    exact this
  · rw [if_neg h0]
    obtain ⟨whole, fraction, h, htext⟩ :=
      Decimal.positional_spells (Decimal.digits_ofPattern_ne_zero h0 hp)
    refine ⟨whole, fraction, h.isWhole, h.isDigit, by rw [htext], ?_⟩
    rw [ofDecimal, nearestDecimal_congr h.value, Decimal.ofPattern_readsBack hp, ofPattern_self]

end Binary64

end ScriptServer
