import ScriptServer.Script.Display
import ScriptServer.Proofs.Json.Numeral
import ScriptServer.Proofs.Number.Significant

/-!
# The texts of floats

A finite float is shown as a number literal. `ShowsNumber` says which one it is by the number that
the literal stands for and by what is in it, and `ShowsNumber.unique` that nothing else is left to
choose.
-/

namespace ScriptServer.Script

open Text
open Json (Exponent Literal)

/-! ## Trimming -/

section

variable {before kept : List Char}

/-- Digits end with some zeros. -/
theorem exists_trimmed (ds : List Char) :
    ∃ kept zeros, ds = kept ++ List.replicate zeros '0' ∧ kept.getLast? ≠ some '0' := by
  induction ds using List.reverseRecOn with
  | nil => exact ⟨[], 0, rfl, nofun⟩
  | append_singleton ds c ih =>
    by_cases zero : c = '0'
    · obtain ⟨kept, zeros, rfl, last⟩ := ih
      refine ⟨kept, zeros + 1, ?_, last⟩
      rw [zero, List.append_assoc, ← List.replicate_succ']
    · refine ⟨ds ++ [c], 0, (List.append_nil _).symm, ?_⟩
      rw [List.getLast?_concat]
      exact fun eq => zero (Option.some.inj eq)

theorem dropWhile_of_head {p : Char → Bool} {cs : List Char} (head : ∀ c ∈ cs.head?, p c = false) :
    cs.dropWhile p = cs := by
  cases cs with
  | nil => rfl
  | cons c cs => exact List.dropWhile_cons_of_neg (ne_true_of_eq_false (head c rfl))

theorem trimFraction_of_not_mem (whole : '.' ∉ before) : trimFraction before = before := by
  unfold trimFraction
  rw [if_neg (by rwa [List.contains_iff_mem])]

theorem trimFraction_point (whole : '.' ∉ before) (digits : '.' ∉ kept)
    (last : kept.getLast? ≠ some '0') (zeros : Nat) :
    trimFraction (before ++ '.' :: (kept ++ List.replicate zeros '0')) =
      before ++ if kept = [] then [] else '.' :: kept := by
  have point : (before ++ '.' :: (kept ++ List.replicate zeros '0')).contains '.' = true := by
    rw [List.contains_iff_mem]
    exact List.mem_append_right _ List.mem_cons_self
  have reversed : (before ++ '.' :: (kept ++ List.replicate zeros '0')).reverse =
      List.replicate zeros '0' ++ (kept.reverse ++ '.' :: before.reverse) := by
    simp only [List.reverse_append, List.reverse_cons, List.reverse_replicate, List.append_assoc,
      List.singleton_append]
  have zero : ∀ c ∈ List.replicate zeros '0', (c == '0') = true := fun c mem => by
    rw [List.eq_of_mem_replicate mem, beq_self_eq_true]
  unfold trimFraction
  rw [if_pos point, reversed, List.dropWhile_append_of_pos zero]
  rcases List.eq_nil_or_concat kept with rfl | ⟨front, c, rfl⟩
  · -- The point goes too, and what is before it stays.
    have stays : before.reverse.dropWhile (· == '.') = before.reverse :=
      dropWhile_of_head fun c mem => beq_eq_false_iff_ne.mpr <| by
        rintro rfl
        exact whole (List.mem_reverse.mp (List.mem_of_mem_head? mem))
    have point : ('.' :: before.reverse).dropWhile (· == '0') = '.' :: before.reverse := rfl
    have goes : ('.' :: before.reverse).dropWhile (· == '.') =
        before.reverse.dropWhile (· == '.') := rfl
    rw [if_pos rfl, List.append_nil, List.reverse_nil, List.nil_append, point, goes, stays,
      List.reverse_reverse]
  · rw [List.concat_eq_append] at digits last ⊢
    have other : c ≠ '0' := fun eq => last (by rw [List.getLast?_concat, eq])
    have other' : c ≠ '.' := by
      rintro rfl
      exact digits (List.mem_append_right _ List.mem_cons_self)
    have back : (front ++ [c]).reverse ++ '.' :: before.reverse =
        c :: (front.reverse ++ '.' :: before.reverse) := by
      rw [List.reverse_concat, List.cons_append]
    rw [back, List.dropWhile_cons_of_neg (by rwa [beq_iff_eq]),
      List.dropWhile_cons_of_neg (by rwa [beq_iff_eq]), if_neg (by simp), ← back]
    rw [List.reverse_append, List.reverse_reverse, List.reverse_cons, List.reverse_reverse,
      List.append_assoc, List.singleton_append]

end

theorem point_not_mem {ds : List Char} (digits : ∀ c ∈ ds, isDigit c = true) : '.' ∉ ds :=
  fun mem => absurd (digits '.' mem) (by decide)

theorem point_not_mem_sign (x : Binary64) : '.' ∉ x.sign := by
  unfold Binary64.sign
  split
  · decide
  · exact List.not_mem_nil

theorem value_append_zeros (whole kept : List Char) (zeros : Nat) :
    (digitsValue (whole ++ (kept ++ List.replicate zeros '0')) : ℚ) *
        10 ^ (-((kept ++ List.replicate zeros '0').length : ℤ)) =
      digitsValue (whole ++ kept) * 10 ^ (-(kept.length : ℤ)) := by
  have scale : -((kept ++ List.replicate zeros '0').length : ℤ) + zeros = -kept.length := by
    rw [List.length_append, List.length_replicate]
    omega
  rw [← List.append_assoc, digitsValue_append (whole ++ kept), digitsValue_zeros,
    List.length_replicate, Nat.add_zero, ← scale, zpow_add₀ (by norm_num), zpow_natCast]
  push_cast
  ring

/-- Without the zeros at the end of its fraction a decimal text spells the same number. -/
theorem exists_positional {d : Decimal} (h : d.digits ≠ 0 ∨ d.exp < 0) :
    ∃ whole fraction, d.Spells whole fraction ∧ fraction.getLast? ≠ some '0' ∧
      ∀ x : Binary64, trimFraction (x.sign ++ d.positional) =
        x.sign ++ (whole ++ if fraction = [] then [] else '.' :: fraction) := by
  have spelled : ∃ whole fraction, d.Spells whole fraction ∧
      d.positional = whole ++ if fraction = [] then [] else '.' :: fraction := by
    by_cases zero : d.digits = 0
    · obtain ⟨digits, exp⟩ := d
      obtain rfl : digits = 0 := zero
      exact Decimal.positional_zero_spells (h.resolve_left fun ne => ne rfl)
    · exact Decimal.positional_spells zero
  obtain ⟨whole, fraction, spells, text⟩ := spelled
  obtain ⟨kept, zeros, rfl, last⟩ := exists_trimmed fraction
  have trimmed : d.Spells whole kept :=
    ⟨spells.isWhole, fun c mem => spells.isDigit c (List.mem_append_left _ mem),
      (value_append_zeros whole kept zeros).symm.trans spells.value⟩
  refine ⟨whole, kept, trimmed, last, fun x => ?_⟩
  have before : '.' ∉ x.sign ++ whole := by
    rw [List.mem_append, not_or]
    exact ⟨point_not_mem_sign x, point_not_mem spells.isWhole.1.2⟩
  rw [text, ← List.append_assoc, ← List.append_assoc]
  by_cases none : kept ++ List.replicate zeros '0' = []
  · rw [if_pos none, if_pos (List.append_eq_nil_iff.mp none).1, List.append_nil]
    exact trimFraction_of_not_mem before
  · rw [if_neg none]
    exact trimFraction_point before (point_not_mem trimmed.isDigit) last zeros

/-! ## Exponents -/

def exponentOf (e : Int) : Exponent where
  marker := 'e'
  sign := some (if e < 0 then '-' else '+')
  digits := List.replicate (2 - (decimal e.natAbs).length) '0' ++ decimal e.natAbs

theorem text_exponentOf (e : Int) : (exponentOf e).text = exponentText e := rfl

theorem isPadded_exponentOf (e : Int) : IsPadded 2 (exponentOf e).digits :=
  isPadded_decimal (by decide) e.natAbs

theorem wellFormed_exponentOf (e : Int) : (exponentOf e).WellFormed := by
  obtain ⟨digits, least, -⟩ := isPadded_exponentOf e
  refine ⟨.inl rfl, fun s mem => ?_, List.ne_nil_of_length_pos (by omega), digits⟩
  obtain rfl := Option.some.inj mem
  split
  · exact .inr rfl
  · exact .inl rfl

theorem value_exponentOf (e : Int) : (exponentOf e).value = e := by
  have value : digitsValue (exponentOf e).digits = e.natAbs := by
    unfold exponentOf
    dsimp only
    rw [digitsValue_append, digitsValue_zeros, digitsValue_decimal, Nat.zero_mul, Nat.zero_add]
  unfold Exponent.value
  rw [value]
  unfold exponentOf
  dsimp only
  by_cases negative : e < 0
  · rw [if_pos negative, if_pos rfl]
    omega
  · rw [if_neg negative, if_neg (by decide)]
    omega

/-- The exponent part of a float whose first digit has this exponent, if there is one. -/
def shownExponent (e : Int) : Option Exponent :=
  if e < -4 ∨ 14 ≤ e then some (exponentOf e) else none

/-- The power of ten of the last of fourteen digits, in front of the exponent part. -/
def lastPlace (e : Int) : Int := if e < -4 ∨ 14 ≤ e then -13 else e - 13

theorem lastPlace_add (e : Int) :
    lastPlace e + (shownExponent e).elim 0 Exponent.value = e - 13 := by
  unfold lastPlace shownExponent
  split
  · rw [Option.elim_some, value_exponentOf]
    omega
  · rw [Option.elim_none, Int.add_zero]

theorem mem_shownExponent {e : Int} {ex : Exponent} (h : ex ∈ shownExponent e) :
    ex = exponentOf e := by
  unfold shownExponent at h
  split at h
  · exact (Option.some.inj h).symm
  · cases h

theorem isSome_shownExponent (e : Int) : (shownExponent e).isSome ↔ e < -4 ∨ 14 ≤ e := by
  unfold shownExponent
  split
  · next far => exact ⟨fun _ => far, fun _ => rfl⟩
  · next near => exact ⟨nofun, fun far => absurd far near⟩

/-! ## Literals -/

/-- `l` is how `r` is shown: with an exponent, which is that of its first digit, if this is below -4
or not below fourteen, and without zeros at the end of a fraction. -/
structure ShowsNumber (r : ℚ) (l : Literal) : Prop where
  wellFormed : l.WellFormed
  number : l.number = r
  trimmed : ∀ ds ∈ l.fraction, ds.getLast? ≠ some '0'
  isSome_exponent : l.exponent.isSome ↔ ∃ e, HasExponent r e ∧ (e < -4 ∨ 14 ≤ e)
  marker : ∀ ex ∈ l.exponent, ex.marker = 'e' ∧ ex.sign.isSome
  padded : ∀ ex ∈ l.exponent, IsPadded 2 ex.digits
  exponent : ∀ ex ∈ l.exponent, HasExponent r ex.value

/-- The literal of a decimal with the point in it, and maybe an exponent. -/
def literalOf (minus : Bool) (whole fraction : List Char) (exponent : Option Exponent) :
    Literal where
  minus
  whole
  fraction := if fraction = [] then none else some fraction
  exponent

section

variable {d : Decimal} {whole fraction : List Char} {exponent : Option Exponent}

theorem getD_fraction_literalOf (minus : Bool) (whole fraction : List Char)
    (exponent : Option Exponent) :
    (literalOf minus whole fraction exponent).fraction.getD [] = fraction := by
  unfold literalOf
  dsimp only
  split
  · next none => exact none.symm
  · rfl

theorem text_literalOf (x : Binary64) :
    (literalOf x.negative whole fraction exponent).text =
      x.sign ++ (whole ++ if fraction = [] then [] else '.' :: fraction) ++
        exponent.elim [] Exponent.text := by
  unfold literalOf Literal.text Binary64.sign
  dsimp only
  by_cases none : fraction = []
  · simp only [if_pos none, Option.elim_none, List.append_assoc]
  · simp only [if_neg none, Option.elim_some, List.append_assoc]

theorem wellFormed_literalOf (minus : Bool) (h : d.Spells whole fraction)
    (wellFormed : ∀ ex ∈ exponent, ex.WellFormed) :
    (literalOf minus whole fraction exponent).WellFormed := by
  refine ⟨h.isWhole, fun ds mem => ?_, wellFormed⟩
  unfold literalOf at mem
  dsimp only at mem
  split at mem
  · cases mem
  · next some =>
    obtain rfl := Option.some.inj mem
    exact ⟨some, h.isDigit⟩

theorem number_literalOf (minus : Bool) (exponent : Option Exponent) (h : d.Spells whole fraction) :
    (literalOf minus whole fraction exponent).number =
      let absolute : ℚ := d.digits * 10 ^ (d.exp + exponent.elim 0 Exponent.value)
      if minus then -absolute else absolute := by
  have digits : (literalOf minus whole fraction exponent).digits = whole ++ fraction := by
    unfold Literal.digits
    rw [getD_fraction_literalOf]
    rfl
  have scale : (literalOf minus whole fraction exponent).scale =
      -(fraction.length : ℤ) + exponent.elim 0 Exponent.value := by
    unfold Literal.scale
    rw [getD_fraction_literalOf, add_comm]
    rfl
  have ten : (10 : ℚ) ≠ 0 := by norm_num
  unfold Literal.number
  rw [digits, scale, zpow_add₀ ten, ← mul_assoc, h.value, mul_assoc, ← zpow_add₀ ten]
  rfl

/-- A literal with a trimmed fraction and the exponent part of its number. -/
theorem shows_literalOf {minus : Bool} {r : ℚ} {e : Int} (exponent : HasExponent r e)
    (h : d.Spells whole fraction) (last : fraction.getLast? ≠ some '0')
    (number : (literalOf minus whole fraction (shownExponent e)).number = r) :
    ShowsNumber r (literalOf minus whole fraction (shownExponent e)) where
  wellFormed := wellFormed_literalOf minus h fun ex mem =>
    mem_shownExponent mem ▸ wellFormed_exponentOf e
  number := number
  trimmed ds mem := by
    have eq := getD_fraction_literalOf minus whole fraction (shownExponent e)
    rw [Option.mem_def.mp mem, Option.getD_some] at eq
    exact eq ▸ last
  isSome_exponent := by
    refine (isSome_shownExponent e).trans ⟨fun far => ⟨e, exponent, far⟩, ?_⟩
    rintro ⟨e', exponent', far⟩
    rwa [exponent.unique exponent']
  marker ex mem := by
    rw [mem_shownExponent mem]
    exact ⟨rfl, rfl⟩
  padded ex mem := mem_shownExponent mem ▸ isPadded_exponentOf e
  exponent ex mem := by rwa [mem_shownExponent mem, value_exponentOf]

end

/-- The two ways to write a number have the same digits. -/
theorem significant_positional (x : Binary64) :
    ∃ m e, Digits 13 x.absValue m e ∧
      significant x = trimFraction (x.sign ++ Decimal.positional ⟨m, lastPlace e⟩) ++
        (shownExponent e).elim [] Exponent.text := by
  obtain ⟨m, e, digits, mantissa⟩ := x.scientific_positional 13
  refine ⟨m, e, digits, ?_⟩
  unfold significant
  rw [show shownDigits - 1 = 13 from rfl, show (shownDigits : ℤ) = 14 from rfl, mantissa]
  unfold lastPlace shownExponent
  dsimp only
  by_cases far : e < -4 ∨ 14 ≤ e
  · rw [if_pos far, if_pos far, if_pos far, Option.elim_some, text_exponentOf]
    rfl
  · have fixed := Binary64.fixed_of_digits digits (by omega)
    rw [if_neg far, if_neg far, if_neg far, Option.elim_none, List.append_nil]
    exact congrArg trimFraction fixed

/-- Fourteen significant digits are shown as a literal. -/
theorem significant_shows (x : Binary64) :
    ∃ r l, IsRounded 14 x.value r ∧ ShowsNumber r l ∧ l.minus = x.negative ∧
      significant x = l.text := by
  obtain ⟨m, e, digits, text⟩ := significant_positional x
  have readable : m ≠ 0 ∨ lastPlace e < 0 := by
    refine or_iff_not_imp_left.mpr fun none => ?_
    have exponent := digits.exponent
    rw [not_not.mp none, Nat.cast_zero, zero_mul] at exponent
    rw [exponent.unique (.inl ⟨rfl, rfl⟩)]
    decide
  obtain ⟨whole, fraction, spells, last, trimmed⟩ :=
    exists_positional (d := ⟨m, lastPlace e⟩) readable
  have number := number_literalOf x.negative (shownExponent e) spells
  dsimp only at number
  rw [lastPlace_add] at number
  refine ⟨_, literalOf x.negative whole fraction (shownExponent e), ?_,
    shows_literalOf ?_ spells last number, rfl, ?_⟩
  · unfold Binary64.value
    split
    · exact digits.rounded.neg
    · exact digits.rounded
  · split
    · exact digits.exponent.neg
    · exact digits.exponent
  · rw [text, trimmed, text_literalOf]

/-! ## The only literal -/

theorem natAbs_value (ex : Exponent) : ex.value.natAbs = digitsValue ex.digits := by
  unfold Exponent.value
  split <;> omega

/-- Exponents of one value have the same sign, and as many digits as there have to be. -/
theorem exponent_unique {ex ex' : Exponent} (h : ex.WellFormed) (h' : ex'.WellFormed)
    (marker : ex.marker = ex'.marker) (sign : ex.sign.isSome) (sign' : ex'.sign.isSome)
    (padded : IsPadded 2 ex.digits) (padded' : IsPadded 2 ex'.digits)
    (value : ex.value = ex'.value) (nonzero : ex.value ≠ 0) : ex = ex' := by
  have digits : ex.digits = ex'.digits :=
    padded.unique padded' (by rw [← natAbs_value, ← natAbs_value, value])
  obtain ⟨m, s, ds⟩ := ex
  obtain ⟨m', s', ds'⟩ := ex'
  obtain ⟨s, rfl⟩ := Option.isSome_iff_exists.mp sign
  obtain ⟨s', rfl⟩ := Option.isSome_iff_exists.mp sign'
  obtain rfl := marker
  obtain rfl := digits
  -- Of two signs one would make the exponent the negative of itself.
  rcases h.sign s rfl with rfl | rfl <;> rcases h'.sign s' rfl with rfl | rfl
  · rfl
  · have value : (digitsValue ds : ℤ) = -digitsValue ds := value
    have nonzero : (digitsValue ds : ℤ) ≠ 0 := nonzero
    omega
  · have value : -(digitsValue ds : ℤ) = digitsValue ds := value
    have nonzero : -(digitsValue ds : ℤ) ≠ 0 := nonzero
    omega
  · rfl

theorem isPadded_append {whole ds : List Char} (h : IsWhole whole)
    (digits : ∀ c ∈ ds, isDigit c = true) : IsPadded (ds.length + 1) (whole ++ ds) := by
  have some := List.length_pos_iff.mpr h.1.1
  refine ⟨fun c mem => ?_, ?_, fun more => ?_⟩
  · exact (List.mem_append.mp mem).elim (h.1.2 c) (digits c)
  · rw [List.length_append]
    omega
  · rw [List.length_append] at more
    rw [List.head?_append_of_ne_nil _ h.1.1]
    exact h.isPadded.head (by omega)

/-- The digits on both sides of the point are determined by their value. -/
theorem spells_unique {d : Decimal} {whole whole' fraction fraction' : List Char}
    (h : d.Spells whole fraction) (h' : d.Spells whole' fraction')
    (last : fraction.getLast? ≠ some '0') (last' : fraction'.getLast? ≠ some '0') :
    whole = whole' ∧ fraction = fraction' := by
  have longer {whole whole' fraction fraction' : List Char} (h : d.Spells whole fraction)
      (h' : d.Spells whole' fraction') (last : fraction'.getLast? ≠ some '0')
      (le : fraction.length ≤ fraction'.length) : whole = whole' ∧ fraction = fraction' := by
    obtain ⟨zeros, length⟩ := Nat.exists_eq_add_of_le le
    have digits : ∀ c ∈ fraction ++ List.replicate zeros '0', isDigit c = true := fun c mem =>
      (List.mem_append.mp mem).elim (h.isDigit c) isDigit_of_mem_zeros
    have length' : (fraction ++ List.replicate zeros '0').length = fraction'.length := by
      rw [List.length_append, List.length_replicate, length]
    have value : digitsValue (whole ++ (fraction ++ List.replicate zeros '0')) =
        digitsValue (whole' ++ fraction') := by
      have eq := value_append_zeros whole fraction zeros
      rw [h.value, ← h'.value, length'] at eq
      exact_mod_cast mul_right_cancel₀ (zpow_ne_zero _ (by norm_num)) eq
    have padded := isPadded_append h.isWhole digits
    rw [length'] at padded
    have same := padded.unique (isPadded_append h'.isWhole h'.isDigit) value
    obtain ⟨rfl, eq⟩ := List.append_inj' same length'
    refine ⟨rfl, ?_⟩
    cases zeros with
    | zero => exact (List.append_nil _).symm.trans eq
    | succ zeros =>
      rw [← eq, List.replicate_succ', ← List.append_assoc, List.getLast?_concat] at last
      exact absurd rfl last
  rcases Nat.le_total fraction.length fraction'.length with le | le
  · exact longer h h' last' le
  · obtain ⟨eq, eq'⟩ := longer h' h last le
    exact ⟨eq.symm, eq'.symm⟩

theorem literalOf_self {l : Literal} (h : l.WellFormed) :
    l = literalOf l.minus l.whole (l.fraction.getD []) l.exponent := by
  obtain ⟨minus, whole, fraction, exponent⟩ := l
  unfold literalOf
  cases fraction with
  | none => rfl
  | some ds =>
    dsimp only
    rw [Option.getD_some, if_neg (h.fraction ds rfl).1]

theorem ShowsNumber.exponent_eq {r : ℚ} {l l' : Literal} (h : ShowsNumber r l)
    (h' : ShowsNumber r l') : l.exponent = l'.exponent := by
  have both := h.isSome_exponent.trans h'.isSome_exponent.symm
  rcases eq : l.exponent with _ | ex <;> rw [eq] at both
  · exact (Option.not_isSome_iff_eq_none.mp fun some => nomatch both.mpr some).symm
  · obtain ⟨ex', eq'⟩ := Option.isSome_iff_exists.mp (both.mp rfl)
    obtain ⟨e, has, far⟩ := h.isSome_exponent.mp (by rw [eq]; rfl)
    have value := (h.exponent ex eq).unique has
    have value' := (h'.exponent ex' eq').unique has
    obtain ⟨marker, sign⟩ := h.marker ex eq
    obtain ⟨marker', sign'⟩ := h'.marker ex' eq'
    rw [eq']
    refine congrArg some (exponent_unique (h.wellFormed.exponent ex eq)
      (h'.wellFormed.exponent ex' eq') (marker.trans marker'.symm) sign sign' (h.padded ex eq)
      (h'.padded ex' eq') (value.trans value'.symm) ?_)
    rw [value]
    omega

theorem ShowsNumber.unique {r : ℚ} {l l' : Literal} (h : ShowsNumber r l) (h' : ShowsNumber r l')
    (minus : l.minus = l'.minus) : l = l' := by
  have exponent := h.exponent_eq h'
  have ten : (10 : ℚ) ≠ 0 := by norm_num
  have trimmed {l : Literal} (h : ShowsNumber r l) : (l.fraction.getD []).getLast? ≠ some '0' := by
    cases eq : l.fraction with
    | none => exact nofun
    | some ds => exact h.trimmed ds eq
  have digits {l : Literal} (h : ShowsNumber r l) : ∀ c ∈ l.fraction.getD [], isDigit c = true := by
    cases eq : l.fraction with
    | none => exact nofun
    | some ds => exact (h.wellFormed.fraction ds eq).2
  have value : (digitsValue l'.digits : ℚ) * 10 ^ (-((l'.fraction.getD []).length : ℤ)) =
      digitsValue l.digits * 10 ^ (-((l.fraction.getD []).length : ℤ)) := by
    have absolute := l.abs_number
    rw [h.number, ← h'.number, l'.abs_number] at absolute
    unfold Literal.scale at absolute
    rw [exponent, sub_eq_neg_add, sub_eq_neg_add, zpow_add₀ ten, zpow_add₀ ten, ← mul_assoc,
      ← mul_assoc] at absolute
    exact mul_right_cancel₀ (zpow_ne_zero _ ten) absolute
  obtain ⟨whole, fraction⟩ := spells_unique
    (d := ⟨digitsValue l.digits, -((l.fraction.getD []).length : ℤ)⟩)
    ⟨h.wellFormed.whole, digits h, rfl⟩ ⟨h'.wellFormed.whole, digits h', value⟩
    (trimmed h) (trimmed h')
  have self := literalOf_self h.wellFormed
  rw [minus, whole, fraction, exponent] at self
  exact self.trans (literalOf_self h'.wellFormed).symm

/-! ## Floats -/

/-- Digits, maybe behind a minus sign. -/
def ReadsAsInteger (cs : List Char) : Prop := ∃ ds, IsNumeral ds ∧ (cs = ds ∨ cs = '-' :: ds)

theorem all_of_readsAsInteger {cs : List Char} (h : ReadsAsInteger cs) :
    (cs.all fun c => c == '-' || isDigit c) = true := by
  obtain ⟨ds, numeral, rfl | rfl⟩ := h <;> rw [List.all_eq_true] <;> intro c mem
  · rw [numeral.2 c mem, Bool.or_true]
  · rcases List.mem_cons.mp mem with rfl | mem
    · rfl
    · rw [numeral.2 c mem, Bool.or_true]

section

variable {l : Literal}

theorem point_mem_text {ds : List Char} (some : l.fraction = some ds) : '.' ∈ l.text := by
  rw [Literal.text, some]
  exact List.mem_append_left _ (List.mem_append_right _ List.mem_cons_self)

theorem marker_mem_text {ex : Exponent} (some : l.exponent = some ex) : ex.marker ∈ l.text := by
  rw [Literal.text, some]
  exact List.mem_append_right _ List.mem_cons_self

/-- Only a literal without a fraction and an exponent has nothing but digits. -/
theorem plain_of_all (h : l.WellFormed)
    (all : (l.text.all fun c => c == '-' || isDigit c) = true) :
    l.fraction = none ∧ l.exponent = none := by
  rw [List.all_eq_true] at all
  constructor
  · refine Option.eq_none_iff_forall_ne_some.mpr fun ds some => ?_
    exact absurd (all '.' (point_mem_text some)) (by decide)
  · refine Option.eq_none_iff_forall_ne_some.mpr fun ex some => ?_
    have digit := all _ (marker_mem_text some)
    rcases (h.exponent ex some).marker with eq | eq <;> rw [eq] at digit <;>
      exact absurd digit (by decide)

theorem readsAsInteger_of_plain (h : l.WellFormed) (fraction : l.fraction = none)
    (exponent : l.exponent = none) : ReadsAsInteger l.text := by
  refine ⟨l.whole, h.whole.1, ?_⟩
  unfold Literal.text
  rw [fraction, exponent, Option.elim_none, Option.elim_none, List.append_nil, List.append_nil]
  split
  · exact .inr rfl
  · exact .inl rfl

theorem readsAsInteger_iff (h : l.WellFormed) :
    ReadsAsInteger l.text ↔ (l.text.all fun c => c == '-' || isDigit c) = true := by
  refine ⟨all_of_readsAsInteger, fun all => ?_⟩
  obtain ⟨fraction, exponent⟩ := plain_of_all h all
  exact readsAsInteger_of_plain h fraction exponent

/-- What is behind the fourteen digits. -/
def integerTail (cs : List Char) : List Char :=
  if cs.all fun c => c == '-' || isDigit c then ['.', '0'] else []

theorem integerTail_spec (h : l.WellFormed) :
    ReadsAsInteger l.text ∧ integerTail l.text = ['.', '0'] ∨
      ¬ ReadsAsInteger l.text ∧ integerTail l.text = [] := by
  rw [readsAsInteger_iff h]
  unfold integerTail
  split
  · next all => exact .inl ⟨all, rfl⟩
  · next other => exact .inr ⟨other, rfl⟩

/-- A point or an exponent tells a float from an integer. -/
theorem mark_mem {r : ℚ} (h : ShowsNumber r l) :
    '.' ∈ l.text ++ integerTail l.text ∨ 'e' ∈ l.text ++ integerTail l.text := by
  simp only [List.mem_append]
  rcases integerTail_spec h.wellFormed with ⟨-, tail⟩ | ⟨other, -⟩
  · rw [tail]
    exact .inl (.inr List.mem_cons_self)
  · cases fraction : l.fraction with
    | some ds => exact .inl (.inl (point_mem_text fraction))
    | none =>
      cases exponent : l.exponent with
      | some ex =>
        have mem := marker_mem_text exponent
        rw [(h.marker ex exponent).1] at mem
        exact .inr (.inl mem)
      | none => exact absurd (readsAsInteger_of_plain h.wellFormed fraction exponent) other

/-- A zero behind the point makes no other number of a literal. -/
theorem exists_literal (h : l.WellFormed) :
    ∃ l' : Literal, l'.WellFormed ∧ l'.text = l.text ++ integerTail l.text ∧
      l'.number = l.number ∧ l'.minus = l.minus := by
  unfold integerTail
  split
  · next all =>
    obtain ⟨fraction, exponent⟩ := plain_of_all h all
    refine ⟨{ l with fraction := some ['0'] }, ⟨h.whole, fun ds mem => ?_, h.exponent⟩, ?_, ?_, rfl⟩
    · obtain rfl := Option.some.inj mem
      exact isWhole_zero.1
    · unfold Literal.text
      rw [fraction, exponent]
      simp only [Option.elim_none, Option.elim_some, List.append_nil]
    · have same := value_append_zeros l.whole [] 1
      unfold Literal.number Literal.digits Literal.scale
      rw [fraction, exponent, Option.elim_none, zero_sub, zero_sub]
      exact congrArg (fun v : ℚ => if l.minus then -v else v) same
  · exact ⟨l, h, (List.append_nil _).symm, rfl, rfl⟩

end

theorem floatText_of_isFinite {x : Binary64} (finite : x.isFinite = true) :
    floatText x = significant x ++ integerTail (significant x) := by
  have below := Binary64.isFinite_iff.mp finite
  have number : x.isNaN = false := decide_eq_false (Nat.lt_asymm below)
  have bounded : x.isInfinite = false := decide_eq_false below.ne
  unfold floatText integerTail
  rw [number, bounded, if_neg Bool.false_ne_true, if_neg Bool.false_ne_true]
  dsimp only
  split
  · rfl
  · rw [List.append_nil]

/-- A finite float is shown with fourteen significant digits, with an exponent if that of the first
of them is below -4 or not below fourteen, and with `.0` behind it where nothing else makes it a
float. The text is read as a number of its own sign that is nearest to what the digits say. -/
theorem display_float {x : Binary64} (finite : x.isFinite = true) :
    ∃ (r : ℚ) (l : Literal) (tail : List Char),
      (∀ r', IsRounded 14 x.value r' ↔ r' = r) ∧
      (∀ l', ShowsNumber r l' ∧ l'.minus = x.negative ↔ l' = l) ∧
      (ReadsAsInteger l.text ∧ tail = ['.', '0'] ∨ ¬ ReadsAsInteger l.text ∧ tail = []) ∧
      (Value.float x).display.toList = l.text ++ tail ∧
      ('.' ∈ (Value.float x).display.toList ∨ 'e' ∈ (Value.float x).display.toList) ∧
      (∃ l' : Literal, l'.WellFormed ∧ (Value.float x).display.toList = l'.text ∧ l'.number = r) ∧
      ∃ y, Binary64.ofLiteral? (Value.float x).display.toList = some y ∧
        y.negative = x.negative ∧ Binary64.IsNearest y.pattern (|r| * Binary64.one) := by
  obtain ⟨r, l, rounded, shows, minus, text⟩ := significant_shows x
  have display : (Value.float x).display.toList = l.text ++ integerTail l.text := by
    unfold Value.display
    dsimp only
    rw [String.toList_ofList, floatText_of_isFinite finite, text]
  obtain ⟨l', wellFormed, text', number, minus'⟩ := exists_literal shows.wellFormed
  rw [display]
  refine ⟨r, l, integerTail l.text, fun r' => ⟨fun h => h.unique rounded, fun eq => eq ▸ rounded⟩,
    fun l' => ⟨fun h => h.1.unique shows (h.2.trans minus.symm), fun eq => eq ▸ ⟨shows, minus⟩⟩,
    integerTail_spec shows.wellFormed, rfl, mark_mem shows,
    ⟨l', wellFormed, text'.symm, number.trans shows.number⟩, l'.value, ?_, ?_, ?_⟩
  · rw [← text']
    exact Json.ofLiteral?_text wellFormed
  · exact l'.value_isNearest.2.trans (minus'.trans minus)
  · rw [← shows.number, ← number, ← l'.units_eq]
    exact l'.value_isNearest.1

example : (Value.float ⟨0x42D6BCC41E900000⟩).display = "1e+14" ∧
    (Value.float ⟨0x8000000000000000⟩).display = "-0.0" := by
  decide +kernel

/-- The rounding of a number below `1e-4` carries into the power of ten that is not shown with an
exponent. -/
theorem display_float_carry :
    (⟨0x3F1A36E2EB1C432C⟩ : Binary64).isFinite = true ∧
      (Value.float ⟨0x3F1A36E2EB1C432C⟩).display = "0.0001" ∧
      ∃ r, (∀ r', IsRounded 14 (⟨0x3F1A36E2EB1C432C⟩ : Binary64).value r' ↔ r' = r) ∧
        ∃ l : Literal, l.WellFormed ∧ "0.0001".toList = l.text ∧ l.number = r := by
  have finite : (⟨0x3F1A36E2EB1C432C⟩ : Binary64).isFinite = true := by decide +kernel
  have display : (Value.float ⟨0x3F1A36E2EB1C432C⟩).display = "0.0001" := by decide +kernel
  obtain ⟨r, -, -, rounded, -, -, -, -, literal, -⟩ := display_float finite
  rw [display] at literal
  exact ⟨finite, display, r, rounded, literal⟩

end ScriptServer.Script
