import Mathlib.Algebra.Group.Nat.Defs
import Mathlib.Data.List.Basic
import Mathlib.Data.Nat.Log
import ScriptServer.Number.Literal

/-!
# Decimal digits

`decimal` writes a number and `digitsValue` reads it back. `IsNumeral` and `IsWhole` are the digit
lists that may stand behind and before the point of a number literal, and `IsPadded` those of a
least width, of which a number has only one (`IsPadded.unique`). `hexadecimal` is read back digit by
digit.
-/

namespace ScriptServer.Text

variable {cs ds : List Char}

/-- Digits, at least one. -/
def IsNumeral (cs : List Char) : Prop := cs ≠ [] ∧ ∀ c ∈ cs, isDigit c = true

/-- Digits without a zero in front, or a zero alone. -/
def IsWhole (cs : List Char) : Prop := IsNumeral cs ∧ (cs.head? = some '0' → cs = ['0'])

/-- At least `width` digits, and no zero in front if they are more. -/
structure IsPadded (width : Nat) (cs : List Char) : Prop where
  digits : ∀ c ∈ cs, isDigit c = true
  least : width ≤ cs.length
  head : width < cs.length → cs.head? ≠ some '0'

theorem isDigit_iff {c : Char} : isDigit c = true ↔ 48 ≤ c.toNat ∧ c.toNat ≤ 57 := by
  simp only [isDigit, Bool.and_eq_true, decide_eq_true_eq, Char.le_def, UInt32.le_iff_toNat_le]
  rfl

theorem isWhole_zero : IsWhole ['0'] :=
  ⟨⟨List.cons_ne_nil _ _, List.all_eq_true.mp rfl⟩, fun _ => rfl⟩

theorem IsWhole.isPadded (whole : IsWhole cs) : IsPadded 1 cs := by
  refine ⟨whole.1.2, List.length_pos_iff.mpr whole.1.1, fun more zero => ?_⟩
  rw [whole.2 zero, List.length_singleton] at more
  omega

/-! ## The value of digits -/

theorem digitsValue_eq_ofDigitChars (cs : List Char) :
    digitsValue cs = Nat.ofDigitChars 10 cs 0 := by
  rw [digitsValue, Nat.ofDigitChars_eq_foldl]
  congr 1
  funext n c
  rw [Nat.mul_comm]; rfl

theorem digitsValue_append (a b : List Char) :
    digitsValue (a ++ b) = digitsValue a * 10 ^ b.length + digitsValue b := by
  simp only [digitsValue_eq_ofDigitChars]
  rw [Nat.ofDigitChars_append, Nat.ofDigitChars_eq_ofDigitChars_zero, Nat.mul_comm]

theorem digitsValue_zeros (n : Nat) : digitsValue (List.replicate n '0') = 0 := by
  rw [digitsValue_eq_ofDigitChars, Nat.ofDigitChars_replicate_zero, Nat.mul_zero]

theorem digitsValue_cons (c : Char) (cs : List Char) :
    digitsValue (c :: cs) = (c.toNat - 48) * 10 ^ cs.length + digitsValue cs := by
  have digit : digitsValue [c] = c.toNat - 48 := Nat.zero_add _
  rw [← List.singleton_append, digitsValue_append, digit]

theorem digitsValue_lt (digits : ∀ c ∈ cs, isDigit c = true) :
    digitsValue cs < 10 ^ cs.length := by
  induction cs with
  | nil => exact Nat.one_pos
  | cons c cs ih =>
    have rest := ih fun d mem => digits d (List.mem_cons_of_mem c mem)
    have digit : c.toNat - 48 ≤ 9 := by
      have := (isDigit_iff.mp (digits c List.mem_cons_self)).2
      omega
    have := Nat.mul_le_mul_right (10 ^ cs.length) digit
    rw [digitsValue_cons, List.length_cons, Nat.pow_succ]
    omega

/-- Without a zero in front, digits stand for a number that needs them all. -/
theorem le_digitsValue {c : Char} (digits : isDigit c = true) (some : c ≠ '0') :
    10 ^ cs.length ≤ digitsValue (c :: cs) := by
  have digit : 1 ≤ c.toNat - 48 := by
    have low := (isDigit_iff.mp digits).1
    have ne : c.toNat ≠ 48 := fun eq => some (Char.toNat_inj.mp eq)
    omega
  have := Nat.mul_le_mul_right (10 ^ cs.length) digit
  rw [digitsValue_cons]
  omega

/-- As many digits of the same value are the same digits. -/
theorem digits_unique (length : cs.length = ds.length) (digits : ∀ c ∈ cs, isDigit c = true)
    (digits' : ∀ c ∈ ds, isDigit c = true) (same : digitsValue cs = digitsValue ds) : cs = ds := by
  induction cs generalizing ds with
  | nil => exact (List.length_eq_zero_iff.mp length.symm).symm
  | cons c cs ih =>
    obtain ⟨d, ds, rfl⟩ := List.exists_cons_of_length_eq_add_one length.symm
    have length' : cs.length = ds.length := Nat.succ.inj length
    obtain ⟨digit, rest⟩ := List.forall_mem_cons.mp digits
    obtain ⟨digit', rest'⟩ := List.forall_mem_cons.mp digits'
    have low := digitsValue_lt rest
    have low' := digitsValue_lt rest'
    rw [digitsValue_cons, digitsValue_cons, length', Nat.mul_comm, Nat.mul_comm (d.toNat - 48)]
      at same
    rw [length'] at low
    have quotient {a b : Nat} (lt : b < 10 ^ ds.length) :
        (10 ^ ds.length * a + b) / 10 ^ ds.length = a := by
      rw [Nat.mul_add_div (Nat.pow_pos (by decide)), Nat.div_eq_of_lt lt, Nat.add_zero]
    have first := quotient (a := c.toNat - 48) low
    rw [same, quotient low'] at first
    rw [first] at same
    have eq : c = d := by
      have := (isDigit_iff.mp digit).1
      have := (isDigit_iff.mp digit').1
      exact Char.toNat_inj.mp (by omega)
    rw [eq, ih length' rest rest' (Nat.add_left_cancel same)]

/-- There is only one way to write a number with at least so many digits. -/
theorem IsPadded.unique {width : Nat} (h : IsPadded width cs) (h' : IsPadded width ds)
    (same : digitsValue cs = digitsValue ds) : cs = ds := by
  have fewer {cs ds : List Char} (h : IsPadded width cs) (h' : IsPadded width ds)
      (lt : cs.length < ds.length) : digitsValue cs < digitsValue ds := by
    obtain ⟨d, ds, rfl⟩ := List.exists_cons_of_length_pos (Nat.zero_lt_of_lt lt)
    have some : d ≠ '0' := fun zero =>
      h'.head (Nat.lt_of_le_of_lt h.least lt) (congrArg some zero)
    refine Nat.lt_of_lt_of_le (digitsValue_lt h.digits) ?_
    refine Nat.le_trans ?_ (le_digitsValue (h'.digits d List.mem_cons_self) some)
    exact Nat.pow_le_pow_right (by decide) (Nat.le_of_lt_succ lt)
  rcases Nat.lt_trichotomy cs.length ds.length with lt | eq | gt
  · exact absurd same (fewer h h' lt).ne
  · exact digits_unique eq h.digits h'.digits same
  · exact absurd same (fewer h' h gt).ne'

/-! ## The digits of a number -/

theorem digitsValue_decimal (n : Nat) : digitsValue (decimal n) = n := by
  rw [digitsValue_eq_ofDigitChars, decimal, Nat.ofDigitChars_ten_toDigits]

theorem number_injective : Function.Injective number := fun m n eq => by
  rw [← digitsValue_decimal m, String.ofList_injective eq, digitsValue_decimal]

theorem isNumeral_decimal (n : Nat) : IsNumeral (decimal n) := by
  refine ⟨Nat.toDigits_ne_nil, fun c hc => ?_⟩
  have h := Nat.isDigit_of_mem_toDigits (by decide) (by decide) hc
  simp only [Char.isDigit, Bool.and_eq_true, decide_eq_true_eq, ge_iff_le,
    UInt32.le_iff_toNat_le] at h
  exact isDigit_iff.mpr h

theorem length_decimal_pos (n : Nat) : 0 < (decimal n).length :=
  List.length_pos_iff.mpr (isNumeral_decimal n).1

/-- A positive number is written without a zero in front. -/
theorem head_decimal {n : Nat} (hn : n ≠ 0) : (decimal n).head? ≠ some '0' := by
  induction n using Nat.strongRecOn with
  | _ n ih =>
    by_cases h : n < 10
    · rw [decimal, Nat.toDigits_of_lt_base h, List.head?_cons]
      intro he
      have := congrArg Char.toNat (Option.some.inj he)
      rw [Nat.toNat_digitChar_of_lt_ten h] at this
      change 48 + n = 48 at this
      omega
    · have hne : decimal (n / 10) ≠ [] := Nat.toDigits_ne_nil
      rw [decimal, Nat.toDigits_of_base_le (by decide) (by omega)]
      change (decimal (n / 10) ++ _).head? ≠ _
      rw [List.head?_append_of_ne_nil _ hne]
      exact ih (n / 10) (by omega) (by omega)

theorem isWhole_decimal {n : Nat} (hn : n ≠ 0) : IsWhole (decimal n) :=
  ⟨isNumeral_decimal n, fun h => absurd h (head_decimal hn)⟩

theorem IsWhole.append (h : IsWhole cs) (h0 : cs.head? ≠ some '0') {ds : List Char}
    (hds : ∀ c ∈ ds, isDigit c = true) : IsWhole (cs ++ ds) := by
  refine ⟨⟨List.append_ne_nil_of_left_ne_nil h.1.1 _, fun c hc => ?_⟩, fun hz => ?_⟩
  · exact (List.mem_append.mp hc).elim (h.1.2 c) (hds c)
  · rw [List.head?_append_of_ne_nil _ h.1.1] at hz
    exact absurd hz h0

theorem isDigit_of_mem_zeros {n : Nat} {c : Char} (h : c ∈ List.replicate n '0') :
    isDigit c = true := by
  rw [List.eq_of_mem_replicate h]; rfl

theorem isPadded_decimal {width : Nat} (pos : 0 < width) (n : Nat) :
    IsPadded width (List.replicate (width - (decimal n).length) '0' ++ decimal n) := by
  refine ⟨fun c mem => ?_, ?_, fun more => ?_⟩
  · exact (List.mem_append.mp mem).elim isDigit_of_mem_zeros ((isNumeral_decimal n).2 c)
  · rw [List.length_append, List.length_replicate]
    omega
  · rw [List.length_append, List.length_replicate] at more
    have none : width - (decimal n).length = 0 := by omega
    rw [none, List.replicate_zero, List.nil_append]
    apply head_decimal
    rintro rfl
    have : (decimal 0).length = 1 := rfl
    omega

theorem length_decimal (n : Nat) : (decimal n).length = Nat.log 10 n + 1 := by
  induction n using Nat.strongRecOn with
  | _ n ih =>
    by_cases h : n < 10
    · rw [decimal, Nat.toDigits_of_lt_base h, Nat.log_of_lt h]
      rfl
    · have step : decimal n = decimal (n / 10) ++ [(n % 10).digitChar] :=
        Nat.toDigits_of_base_le (by decide) (by omega)
      have log : Nat.log 10 n = Nat.log 10 (n / 10) + 1 :=
        Nat.log_of_one_lt_of_le (by decide) (Nat.not_lt.mp h)
      rw [step, List.length_append, ih (n / 10) (by omega), log]
      rfl

theorem decimal_bounds {n : Nat} (pos : 0 < n) :
    10 ^ ((decimal n).length - 1) ≤ n ∧ n < 10 ^ (decimal n).length := by
  rw [length_decimal]
  exact ⟨Nat.pow_log_le_self 10 (by omega), Nat.lt_pow_succ_log_self (by decide) n⟩

/-! ## Literals of whole numbers -/

section

variable {ds : List Char} {bound n : Nat}

/-- The digits may have a plus sign in front of them. -/
theorem natural?_of_isNumeral {cs : List Char} (numeral : IsNumeral ds)
    (sign : cs = ds ∨ cs = '+' :: ds) (value : digitsValue ds = n) (small : n < bound) :
    natural? bound cs = some n := by
  have all : ds.all isDigit = true := List.all_eq_true.mpr numeral.2
  have unsigned : ∀ cs, ds ≠ '+' :: cs := fun cs eq => by
    have digit : isDigit '+' = true := numeral.2 '+' (eq ▸ List.mem_cons_self)
    exact absurd digit (by decide)
  have read : (if (ds.isEmpty || !ds.all isDigit) = true then none
      else if digitsValue ds < bound then some (digitsValue ds) else none) = some n := by
    simp [numeral.1, all, value, small]
  rcases sign with rfl | rfl
  · unfold natural?
    split
    · exact absurd rfl (unsigned _)
    · exact read
  · exact read

theorem natural?_decimal (h : n < bound) : natural? bound (decimal n) = some n :=
  natural?_of_isNumeral (isNumeral_decimal n) (.inl rfl) (digitsValue_decimal n) h

theorem integer?_decimal (h : n < bound) : integer? bound (decimal n) = some (n : Int) := by
  unfold integer?
  split
  · next ds eq =>
    have digit : isDigit '-' = true := (isNumeral_decimal n).2 '-' (eq ▸ List.mem_cons_self)
    exact absurd digit (by decide)
  · rw [natural?_decimal h]
    rfl

theorem integer?_minus_decimal (h : n ≤ bound) :
    integer? bound ('-' :: decimal n) = some (-(n : Int)) := by
  obtain ⟨some, digits⟩ := isNumeral_decimal n
  have all : (decimal n).all isDigit = true := List.all_eq_true.mpr digits
  simp [integer?, some, all, digitsValue_decimal, h]

theorem isNumeral_of_check (h : ¬ (ds.isEmpty || !ds.all isDigit) = true) : IsNumeral ds := by
  rw [Bool.or_eq_true, not_or, Bool.not_eq_true', Bool.not_eq_false, List.all_eq_true] at h
  exact ⟨fun none => h.1 (List.isEmpty_iff.mpr none), h.2⟩

theorem natural?_eq_some (h : natural? bound cs = some n) :
    ∃ ds, (cs = ds ∨ cs = '+' :: ds) ∧ IsNumeral ds ∧ digitsValue ds = n ∧ n < bound := by
  have read {ds : List Char} (h : (if (ds.isEmpty || !ds.all isDigit) = true then none
      else if digitsValue ds < bound then some (digitsValue ds) else none) = some n) :
      IsNumeral ds ∧ digitsValue ds = n ∧ n < bound := by
    split at h
    · cases h
    next digits =>
    split at h
    · next small =>
      cases h
      exact ⟨isNumeral_of_check digits, rfl, small⟩
    · cases h
  unfold natural? at h
  split at h
  · next ds => exact ⟨ds, .inr rfl, read h⟩
  · exact ⟨cs, .inl rfl, read h⟩

end

/-! ## Hexadecimal digits -/

theorem isSome_hexValue? {c : Char} : (hexValue? c).isSome = true ↔
    48 ≤ c.toNat ∧ c.toNat ≤ 57 ∨ 97 ≤ c.toNat ∧ c.toNat ≤ 102 ∨
      65 ≤ c.toNat ∧ c.toNat ≤ 70 := by
  unfold hexValue?
  simp only [Char.le_def, UInt32.le_iff_toNat_le]
  change (if 48 ≤ c.toNat ∧ c.toNat ≤ 57 then _ else if 97 ≤ c.toNat ∧ c.toNat ≤ 102 then _
    else if 65 ≤ c.toNat ∧ c.toNat ≤ 70 then _ else _ : Option Nat).isSome = true ↔ _
  grind

theorem ascii_of_hexValue? {c : Char} (h : (hexValue? c).isSome = true) : c.toNat < 0x80 := by
  have digit := isSome_hexValue?.mp h
  omega

theorem hexValue?_lt {c : Char} {n : Nat} (h : hexValue? c = some n) : n < 16 := by
  have digit := isSome_hexValue?.mp (Option.isSome_of_eq_some h)
  unfold hexValue? at h
  simp only [Char.le_def, UInt32.le_iff_toNat_le] at h
  change (if 48 ≤ c.toNat ∧ c.toNat ≤ 57 then _ else if 97 ≤ c.toNat ∧ c.toNat ≤ 102 then _
    else if 65 ≤ c.toNat ∧ c.toNat ≤ 70 then _ else _ : Option Nat) = some n at h
  grind

/-- The digits are those of the numbers below sixteen. -/
theorem digitChar_of_mem_hexadecimal {c : Char} {width n : Nat} (h : c ∈ hexadecimal width n) :
    ∃ d < 16, c = d.digitChar := by
  have digits (n : Nat) : ∀ c ∈ Nat.toDigits 16 n, ∃ d < 16, c = d.digitChar := by
    induction n using Nat.strongRecOn with
    | _ n ih =>
      intro c mem
      by_cases small : n < 16
      · rw [Nat.toDigits_of_lt_base small, List.mem_singleton] at mem
        exact ⟨n, small, mem⟩
      · rw [Nat.toDigits_of_base_le (by decide) (Nat.not_lt.mp small), List.mem_append,
          List.mem_singleton] at mem
        rcases mem with mem | last
        · exact ih (n / 16) (Nat.div_lt_self (by omega) (by decide)) c mem
        · exact ⟨n % 16, Nat.mod_lt _ (by decide), last⟩
  rw [hexadecimal, List.mem_append] at h
  rcases h with zero | digit
  · exact ⟨0, by decide, List.eq_of_mem_replicate zero⟩
  · exact digits n c digit

/-- Hexadecimal digits are read back as the number that they were written for. -/
theorem foldl_hexadecimal (width n : Nat) :
    (hexadecimal width n).foldl (fun n c => n * 16 + (hexValue? c).getD 0) 0 = n := by
  have digit : ∀ d < 16, (hexValue? d.digitChar).getD 0 = d := by decide
  have digits (n : Nat) :
      (Nat.toDigits 16 n).foldl (fun n c => n * 16 + (hexValue? c).getD 0) 0 = n := by
    induction n using Nat.strongRecOn with
    | _ n ih =>
      by_cases small : n < 16
      · rw [Nat.toDigits_of_lt_base small, List.foldl_cons, digit n small, List.foldl_nil]
        omega
      · rw [Nat.toDigits_of_base_le (by decide) (Nat.not_lt.mp small), List.foldl_append,
          ih (n / 16) (by omega), List.foldl_cons, List.foldl_nil,
          digit _ (Nat.mod_lt n (by decide))]
        omega
  have zeros (k : Nat) :
      (List.replicate k '0').foldl (fun n c => n * 16 + (hexValue? c).getD 0) 0 = 0 := by
    induction k with
    | zero => rfl
    | succ k ih => exact ih
  rw [hexadecimal, List.foldl_append, zeros, digits]

end ScriptServer.Text
