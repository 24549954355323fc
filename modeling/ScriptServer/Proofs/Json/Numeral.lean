import ScriptServer.Proofs.Json.Cursor
import ScriptServer.Proofs.Number.Literal
import ScriptServer.Proofs.Number.Shortest

/-!
# Number literals

`skipNumber` goes behind the longest literal at the front of the input. Each of its parts has two
lemmas: what was read is such a part (`_sound`), and such a part is read if what follows cannot
belong to it (`_append`). The text between is read as the value of the literal.
-/

namespace ScriptServer.Json

def NoDigit (rest : List Char) : Prop := ∀ c ∈ rest.head?, Text.isDigit c = false

/-- What follows does not go on with a number. -/
structure EndsNumber (rest : List Char) : Prop where
  digit : NoDigit rest
  point : rest.head? ≠ some '.'
  exponent : rest.head? ≠ some 'e' ∧ rest.head? ≠ some 'E'

theorem noDigit_cons {c : Char} {cs : List Char} (h : Text.isDigit c = false) :
    NoDigit (c :: cs) := by
  intro d hd
  rwa [← Option.some.inj hd]

/-- A computation that gives a result has one in its first part. -/
theorem bind_ok {ε α β : Type} {x : Except ε α} {f : α → Except ε β} {b : β}
    (h : x >>= f = .ok b) : ∃ a, x = .ok a ∧ f a = .ok b := by
  cases x with
  | error e => cases h
  | ok a => exact ⟨a, rfl, h⟩

variable {pos : Nat} {cs ds rest : List Char} {c' : Cursor} {place : Place}

/-! ## Digits -/

theorem skipDigits_at (pos : Nat) (cs : List Char) :
    ∃ ds rest, cs = ds ++ rest ∧ (∀ c ∈ ds, Text.isDigit c = true) ∧ NoDigit rest ∧
      skipDigits (Cursor.at pos cs) = Cursor.at (pos + ds.length) rest :=
  skipWhile_at isDigitByte_lead (fun _ => ascii_of_isDigit) pos cs

theorem skipDigits_append (hds : ∀ c ∈ ds, Text.isDigit c = true) (hr : NoDigit rest) :
    skipDigits (Cursor.at pos (ds ++ rest)) = Cursor.at (pos + ds.length) rest :=
  skipWhile_append isDigitByte_lead (fun _ => ascii_of_isDigit) pos hds hr

theorem readDigits_sound (h : readDigits place (Cursor.at pos cs) = .ok c') :
    ∃ ds rest, cs = ds ++ rest ∧ Text.IsNumeral ds ∧ c' = Cursor.at (pos + ds.length) rest := by
  obtain ⟨ds, rest, rfl, hds, _, hskip⟩ := skipDigits_at pos cs
  simp only [readDigits, hskip, at_pos] at h
  split at h
  · cases h
  · next hne =>
    cases h
    refine ⟨ds, rest, rfl, ⟨?_, hds⟩, rfl⟩
    rintro rfl
    exact hne rfl

theorem readDigits_append (hds : Text.IsNumeral ds) (hr : NoDigit rest) :
    readDigits place (Cursor.at pos (ds ++ rest)) = .ok (Cursor.at (pos + ds.length) rest) := by
  have hpos := List.length_pos_of_ne_nil hds.1
  have hne : ¬ pos + ds.length = pos := by omega
  simp only [readDigits, skipDigits_append hds.2 hr, at_pos, hne, ↓reduceIte]

/-! ## The part before the point -/

theorem isNonzeroDigit_lead (c : Char) :
    (byte '1' ≤ lead c ∧ lead c ≤ byte '9') ↔ Text.isDigit c = true ∧ c ≠ '0' := by
  rw [UInt8.le_iff_toNat_le, UInt8.le_iff_toNat_le, Text.isDigit_iff, ne_eq, ← Char.toNat_inj]
  change 49 ≤ _ ∧ _ ≤ 57 ↔ _ ∧ ¬ _ = 48
  have := toNat_lead c
  omega

theorem readWhole_sound (h : readWhole (Cursor.at pos cs) = .ok c') :
    ∃ ds rest, cs = ds ++ rest ∧ Text.IsWhole ds ∧ c' = Cursor.at (pos + ds.length) rest := by
  cases cs with
  | nil => cases h
  | cons c cs =>
    simp only [readWhole, peek_cons] at h
    split at h
    · next h0 =>
      rw [lead_eq_byte (by decide)] at h0
      subst h0
      cases h
      exact ⟨['0'], cs, rfl, Text.isWhole_zero, step_ascii (by decide)⟩
    · split at h
      · next hc =>
        rw [isNonzeroDigit_lead] at hc
        cases h
        obtain ⟨ds, rest, heq, hds, hrest, hskip⟩ := skipDigits_at pos (c :: cs)
        cases ds with
        | nil =>
          rw [List.nil_append] at heq
          rw [← heq] at hrest
          exact absurd (hrest c rfl) (by rw [hc.1]; decide)
        | cons d ds =>
          obtain ⟨rfl, rfl⟩ := List.cons.inj heq
          refine ⟨c :: ds, rest, rfl, ⟨⟨List.cons_ne_nil _ _, hds⟩, fun h => ?_⟩, hskip⟩
          exact absurd (Option.some.inj h) hc.2
      · cases h

theorem readWhole_append (hds : Text.IsWhole ds) (hr : NoDigit rest) :
    readWhole (Cursor.at pos (ds ++ rest)) = .ok (Cursor.at (pos + ds.length) rest) := by
  obtain ⟨c, tl, rfl⟩ := List.exists_cons_of_ne_nil hds.1.1
  have hc := hds.1.2 c List.mem_cons_self
  rw [List.cons_append]
  simp only [readWhole, peek_cons]
  by_cases h0 : c = '0'
  · subst h0
    have htl : tl = [] := (List.cons.inj (hds.2 rfl)).2
    subst htl
    rw [if_pos ((lead_eq_byte (by decide)).mpr rfl), step_ascii (by decide)]
    rfl
  · rw [if_neg (fun h => h0 ((lead_eq_byte (by decide)).mp h)),
      if_pos ((isNonzeroDigit_lead c).mpr ⟨hc, h0⟩), ← List.cons_append,
      skipDigits_append hds.1.2 hr]

/-! ## The part behind the point -/

def fractionText (fraction : Option (List Char)) : List Char :=
  fraction.elim [] fun ds => '.' :: ds

theorem readFraction_sound (h : readFraction (Cursor.at pos cs) = .ok c') :
    ∃ fraction rest, cs = fractionText fraction ++ rest ∧ (∀ ds ∈ fraction, Text.IsNumeral ds) ∧
      c' = Cursor.at (pos + (fractionText fraction).length) rest := by
  unfold readFraction at h
  split at h
  · next hp =>
    rw [peek_eq_byte (by decide)] at hp
    obtain ⟨tl, rfl⟩ := eq_cons_of_head? hp
    rw [step_ascii (by decide)] at h
    obtain ⟨ds, rest, rfl, hds, rfl⟩ := readDigits_sound h
    refine ⟨some ds, rest, rfl, fun _ h => Option.some.inj h ▸ hds, ?_⟩
    simp only [fractionText, Option.elim_some, List.length_cons]
    congr 1; omega
  · cases h
    exact ⟨none, cs, rfl, by simp, rfl⟩

theorem readFraction_append {fraction : Option (List Char)}
    (hf : ∀ ds ∈ fraction, Text.IsNumeral ds) (hr : NoDigit rest) (hpoint : rest.head? ≠ some '.') :
    readFraction (Cursor.at pos (fractionText fraction ++ rest)) =
      .ok (Cursor.at (pos + (fractionText fraction).length) rest) := by
  unfold readFraction
  cases fraction with
  | none =>
    rw [if_neg (by rw [peek_eq_byte (by decide)]; exact hpoint)]
    rfl
  | some ds =>
    have hp : (Cursor.at pos (fractionText (some ds) ++ rest)).peek = some (byte '.') :=
      (peek_eq_byte (by decide)).mpr rfl
    rw [if_pos hp]
    simp only [fractionText, Option.elim_some, List.cons_append, List.length_cons]
    rw [step_ascii (by decide), readDigits_append (hf ds rfl) hr]
    congr 2; omega

/-! ## The exponent -/

def exponentText (exponent : Option Exponent) : List Char := exponent.elim [] Exponent.text

theorem skipSign_sound {c : Cursor} (hc : c = Cursor.at pos cs) :
    ∃ (sign : Option Char) (rest : List Char), cs = sign.toList ++ rest ∧
      (∀ s ∈ sign, s = '+' ∨ s = '-') ∧
      (if c.peek = some (byte '+') ∨ c.peek = some (byte '-') then c.step else c) =
        Cursor.at (pos + sign.toList.length) rest := by
  subst hc
  split
  · next h =>
    rw [peek_eq_either (by decide) (by decide)] at h
    rcases h with h | h <;> obtain ⟨tl, rfl⟩ := eq_cons_of_head? h
    · exact ⟨some '+', tl, rfl, by simp, step_ascii (by decide)⟩
    · exact ⟨some '-', tl, rfl, by simp, step_ascii (by decide)⟩
  · exact ⟨none, cs, rfl, by simp, rfl⟩

theorem skipSign_append {sign : Option Char} (hs : ∀ s ∈ sign, s = '+' ∨ s = '-')
    (hds : Text.IsNumeral ds) {c : Cursor} (hc : c = Cursor.at pos (sign.toList ++ (ds ++ rest))) :
    (if c.peek = some (byte '+') ∨ c.peek = some (byte '-') then c.step else c) =
      Cursor.at (pos + sign.toList.length) (ds ++ rest) := by
  subst hc
  have key := @peek_eq_either pos '+' (sign.toList ++ (ds ++ rest)) '-' (by decide) (by decide)
  cases sign with
  | none =>
    obtain ⟨d, tl, rfl⟩ := List.exists_cons_of_ne_nil hds.1
    have hd := hds.2 d List.mem_cons_self
    rw [if_neg (key.not.mpr ?_)]
    · rfl
    · rintro (h | h) <;> cases h <;> exact absurd hd (by decide)
  | some s =>
    rw [if_pos (key.mpr ?_)]
    · rcases hs s rfl with rfl | rfl <;> exact step_ascii (by decide)
    · rcases hs s rfl with rfl | rfl
      · exact .inl rfl
      · exact .inr rfl

theorem readExponent_sound (h : readExponent (Cursor.at pos cs) = .ok c') :
    ∃ exponent rest, cs = exponentText exponent ++ rest ∧ (∀ e ∈ exponent, e.WellFormed) ∧
      c' = Cursor.at (pos + (exponentText exponent).length) rest := by
  unfold readExponent at h
  split at h
  · next hp =>
    rw [peek_eq_byte (by decide), peek_eq_byte (by decide)] at hp
    obtain ⟨marker, tl, rfl, hm⟩ : ∃ m tl, cs = m :: tl ∧ (m = 'e' ∨ m = 'E') := by
      rcases hp with hp | hp <;> obtain ⟨tl, rfl⟩ := eq_cons_of_head? hp
      · exact ⟨_, _, rfl, .inl rfl⟩
      · exact ⟨_, _, rfl, .inr rfl⟩
    have hascii : marker.toNat < 0x80 := by rcases hm with rfl | rfl <;> decide
    obtain ⟨sign, rest, rfl, hs, hskip⟩ := skipSign_sound (@step_ascii pos _ tl hascii)
    simp only [hskip] at h
    obtain ⟨ds, rest, rfl, hds, rfl⟩ := readDigits_sound h
    refine ⟨some ⟨marker, sign, ds⟩, rest, ?_, fun _ h => Option.some.inj h ▸ ⟨hm, hs, hds⟩, ?_⟩
    · simp [exponentText, Exponent.text]
    · simp only [exponentText, Exponent.text, Option.elim_some, List.length_cons,
        List.length_append]
      congr 1; omega
  · cases h
    exact ⟨none, cs, rfl, by simp, rfl⟩

theorem readExponent_append {exponent : Option Exponent} (he : ∀ e ∈ exponent, e.WellFormed)
    (hr : EndsNumber rest) :
    readExponent (Cursor.at pos (exponentText exponent ++ rest)) =
      .ok (Cursor.at (pos + (exponentText exponent).length) rest) := by
  unfold readExponent
  have key := @peek_eq_either pos 'e' (exponentText exponent ++ rest) 'E' (by decide) (by decide)
  cases exponent with
  | none =>
    rw [if_neg (key.not.mpr (by rintro (h | h); exacts [hr.exponent.1 h, hr.exponent.2 h]))]
    rfl
  | some e =>
    obtain ⟨hm, hs, hds⟩ := he e rfl
    have hascii : e.marker.toNat < 0x80 := by rcases hm with h | h <;> rw [h] <;> decide
    have hstep := @step_ascii pos _ (e.sign.toList ++ (e.digits ++ rest)) hascii
    rw [if_pos (key.mpr (hm.imp (congrArg some) (congrArg some)))]
    simp only [exponentText, Exponent.text, Option.elim_some, List.cons_append, List.append_assoc]
    rw [skipSign_append hs hds hstep, readDigits_append hds hr.digit]
    simp only [List.length_cons, List.length_append]
    congr 2; omega

/-! ## Going behind a literal -/

def minusText (minus : Bool) : List Char := if minus then ['-'] else []

theorem Literal.text_eq (l : Literal) :
    l.text = minusText l.minus ++
      (l.whole ++ (fractionText l.fraction ++ exponentText l.exponent)) := by
  simp only [Literal.text, minusText, fractionText, exponentText, List.append_assoc]

theorem skipMinus_sound (pos : Nat) (cs : List Char) :
    ∃ minus rest, cs = minusText minus ++ rest ∧
      (if (Cursor.at pos cs).peek = some (byte '-') then (Cursor.at pos cs).step
        else Cursor.at pos cs) = Cursor.at (pos + (minusText minus).length) rest := by
  split
  · next h =>
    rw [peek_eq_byte (by decide)] at h
    obtain ⟨tl, rfl⟩ := eq_cons_of_head? h
    exact ⟨true, tl, rfl, step_ascii (by decide)⟩
  · exact ⟨false, cs, rfl, rfl⟩

theorem skipMinus_append (minus : Bool) (hr : rest.head? ≠ some '-') :
    (if (Cursor.at pos (minusText minus ++ rest)).peek = some (byte '-') then
        (Cursor.at pos (minusText minus ++ rest)).step
      else Cursor.at pos (minusText minus ++ rest)) =
      Cursor.at (pos + (minusText minus).length) rest := by
  have key := @peek_eq_byte pos '-' (minusText minus ++ rest) (by decide)
  cases minus with
  | false => rw [if_neg (key.not.mpr hr)]; rfl
  | true => rw [if_pos (key.mpr rfl)]; exact step_ascii (by decide)

theorem skipNumber_sound (h : skipNumber (Cursor.at pos cs) = .ok c') :
    ∃ l rest, cs = Literal.text l ++ rest ∧ l.WellFormed ∧
      c' = Cursor.at (pos + l.text.length) rest := by
  obtain ⟨minus, rest, rfl, hminus⟩ := skipMinus_sound pos cs
  simp only [skipNumber, hminus] at h
  obtain ⟨c₁, h₁, h⟩ := bind_ok h
  obtain ⟨whole, rest, rfl, hwhole, rfl⟩ := readWhole_sound h₁
  obtain ⟨c₂, h₂, h⟩ := bind_ok h
  obtain ⟨fraction, rest, rfl, hfraction, rfl⟩ := readFraction_sound h₂
  obtain ⟨exponent, rest, rfl, hexponent, rfl⟩ := readExponent_sound h
  refine ⟨⟨minus, whole, fraction, exponent⟩, rest, ?_, ⟨hwhole, hfraction, hexponent⟩, ?_⟩
  · simp only [Literal.text_eq, List.append_assoc]
  · simp only [Literal.text_eq, List.length_append]
    congr 1; omega

theorem noDigit_exponentText {exponent : Option Exponent} (he : ∀ e ∈ exponent, e.WellFormed)
    (hr : EndsNumber rest) :
    NoDigit (exponentText exponent ++ rest) ∧ (exponentText exponent ++ rest).head? ≠ some '.' := by
  cases exponent with
  | none => exact ⟨hr.digit, hr.point⟩
  | some e =>
    have hm := (he e rfl).marker
    refine ⟨noDigit_cons ?_, fun h => ?_⟩
    · rcases hm with h | h <;> rw [h] <;> decide
    · have : e.marker = '.' := Option.some.inj h
      rw [this] at hm
      revert hm; decide

theorem noDigit_fractionText {fraction : Option (List Char)} (hr : NoDigit rest) :
    NoDigit (fractionText fraction ++ rest) := by
  cases fraction with
  | none => exact hr
  | some ds => exact noDigit_cons (by decide)

theorem head_of_isDigit (rest : List Char) (hne : ds ≠ [])
    (hds : ∀ c ∈ ds, Text.isDigit c = true) {c : Char} (hc : Text.isDigit c = false) :
    (ds ++ rest).head? ≠ some c := by
  obtain ⟨d, tl, rfl⟩ := List.exists_cons_of_ne_nil hne
  intro h
  have := hds d List.mem_cons_self
  rw [Option.some.inj h, hc] at this
  cases this

theorem skipNumber_append {l : Literal} (hl : l.WellFormed) (hr : EndsNumber rest) :
    skipNumber (Cursor.at pos (l.text ++ rest)) = .ok (Cursor.at (pos + l.text.length) rest) := by
  obtain ⟨hexp, hpoint⟩ := noDigit_exponentText hl.exponent hr
  have hminus := head_of_isDigit (fractionText l.fraction ++ (exponentText l.exponent ++ rest))
    hl.whole.1.1 hl.whole.1.2 (show Text.isDigit '-' = false by decide)
  simp only [Literal.text_eq, skipNumber, List.append_assoc]
  simp only [skipMinus_append l.minus hminus, readWhole_append hl.whole (noDigit_fractionText hexp),
    readFraction_append hl.fraction hexp hpoint, readExponent_append hl.exponent hr, bind,
    Except.bind]
  simp only [List.length_append]
  congr 2; omega

/-! ## The value of a literal -/

theorem digits_append (hds : ∀ c ∈ ds, Text.isDigit c = true) (hr : NoDigit rest) :
    Text.digits (ds ++ rest) = (ds, rest) := by
  have htake : rest.takeWhile Text.isDigit = [] := by
    cases rest with
    | nil => rfl
    | cons c tl => rw [List.takeWhile_cons, hr c rfl]; rfl
  have hdrop : rest.dropWhile Text.isDigit = rest := by
    cases rest with
    | nil => rfl
    | cons c tl => rw [List.dropWhile_cons, hr c rfl]; rfl
  rw [Text.digits, List.takeWhile_append_of_pos hds, List.dropWhile_append_of_pos hds, htake, hdrop,
    List.append_nil]

theorem takeSign_minusText (minus : Bool) (rest : List Char) (hne : ds ≠ [])
    (hds : ∀ c ∈ ds, Text.isDigit c = true) :
    Binary64.takeSign (minusText minus ++ (ds ++ rest)) = (minus, ds ++ rest) := by
  cases minus with
  | true => rfl
  | false =>
    obtain ⟨d, tl, rfl⟩ := List.exists_cons_of_ne_nil hne
    exact Binary64.takeSign_of_isDigit (hds d List.mem_cons_self)

theorem takeSign_sign {sign : Option Char} (hs : ∀ s ∈ sign, s = '+' ∨ s = '-')
    (hds : Text.IsNumeral ds) :
    Binary64.takeSign (sign.toList ++ ds) = (decide (sign = some '-'), ds) := by
  cases sign with
  | none => exact Binary64.takeSign_of_isNumeral hds
  | some s => rcases hs s rfl with rfl | rfl <;> rfl

theorem literalExponent?_text {exponent : Option Exponent} (he : ∀ e ∈ exponent, e.WellFormed) :
    Binary64.literalExponent? (exponentText exponent) =
      some (exponent.elim 0 Exponent.value) := by
  cases exponent with
  | none => rfl
  | some e =>
    obtain ⟨hm, hs, hds⟩ := he e rfl
    have hd : Text.digits (e.digits ++ []) = (e.digits, []) :=
      digits_append hds.2 (by simp [NoDigit])
    rw [List.append_nil] at hd
    simp only [exponentText, Exponent.text, Option.elim_some, Binary64.literalExponent?, if_pos hm,
      takeSign_sign hs hds, hd, Exponent.value]
    obtain ⟨d, tl, h⟩ := List.exists_cons_of_ne_nil hds.1
    simp only [h, decide_eq_true_eq]

theorem ofLiteral?_text {l : Literal} (hl : l.WellFormed) :
    Binary64.ofLiteral? l.text = some l.value := by
  have hends : EndsNumber [] := ⟨by simp [NoDigit], by simp, by simp⟩
  obtain ⟨hexp, _⟩ := noDigit_exponentText hl.exponent hends
  rw [List.append_nil] at hexp
  have hexp' := literalExponent?_text hl.exponent
  have hwhole : l.whole.isEmpty = false := by
    rw [List.isEmpty_eq_false_iff]; exact hl.whole.1.1
  rw [Literal.text_eq, Binary64.ofLiteral?, takeSign_minusText _ _ hl.whole.1.1 hl.whole.1.2]
  simp only [digits_append hl.whole.1.2 (noDigit_fractionText hexp)]
  simp only [Literal.value, Literal.digits, Literal.scale]
  cases hf : l.fraction with
  | none =>
    obtain ⟨_, hpoint⟩ := noDigit_exponentText hl.exponent hends
    rw [List.append_nil] at hpoint
    simp only [fractionText, Option.elim_none, List.nil_append, Option.getD_none, hwhole,
      Bool.false_and, Bool.false_eq_true, ↓reduceIte]
    generalize exponentText l.exponent = text at hexp' hpoint
    cases text with
    | nil => simp only [hexp', Option.map_some]
    | cons c cs =>
      have hc : c ≠ '.' := fun h => hpoint (congrArg some h)
      simp [hc, hexp']
  | some ds =>
    have hds := hl.fraction ds hf
    simp only [fractionText, Option.elim_some, List.cons_append, Option.getD_some,
      digits_append hds.2 hexp, hwhole, Bool.false_and, Bool.false_eq_true, ↓reduceIte, hexp',
      Option.map_some]

/-- The value of a literal is the number nearest to what its digits say, and has its sign. -/
theorem Literal.value_isNearest (l : Literal) :
    Binary64.IsNearest l.value.pattern l.units ∧ l.value.negative = l.minus := by
  have h := Binary64.nearestDecimal_isNearest (Text.digitsValue l.digits) l.scale
  have hlt := Nat.lt_of_le_of_lt h.le_infinity Binary64.infinity_lt
  rw [Literal.value, Binary64.ofDecimal, Binary64.pattern_ofPattern _ hlt,
    Binary64.negative_ofPattern _ hlt]
  exact ⟨h, rfl⟩

/-- The number that a literal stands for before it is rounded. -/
def Literal.number (l : Literal) : ℚ :=
  let absolute : ℚ := Text.digitsValue l.digits * 10 ^ l.scale
  if l.minus then -absolute else absolute

theorem Literal.abs_number (l : Literal) :
    |l.number| = Text.digitsValue l.digits * 10 ^ l.scale := by
  have nonneg : (0 : ℚ) ≤ Text.digitsValue l.digits * 10 ^ l.scale := by positivity
  unfold number
  dsimp only
  split
  · rw [abs_neg, abs_of_nonneg nonneg]
  · exact abs_of_nonneg nonneg

theorem Literal.units_eq (l : Literal) : l.units = |l.number| * Binary64.one := by
  rw [abs_number]
  rfl

/-! ## Reading a number -/

theorem ascii_text {l : Literal} (hl : l.WellFormed) : ∀ c ∈ l.text, c.toNat < 0x80 := by
  intro c hc
  simp only [Literal.text_eq, List.mem_append] at hc
  rcases hc with hc | hc | hc | hc
  · cases hm : l.minus <;> rw [hm] at hc
    · cases hc
    · rw [List.mem_singleton.mp hc]; decide
  · exact ascii_of_isDigit (hl.whole.1.2 c hc)
  · cases hf : l.fraction with
    | none => rw [hf] at hc; cases hc
    | some ds =>
      rw [hf] at hc
      rcases List.mem_cons.mp hc with rfl | hc
      · decide
      · exact ascii_of_isDigit ((hl.fraction ds hf).2 c hc)
  · cases he : l.exponent with
    | none => rw [he] at hc; cases hc
    | some e =>
      rw [he] at hc
      obtain ⟨hm, hs, hds⟩ := hl.exponent e he
      simp only [exponentText, Option.elim_some, Exponent.text, List.mem_cons, List.mem_append,
        Option.mem_toList] at hc
      rcases hc with rfl | hc | hc
      · rcases hm with h | h <;> rw [h] <;> decide
      · rcases hs c hc with rfl | rfl <;> decide
      · exact ascii_of_isDigit (hds.2 c hc)

/-- The bytes between the ends of an ASCII text are its bytes. -/
theorem upTo_append (h : ∀ c ∈ cs, c.toNat < 0x80) :
    (Cursor.at pos (cs ++ rest)).upTo (Cursor.at (pos + cs.length) rest) = Utf8.ofChars cs := by
  rw [Cursor.upTo, at_rest, at_pos, at_pos, Nat.add_sub_cancel_left, Utf8.ofChars_append,
    List.take_append_of_le_length (by rw [length_ofChars_ascii h]),
    ← length_ofChars_ascii h, List.take_length]

theorem readNumber_of_skip {l : Literal} (hl : l.WellFormed)
    (h : skipNumber (Cursor.at pos (l.text ++ rest)) =
      .ok (Cursor.at (pos + l.text.length) rest)) :
    readNumber (Cursor.at pos (l.text ++ rest)) =
      if l.value.isFinite then .ok (.number l.value, Cursor.at (pos + l.text.length) rest)
      else .error ⟨.outOfRange (String.ofList l.text), pos⟩ := by
  simp only [readNumber, h, upTo_append (ascii_text hl), Utf8.toTextLossy_ofChars,
    String.toList_ofList, ofLiteral?_text hl, at_pos]

theorem readNumber_sound {t : Tree} (h : readNumber (Cursor.at pos cs) = .ok (t, c')) :
    ∃ l rest, cs = Literal.text l ++ rest ∧ l.WellFormed ∧ l.value.isFinite = true ∧
      t = .number l.value ∧ c' = Cursor.at (pos + l.text.length) rest := by
  cases hskip : skipNumber (Cursor.at pos cs) with
  | error e => simp only [readNumber, hskip] at h; cases h
  | ok c =>
    obtain ⟨l, rest, rfl, hl, rfl⟩ := skipNumber_sound hskip
    rw [readNumber_of_skip hl hskip] at h
    split at h
    · next hfin => cases h; exact ⟨l, rest, rfl, hl, hfin, rfl, rfl⟩
    · cases h

theorem readNumber_append (pos : Nat) {l : Literal} (hl : l.WellFormed) (hr : EndsNumber rest)
    (hfin : l.value.isFinite = true) :
    readNumber (Cursor.at pos (l.text ++ rest)) =
      .ok (.number l.value, Cursor.at (pos + l.text.length) rest) := by
  rw [readNumber_of_skip hl (skipNumber_append hl hr), if_pos hfin]

end ScriptServer.Json
