import ScriptServer.Proofs.Text.Utf8

/-!
# ASCII in the bytes of a text

A byte below `0x80` stands for its own character and for nothing else. So what is done to the ASCII
characters of a text is done to its bytes, and bytes are read as text piece by piece if the pieces
begin with ASCII.
-/

namespace ScriptServer.Utf8

variable {n : Nat} {c : Char} {cs : List Char}

theorem toNat_ofNat_ascii (ascii : n < 0x80) : (Char.ofNat n).toNat = n :=
  toNat_ofNat_valid (.inl (by omega))

theorem ofNat_mem_encode (ascii : n < 0x80) :
    UInt8.ofNat n ∈ String.utf8EncodeChar c ↔ c = Char.ofNat n := by
  by_cases short : c.toNat < 0x80
  · rw [encode_one short, List.mem_singleton]
    constructor
    · intro eq
      have := congrArg UInt8.toNat eq
      rw [toNat_ofNat_of_lt (by omega), toNat_ofNat_of_lt (by omega)] at this
      rw [this, Char.ofNat_toNat]
    · rintro rfl
      rw [toNat_ofNat_ascii ascii]
  · constructor
    · intro mem
      have := mem_encode_ge (Nat.not_lt.mp short) mem
      rw [toNat_ofNat_of_lt (by omega)] at this
      omega
    · rintro rfl
      rw [toNat_ofNat_ascii ascii] at short
      omega

theorem ofNat_mem_ofChars (ascii : n < 0x80) : UInt8.ofNat n ∈ ofChars cs ↔ Char.ofNat n ∈ cs := by
  simp only [ofChars, List.mem_flatMap, ofNat_mem_encode ascii, exists_eq_right]

theorem ofText_injective {s t : String} (h : ofText s = ofText t) : s = t := by
  have := congrArg toTextLossy h
  simpa [ofText, toTextLossy_ofChars] using this

/-- What a function does to characters is done to their bytes, if it is about ASCII. -/
theorem ofChars_map {f : Char → Char} {g : UInt8 → UInt8}
    (ascii : ∀ n < 0x80, (f (.ofNat n)).toNat < 0x80 ∧ g (.ofNat n) = .ofNat (f (.ofNat n)).toNat)
    (beyond : ∀ c, 0x80 ≤ c.toNat → f c = c) (high : ∀ b, 0x80 ≤ b.toNat → g b = b)
    (cs : List Char) : ofChars (cs.map f) = (ofChars cs).map g := by
  induction cs with
  | nil => rfl
  | cons c cs ih =>
    rw [List.map_cons, ofChars_cons, ofChars_cons, List.map_append, ih]
    congr 1
    by_cases short : c.toNat < 0x80
    · have h := ascii c.toNat short
      rw [Char.ofNat_toNat] at h
      rw [encode_one short, encode_one h.1, List.map_singleton, h.2]
    · rw [beyond c (Nat.not_lt.mp short)]
      have same : (String.utf8EncodeChar c).map g = (String.utf8EncodeChar c).map id :=
        List.map_congr_left fun b hb => high b (mem_encode_ge (Nat.not_lt.mp short) hb)
      rw [same, List.map_id]

/-- An ASCII byte is a character of its own, so the bytes around it are those of the characters
around it. -/
theorem exists_split_of_ofChars (ascii : n < 0x80) {front rest : Bytes}
    (h : ofChars cs = front ++ UInt8.ofNat n :: rest) :
    ∃ before behind, cs = before ++ Char.ofNat n :: behind ∧ front = ofChars before ∧
      rest = ofChars behind := by
  induction cs generalizing front with
  | nil => exact absurd h.symm (List.append_ne_nil_of_right_ne_nil _ (List.cons_ne_nil _ _))
  | cons c cs ih =>
    rw [ofChars_cons] at h
    rcases List.append_eq_append_iff.mp h with ⟨more, rfl, later⟩ | ⟨more, eq, later⟩
    · obtain ⟨before, behind, rfl, rfl, rfl⟩ := ih later
      exact ⟨c :: before, behind, rfl, rfl, rfl⟩
    · cases more with
      | nil =>
        have later' : ofChars cs = [] ++ UInt8.ofNat n :: rest := later.symm
        obtain ⟨before, behind, rfl, none, rfl⟩ := ih later'
        rw [List.append_nil] at eq
        refine ⟨c :: before, behind, rfl, ?_, rfl⟩
        rw [ofChars_cons, ← none, eq, List.append_nil]
      | cons b more =>
        obtain ⟨rfl, rfl⟩ := List.cons.inj later
        have mem : UInt8.ofNat n ∈ String.utf8EncodeChar c := by
          rw [eq]
          exact List.mem_append_right _ List.mem_cons_self
        obtain rfl := (ofNat_mem_encode ascii).mp mem
        rw [encode_one (by rwa [toNat_ofNat_ascii ascii]), toNat_ofNat_ascii ascii] at eq
        have lengths := congrArg List.length eq
        simp only [List.length_append, List.length_cons, List.length_nil] at lengths
        obtain rfl := List.length_eq_zero_iff.mp (show front.length = 0 by omega)
        obtain rfl := List.length_eq_zero_iff.mp (show more.length = 0 by omega)
        exact ⟨[], cs, rfl, rfl, rfl⟩

/-! ## An ASCII byte after other bytes -/

section

variable {b : UInt8} {bs rest more : Bytes} {f : Front}

theorem fronts_nil : fronts [] = [] := by
  rw [fronts]
  rfl

theorem fronts_of_next (h : next bs = some (f, rest)) : fronts bs = f :: fronts rest := by
  rw [fronts]
  split
  · next none =>
    rw [h] at none
    cases none
  · next front =>
    rw [h] at front
    cases front
    rfl

theorem lead_low_ge {lead : Lead} (h : Lead.of? b = some lead) : 0x80 ≤ lead.low.toNat := by
  rcases lead_cases h with ⟨n, -, -, rfl⟩ | ⟨n, low, high, -, -, rfl, least, -⟩ |
    ⟨n, low, high, -, -, rfl, least, -⟩
  · show 0x80 ≤ (0x80 : UInt8).toNat
    decide
  · show 0x80 ≤ low.toNat
    split at least <;> omega
  · show 0x80 ≤ low.toNat
    split at least <;> omega

variable (ascii : b.toNat < 0x80)
include ascii

/-- An ASCII byte does not belong to the character before it, which is read as if nothing
followed. -/
theorem tail_append_ascii (more : Bytes) {k bits used : Nat} {low high : UInt8}
    (above : 0x80 ≤ low.toNat) (h : tail k low high bits used bs = (f, rest)) :
    ∃ f', tail k low high bits used (bs ++ b :: more) = (f', rest ++ b :: more) ∧
      f'.lossy = f.lossy := by
  induction k generalizing low high bits used bs with
  | zero =>
    cases h
    exact ⟨_, rfl, rfl⟩
  | succ k ih =>
    cases bs with
    | nil =>
      cases h
      have outside : ¬ (low ≤ b ∧ b ≤ high) := fun inside => by
        have := UInt8.le_iff_toNat_le.mp inside.1
        omega
      refine ⟨.invalid used, ?_, rfl⟩
      rw [List.nil_append, tail, if_neg outside]
    | cons c bs =>
      rw [tail] at h
      rw [List.cons_append, tail]
      split at h
      · next inside =>
        rw [if_pos inside]
        exact ih (by decide) h
      · next outside =>
        cases h
        rw [if_neg outside]
        exact ⟨_, rfl, rfl⟩

theorem next_append_ascii (more : Bytes) (h : next bs = some (f, rest)) :
    ∃ f', next (bs ++ b :: more) = some (f', rest ++ b :: more) ∧ f'.lossy = f.lossy := by
  cases bs with
  | nil => cases h
  | cons c bs =>
    rw [next] at h
    rw [List.cons_append, next]
    split at h
    · next short =>
      cases h
      rw [if_pos short]
      exact ⟨_, rfl, rfl⟩
    next long =>
    rw [if_neg long]
    split at h
    · cases h
      exact ⟨_, rfl, rfl⟩
    · next lead announced =>
      obtain ⟨f', read, same⟩ :=
        tail_append_ascii ascii more (lead_low_ge announced) (Option.some.inj h)
      exact ⟨f', congrArg some read, same⟩

/-- Text is read piece by piece where the next piece begins with an ASCII byte. -/
theorem toTextLossy_append (bs more : Bytes) :
    toTextLossy (bs ++ b :: more) = toTextLossy bs ++ toTextLossy (b :: more) := by
  have pieces : (fronts (bs ++ b :: more)).map Front.lossy =
      (fronts bs).map Front.lossy ++ (fronts (b :: more)).map Front.lossy := by
    induction bs using fronts.induct with
    | case1 bs none =>
      obtain rfl := eq_nil_of_next none
      rw [fronts_nil]
      rfl
    | case2 bs f rest front ih =>
      obtain ⟨f', front', same⟩ := next_append_ascii ascii more front
      rw [fronts_of_next front, fronts_of_next front', List.map_cons, List.map_cons, ih, same,
        List.cons_append]
  rw [toTextLossy, pieces, String.ofList_append]
  rfl

theorem toTextLossy_cons (bs : Bytes) :
    toTextLossy (b :: bs) = String.singleton (.ofNat b.toNat) ++ toTextLossy bs := by
  have front : next (b :: bs) = some (.char (.ofNat b.toNat), bs) := by
    rw [next, if_pos (UInt8.lt_iff_toNat_lt.mpr ascii)]
  rw [toTextLossy, fronts_of_next front, List.map_cons, String.ofList_cons]
  rfl

end

/-! ## ASCII in what is read -/

theorem tail_suffix (k : Nat) (low high : UInt8) (bits used : Nat) (bs : Bytes) :
    (tail k low high bits used bs).2 <:+ bs := by
  induction k generalizing low high bits used bs with
  | zero => exact List.suffix_rfl
  | succ k ih =>
    cases bs with
    | nil => exact List.suffix_rfl
    | cons b bs =>
      rw [tail]
      split
      · exact (ih ..).trans (List.suffix_cons b bs)
      · exact List.suffix_rfl

theorem next_suffix {bs rest : Bytes} {f : Front} (h : next bs = some (f, rest)) : rest <:+ bs := by
  cases bs with
  | nil => cases h
  | cons b bs =>
    rw [next] at h
    split at h
    · cases h
      exact List.suffix_cons b _
    · split at h
      · cases h
        exact List.suffix_cons b _
      · next lead _ =>
        have later := tail_suffix lead.follow lead.low lead.high lead.bits 1 bs
        rw [Option.some.inj h] at later
        exact later.trans (List.suffix_cons b bs)

/-- Reading takes each ASCII byte for its character and makes no other ASCII characters. -/
theorem ofNat_mem_toTextLossy (ascii : n < 0x80) {bs : Bytes} :
    Char.ofNat n ∈ (toTextLossy bs).toList ↔ UInt8.ofNat n ∈ bs := by
  have value : (UInt8.ofNat n).toNat = n := toNat_ofNat_of_lt (by omega)
  constructor
  · rw [toTextLossy, String.toList_ofList]
    induction bs using fronts.induct with
    | case1 bs none =>
      rw [eq_nil_of_next none, fronts_nil]
      exact fun mem => absurd mem List.not_mem_nil
    | case2 bs f rest front ih =>
      rw [fronts_of_next front, List.map_cons, List.mem_cons]
      rintro (eq | later)
      · have unreadable : Char.ofNat n ≠ '\uFFFD' := by
          intro eq
          have := congrArg Char.toNat eq
          rw [toNat_ofNat_ascii ascii] at this
          exact absurd (this ▸ ascii) (by decide)
        cases f with
        | char c =>
          rw [eq_append_of_next front]
          exact List.mem_append_left _ ((ofNat_mem_encode ascii).mpr eq.symm)
        | invalid length => exact absurd eq unreadable
        | incomplete => exact absurd eq unreadable
      · exact (next_suffix front).subset (ih later)
  · intro mem
    obtain ⟨before, behind, rfl⟩ := List.append_of_mem mem
    have low : (UInt8.ofNat n).toNat < 0x80 := value.symm ▸ ascii
    rw [toTextLossy_append low, toTextLossy_cons low, String.toList_append, String.toList_append,
      value]
    simp

end ScriptServer.Utf8
