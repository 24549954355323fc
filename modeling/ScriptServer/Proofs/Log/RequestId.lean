import Mathlib.Data.String.Basic
import ScriptServer.Log.RequestId
import ScriptServer.Proofs.Text.Digits

/-!
# What identifiers of requests look like

A client may send anything as the identifier of its request. What the server goes on with has
harmless characters only, whoever chose it, so it can stand in a header and in a log as it is.
`Chosen` says which identifier a request gets.
-/

namespace ScriptServer.Log.RequestId

variable {headers : Dictionary String} {raw id : String}

/-- The characters of an identifier are visible ones of ASCII. -/
theorem visible_of_isIdentifying {c : Char} (h : isIdentifying c = true) :
    0x20 < c.toNat ∧ c.toNat < 0x7F := by
  simp only [isIdentifying, Text.isAlphanumeric, Text.isDigit, Text.isLower, Text.isUpper,
    Bool.or_eq_true, Bool.and_eq_true, decide_eq_true_eq, beq_iff_eq, ← Char.toNat_inj,
    Char.le_def, UInt32.le_iff_toNat_le, Char.toNat_val, Char.reduceToNat] at h
  omega

theorem accept?_eq_some : accept? raw = some id ↔
    id = Text.trim raw ∧ id ≠ "" ∧ id.utf8ByteSize ≤ maxLength ∧
      ∀ c ∈ id.toList, isIdentifying c = true := by
  have empty (s : String) : s.isEmpty = true ↔ s = "" := String.isEmpty_iff
  simp only [accept?, Bool.or_eq_true, empty, decide_eq_true_eq, List.all_eq_true]
  split
  · next refused =>
    refine iff_of_false nofun ?_
    rintro ⟨rfl, some, short, -⟩
    exact refused.elim some (Nat.not_lt.mpr short)
  · next sized =>
    rw [not_or, Nat.not_lt] at sized
    split
    · next all =>
      rw [Option.some.injEq]
      refine ⟨?_, fun h => h.1.symm⟩
      rintro rfl
      exact ⟨rfl, sized.1, sized.2, all⟩
    · next other =>
      refine iff_of_false nofun ?_
      rintro ⟨rfl, -, -, all⟩
      exact other all

theorem isIdentifying_of_sent? (h : sent? headers = some id) {c : Char} (mem : c ∈ id.toList) :
    isIdentifying c = true := by
  have under (name : String)
      (found : (Dictionary.get? headers name).bind accept? = some id) :
      isIdentifying c = true := by
    obtain ⟨raw, -, accepted⟩ := Option.bind_eq_some_iff.mp found
    exact (accept?_eq_some.mp accepted).2.2.2 c mem
  rcases Option.or_eq_some_iff.mp h with first | ⟨-, second⟩
  · exact under _ first
  · exact under _ second

theorem isIdentifying_of_generated {n : UInt64} {c : Char} (mem : c ∈ (generated n).toList) :
    isIdentifying c = true := by
  have digit : ∀ d < 16, isIdentifying d.digitChar = true := by decide +kernel
  have front : ∀ c ∈ "req-".toList, isIdentifying c = true :=
    List.all_eq_true.mp (by decide)
  rw [generated, String.toList_append, List.mem_append] at mem
  rcases mem with mem | mem
  · exact front c mem
  · rw [String.toList_ofList] at mem
    obtain ⟨d, small, rfl⟩ := Text.digitChar_of_mem_hexadecimal mem
    exact digit d small

/-- Every request is known by harmless characters. -/
theorem isIdentifying_of_resolve {next : UInt64} {c : Char}
    (mem : c ∈ (resolve headers next).1.toList) : isIdentifying c = true := by
  cases found : sent? headers with
  | some id =>
    rw [resolve, found] at mem
    exact isIdentifying_of_sent? found mem
  | none =>
    rw [resolve, found] at mem
    exact isIdentifying_of_generated mem

/-! ## Safe identifiers -/

/-- One to 128 bytes, all of them letters and digits of ASCII and a few signs. -/
structure IsSafe (id : String) : Prop where
  some : 1 ≤ id.utf8ByteSize
  short : id.utf8ByteSize ≤ 128
  chars : ∀ c ∈ id.toList, c.isAlphanum = true ∨ c ∈ ['-', '_', '.', ':', '/', '@']

theorem isIdentifying_iff {c : Char} : isIdentifying c = true ↔
    c.isAlphanum = true ∨ c ∈ ['-', '_', '.', ':', '/', '@'] := by
  have codes : c.isAlphanum = ((decide (65 ≤ c.val ∧ c.val ≤ 90) ||
      (97 ≤ c.val && c.val ≤ 122)) || (48 ≤ c.val && c.val ≤ 57)) := rfl
  simp only [isIdentifying, Text.isAlphanumeric, Text.isDigit, Text.isLower, Text.isUpper, codes,
    Bool.or_eq_true, Bool.and_eq_true, decide_eq_true_eq, beq_iff_eq, List.mem_cons,
    List.not_mem_nil, or_false, ← Char.toNat_inj, Char.le_def, UInt32.le_iff_toNat_le,
    Char.toNat_val, Char.reduceToNat, UInt32.reduceToNat]
  omega

theorem accept?_iff_isSafe : accept? raw = some id ↔ Text.trim raw = id ∧ IsSafe id := by
  have some : id ≠ "" ↔ 1 ≤ id.utf8ByteSize := by
    rw [Ne, ← String.utf8ByteSize_eq_zero_iff, Nat.one_le_iff_ne_zero]
  simp only [accept?_eq_some, isIdentifying_iff, some, maxLength]
  exact ⟨fun h => ⟨h.1.symm, h.2.1, h.2.2.1, h.2.2.2⟩,
    fun h => ⟨h.1.symm, h.2.some, h.2.short, h.2.chars⟩⟩

/-- A text of ASCII has a byte for each character. -/
theorem utf8ByteSize_of_ascii (ascii : ∀ c ∈ id.toList, c.toNat < 0x80) :
    id.utf8ByteSize = id.toList.length := by
  rw [← String.ofList_toList (s := id), String.utf8ByteSize_ofList, String.toList_ofList]
  generalize id.toList = cs at ascii
  induction cs with
  | nil => rfl
  | cons c cs ih =>
    obtain ⟨first, others⟩ := List.forall_mem_cons.mp ascii
    have one : c.utf8Size = 1 :=
      Char.utf8Size_eq_one_iff.mpr (UInt32.le_iff_toNat_le.mpr (Nat.le_of_lt_succ first))
    rw [String.utf8Len_cons, ih others, one, List.length_cons]

/-- What is generated is a mark and sixteen digits. -/
theorem isSafe_generated (n : UInt64) : IsSafe (generated n) := by
  have digits : (Text.hexadecimal 16 n.toNat).length = 16 := by
    have most := (Nat.length_toDigits_le_iff (b := 16) (k := 16) (by decide) (by decide)).mpr
      n.toNat_lt
    rw [Text.hexadecimal, List.length_append, List.length_replicate]
    omega
  have size : (generated n).utf8ByteSize = 20 := by
    rw [utf8ByteSize_of_ascii fun c mem => ?_]
    · rw [generated, String.toList_append, List.length_append,
        String.toList_ofList (l := Text.hexadecimal 16 n.toNat), digits]
      rfl
    · have visible := visible_of_isIdentifying (isIdentifying_of_generated mem)
      omega
  refine ⟨by omega, by omega, fun c mem => ?_⟩
  exact isIdentifying_iff.mp (isIdentifying_of_generated mem)

theorem generated_injective : Function.Injective generated := by
  intro m n eq
  rw [generated, generated, String.append_right_inj] at eq
  have digits := String.ofList_injective eq
  have value := congrArg (List.foldl (fun n c => n * 16 + (Text.hexValue? c).getD 0) 0) digits
  rw [Text.foldl_hexadecimal, Text.foldl_hexadecimal] at value
  exact UInt64.toNat_inj.mp value

/-! ## Whose identifier a request gets -/

/-- The client sent a safe identifier under this name, maybe with white space around it. -/
def Offers (headers : Dictionary String) (name id : String) : Prop :=
  ∃ raw, Dictionary.get? headers name = some raw ∧ Text.trim raw = id ∧ IsSafe id

/-- The identifier of a request with these headers, and the number that was taken for it if the
client sent none that is safe. -/
inductive Chosen (headers : Dictionary String) : Option UInt64 → String → Prop where
  | requested {id : String} (offer : Offers headers "x-request-id" id) : Chosen headers none id
  | correlated {id : String} (unrequested : ∀ id, ¬ Offers headers "x-request-id" id)
    (offer : Offers headers "x-correlation-id" id) : Chosen headers none id
  | generated {n : UInt64} (unrequested : ∀ id, ¬ Offers headers "x-request-id" id)
    (uncorrelated : ∀ id, ¬ Offers headers "x-correlation-id" id) :
    Chosen headers (some n) (generated n)

variable {name : String} {n : UInt64} {number : Option UInt64}

theorem offers_iff :
    Offers headers name id ↔ (Dictionary.get? headers name).bind accept? = some id := by
  simp only [Offers, Option.bind_eq_some_iff, accept?_iff_isSafe]

theorem not_offers_iff :
    (∀ id, ¬ Offers headers name id) ↔ (Dictionary.get? headers name).bind accept? = none := by
  simp only [offers_iff, Option.eq_none_iff_forall_ne_some, ne_eq]

theorem sent?_eq_some : sent? headers = some id ↔ Chosen headers none id := by
  simp only [sent?, Option.or_eq_some_iff]
  constructor
  · rintro (first | ⟨unrequested, second⟩)
    · exact .requested (offers_iff.mpr first)
    · exact .correlated (not_offers_iff.mpr unrequested) (offers_iff.mpr second)
  · rintro (offer | ⟨unrequested, offer⟩)
    · exact .inl (offers_iff.mp offer)
    · exact .inr ⟨not_offers_iff.mp unrequested, offers_iff.mp offer⟩

theorem chosen_number_iff :
    Chosen headers (some n) id ↔ sent? headers = none ∧ id = generated n := by
  simp only [sent?, Option.or_eq_none_iff, ← not_offers_iff]
  constructor
  · rintro ⟨⟩
    next unrequested uncorrelated => exact ⟨⟨unrequested, uncorrelated⟩, rfl⟩
  · rintro ⟨⟨unrequested, uncorrelated⟩, rfl⟩
    exact .generated unrequested uncorrelated

theorem Chosen.isSafe (h : Chosen headers number id) : IsSafe id := by
  cases h with
  | requested offer => exact offer.choose_spec.2.2
  | correlated _ offer => exact offer.choose_spec.2.2
  | generated => exact isSafe_generated _

/-- A number is taken only for a request whose client sent no safe identifier. -/
theorem resolve_chosen (headers : Dictionary String) (next : UInt64) :
    Chosen headers none (resolve headers next).1 ∧ (resolve headers next).2 = next ∨
      Chosen headers (some next) (resolve headers next).1 ∧
        (resolve headers next).2 = next + 1 := by
  unfold resolve
  cases sent : sent? headers with
  | some id => exact .inl ⟨sent?_eq_some.mp sent, rfl⟩
  | none => exact .inr ⟨chosen_number_iff.mpr ⟨sent, rfl⟩, rfl⟩

end ScriptServer.Log.RequestId
