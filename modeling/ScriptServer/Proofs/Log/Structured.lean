import ScriptServer.Log.Access
import ScriptServer.Proofs.Json.Printed
import ScriptServer.Proofs.Number.Integral

/-!
# Structured records are read back

A record holds what a client sent, so its texts may hold anything. The line that is written for it
is a JSON text with the members of the record in the order of their keys. It is one line, and a
reader finds in it the texts that the record has. Its numbers are floats, so a count above `2 ^ 53`
may be another one there.
-/

namespace ScriptServer.Log.Access

open Json (Tree)
open Binary64 (Carries carries_ofInt)

/-- The numbers of a record are what the server counts with: a status of 16 bits, a size of 64 bits
and a time with whole seconds of 64 bits. -/
structure Fits (r : Access) : Prop where
  status : r.status < 2 ^ 16
  micros : r.micros < 2 ^ 64 * 10 ^ 6
  responseBytes : r.responseBytes < 2 ^ 64

def members (r : Access) (duration bytes status : Binary64) : List (String × Tree) :=
  [("duration_ms", .number duration), ("event", .string "http.request"),
    ("method", .string r.method), ("path", .string r.path), ("request_id", .string r.requestId),
    ("response_bytes", .number bytes)] ++
  (r.route.map fun route => ("route", Tree.string route)).toList ++ [("status", .number status)]

section

variable (r : Access) (duration bytes status : Binary64)

theorem ascending_members : Dictionary.Ascending (r.members duration bytes status) := by
  have keys : (r.members duration bytes status).map Prod.fst =
      ["duration_ms", "event", "method", "path", "request_id", "response_bytes"] ++
        (if r.route.isSome then ["route"] else []) ++ ["status"] := by
    unfold members
    cases r.route <;> rfl
  rw [Dictionary.Ascending, ← List.pairwise_map (R := (· < ·)) (f := Prod.fst), keys]
  split <;> decide

theorem tree_eq : r.tree = .object (r.members (Binary64.ofInt r.millis)
    (Binary64.ofInt r.responseBytes) (Binary64.ofInt r.status)) := by
  have ascending := r.ascending_members (Binary64.ofInt r.millis)
    (Binary64.ofInt r.responseBytes) (Binary64.ofInt r.status)
  rw [tree]
  congr 1
  refine (Dictionary.ofList_eq_of_perm ?_ ascending.nodup_keys).symm.trans
    (Dictionary.ofList_of_ascending ascending)
  unfold members
  cases r.route with
  | none => exact .refl _
  | some route =>
    -- The route is put in last, but its key comes before that of the status.
    iterate 6 refine .cons _ ?_
    exact .swap _ _ []

/-- The members of a record are texts and these numbers. -/
theorem members_flat : ∀ m ∈ r.members duration bytes status,
    m.2.IsOrdered ∧ m.2.depth = 0 ∧ ∀ x ∈ m.2.numbers, x ∈ [duration, bytes, status] := by
  unfold members
  cases r.route <;> simp [Tree.IsOrdered, Tree.depth, Tree.numbers]

end

section

variable {r : Access} (fits : r.Fits)
include fits

theorem carries_millis : Carries (Binary64.ofInt r.millis) r.millis := by
  have small : r.millis ≤ 2 ^ 74 :=
    Nat.div_le_of_le_mul (Nat.le_trans fits.micros.le (by decide))
  exact carries_ofInt small (by decide)

theorem carries_responseBytes : Carries (Binary64.ofInt r.responseBytes) r.responseBytes :=
  carries_ofInt fits.responseBytes.le (by decide)

theorem carries_status : Carries (Binary64.ofInt r.status) r.status :=
  carries_ofInt fits.status.le (by decide)

end

variable {r : Access}

/-- What is read back has the numbers of the record, each rounded to a float. -/
theorem decode_rounded (fits : r.Fits) : Json.encode r.tree = .ok r.structured ∧
    Json.decode r.structured = .ok (.object (r.members (Binary64.ofInt r.millis)
      (Binary64.ofInt r.responseBytes) (Binary64.ofInt r.status))) := by
  have flat := r.members_flat (Binary64.ofInt r.millis) (Binary64.ofInt r.responseBytes)
    (Binary64.ofInt r.status)
  have ordered : r.tree.IsOrdered := by
    rw [tree_eq]
    exact ⟨r.ascending_members _ _ _, Tree.isOrderedMembers_iff.mpr fun m mem => (flat m mem).1⟩
  have finite : ∀ x ∈ r.tree.numbers, x.isFinite = true := by
    intro x mem
    rw [tree_eq, Tree.numbers, Tree.mem_numbersMembers] at mem
    obtain ⟨m, mem, number⟩ := mem
    have number := (flat m mem).2.2 x number
    simp only [List.mem_cons, List.not_mem_nil, or_false] at number
    rcases number with rfl | rfl | rfl
    · exact (carries_millis fits).finite
    · exact (carries_responseBytes fits).finite
    · exact (carries_status fits).finite
  have shallow : r.tree.depth ≤ Json.maxDepth := by
    rw [tree_eq, Tree.depth, Tree.depthMembers_le]
    intro m mem
    rw [(flat m mem).2.1]
    decide
  obtain ⟨text, written⟩ := (Json.encode_ok_iff r.tree).mpr finite
  have line : r.structured = text := by rw [structured, written]
  rw [line, ← tree_eq]
  exact ⟨written, (Json.decode_encode ordered written).1 shallow⟩

/-- **Structured records.** Whatever texts a record holds, it has a line, without control characters
and so without line breaks, and the line is read back as the record: the members are the ones that
there are, the texts are the same, and the numbers stand for those of the record. -/
theorem decode_structured (fits : r.Fits) :
    Json.encode r.tree = .ok r.structured ∧ (∀ c ∈ r.structured.toList, 0x20 ≤ c.toNat) ∧
      ∃ duration bytes status : Binary64,
        Carries duration r.millis ∧ Carries bytes r.responseBytes ∧ Carries status r.status ∧
        status.value = r.status ∧
        Json.decode r.structured = .ok (.object (r.members duration bytes status)) := by
  obtain ⟨written, read⟩ := decode_rounded fits
  have status := carries_status fits
  refine ⟨written, Json.printed_encode written, _, _, _, carries_millis fits,
    carries_responseBytes fits, status, status.exact ?_, read⟩
  exact Nat.le_trans fits.status.le (by decide)

/-- A record of a client that tries to write lines of its own. -/
def forged : Access where
  requestId := "req-1"
  method := "GET"
  path := "/a\r\n\x7b\"event\":\"none\"\x7d\\"
  route := some "GET /\x7brest\x7d"
  status := 404
  micros := 3999
  responseBytes := 11

theorem decode_structured_forged : (∀ c ∈ forged.structured.toList, 0x20 ≤ c.toNat) ∧
    ∃ duration bytes status : Binary64,
      duration.value = 3 ∧ bytes.value = 11 ∧ status.value = 404 ∧
      Json.decode forged.structured = .ok (.object (forged.members duration bytes status)) := by
  have fits : forged.Fits := ⟨by decide, by decide, by decide⟩
  obtain ⟨-, printed, duration, bytes, status, time, size, -, code, read⟩ := decode_structured fits
  exact ⟨printed, duration, bytes, status, time.exact (by decide), size.exact (by decide), code,
    read⟩

/-- A record of a response that is too large for a float of its own. -/
def large : Access where
  requestId := "req-1"
  method := "GET"
  path := "/a"
  route := none
  status := 200
  micros := 3999
  responseBytes := 2 ^ 53 + 1

/-- The size of a large response is read back as another one. -/
theorem decode_structured_large : ∃ duration bytes status : Binary64,
    Json.decode large.structured = .ok (.object (large.members duration bytes status)) ∧
      bytes.value = (2 ^ 53 : ℕ) ∧ bytes.value ≠ large.responseBytes := by
  have fits : large.Fits := ⟨by decide, by decide, by decide⟩
  have rounded : Binary64.ofInt large.responseBytes = Binary64.ofInt (2 ^ 53 : ℕ) := by
    decide +kernel
  have value : (Binary64.ofInt (2 ^ 53 : ℕ)).value = (2 ^ 53 : ℕ) :=
    (carries_ofInt (Nat.le_refl _) (by decide)).exact (Nat.le_refl _)
  obtain ⟨-, read⟩ := decode_rounded fits
  rw [rounded] at read
  refine ⟨_, _, _, read, value, ?_⟩
  rw [value]
  exact_mod_cast Nat.ne_of_lt (Nat.lt_succ_self (2 ^ 53))

end ScriptServer.Log.Access
