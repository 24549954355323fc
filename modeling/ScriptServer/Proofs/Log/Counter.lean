import Mathlib.Data.List.Nodup
import Mathlib.Logic.Relation
import ScriptServer.Proofs.Log.RequestId

/-!
# Identifiers of requests that overlap

Any number of calls look for an identifier at once. They share the counter and nothing else, and a
call that needs a number takes it and raises the counter in one step. So the numbers that were taken
follow each other from the first one on (`Numbered`), and no two generated identifiers are the same
before the counter has come round (`drawn_exact`). Calls one after the other are one of these runs
(`steps_resolve`).
-/

namespace ScriptServer.Log.RequestId

/-- How far a call has come. -/
inductive Progress where
  | begun
  /-- Has taken a number. -/
  | numbered (n : UInt64)
  /-- Has given an identifier, and the number if it took one for it. -/
  | answered (number : Option UInt64) (id : String)

/-- A call for the identifier of a request with these headers. -/
structure Call where
  headers : Dictionary String
  progress : Progress

namespace Call

def number? (c : Call) : Option UInt64 :=
  match c.progress with
  | .begun => none
  | .numbered n => some n
  | .answered number _ => number

def generated? (c : Call) : Option String :=
  match c.progress with
  | .answered (some _) id => some id
  | _ => none

/-- What a call has come to is what its headers lead to. -/
def Sound (c : Call) : Prop :=
  match c.progress with
  | .begun => True
  | .numbered _ => sent? c.headers = none
  | .answered number id => Chosen c.headers number id

end Call

/-- The counter and the calls that have begun, those that are over included. -/
structure Drawing where
  next : UInt64
  calls : List Call

namespace Drawing

def start (first : UInt64) : Drawing := ⟨first, []⟩

inductive Step : Drawing → Drawing → Prop where
  | begin {next : UInt64} {calls : List Call} (headers : Dictionary String) :
    Step ⟨next, calls⟩ ⟨next, calls ++ [⟨headers, .begun⟩]⟩
  | reuse {next : UInt64} {front back : List Call} {headers : Dictionary String} {id : String}
    (sent : sent? headers = some id) :
    Step ⟨next, front ++ ⟨headers, .begun⟩ :: back⟩
      ⟨next, front ++ ⟨headers, .answered none id⟩ :: back⟩
  | take {next : UInt64} {front back : List Call} {headers : Dictionary String}
    (unsent : sent? headers = none) :
    Step ⟨next, front ++ ⟨headers, .begun⟩ :: back⟩
      ⟨next + 1, front ++ ⟨headers, .numbered next⟩ :: back⟩
  | write {next n : UInt64} {front back : List Call} {headers : Dictionary String} :
    Step ⟨next, front ++ ⟨headers, .numbered n⟩ :: back⟩
      ⟨next, front ++ ⟨headers, .answered (some n) (generated n)⟩ :: back⟩

abbrev Steps : Drawing → Drawing → Prop := Relation.ReflTransGen Step

/-- A call on its own does what `resolve` does. -/
theorem steps_resolve (next : UInt64) (calls : List Call) (headers : Dictionary String) :
    ∃ number, Steps ⟨next, calls⟩ ⟨(resolve headers next).2,
      calls ++ [⟨headers, .answered number (resolve headers next).1⟩]⟩ := by
  unfold resolve
  cases sent : sent? headers with
  | some id => exact ⟨none, (Relation.ReflTransGen.single (.begin headers)).tail (.reuse sent)⟩
  | none =>
    exact ⟨some next, ((Relation.ReflTransGen.single (.begin headers)).tail (.take sent)).tail
      .write⟩

/-! ## The numbers that were taken -/

variable {next first : UInt64} {headers : Dictionary String} {front back : List Call}
  {t t' : Drawing}

def taken (t : Drawing) : List UInt64 := t.calls.filterMap Call.number?

/-- The numbers that follow each other from the first one on. -/
def numbersFrom (first : UInt64) (count : Nat) : List UInt64 :=
  (List.range count).map fun k => first + .ofNat k

/-- The calls took the numbers up to the counter, each of them once. -/
structure Numbered (first : UInt64) (t : Drawing) : Prop where
  counter : t.next = first + .ofNat t.taken.length
  numbers : t.taken.Perm (numbersFrom first t.taken.length)
  sound : ∀ c ∈ t.calls, c.Sound

theorem numbersFrom_succ (first : UInt64) (count : Nat) :
    numbersFrom first (count + 1) = numbersFrom first count ++ [first + .ofNat count] := by
  rw [numbersFrom, List.range_succ, List.map_append]
  rfl

theorem nodup_numbersFrom {count : Nat} (small : count ≤ 2 ^ 64) :
    (numbersFrom first count).Nodup := by
  refine List.Nodup.map_on (fun i hi j hj eq => ?_) List.nodup_range
  have same := congrArg UInt64.toNat (UInt64.add_right_inj first |>.mp eq)
  rw [List.mem_range] at hi hj
  rwa [UInt64.toNat_ofNat_of_lt' (Nat.lt_of_lt_of_le hi small),
    UInt64.toNat_ofNat_of_lt' (Nat.lt_of_lt_of_le hj small)] at same

theorem numbered_start (first : UInt64) : Numbered first (start first) :=
  ⟨(UInt64.add_zero first).symm, .refl _, nofun⟩

theorem taken_append (next : UInt64) (calls more : List Call) :
    taken ⟨next, calls ++ more⟩ = taken ⟨next, calls⟩ ++ taken ⟨next, more⟩ :=
  List.filterMap_append

/-- A call that goes on without taking a number leaves the numbers as they are. -/
theorem Numbered.replace {c c' : Call} (h : Numbered first ⟨next, front ++ c :: back⟩)
    (same : c'.number? = c.number?) (sound : c.Sound → c'.Sound) :
    Numbered first ⟨next, front ++ c' :: back⟩ := by
  have kept : taken ⟨next, front ++ c' :: back⟩ = taken ⟨next, front ++ c :: back⟩ := by
    simp only [taken, List.filterMap_append, List.filterMap_cons, same]
  have calls := h.sound
  rw [List.forall_mem_append, List.forall_mem_cons] at calls
  refine ⟨kept ▸ h.counter, kept ▸ h.numbers, ?_⟩
  exact List.forall_mem_append.mpr
    ⟨calls.1, List.forall_mem_cons.mpr ⟨sound calls.2.1, calls.2.2⟩⟩

/-- The number that is taken is the next one. -/
theorem Numbered.take (h : Numbered first ⟨next, front ++ ⟨headers, .begun⟩ :: back⟩)
    (unsent : sent? headers = none) :
    Numbered first ⟨next + 1, front ++ ⟨headers, .numbered next⟩ :: back⟩ := by
  have before : taken ⟨next, front ++ ⟨headers, .begun⟩ :: back⟩ =
      front.filterMap Call.number? ++ back.filterMap Call.number? := List.filterMap_append
  have after : taken ⟨next + 1, front ++ ⟨headers, .numbered next⟩ :: back⟩ =
      front.filterMap Call.number? ++ next :: back.filterMap Call.number? := List.filterMap_append
  obtain ⟨counter, numbers, calls⟩ := h
  rw [before] at counter numbers
  -- The number stands where its call is, and it is the last one of those that were taken.
  have moved : (front.filterMap Call.number? ++ next :: back.filterMap Call.number?).Perm
      (next :: (front.filterMap Call.number? ++ back.filterMap Call.number?)) := List.perm_middle
  have length := moved.length_eq
  rw [List.length_cons] at length
  refine ⟨?_, ?_, ?_⟩
  · rw [after, length, UInt64.ofNat_add, ← UInt64.add_assoc, ← counter]
    rfl
  · rw [after, length, numbersFrom_succ, ← counter]
    exact moved.trans ((List.perm_append_singleton next _).symm.trans (numbers.append_right _))
  · rw [List.forall_mem_append, List.forall_mem_cons] at calls
    exact List.forall_mem_append.mpr ⟨calls.1, List.forall_mem_cons.mpr ⟨unsent, calls.2.2⟩⟩

/-- One step of one call keeps it. -/
theorem numbered_step (h : Numbered first t) (step : Step t t') : Numbered first t' := by
  cases step with
  | @begin next calls headers =>
    have same : taken ⟨next, calls ++ [⟨headers, .begun⟩]⟩ = taken ⟨next, calls⟩ :=
      (taken_append ..).trans (List.append_nil _)
    refine ⟨same ▸ h.counter, same ▸ h.numbers, ?_⟩
    exact List.forall_mem_append.mpr ⟨h.sound, List.forall_mem_singleton.mpr trivial⟩
  | reuse sent => exact h.replace rfl fun _ => sent?_eq_some.mp sent
  | take unsent => exact h.take unsent
  | write => exact h.replace rfl fun unsent => chosen_number_iff.mpr ⟨unsent, rfl⟩

theorem numbered_run (run : Steps (start first) t) : Numbered first t := by
  induction run with
  | refl => exact numbered_start first
  | tail _ step ih => exact numbered_step ih step

/-! ## The identifiers that were given -/

/-- Each generated identifier has the number that was taken for it. -/
theorem sublist_generated {calls : List Call} (sound : ∀ c ∈ calls, c.Sound) :
    (calls.filterMap Call.generated?).Sublist ((calls.filterMap Call.number?).map generated) := by
  induction calls with
  | nil => exact .refl _
  | cons c calls ih =>
    obtain ⟨own, others⟩ := List.forall_mem_cons.mp sound
    obtain ⟨headers, progress⟩ := c
    match progress with
    | .begun => exact ih others
    | .numbered n => exact (ih others).cons _
    | .answered none id => exact ih others
    | .answered (some n) id =>
      obtain rfl := (chosen_number_iff.mp own).2
      exact (ih others).cons_cons _

/-- **Identifiers.** A request gets the safe identifier that its client sent, under the first name
rather than under the second, and a generated one if there is none; and what it gets is safe. The
same holds of calls that overlap in any way, of which calls one after the other are a case, and
among fewer than `2 ^ 64` of them no two generated identifiers are the same. -/
theorem drawn_exact :
    (∀ headers next, IsSafe (resolve headers next).1 ∧
      (Chosen headers none (resolve headers next).1 ∧ (resolve headers next).2 = next ∨
        Chosen headers (some next) (resolve headers next).1 ∧
          (resolve headers next).2 = next + 1)) ∧
      (∀ next calls headers, ∃ number, Steps ⟨next, calls⟩ ⟨(resolve headers next).2,
        calls ++ [⟨headers, .answered number (resolve headers next).1⟩]⟩) ∧
      ∀ first t, Steps (start first) t → t.calls.length < 2 ^ 64 →
        (∀ c ∈ t.calls, ∀ number id, c.progress = .answered number id →
          Chosen c.headers number id ∧ IsSafe id) ∧
        (t.calls.filterMap Call.generated?).Nodup := by
  refine ⟨fun headers next => ⟨?_, resolve_chosen headers next⟩, steps_resolve,
    fun first t run few => ⟨?_, ?_⟩⟩
  · rcases resolve_chosen headers next with ⟨chosen, -⟩ | ⟨chosen, -⟩ <;> exact chosen.isSafe
  · intro c mem number id answered
    have sound := (numbered_run run).sound c mem
    rw [Call.Sound, answered] at sound
    exact ⟨sound, sound.isSafe⟩
  · obtain ⟨-, numbers, sound⟩ := numbered_run run
    have count : t.taken.length ≤ t.calls.length := List.length_filterMap_le ..
    have distinct : t.taken.Nodup :=
      numbers.nodup_iff.mpr (nodup_numbersFrom (Nat.le_trans count few.le))
    exact (distinct.map generated_injective).sublist (sublist_generated sound)

/-- Two calls of which the later one takes its number first, and between them one whose client sent
an identifier. -/
theorem drawn_exact_overlapping :
    let sent : Dictionary String := [("x-correlation-id", " a:1 "), ("x-request-id", "b c")]
    let t : Drawing := ⟨3, [⟨[], .answered (some 2) (generated 2)⟩, ⟨sent, .answered none "a:1"⟩,
      ⟨[], .answered (some 1) (generated 1)⟩]⟩
    Steps (start 1) t ∧ t.calls.length < 2 ^ 64 ∧ Chosen sent none "a:1" ∧ IsSafe "a:1" ∧
      [generated 2, generated 1].Nodup := by
  intro sent t
  have unsent : sent? [] = none := by decide
  have known : sent? sent = some "a:1" := by decide +kernel
  have run : Steps (start 1) t :=
    ((((((((Relation.ReflTransGen.single (.begin [])).tail (.begin sent)).tail (.begin [])).tail
      (@Step.take 1 [⟨[], .begun⟩, ⟨sent, .begun⟩] [] [] unsent)).tail
      (@Step.take 2 [] [⟨sent, .begun⟩, ⟨[], .numbered 1⟩] [] unsent)).tail
      (@Step.write 3 2 [] [⟨sent, .begun⟩, ⟨[], .numbered 1⟩] [])).tail
      (@Step.write 3 1 [⟨[], .answered (some 2) (generated 2)⟩, ⟨sent, .begun⟩] [] [])).tail
      (@Step.reuse 3 [⟨[], .answered (some 2) (generated 2)⟩]
        [⟨[], .answered (some 1) (generated 1)⟩] sent "a:1" known))
  have few : t.calls.length < 2 ^ 64 := by decide
  obtain ⟨answers, distinct⟩ := drawn_exact.2.2 1 t run few
  obtain ⟨chosen, safe⟩ := answers ⟨sent, .answered none "a:1"⟩
    (List.mem_cons_of_mem _ List.mem_cons_self) none "a:1" rfl
  exact ⟨run, few, chosen, safe, distinct⟩

end Drawing

end ScriptServer.Log.RequestId
