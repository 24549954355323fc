import Mathlib.Data.Multiset.Filter
import Mathlib.Logic.Relation
import ScriptServer.Proofs.Server.Frame

/-!
# Threads at the slots of a pool

Any number of threads acquire and release interpreters of one pool and make new ones for it. They
meet at the slots only, which one of them at a time changes. `Step` is such a change, or what a
thread does in between: `Traffic.calls` says how far every call has come, and every interpreter
carries the number of its making, by which it is told from all others. A call that crashes or never
ends takes no more steps.

The operations of a server are the runs in which nothing else comes between: `acquire_run`,
`release_run` and `scheduleRefill_run`.
-/

namespace ScriptServer.Server

open Script (Ending)

/-- An interpreter with the number of its making. -/
structure Made (α : Type) where
  number : Nat
  it : α
  deriving DecidableEq

/-- How far a call has come. -/
inductive Call (α : Type) where
  /-- Acquires, and looks for a slot next. -/
  | asking
  /-- Acquires, and sleeps while all slots are taken. -/
  | asleep
  /-- Acquires, was woken by a slot that was given back, and looks again next. -/
  | woken
  /-- Acquires, and has taken a slot and the interpreter that was ready, if there was one. -/
  | holding (ready : Option (Made α))
  /-- Acquires, could make no interpreter, and gives its slot back next. -/
  | failed
  /-- Has acquired an interpreter, and gives its slot back when it has served. -/
  | serving (i : Made α)
  /-- Sees next whether to start a task. -/
  | scheduling
  /-- The task, which sees next whether interpreters are lacking. -/
  | counting
  /-- The task, which makes an interpreter. -/
  | making
  /-- The task, which keeps next the interpreter that it has made. -/
  | storing (i : Made α)
  /-- The task, which notes next that it is over. -/
  | ending
  deriving DecidableEq

def Call.looks {α : Type} : Call α → Bool
  | asking | woken => true
  | _ => false

/-- A pool with the calls under way. -/
structure Traffic (α : Type) where
  published : Bool
  slots : Slots (Made α)
  /-- The number of interpreters that were made. -/
  made : Nat
  calls : Multiset (Call α)
  /-- The interpreters that were acquired so far, the last one in front. -/
  acquired : List (Made α)

namespace Traffic

variable {α : Type}

def start : Traffic α := ⟨false, .empty, 0, 0, []⟩

/-- A slot that was given back wakes one sleeper, if there is one. -/
inductive Wakes : Multiset (Call α) → Multiset (Call α) → Prop where
  | one (rest : Multiset (Call α)) : Wakes (.asleep ::ₘ rest) (.woken ::ₘ rest)
  | nobody {calls : Multiset (Call α)} (awake : .asleep ∉ calls) : Wakes calls calls

/-- What one thread does at a time, with `max` slots and `prewarm` interpreters wanted ready. -/
inductive Step (max prewarm : Nat) : Traffic α → Traffic α → Prop where
  | publish (t : Traffic α) : Step max prewarm t { t with published := true }
  | acquire {t : Traffic α} (published : t.published = true) :
    Step max prewarm t { t with calls := .asking ::ₘ t.calls }
  | take {t : Traffic α} {c : Call α} {rest : Multiset (Call α)} {ready : Option (Made α)}
    {slots : Slots (Made α)} (who : t.calls = c ::ₘ rest) (looks : c.looks = true)
    (taken : t.slots.take? max = some (ready, slots)) :
    Step max prewarm t { t with slots, calls := .holding ready ::ₘ rest }
  | sleep {t : Traffic α} {c : Call α} {rest : Multiset (Call α)}
    (who : t.calls = c ::ₘ rest) (looks : c.looks = true) (full : t.slots.take? max = none) :
    Step max prewarm t { t with calls := .asleep ::ₘ rest }
  /-- Sleepers may wake for no reason. -/
  | stir {t : Traffic α} {rest : Multiset (Call α)} (who : t.calls = .asleep ::ₘ rest) :
    Step max prewarm t { t with calls := .asking ::ₘ rest }
  | lend {t : Traffic α} {rest : Multiset (Call α)} {i : Made α}
    (who : t.calls = .holding (some i) ::ₘ rest) :
    Step max prewarm t { t with calls := .serving i ::ₘ rest, acquired := i :: t.acquired }
  | build {t : Traffic α} {rest : Multiset (Call α)} (who : t.calls = .holding none ::ₘ rest)
    (i : α) :
    Step max prewarm t { t with
      made := t.made + 1, calls := .serving ⟨t.made, i⟩ ::ₘ rest,
      acquired := ⟨t.made, i⟩ :: t.acquired }
  | buildFails {t : Traffic α} {rest : Multiset (Call α)}
    (who : t.calls = .holding none ::ₘ rest) :
    Step max prewarm t { t with calls := .failed ::ₘ rest }
  | giveUp {t : Traffic α} {rest calls : Multiset (Call α)} (who : t.calls = .failed ::ₘ rest)
    (wakes : Wakes rest calls) :
    Step max prewarm t { t with slots := t.slots.release, calls }
  | release {t : Traffic α} {rest calls : Multiset (Call α)} {i : Made α}
    (who : t.calls = .serving i ::ₘ rest) (wakes : Wakes rest calls) :
    Step max prewarm t { t with slots := t.slots.release, calls := .scheduling ::ₘ calls }
  | schedule (t : Traffic α) : Step max prewarm t { t with calls := .scheduling ::ₘ t.calls }
  | leaveIt {t : Traffic α} {rest : Multiset (Call α)} (who : t.calls = .scheduling ::ₘ rest)
    (idle : t.published = false ∨ t.slots.startRefill? prewarm = none) :
    Step max prewarm t { t with calls := rest }
  | startTask {t : Traffic α} {rest : Multiset (Call α)} {slots : Slots (Made α)}
    (who : t.calls = .scheduling ::ₘ rest) (published : t.published = true)
    (started : t.slots.startRefill? prewarm = some slots) :
    Step max prewarm t { t with slots, calls := .counting ::ₘ rest }
  | lacking {t : Traffic α} {rest : Multiset (Call α)} (who : t.calls = .counting ::ₘ rest)
    (lacks : t.slots.lacks prewarm = true) :
    Step max prewarm t { t with calls := .making ::ₘ rest }
  | enough {t : Traffic α} {rest : Multiset (Call α)} (who : t.calls = .counting ::ₘ rest)
    (lacks : t.slots.lacks prewarm = false) :
    Step max prewarm t { t with calls := .ending ::ₘ rest }
  | make {t : Traffic α} {rest : Multiset (Call α)} (who : t.calls = .making ::ₘ rest) (i : α) :
    Step max prewarm t { t with made := t.made + 1, calls := .storing ⟨t.made, i⟩ ::ₘ rest }
  | makeFails {t : Traffic α} {rest : Multiset (Call α)} (who : t.calls = .making ::ₘ rest) :
    Step max prewarm t { t with calls := .ending ::ₘ rest }
  | store {t : Traffic α} {rest : Multiset (Call α)} {i : Made α}
    (who : t.calls = .storing i ::ₘ rest) :
    Step max prewarm t { t with slots := t.slots.store i, calls := .counting ::ₘ rest }
  | endTask {t : Traffic α} {rest : Multiset (Call α)} (who : t.calls = .ending ::ₘ rest) :
    Step max prewarm t { t with slots := t.slots.endRefill, calls := rest }

/-- What threads can do one after the other. -/
abbrev Steps (max prewarm : Nat) : Traffic α → Traffic α → Prop :=
  Relation.ReflTransGen (Step max prewarm)

/-- The first call after the routes are published makes its interpreter. -/
theorem first_run {max prewarm : Nat} (some : 0 < max) (i : α) :
    Steps max prewarm start ⟨true, ⟨[], 1, false⟩, 1, .serving ⟨0, i⟩ ::ₘ 0, [⟨0, i⟩]⟩ := by
  have asking : Steps max prewarm start (⟨true, .empty, 0, .asking ::ₘ 0, []⟩ : Traffic α) :=
    (Relation.ReflTransGen.single (.publish _)).tail (.acquire rfl)
  have taken : (Slots.empty : Slots (Made α)).take? max = Option.some (none, ⟨[], 1, false⟩) :=
    if_pos some
  have holding : Steps max prewarm start
      (⟨true, ⟨[], 1, false⟩, 0, .holding none ::ₘ 0, []⟩ : Traffic α) :=
    asking.tail (.take (c := .asking) rfl rfl taken)
  exact holding.tail (.build rfl i)

end Traffic

/-! ### The operations of a server -/

namespace Slots

variable {ι κ : Type} {s s' : Slots ι} {max prewarm : Nat}

theorem take?_eq_some {ready : Option ι} (h : s.take? max = some (ready, s')) :
    s.checkedOut < max ∧ ready = s.free.head? ∧
      s' = { s with free := s.free.tail, checkedOut := s.checkedOut + 1 } := by
  unfold take? at h
  split at h
  · next slot =>
    cases h
    exact ⟨slot, rfl, rfl⟩
  · cases h

theorem startRefill?_eq_some (h : s.startRefill? prewarm = some s') :
    s.refilling = false ∧ s.free.length < prewarm ∧ s' = { s with refilling := true } := by
  unfold startRefill? at h
  split at h
  · cases h
  · next idle =>
    cases h
    simp only [lacks, Bool.or_eq_true, Bool.not_eq_true', decide_eq_false_iff_not, not_or,
      Bool.not_eq_true, not_not] at idle
    exact ⟨idle.1, idle.2, rfl⟩

def map (f : ι → κ) (s : Slots ι) : Slots κ := ⟨s.free.map f, s.checkedOut, s.refilling⟩

theorem take?_map (f : ι → κ) :
    (s.map f).take? max = (s.take? max).map fun x => (x.1.map f, x.2.map f) := by
  by_cases slot : s.checkedOut < max
  · simp [take?, map, slot]
  · simp [take?, map, slot]

theorem lacks_map (f : ι → κ) : (s.map f).lacks prewarm = s.lacks prewarm := by
  simp [lacks, map]

theorem startRefill?_map (f : ι → κ) :
    (s.map f).startRefill? prewarm = (s.startRefill? prewarm).map (map f) := by
  unfold startRefill?
  rw [lacks_map]
  by_cases idle : s.refilling || !s.lacks prewarm
  · rw [if_pos idle, if_pos (show (s.map f).refilling || !s.lacks prewarm from idle)]
    rfl
  · rw [if_neg idle, if_neg (show ¬((s.map f).refilling || !s.lacks prewarm) from idle)]
    rfl

end Slots

namespace Traffic

/-- The pool of a server in the midst of traffic. -/
structure Shows (t : Traffic Interpreter) (s : Server) : Prop where
  slots : s.pool.slots = t.slots.map Made.it
  published : t.published = s.pool.table?.isSome

variable {t : Traffic Interpreter} {s : Server} (max : Nat) {prewarm : Nat}

/-- A task that makes interpreters is a run of its own steps. If it does not come to its end it
stays at making one. -/
theorem refill_run (table : Route.Table) {n : Nat} {rest : Multiset (Call Interpreter)}
    (shows : t.Shows s) (who : t.calls = .counting ::ₘ rest)
    (left : t.slots.free.length + n = prewarm) :
    ∃ t', Steps max prewarm t t' ∧ t'.Shows (refill table n s) ∧
      (t'.calls = rest ∨ t'.calls = .making ::ₘ rest) := by
  induction n generalizing t s with
  | zero =>
    have enough : t.slots.lacks prewarm = false := by
      simp only [Slots.lacks, decide_eq_false_iff_not]
      omega
    refine ⟨_, .tail (.single (.enough who enough)) (.endTask rfl), ⟨?_, shows.published⟩, .inl rfl⟩
    simp [refill, onSlots, shows.slots, Slots.map, Slots.endRefill]
  | succ n ih =>
    have lacks : t.slots.lacks prewarm = true := by
      simp only [Slots.lacks, decide_eq_true_eq]
      omega
    have making : Steps max prewarm t { t with calls := .making ::ₘ rest } :=
      .single (.lacking who lacks)
    unfold refill
    rcases s.pool.build table s.world with ⟨i | fault | text | _, w⟩
    · have stored := (making.tail (.make rfl i)).tail (.store rfl)
      obtain ⟨t', steps, shows', calls⟩ := ih
        (t := { t with slots := t.slots.store ⟨t.made, i⟩, made := t.made + 1,
                       calls := .counting ::ₘ rest })
        (s := { s with world := w }.onSlots (Slots.store i))
        ⟨by simp [onSlots, shows.slots, Slots.map, Slots.store], shows.published⟩ rfl
        (by simp only [Slots.store, List.length_cons]; omega)
      exact ⟨t', stored.trans steps, shows', calls⟩
    · refine ⟨_, (making.tail (.makeFails rfl)).tail (.endTask rfl), ⟨?_, shows.published⟩,
        .inl rfl⟩
      simp [onSlots, Server.log, shows.slots, Slots.map, Slots.endRefill]
    · exact ⟨_, making, ⟨shows.slots, shows.published⟩, .inr rfl⟩
    · exact ⟨_, making, ⟨shows.slots, shows.published⟩, .inr rfl⟩

/-- A call that sees whether to start a task, and the task that it starts. -/
theorem scheduling_run {rest : Multiset (Call Interpreter)} (shows : t.Shows s)
    (wanted : s.pool.settings.prewarm = prewarm) (who : t.calls = .scheduling ::ₘ rest) :
    ∃ t', Steps max prewarm t t' ∧ t'.Shows s.scheduleRefill ∧
      (t'.calls = rest ∨ t'.calls = .making ::ₘ rest) := by
  have idle (h : t.published = false ∨ t.slots.startRefill? prewarm = none) :
      ∃ t', Steps max prewarm t t' ∧ t'.Shows s ∧
        (t'.calls = rest ∨ t'.calls = .making ::ₘ rest) :=
    ⟨_, .single (.leaveIt who h), ⟨shows.slots, shows.published⟩, .inl rfl⟩
  have started : s.pool.slots.startRefill? prewarm =
      (t.slots.startRefill? prewarm).map (Slots.map Made.it) := by
    rw [shows.slots, Slots.startRefill?_map]
  unfold scheduleRefill
  dsimp only
  rw [wanted, started]
  cases published : s.pool.table? with
  | none => exact idle (.inl (by rw [shows.published, published]; rfl))
  | some table =>
    cases start : t.slots.startRefill? prewarm with
    | none => exact idle (.inr start)
    | some slots =>
      have isPublished : t.published = true := by rw [shows.published, published]; rfl
      obtain ⟨-, lacking, rfl⟩ := Slots.startRefill?_eq_some start
      have left :
          t.slots.free.length + (prewarm - (t.slots.free.map Made.it).length) = prewarm := by
        rw [List.length_map]
        omega
      obtain ⟨t', steps, shows', calls⟩ := refill_run max table
        (n := prewarm - (t.slots.free.map Made.it).length)
        (s := { s with pool := { s.pool with
          slots := { t.slots with refilling := true }.map Made.it } })
        (t := { t with
          slots := { t.slots with refilling := true }, calls := .counting ::ₘ rest })
        ⟨rfl, shows.published⟩ rfl left
      exact ⟨t', .head (.startTask who isPublished start) steps, shows', calls⟩

theorem scheduleRefill_run (shows : t.Shows s) (wanted : s.pool.settings.prewarm = prewarm) :
    ∃ t', Steps max prewarm t t' ∧ t'.Shows s.scheduleRefill ∧
      (t'.calls = t.calls ∨ t'.calls = .making ::ₘ t.calls) := by
  obtain ⟨t', steps, shown, calls⟩ := scheduling_run max
    (t := { t with calls := .scheduling ::ₘ t.calls }) ⟨shows.slots, shows.published⟩ wanted rfl
  exact ⟨t', .head (.schedule t) steps, shown, calls⟩

theorem release_run {i : Made Interpreter} {rest : Multiset (Call Interpreter)}
    (shows : t.Shows s) (wanted : s.pool.settings.prewarm = prewarm)
    (who : t.calls = .serving i ::ₘ rest) (awake : .asleep ∉ rest) :
    ∃ t', Steps max prewarm t t' ∧ t'.Shows s.release ∧
      (t'.calls = rest ∨ t'.calls = .making ::ₘ rest) := by
  have released : Step max prewarm t
      { t with slots := t.slots.release, calls := .scheduling ::ₘ rest } :=
    .release who (.nobody awake)
  have shows' : Shows { t with slots := t.slots.release, calls := .scheduling ::ₘ rest }
      (s.onSlots Slots.release) :=
    ⟨congrArg Slots.release shows.slots, shows.published⟩
  obtain ⟨t', steps, shown, calls⟩ := scheduling_run max shows' wanted rfl
  exact ⟨t', .head released steps, shown, calls⟩

/-- Acquiring is a run that ends with a guard, without any trace, or where the call stays. -/
theorem acquire_run {max : Nat} (shows : t.Shows s) (slots : s.pool.settings.maxInterpreters = max)
    (awake : .asleep ∉ t.calls) :
    ∃ t', Steps max prewarm t t' ∧ t'.Shows s.acquire.2 ∧
      match s.acquire.1 with
      | .ok i => ∃ n, t'.calls = .serving ⟨n, i⟩ ::ₘ t.calls
      | .error _ => t'.calls = t.calls
      | .panic _ => t'.calls = .holding none ::ₘ t.calls
      | .endless => t'.calls = .asleep ::ₘ t.calls ∨ t'.calls = .holding none ::ₘ t.calls := by
  have took : s.pool.slots.take? max = (t.slots.take? max).map
      fun x => (x.1.map Made.it, x.2.map Made.it) := by
    rw [shows.slots, Slots.take?_map]
  unfold acquire
  cases published : s.pool.table? with
  | none => exact ⟨t, .refl, shows, rfl⟩
  | some table =>
    have isPublished : t.published = true := by rw [shows.published, published]; rfl
    have asking : Steps max prewarm t { t with calls := .asking ::ₘ t.calls } :=
      .single (.acquire isPublished)
    dsimp only
    rw [slots, took]
    cases taken : t.slots.take? max with
    | none =>
      exact ⟨_, asking.tail (.sleep rfl rfl taken), ⟨shows.slots, shows.published⟩, .inl rfl⟩
    | some x =>
      obtain ⟨ready, slots⟩ := x
      have holding := asking.tail (.take rfl rfl taken)
      cases ready with
      | some i =>
        exact ⟨_, holding.tail (.lend rfl), ⟨rfl, shows.published⟩, i.number, rfl⟩
      | none =>
        dsimp only [Option.map]
        rcases Pool.build _ table s.world with ⟨i | fault | text | _, w⟩
        · exact ⟨_, holding.tail (.build rfl i), ⟨rfl, shows.published⟩, t.made, rfl⟩
        · exact ⟨_, (holding.tail (.buildFails rfl)).tail (.giveUp rfl (.nobody awake)),
            ⟨rfl, shows.published⟩, rfl⟩
        · exact ⟨_, holding, ⟨rfl, shows.published⟩, rfl⟩
        · exact ⟨_, holding, ⟨rfl, shows.published⟩, .inr rfl⟩

end Traffic

end ScriptServer.Server
