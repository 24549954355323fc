import Mathlib.Data.Multiset.Count
import Mathlib.Data.Multiset.UnionInter
import ScriptServer.Proofs.Server.Traffic

/-!
# The accounts of a pool

Whatever threads do at the slots of a pool, the slots that are taken are those of the guards and of
the calls that still acquire, there is one task at most, and no more interpreters are ready than are
wanted. Every interpreter is ready, on its way, or was acquired once; an interpreter that was
acquired is never ready again.
-/

namespace ScriptServer.Server

namespace Call

variable {α : Type}

@[simp] def isGuard : Call α → Bool
  | serving _ => true
  | _ => false

@[simp] def isAcquiring : Call α → Bool
  | holding _ | failed => true
  | _ => false

@[simp] def givesBack : Call α → Bool
  | failed | serving _ => true
  | _ => false

/-- A task that has not noted that it is over. -/
@[simp] def isTask : Call α → Bool
  | counting | making | storing _ | ending => true
  | _ => false

/-- A task that has seen that an interpreter is lacking and has not kept one since. -/
@[simp] def isMaking : Call α → Bool
  | making | storing _ => true
  | _ => false

@[simp] def guarded? : Call α → Option (Made α)
  | serving i => some i
  | _ => none

/-- The interpreter on its way from the ready ones to a guard, or to the ready ones. -/
@[simp] def underWay? : Call α → Option (Made α)
  | holding ready => ready
  | storing i => some i
  | _ => none

theorem isTask_of_isMaking {c : Call α} (h : c.isMaking = true) : c.isTask = true := by
  cases c <;> simp_all [isMaking, isTask]

theorem eq_of_looks {c : Call α} (h : c.looks = true) : c = asking ∨ c = woken := by
  cases c <;> simp_all [looks]

end Call

namespace Traffic

variable {α : Type} {t t' : Traffic α} {max prewarm : Nat}

/-- The number of calls of a kind. -/
def tally (p : Call α → Bool) (calls : Multiset (Call α)) : Nat := calls.countP (p · = true)

@[simp] theorem tally_cons (p : Call α → Bool) (c : Call α) (rest : Multiset (Call α)) :
    tally p (c ::ₘ rest) = tally p rest + (p c).toNat := by
  rw [tally, Multiset.countP_cons, tally]
  cases p c <;> rfl

theorem tally_mono {p q : Call α → Bool} (h : ∀ c, p c = true → q c = true)
    (calls : Multiset (Call α)) : tally p calls ≤ tally q calls := by
  induction calls using Multiset.induction with
  | empty => exact Nat.le_refl _
  | cons c rest ih =>
    rw [tally_cons, tally_cons]
    exact Nat.add_le_add ih (Bool.toNat_le_toNat (h c))

theorem tally_pos {p : Call α → Bool} {c : Call α} {calls : Multiset (Call α)} (h : c ∈ calls)
    (hc : p c = true) : 0 < tally p calls :=
  Multiset.countP_pos_of_mem h hc

theorem Wakes.tally_eq {rest calls : Multiset (Call α)} (h : Wakes rest calls)
    {p : Call α → Bool} (hp : p .asleep = p .woken) : tally p calls = tally p rest := by
  cases h with
  | one rest => rw [tally_cons, tally_cons, hp]
  | nobody => rfl

theorem Wakes.filterMap_eq {β : Type} {rest calls : Multiset (Call α)} (h : Wakes rest calls)
    {f : Call α → Option β} (hf : f .asleep = none) (hf' : f .woken = none) :
    calls.filterMap f = rest.filterMap f := by
  cases h with
  | one rest => rw [Multiset.filterMap_cons_none _ _ hf, Multiset.filterMap_cons_none _ _ hf']
  | nobody => rfl

/-! ### Numbers of calls -/

/-- The slots, the task and the ready interpreters are accounted for by the calls under way. -/
structure Balanced (max prewarm : Nat) (t : Traffic α) : Prop where
  slots : t.slots.checkedOut = tally Call.isGuard t.calls + tally Call.isAcquiring t.calls
  capacity : t.slots.checkedOut ≤ max
  task : tally Call.isTask t.calls = t.slots.refilling.toNat
  ready : t.slots.free.length + tally Call.isMaking t.calls ≤ prewarm

theorem Balanced.start : Balanced max prewarm (start : Traffic α) :=
  ⟨rfl, Nat.zero_le _, rfl, Nat.zero_le _⟩

theorem Balanced.step (h : Balanced max prewarm t) (s : Step max prewarm t t') :
    Balanced max prewarm t' := by
  obtain ⟨slots, capacity, task, ready⟩ := h
  cases s with
  | publish => exact ⟨slots, capacity, task, ready⟩
  | acquire | schedule => exact ⟨by simpa, capacity, by simpa, by simpa⟩
  | take who looks taken =>
    obtain ⟨slot, rfl, rfl⟩ := Slots.take?_eq_some taken
    rw [who] at slots task ready
    rcases Call.eq_of_looks looks with rfl | rfl <;>
    · simp only [tally_cons, Call.isGuard, Call.isAcquiring, Call.isTask, Call.isMaking,
        Bool.toNat_false] at slots task ready
      constructor <;> simp <;> omega
  | sleep who looks =>
    rw [who] at slots task ready
    rcases Call.eq_of_looks looks with rfl | rfl <;>
    · simp only [tally_cons] at slots task ready
      exact ⟨by simpa, capacity, by simpa, by simpa⟩
  | stir who | lend who | build who | buildFails who | leaveIt who | enough who | make who
  | makeFails who | store who | endTask who =>
    have := Bool.toNat_le t.slots.refilling
    rw [who] at slots task ready
    simp only [tally_cons, Call.isGuard, Call.isAcquiring, Call.isTask, Call.isMaking,
      Bool.toNat_true, Bool.toNat_false] at slots task ready
    constructor <;> simp [Slots.store, Slots.endRefill] <;> omega
  | giveUp who wakes | release who wakes =>
    have guards := wakes.tally_eq (p := Call.isGuard) rfl
    have acquiring := wakes.tally_eq (p := Call.isAcquiring) rfl
    have tasks := wakes.tally_eq (p := Call.isTask) rfl
    have making := wakes.tally_eq (p := Call.isMaking) rfl
    rw [who] at slots task ready
    simp only [tally_cons, Call.isGuard, Call.isAcquiring, Call.isTask, Call.isMaking,
      Bool.toNat_true, Bool.toNat_false] at slots task ready
    constructor <;> simp [Slots.release] <;> omega
  | startTask who published started =>
    obtain ⟨idle, lacking, rfl⟩ := Slots.startRefill?_eq_some started
    rw [who] at slots task ready
    simp only [tally_cons, Call.isGuard, Call.isAcquiring, Call.isTask, Call.isMaking, idle,
      Bool.toNat_false] at slots task ready
    constructor <;> simp <;> omega
  | @lacking rest who lacks =>
    -- The task is the only one, so nothing else is about to be kept.
    have alone := tally_mono (fun c => Call.isTask_of_isMaking (c := c)) rest
    have := Bool.toNat_le t.slots.refilling
    rw [who] at slots task ready
    simp only [tally_cons, Call.isGuard, Call.isAcquiring, Call.isTask, Call.isMaking,
      Bool.toNat_true, Bool.toNat_false, Slots.lacks, decide_eq_true_eq] at slots task ready lacks
    constructor <;> simp <;> omega

/-! ### Where an interpreter is -/

def interpreters (t : Traffic α) : Multiset (Made α) :=
  t.slots.free + t.calls.filterMap Call.underWay? + t.acquired

/-- Interpreters change their places, and a new one has a new number. -/
theorem interpreters_step (s : Step max prewarm t t') :
    t'.interpreters = t.interpreters ∧ t'.made = t.made ∨
      ∃ i, t'.interpreters = ⟨t.made, i⟩ ::ₘ t.interpreters ∧ t'.made = t.made + 1 := by
  unfold interpreters
  cases s with
  | publish => exact .inl ⟨rfl, rfl⟩
  | acquire | schedule => exact .inl ⟨by simp [Multiset.filterMap_cons], rfl⟩
  | take who looks taken =>
    obtain ⟨-, rfl, rfl⟩ := Slots.take?_eq_some taken
    rw [who]
    refine .inl ⟨?_, rfl⟩
    rcases Call.eq_of_looks looks with rfl | rfl <;>
    · cases t.slots.free with
      | nil => simp [Multiset.filterMap_cons]
      | cons i free => simp [Multiset.filterMap_cons, ← Multiset.cons_coe]
  | sleep who looks =>
    rw [who]
    rcases Call.eq_of_looks looks with rfl | rfl <;>
    exact .inl ⟨by simp [Multiset.filterMap_cons], rfl⟩
  | stir who | lend who | buildFails who | leaveIt who | lacking who
  | enough who | makeFails who | store who | endTask who =>
    rw [who]
    refine .inl ⟨?_, rfl⟩
    simp [Multiset.filterMap_cons, ← Multiset.cons_coe, Slots.store, Slots.endRefill]
  | startTask who _ started =>
    obtain ⟨-, -, rfl⟩ := Slots.startRefill?_eq_some started
    rw [who]
    exact .inl ⟨by simp [Multiset.filterMap_cons], rfl⟩
  | giveUp who wakes | release who wakes =>
    rw [who]
    refine .inl ⟨?_, rfl⟩
    simp [Multiset.filterMap_cons, wakes.filterMap_eq (f := Call.underWay?) rfl rfl, Slots.release]
  | build who i | make who i =>
    rw [who]
    refine .inr ⟨i, ?_, rfl⟩
    simp [Multiset.filterMap_cons, ← Multiset.cons_coe]

/-- No two interpreters have the same number, and guards use those that were acquired. -/
structure Apart (t : Traffic α) : Prop where
  distinct : (t.interpreters.map Made.number).Nodup
  below : ∀ i ∈ t.interpreters, i.number < t.made
  guards : t.calls.filterMap Call.guarded? ≤ t.acquired

theorem Apart.start : Apart (start : Traffic α) where
  distinct := Multiset.nodup_zero
  below _ h := absurd h (Multiset.notMem_zero _)
  guards := Multiset.zero_le _

theorem guards_step (h : t.calls.filterMap Call.guarded? ≤ t.acquired)
    (s : Step max prewarm t t') : t'.calls.filterMap Call.guarded? ≤ t'.acquired := by
  cases s with
  | publish => exact h
  | acquire | schedule => simpa [Multiset.filterMap_cons]
  | take who looks | sleep who looks =>
    rw [who] at h
    rcases Call.eq_of_looks looks with rfl | rfl <;>
    simpa [Multiset.filterMap_cons] using h
  | stir who | buildFails who | leaveIt who | startTask who | lacking who | enough who | make who
  | makeFails who | store who | endTask who =>
    rw [who] at h
    simpa [Multiset.filterMap_cons] using h
  | lend who | build who =>
    rw [who] at h
    simpa [Multiset.filterMap_cons, ← Multiset.cons_coe] using h
  | giveUp who wakes =>
    rw [who] at h
    rw [wakes.filterMap_eq rfl rfl]
    simpa [Multiset.filterMap_cons] using h
  | @release rest _ i who wakes =>
    rw [who, Multiset.filterMap_cons_some Call.guarded? _ _ rfl] at h
    rw [Multiset.filterMap_cons_none _ _ rfl, wakes.filterMap_eq rfl rfl]
    exact (Multiset.le_cons_self _ i).trans h

theorem Apart.step (h : Apart t) (s : Step max prewarm t t') : Apart t' := by
  have guards := guards_step h.guards s
  rcases interpreters_step s with ⟨same, made⟩ | ⟨i, new, made⟩
  · exact ⟨same ▸ h.distinct, by rw [same, made]; exact h.below, guards⟩
  · refine ⟨?_, ?_, guards⟩
    · rw [new, Multiset.map_cons, Multiset.nodup_cons]
      refine ⟨fun old => ?_, h.distinct⟩
      obtain ⟨j, hj, number⟩ := Multiset.mem_map.mp old
      exact absurd (h.below j hj) (by rw [number]; exact Nat.lt_irrefl _)
    · rw [new, made]
      intro j hj
      rcases Multiset.mem_cons.mp hj with rfl | hj
      · exact Nat.lt_succ_self _
      · exact (h.below j hj).trans (Nat.lt_succ_self _)

/-- An interpreter that was acquired was acquired once and is not ready. -/
theorem Apart.acquired (h : Apart t) :
    (t.acquired.map Made.number).Nodup ∧
      ∀ i ∈ t.acquired, i.number ∉ t.slots.free.map Made.number := by
  have distinct := h.distinct
  simp only [interpreters, Multiset.map_add, Multiset.map_coe, Multiset.nodup_add,
    Multiset.coe_nodup] at distinct
  obtain ⟨-, once, apart⟩ := distinct
  refine ⟨once, fun i hi ready => ?_⟩
  exact Multiset.disjoint_left.mp apart (Multiset.mem_add.mpr (.inl ready))
    (List.mem_map_of_mem hi)

/-! ### Runs -/

theorem Steps.balanced (h : Steps max prewarm start t) : Balanced max prewarm t := by
  induction h with
  | refl => exact .start
  | tail _ s ih => exact ih.step s

theorem Steps.apart (h : Steps max prewarm start t) : Apart t := by
  induction h with
  | refl => exact .start
  | tail _ s ih => exact ih.step s

/-- **Accounting.** Whatever threads have done, the slots that are taken are those of the guards
and of the calls that still acquire, of which there are at most `max`; a slot is given back only
where one is taken; there is one task at most; no more than `prewarm` interpreters are ready; and an
interpreter is acquired once and never ready again. -/
theorem pool_accounting (h : Steps max prewarm start t) :
    t.slots.checkedOut = tally Call.isGuard t.calls + tally Call.isAcquiring t.calls ∧
      t.slots.checkedOut ≤ max ∧
      (∀ c ∈ t.calls, c.givesBack = true → 0 < t.slots.checkedOut) ∧
      tally Call.isTask t.calls ≤ 1 ∧
      t.slots.free.length ≤ prewarm ∧
      (t.acquired.map Made.number).Nodup ∧
      t.calls.filterMap Call.guarded? ≤ t.acquired ∧
      ∀ i ∈ t.acquired, i.number ∉ t.slots.free.map Made.number := by
  have balanced := Steps.balanced h
  have apart := Steps.apart h
  obtain ⟨once, notReady⟩ := apart.acquired
  refine ⟨balanced.slots, balanced.capacity, fun c hc back => ?_, ?_, ?_, once, apart.guards,
    notReady⟩
  · rw [balanced.slots]
    cases c with
    | serving i => exact Nat.add_pos_left (tally_pos hc rfl) _
    | failed => exact Nat.add_pos_right _ (tally_pos hc rfl)
    | _ => cases back
  · exact balanced.task ▸ Bool.toNat_le _
  · exact Nat.le_of_add_right_le balanced.ready

/-- One slot: a second call sleeps until the first one gives the slot back, and takes it while the
task makes an interpreter. -/
theorem pool_accounting_handover :
    let t : Traffic Unit :=
      ⟨true, ⟨[], 1, true⟩, 2, .holding none ::ₘ .storing ⟨1, ()⟩ ::ₘ 0, [⟨0, ()⟩]⟩
    Steps 1 1 start t ∧
      t.slots.checkedOut = tally Call.isGuard t.calls + tally Call.isAcquiring t.calls := by
  intro t
  have asking : Steps 1 1 start (⟨true, .empty, 0, .asking ::ₘ 0, []⟩ : Traffic Unit) :=
    (Relation.ReflTransGen.single (.publish _)).tail (.acquire rfl)
  have holding : Steps 1 1 start
      (⟨true, ⟨[], 1, false⟩, 0, .holding none ::ₘ 0, []⟩ : Traffic Unit) :=
    asking.tail (.take (c := .asking) rfl rfl rfl)
  have serving : Steps 1 1 start
      (⟨true, ⟨[], 1, false⟩, 1, .serving ⟨0, ()⟩ ::ₘ 0, [⟨0, ()⟩]⟩ : Traffic Unit) :=
    holding.tail (.build rfl ())
  have second : Steps 1 1 start
      (⟨true, ⟨[], 1, false⟩, 1, .asking ::ₘ .serving ⟨0, ()⟩ ::ₘ 0, [⟨0, ()⟩]⟩ : Traffic Unit) :=
    serving.tail (.acquire rfl)
  have asleep : Steps 1 1 start
      (⟨true, ⟨[], 1, false⟩, 1, .serving ⟨0, ()⟩ ::ₘ .asleep ::ₘ 0, [⟨0, ()⟩]⟩ :
        Traffic Unit) := by
    rw [Multiset.cons_swap]
    exact second.tail (.sleep (c := .asking) rfl rfl rfl)
  have released : Steps 1 1 start
      (⟨true, ⟨[], 0, false⟩, 1, .scheduling ::ₘ .woken ::ₘ 0, [⟨0, ()⟩]⟩ : Traffic Unit) :=
    asleep.tail (.release rfl (.one 0))
  have counting : Steps 1 1 start
      (⟨true, ⟨[], 0, true⟩, 1, .counting ::ₘ .woken ::ₘ 0, [⟨0, ()⟩]⟩ : Traffic Unit) :=
    released.tail (.startTask rfl rfl rfl)
  have making : Steps 1 1 start
      (⟨true, ⟨[], 0, true⟩, 1, .making ::ₘ .woken ::ₘ 0, [⟨0, ()⟩]⟩ : Traffic Unit) :=
    counting.tail (.lacking rfl rfl)
  have woken : Steps 1 1 start
      (⟨true, ⟨[], 0, true⟩, 2, .woken ::ₘ .storing ⟨1, ()⟩ ::ₘ 0, [⟨0, ()⟩]⟩ : Traffic Unit) := by
    rw [Multiset.cons_swap]
    exact making.tail (.make rfl ())
  have taken : Steps 1 1 start t := woken.tail (.take (c := .woken) rfl rfl rfl)
  exact ⟨taken, (pool_accounting taken).1⟩

end Traffic

end ScriptServer.Server
