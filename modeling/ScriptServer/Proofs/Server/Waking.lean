import ScriptServer.Proofs.Server.Accounting

/-!
# Sleepers and free slots

A slot that is given back wakes one sleeper only, and the slot may be gone when that one looks: a
call that came later has taken it, and the woken call goes back to sleep. Still no sleeper is
forgotten: while one is left there are as many slots taken, or calls woken that have not looked yet,
as there are slots.
-/

namespace ScriptServer.Server

/-- The call was woken by a slot that was given back, and has not looked since. -/
@[simp] def Call.isWoken {α : Type} : Call α → Bool
  | woken => true
  | _ => false

namespace Traffic

variable {α : Type} {t t' : Traffic α} {max prewarm : Nat}

/-- While a call sleeps, every slot is taken or was given back to a call that looks next. -/
def Attentive (max : Nat) (t : Traffic α) : Prop :=
  .asleep ∈ t.calls → max ≤ t.slots.checkedOut + tally Call.isWoken t.calls

theorem Attentive.start : Attentive max (start : Traffic α) :=
  fun asleep => absurd asleep (Multiset.notMem_zero _)

/-- A slot that is given back is made up for by the sleeper that it wakes. -/
theorem Wakes.attentive {rest calls : Multiset (Call α)} {taken : Nat} (wakes : Wakes rest calls)
    (h : .asleep ∈ rest → max ≤ taken + tally Call.isWoken rest) (asleep : .asleep ∈ calls) :
    max ≤ taken - 1 + tally Call.isWoken calls := by
  cases wakes with
  | one rest =>
    have before := h (Multiset.mem_cons_self _ _)
    simp only [tally_cons, Call.isWoken, Bool.toNat_true, Bool.toNat_false] at before ⊢
    omega
  | nobody awake => exact absurd asleep awake

theorem Attentive.step (h : Attentive max t) (s : Step max prewarm t t') : Attentive max t' := by
  unfold Attentive at h ⊢
  intro asleep
  cases s with
  | publish => exact h asleep
  | acquire | schedule => simpa using h (by simpa using asleep)
  | take who looks taken =>
    obtain ⟨-, rfl, rfl⟩ := Slots.take?_eq_some taken
    rw [who] at h
    rcases Call.eq_of_looks looks with rfl | rfl <;>
    · have before := h (by simpa using asleep)
      simp only [tally_cons, Call.isWoken, Bool.toNat_true, Bool.toNat_false] at before ⊢
      omega
  | sleep who looks full =>
    -- A woken call that goes back to sleep has seen that all slots are taken.
    have taken : max ≤ t.slots.checkedOut := by
      simpa [Slots.take?] using full
    exact Nat.le_add_right_of_le taken
  | stir who | lend who | build who | buildFails who | leaveIt who | lacking who | enough who
  | make who | makeFails who | store who | endTask who =>
    rw [who] at h
    simpa [Slots.store, Slots.endRefill] using h (by simp_all)
  | startTask who published started =>
    obtain ⟨-, -, rfl⟩ := Slots.startRefill?_eq_some started
    rw [who] at h
    simpa using h (by simpa using asleep)
  | giveUp who wakes =>
    rw [who] at h
    exact wakes.attentive (by simpa using h) asleep
  | release who wakes =>
    rw [who] at h
    simpa [Slots.release] using wakes.attentive (by simpa using h) (by simpa using asleep)

theorem Steps.attentive (h : Steps max prewarm start t) : Attentive max t := by
  induction h with
  | refl => exact .start
  | tail _ s ih => exact ih.step s

/-- **Waking.** Whatever threads have done, while a call sleeps the slots that are taken and the
calls that were woken and have not looked yet are as many as the slots. So no call sleeps beside a
free slot unless another one was woken for it. -/
theorem sleeper_attended (h : Steps max prewarm start t) (asleep : .asleep ∈ t.calls) :
    max ≤ t.slots.checkedOut + tally Call.isWoken t.calls ∧
      (t.slots.checkedOut < max → .woken ∈ t.calls) := by
  have attentive := Steps.attentive h asleep
  refine ⟨attentive, fun free => ?_⟩
  have some : 0 < tally Call.isWoken t.calls := by omega
  obtain ⟨c, mem, woken⟩ := Multiset.countP_pos.mp some
  cases c with
  | woken => exact mem
  | _ => cases woken

/-- One slot is given back while two calls sleep. -/
theorem sleeper_attended_pair :
    let t : Traffic Unit :=
      ⟨true, ⟨[], 0, false⟩, 1, .scheduling ::ₘ .woken ::ₘ .asleep ::ₘ 0, [⟨0, ()⟩]⟩
    Steps 1 1 start t ∧ .asleep ∈ t.calls ∧ t.slots.checkedOut < 1 ∧ .woken ∈ t.calls := by
  intro t
  have serving : Steps 1 1 start (⟨true, ⟨[], 1, false⟩, 1,
      .serving ⟨0, ()⟩ ::ₘ 0, [⟨0, ()⟩]⟩ : Traffic Unit) := first_run Nat.one_pos ()
  have one : Steps 1 1 start (⟨true, ⟨[], 1, false⟩, 1,
      .asleep ::ₘ .serving ⟨0, ()⟩ ::ₘ 0, [⟨0, ()⟩]⟩ : Traffic Unit) :=
    (serving.tail (.acquire rfl)).tail (.sleep (c := .asking) rfl rfl rfl)
  have two : Steps 1 1 start (⟨true, ⟨[], 1, false⟩, 1,
      .asleep ::ₘ .asleep ::ₘ .serving ⟨0, ()⟩ ::ₘ 0, [⟨0, ()⟩]⟩ : Traffic Unit) :=
    (one.tail (.acquire rfl)).tail (.sleep (c := .asking) rfl rfl rfl)
  have last : ({.asleep, .asleep, .serving ⟨0, ()⟩} : Multiset (Call Unit)) =
      .serving ⟨0, ()⟩ ::ₘ .asleep ::ₘ .asleep ::ₘ 0 := by decide
  have released : Steps 1 1 start t := two.tail (.release last (.one _))
  have asleep : .asleep ∈ t.calls := by simp [t]
  have free : t.slots.checkedOut < 1 := Nat.one_pos
  exact ⟨released, asleep, free, (sleeper_attended released asleep).2 free⟩

end Traffic

end ScriptServer.Server
