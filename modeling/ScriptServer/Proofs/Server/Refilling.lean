import ScriptServer.Proofs.Server.Accounting

/-!
# The ready interpreters

A guard that is dropped starts a task that makes interpreters, unless one is on its way already. The
task counts the ready interpreters and notes later that it is over, and a guard that is dropped in
between is overlooked: it leaves its interpreter to a task that does not count any more
(`Overlooks`). When all is quiet then, interpreters are lacking (`ready_short`). Nothing else makes
them lack, and every later guard that is not overlooked makes up for it (`ready_filled`).
-/

namespace ScriptServer.Server

/-- The call, or what it leads to, counts the ready interpreters before it is over. -/
@[simp] def Call.counts {α : Type} : Call α → Bool
  | holding _ | serving _ | scheduling | counting | making | storing _ => true
  | _ => false

namespace Traffic

variable {α : Type} {t t' : Traffic α} {max prewarm : Nat}

inductive Fails : Traffic α → Traffic α → Prop where
  | acquiring {t : Traffic α} {rest : Multiset (Call α)} (who : t.calls = .holding none ::ₘ rest) :
    Fails t { t with calls := .failed ::ₘ rest }
  | refilling {t : Traffic α} {rest : Multiset (Call α)} (who : t.calls = .making ::ₘ rest) :
    Fails t { t with calls := .ending ::ₘ rest }

/-- Interpreters are lacking and no task is started, as there is one; but that one counts them no
more. -/
inductive Overlooks (prewarm : Nat) : Traffic α → Traffic α → Prop where
  | mk {t : Traffic α} {rest : Multiset (Call α)} (who : t.calls = .scheduling ::ₘ rest)
    (lacks : t.slots.lacks prewarm = true) (ending : .ending ∈ rest) :
    Overlooks prewarm t { t with calls := rest }

/-- A step in which no interpreter fails to be made. -/
def Succeeds (max prewarm : Nat) (t t' : Traffic α) : Prop :=
  Step max prewarm t t' ∧ ¬ Fails t t'

/-! ### Before the routes are published -/

theorem idle_step (h : t.published = false → ∀ c ∈ t.calls, c = .scheduling)
    (s : Step max prewarm t t') : t'.published = false → ∀ c ∈ t'.calls, c = .scheduling := by
  intro unpublished
  cases s with
  | publish => cases unpublished
  | acquire published => exact absurd (published.symm.trans unpublished) nofun
  | schedule =>
    intro c mem
    exact (Multiset.mem_cons.mp mem).elim id (h unpublished c)
  | take who looks | sleep who looks =>
    have same := h unpublished _ (who ▸ Multiset.mem_cons_self _ _)
    rw [same] at looks
    cases looks
  | leaveIt who =>
    intro c mem
    exact h unpublished c (who ▸ Multiset.mem_cons_of_mem mem)
  | startTask who published => exact absurd (published.symm.trans unpublished) nofun
  | stir who | lend who | build who | buildFails who | giveUp who | release who | lacking who
  | enough who | make who | makeFails who | store who | endTask who =>
    cases h unpublished _ (who ▸ Multiset.mem_cons_self _ _)

/-- Nobody acquires interpreters before the routes are published. -/
theorem Steps.idle (h : Steps max prewarm start t) :
    t.published = false → ∀ c ∈ t.calls, c = .scheduling := by
  induction h with
  | refl => exact fun _ c mem => absurd mem (Multiset.notMem_zero c)
  | tail _ s ih => exact idle_step ih s

/-! ### Somebody counts -/

/-- Since the interpreters `before` were acquired others were, and then as many are ready as are
wanted, or a call is under way that counts them. -/
structure Watched (prewarm : Nat) (before : List (Made α)) (t : Traffic α) : Prop where
  unpublished : t.published = false → t.acquired = before
  ready : t.acquired = before ∨ t.slots.free.length = prewarm ∨
    ∃ c ∈ t.calls, c.counts = true

theorem Watched.start (t : Traffic α) : Watched prewarm t.acquired t :=
  ⟨fun _ => rfl, .inl rfl⟩

theorem Balanced.ready_eq (h : Balanced max prewarm t) (lacks : t.slots.lacks prewarm = false) :
    t.slots.free.length = prewarm := by
  have most := h.ready
  simp only [Slots.lacks, decide_eq_false_iff_not] at lacks
  omega

theorem Wakes.mem {rest calls : Multiset (Call α)} (wakes : Wakes rest calls) {c : Call α}
    (mem : c ∈ rest) (awake : c ≠ .asleep) : c ∈ calls := by
  cases wakes with
  | one rest => exact Multiset.mem_cons_of_mem ((Multiset.mem_cons.mp mem).resolve_left awake)
  | nobody => exact mem

/-- Where no task is started though there is none lacking, there is one that still counts. -/
theorem Balanced.counts_of_left (h : Balanced max prewarm t) {rest : Multiset (Call α)}
    (who : t.calls = .scheduling ::ₘ rest) (left : t.slots.startRefill? prewarm = none)
    (seen : ¬ Overlooks prewarm t { t with calls := rest }) :
    t.slots.free.length = prewarm ∨ ∃ c ∈ rest, c.counts = true := by
  by_cases lacks : t.slots.lacks prewarm = true
  · have refilling : t.slots.refilling = true := by
      by_contra idle
      simp [Slots.startRefill?, lacks, idle] at left
    have task := h.task
    rw [who, tally_cons, refilling] at task
    have some : 0 < tally Call.isTask rest := by
      simp only [Call.isTask, Bool.toNat_false, Bool.toNat_true] at task
      omega
    obtain ⟨c, mem, isTask⟩ := Multiset.countP_pos.mp some
    refine .inr ⟨c, mem, ?_⟩
    cases c with
    | ending => exact absurd (.mk who lacks mem) seen
    | counting | making | storing => rfl
    | _ => cases isTask
  · exact .inl (h.ready_eq (eq_false_of_ne_true lacks))

theorem Watched.step {before : List (Made α)} (h : Watched prewarm before t)
    (balanced : Balanced max prewarm t)
    (idle : t.published = false → ∀ c ∈ t.calls, c = .scheduling) (s : Step max prewarm t t')
    (succeeds : ¬ Fails t t') (seen : ¬ Overlooks prewarm t t') : Watched prewarm before t' := by
  obtain ⟨unpublished, ready⟩ := h
  -- A call that does not count is over or goes on, and those that count are still there.
  have others {c : Call α} {rest calls : Multiset (Call α)} (who : t.calls = c ::ₘ rest)
      (blind : c.counts = false) (kept : ∀ c ∈ rest, c.counts = true → c ∈ calls) :
      t.acquired = before ∨ t.slots.free.length = prewarm ∨ ∃ c ∈ calls, c.counts = true := by
    refine ready.imp_right (.imp_right fun ⟨c', mem, counts⟩ => ⟨c', kept c' ?_ counts, counts⟩)
    rw [who] at mem
    refine (Multiset.mem_cons.mp mem).resolve_left ?_
    rintro rfl
    rw [counts] at blind
    cases blind
  have next {c : Call α} {rest : Multiset (Call α)} (c' : Call α) (who : t.calls = c ::ₘ rest)
      (blind : c.counts = false) : t.acquired = before ∨ t.slots.free.length = prewarm ∨
        ∃ c ∈ c' ::ₘ rest, c.counts = true :=
    others who blind fun _ mem _ => Multiset.mem_cons_of_mem mem
  -- A call that counts later is enough.
  have going {c : Call α} (rest : Multiset (Call α)) (counts : c.counts = true) :
      ∃ c' ∈ c ::ₘ rest, c'.counts = true := ⟨c, Multiset.mem_cons_self _ _, counts⟩
  cases s with
  | publish => exact ⟨nofun, ready⟩
  | acquire =>
    exact ⟨unpublished, ready.imp_right (.imp_right fun ⟨c, mem, counts⟩ =>
      ⟨c, Multiset.mem_cons_of_mem mem, counts⟩)⟩
  | schedule => exact ⟨unpublished, .inr (.inr (going _ rfl))⟩
  | take who looks taken => exact ⟨unpublished, .inr (.inr (going _ rfl))⟩
  | sleep who looks =>
    refine ⟨unpublished, next _ who ?_⟩
    rcases Call.eq_of_looks looks with rfl | rfl <;> rfl
  | stir who => exact ⟨unpublished, next _ who rfl⟩
  | lend who | build who =>
    refine ⟨fun no => ?_, .inr (.inr (going _ rfl))⟩
    cases idle no _ (who ▸ Multiset.mem_cons_self _ _)
  | buildFails who => exact absurd (.acquiring who) succeeds
  | giveUp who wakes =>
    refine ⟨unpublished, others who rfl fun c mem counts => wakes.mem mem ?_⟩
    rintro rfl
    cases counts
  | release who wakes => exact ⟨unpublished, .inr (.inr (going _ rfl))⟩
  | leaveIt who left =>
    refine ⟨unpublished, ?_⟩
    rcases left with no | left
    · exact .inl (unpublished no)
    · exact .inr (balanced.counts_of_left who left seen)
  | startTask who published started =>
    obtain ⟨-, -, rfl⟩ := Slots.startRefill?_eq_some started
    exact ⟨unpublished, .inr (.inr (going _ rfl))⟩
  | lacking who | make who | store who => exact ⟨unpublished, .inr (.inr (going _ rfl))⟩
  | enough who lacks => exact ⟨unpublished, .inr (.inl (balanced.ready_eq lacks))⟩
  | makeFails who => exact absurd (.refilling who) succeeds
  | endTask who => exact ⟨unpublished, others who rfl fun c mem _ => mem⟩

/-- The steps in which no interpreter fails to be made and no guard is overlooked. -/
def Attends (max prewarm : Nat) (t t' : Traffic α) : Prop :=
  Succeeds max prewarm t t' ∧ ¬ Overlooks prewarm t t'

theorem watched_of_run {t₀ : Traffic α} (before : Steps max prewarm start t₀)
    (run : Relation.ReflTransGen (Attends max prewarm) t₀ t) :
    Steps max prewarm start t ∧ Watched prewarm t₀.acquired t := by
  induction run with
  | refl => exact ⟨before, .start t₀⟩
  | tail _ s ih =>
    obtain ⟨⟨step, succeeds⟩, seen⟩ := s
    obtain ⟨reached, watched⟩ := ih
    exact ⟨reached.tail step, watched.step (Steps.balanced reached) (Steps.idle reached) step
      succeeds seen⟩

/-- **Refilling.** Whatever threads have done before, once an interpreter was acquired as many are
ready as are wanted when all is quiet, if since then none failed to be made and no guard was
overlooked. -/
theorem ready_filled {t₀ : Traffic α} (before : Steps max prewarm start t₀)
    (run : Relation.ReflTransGen (Attends max prewarm) t₀ t) (served : t.acquired ≠ t₀.acquired)
    (quiet : t.calls = 0) : t.slots.free.length = prewarm := by
  rcases (watched_of_run before run).2.ready with same | filled | ⟨c, mem, -⟩
  · exact absurd same served
  · exact filled
  · rw [quiet] at mem
    exact absurd mem (Multiset.notMem_zero c)

/-! ### A guard that is overlooked -/

theorem Succeeds.of_step (s : Step max prewarm t t') (served : .failed ∉ t'.calls)
    (made : .making ∉ t.calls ∨ .ending ∉ t'.calls) : Succeeds max prewarm t t' := by
  refine ⟨s, fun fails => ?_⟩
  cases fails with
  | acquiring => exact served (Multiset.mem_cons_self _ _)
  | refilling who =>
    refine made.elim (fun absent => absent ?_) fun absent => absent (Multiset.mem_cons_self _ _)
    exact who ▸ Multiset.mem_cons_self _ _

theorem Attends.of_step (s : Step max prewarm t t') (served : .failed ∉ t'.calls)
    (seen : .making ∉ t.calls ∧ .scheduling ∉ t.calls ∨ .ending ∉ t'.calls) :
    Attends max prewarm t t' := by
  refine ⟨.of_step s served (seen.imp_left And.left), fun overlooks => ?_⟩
  cases overlooks with
  | mk who lacks ending =>
    exact seen.elim (fun absent => absent.2 (who ▸ Multiset.mem_cons_self _ _))
      fun absent => absent ending

/-- A guard comes and goes where no interpreter is ready, and the task makes one. -/
theorem round_run (n : Nat) (acquired : List (Made Unit)) :
    Relation.ReflTransGen (Attends 1 1) ⟨true, ⟨[], 0, false⟩, n, 0, acquired⟩
      ⟨true, ⟨[⟨n + 1, ()⟩], 0, true⟩, n + 2, .ending ::ₘ 0, ⟨n, ()⟩ :: acquired⟩ := by
  have asking : Attends 1 1 ⟨true, ⟨[], 0, false⟩, n, 0, acquired⟩
      ⟨true, ⟨[], 0, false⟩, n, .asking ::ₘ 0, acquired⟩ :=
    .of_step (.acquire rfl) (by simp) (.inr (by simp))
  have holding : Attends 1 1 ⟨true, ⟨[], 0, false⟩, n, .asking ::ₘ 0, acquired⟩
      ⟨true, ⟨[], 1, false⟩, n, .holding none ::ₘ 0, acquired⟩ :=
    .of_step (.take (c := .asking) rfl rfl rfl) (by simp) (.inr (by simp))
  have serving : Attends 1 1 ⟨true, ⟨[], 1, false⟩, n, .holding none ::ₘ 0, acquired⟩
      ⟨true, ⟨[], 1, false⟩, n + 1, .serving ⟨n, ()⟩ ::ₘ 0, ⟨n, ()⟩ :: acquired⟩ :=
    .of_step (.build rfl ()) (by simp) (.inr (by simp))
  have scheduling :
      Attends 1 1 ⟨true, ⟨[], 1, false⟩, n + 1, .serving ⟨n, ()⟩ ::ₘ 0, ⟨n, ()⟩ :: acquired⟩
        ⟨true, ⟨[], 0, false⟩, n + 1, .scheduling ::ₘ 0, ⟨n, ()⟩ :: acquired⟩ :=
    .of_step (.release rfl (.nobody (by simp))) (by simp) (.inr (by simp))
  have counting : Attends 1 1 ⟨true, ⟨[], 0, false⟩, n + 1, .scheduling ::ₘ 0, ⟨n, ()⟩ :: acquired⟩
      ⟨true, ⟨[], 0, true⟩, n + 1, .counting ::ₘ 0, ⟨n, ()⟩ :: acquired⟩ :=
    .of_step (.startTask rfl rfl rfl) (by simp) (.inr (by simp))
  have making : Attends 1 1 ⟨true, ⟨[], 0, true⟩, n + 1, .counting ::ₘ 0, ⟨n, ()⟩ :: acquired⟩
      ⟨true, ⟨[], 0, true⟩, n + 1, .making ::ₘ 0, ⟨n, ()⟩ :: acquired⟩ :=
    .of_step (.lacking rfl rfl) (by simp) (.inr (by simp))
  have storing : Attends 1 1 ⟨true, ⟨[], 0, true⟩, n + 1, .making ::ₘ 0, ⟨n, ()⟩ :: acquired⟩
      ⟨true, ⟨[], 0, true⟩, n + 2, .storing ⟨n + 1, ()⟩ ::ₘ 0, ⟨n, ()⟩ :: acquired⟩ :=
    .of_step (.make rfl ()) (by simp) (.inr (by simp))
  have stored :
      Attends 1 1 ⟨true, ⟨[], 0, true⟩, n + 2, .storing ⟨n + 1, ()⟩ ::ₘ 0, ⟨n, ()⟩ :: acquired⟩
        ⟨true, ⟨[⟨n + 1, ()⟩], 0, true⟩, n + 2, .counting ::ₘ 0, ⟨n, ()⟩ :: acquired⟩ :=
    .of_step (.store rfl) (by simp) (.inr (by simp))
  have ending :
      Attends 1 1 ⟨true, ⟨[⟨n + 1, ()⟩], 0, true⟩, n + 2, .counting ::ₘ 0, ⟨n, ()⟩ :: acquired⟩
        ⟨true, ⟨[⟨n + 1, ()⟩], 0, true⟩, n + 2, .ending ::ₘ 0, ⟨n, ()⟩ :: acquired⟩ :=
    .of_step (.enough rfl rfl) (by simp) (.inl (by simp))
  exact ((((((((Relation.ReflTransGen.single asking).tail holding).tail serving).tail
    scheduling).tail counting).tail making).tail storing).tail stored).tail ending

/-- A second guard comes and goes after the task has counted and before it notes that it is over. -/
theorem overlooked_run :
    Relation.ReflTransGen (Succeeds 1 1) (start : Traffic Unit)
      ⟨true, ⟨[], 0, false⟩, 2, 0, [⟨1, ()⟩, ⟨0, ()⟩]⟩ := by
  have published : Relation.ReflTransGen (Succeeds 1 1) start
      (⟨true, ⟨[], 0, false⟩, 0, 0, []⟩ : Traffic Unit) :=
    .single (.of_step (.publish _) (Multiset.notMem_zero _) (.inr (Multiset.notMem_zero _)))
  have ending : Relation.ReflTransGen (Succeeds 1 1) start
      (⟨true, ⟨[⟨1, ()⟩], 0, true⟩, 2, .ending ::ₘ 0, [⟨0, ()⟩]⟩ : Traffic Unit) :=
    published.trans ((round_run 0 []).lift id fun _ _ s => s.1)
  have asking : Succeeds 1 1
      (⟨true, ⟨[⟨1, ()⟩], 0, true⟩, 2, .ending ::ₘ 0, [⟨0, ()⟩]⟩ : Traffic Unit)
      ⟨true, ⟨[⟨1, ()⟩], 0, true⟩, 2, .asking ::ₘ .ending ::ₘ 0, [⟨0, ()⟩]⟩ :=
    .of_step (.acquire rfl) (by simp) (.inl (by simp))
  have holding : Succeeds 1 1
      (⟨true, ⟨[⟨1, ()⟩], 0, true⟩, 2, .asking ::ₘ .ending ::ₘ 0, [⟨0, ()⟩]⟩ : Traffic Unit)
      ⟨true, ⟨[], 1, true⟩, 2, .holding (some ⟨1, ()⟩) ::ₘ .ending ::ₘ 0, [⟨0, ()⟩]⟩ :=
    .of_step (.take (c := .asking) rfl rfl rfl) (by simp) (.inl (by simp))
  have serving : Succeeds 1 1
      (⟨true, ⟨[], 1, true⟩, 2, .holding (some ⟨1, ()⟩) ::ₘ .ending ::ₘ 0, [⟨0, ()⟩]⟩ :
        Traffic Unit)
      ⟨true, ⟨[], 1, true⟩, 2, .serving ⟨1, ()⟩ ::ₘ .ending ::ₘ 0, [⟨1, ()⟩, ⟨0, ()⟩]⟩ :=
    .of_step (.lend rfl) (by simp) (.inl (by simp))
  have scheduling : Succeeds 1 1
      (⟨true, ⟨[], 1, true⟩, 2, .serving ⟨1, ()⟩ ::ₘ .ending ::ₘ 0, [⟨1, ()⟩, ⟨0, ()⟩]⟩ :
        Traffic Unit)
      ⟨true, ⟨[], 0, true⟩, 2, .scheduling ::ₘ .ending ::ₘ 0, [⟨1, ()⟩, ⟨0, ()⟩]⟩ :=
    .of_step (.release rfl (.nobody (by simp))) (by simp) (.inl (by simp))
  have overlooked : Succeeds 1 1
      (⟨true, ⟨[], 0, true⟩, 2, .scheduling ::ₘ .ending ::ₘ 0, [⟨1, ()⟩, ⟨0, ()⟩]⟩ : Traffic Unit)
      ⟨true, ⟨[], 0, true⟩, 2, .ending ::ₘ 0, [⟨1, ()⟩, ⟨0, ()⟩]⟩ :=
    .of_step (.leaveIt rfl (.inr rfl)) (by simp) (.inl (by simp))
  have ended : Succeeds 1 1
      (⟨true, ⟨[], 0, true⟩, 2, .ending ::ₘ 0, [⟨1, ()⟩, ⟨0, ()⟩]⟩ : Traffic Unit)
      ⟨true, ⟨[], 0, false⟩, 2, 0, [⟨1, ()⟩, ⟨0, ()⟩]⟩ :=
    .of_step (.endTask rfl) (by simp) (.inl (by simp))
  exact (((((ending.tail asking).tail holding).tail serving).tail scheduling).tail
    overlooked).tail ended

/-- One interpreter is wanted, every one that is made succeeds, and two guards were dropped; but
all is quiet and none is ready. -/
theorem ready_short :
    ¬ ∀ (max prewarm : Nat) (t : Traffic Unit), 0 < max → 0 < prewarm →
      Relation.ReflTransGen (Succeeds max prewarm) start t → t.calls = 0 → t.acquired ≠ [] →
        t.slots.free.length = prewarm := by
  intro always
  have one := always 1 1 _ Nat.one_pos Nat.one_pos overlooked_run rfl (List.cons_ne_nil _ _)
  exact absurd one (by simp)

/-- The guard after one that was overlooked. -/
theorem ready_filled_again :
    let t₀ : Traffic Unit := ⟨true, ⟨[], 0, false⟩, 2, 0, [⟨1, ()⟩, ⟨0, ()⟩]⟩
    let t : Traffic Unit := ⟨true, ⟨[⟨3, ()⟩], 0, false⟩, 4, 0, ⟨2, ()⟩ :: t₀.acquired⟩
    Steps 1 1 start t₀ ∧ Relation.ReflTransGen (Attends 1 1) t₀ t ∧ t.acquired ≠ t₀.acquired ∧
      t.calls = 0 ∧ t.slots.free.length = 1 := by
  intro t₀ t
  have before : Steps 1 1 start t₀ := overlooked_run.lift id fun _ _ s => s.1
  have ended : Attends 1 1 ⟨true, ⟨[⟨3, ()⟩], 0, true⟩, 4, .ending ::ₘ 0, t.acquired⟩ t :=
    .of_step (.endTask rfl) (by simp [t]) (.inl (by simp))
  have run := (round_run 2 t₀.acquired).tail ended
  have served : t.acquired ≠ t₀.acquired := by simp [t]
  exact ⟨before, run, served, rfl, ready_filled before run served rfl⟩

end Traffic

end ScriptServer.Server
