import ScriptServer.Script.Eval

/-!
# Two runs side by side

A script runs in two interpreters that stand at different places of the server and have different
timers. `Alike`: nothing but the `router` module and the timer can tell the two apart. `Related`:
two runs that are alike at the start give the same and stay alike, unless one of these parts them on
the way; from then on each of them is on its own, and what held when they parted keeps holding.
-/

namespace ScriptServer

/-- The worlds show scripts the same. -/
structure SameSights (w w' : World) : Prop where
  files : w'.files = w.files
  env : w'.env = w.env
  arrangement : w'.arrangement = w.arrangement

namespace SameSights

theorem refl (w : World) : SameSights w w := ⟨rfl, rfl, rfl⟩

variable {w w' w'' : World}

theorem symm (h : SameSights w w') : SameSights w' w :=
  ⟨h.files.symm, h.env.symm, h.arrangement.symm⟩

theorem trans (h : SameSights w w') (h' : SameSights w' w'') : SameSights w w'' :=
  ⟨h'.files.trans h.files, h'.env.trans h.env, h'.arrangement.trans h.arrangement⟩

/-- What changes from one interpreter to the next and from one request to the next is not seen. -/
theorem of_parts (w : World) (bases : Nat → Nat) (timer : Timer) (calls : Nat → Circumstances) :
    SameSights w { w with bases, timer, calls } :=
  ⟨rfl, rfl, rfl⟩

end SameSights

namespace Script

variable {ρ ρ' α β : Type}

/-- What only the `router` module and the timer change of an interpreter, and what no script
changes. -/
structure Standing (ρ : Type) where
  place : ρ
  handlers : List (Nat × Closure)
  files : Files
  env : Environment
  arrangement : Arrangement
  timer : Timer
  calls : Nat → Circumstances

namespace Machine

def standing (m : Machine ρ) : Standing ρ :=
  ⟨m.place, m.handlers, m.world.files, m.world.env, m.world.arrangement, m.world.timer,
    m.world.calls⟩

@[simp] theorem standing_place (m : Machine ρ) : m.standing.place = m.place := rfl

@[simp] theorem standing_handlers (m : Machine ρ) : m.standing.handlers = m.handlers := rfl

def moved (m : Machine ρ) (place : ρ') (w : World) : Machine ρ' :=
  { heap := m.heap, globals := m.globals, loaded := m.loaded, handlers := m.handlers,
    labels := m.labels, params := m.params, place, world := w }

/-- The interpreters differ in their places at most, and in parts of the world that no script
reads. -/
inductive Alike (m : Machine ρ) : Machine ρ' → Prop where
  | intro (place : ρ') (w : World) (sights : SameSights m.world w) : Alike m (m.moved place w)

namespace Alike

theorem refl (m : Machine ρ) : m.Alike m := .intro m.place m.world (.refl _)

variable {m : Machine ρ} {m' : Machine ρ'}

theorem heap (h : m.Alike m') : m.heap = m'.heap := by cases h; rfl

theorem globals (h : m.Alike m') : m.globals = m'.globals := by cases h; rfl

theorem loaded (h : m.Alike m') : m.loaded = m'.loaded := by cases h; rfl

theorem handlers (h : m.Alike m') : m.handlers = m'.handlers := by cases h; rfl

theorem params (h : m.Alike m') : m.params = m'.params := by cases h; rfl

theorem sights (h : m.Alike m') : SameSights m.world m'.world := by
  obtain ⟨_, _, sights⟩ := h
  exact sights

theorem files (h : m.Alike m') : m.world.files = m'.world.files := h.sights.files.symm

theorem env (h : m.Alike m') : m.world.env = m'.world.env := h.sights.env.symm

theorem arrangement (h : m.Alike m') : m.world.arrangement = m'.world.arrangement :=
  h.sights.arrangement.symm

theorem withParams (h : m.Alike m') (params : List Value) :
    Machine.Alike { m with params } { m' with params } := by
  obtain ⟨p, w, sights⟩ := h
  exact .intro p w sights

/-- The heaps change alike. -/
theorem withHeap (h : m.Alike m') (heap : Heap) :
    Machine.Alike { m with heap } { m' with heap } := by
  obtain ⟨p, w, sights⟩ := h
  exact .intro p w sights

/-- The timers are free. -/
theorem timed (h : m.Alike m') (t t' : Timer) : (m.timed t).Alike (m'.timed t') := by
  obtain ⟨p, w, sights⟩ := h
  exact .intro p { w with timer := t' } ⟨sights.files, sights.env, sights.arrangement⟩

end Alike

end Machine

/-- A function of an interpreter that gives something and leaves the interpreter in a state. Runs
give outcomes. -/
abbrev Action (ρ α : Type) := Machine ρ → α × Machine ρ

def Keeps (P : Standing ρ → Prop) (r : Action ρ α) : Prop :=
  ∀ m, P m.standing → P (r m).2.standing

/-- A step changes the timer alone. -/
theorem tick_snd (m : Machine ρ) : (Run.tick m).2 = m.timed m.world.timer.next := by
  unfold Run.tick
  dsimp only
  split <;> rfl

theorem tick_fst {m : Machine ρ} {m' : Machine ρ'}
    (h : m.world.timer.next.exceeded? = m'.world.timer.next.exceeded?) :
    (Run.tick m).1 = (Run.tick m').1 := by
  unfold Run.tick
  dsimp only
  rw [h]
  split <;> rfl

theorem Keeps.tick {P : Standing ρ → Prop} (h : ∀ a, P a → P { a with timer := a.timer.next }) :
    Keeps P Run.tick := by
  intro m hm
  rw [tick_snd]
  exact h m.standing hm

/-- How two interpreters stand to each other while they run in step, and once they have parted. -/
structure Coupling (ρ ρ' : Type) where
  inStep : Standing ρ → Standing ρ' → Prop
  parted : Standing ρ → Standing ρ' → Prop

structure Twins (C : Coupling ρ ρ') (m : Machine ρ) (m' : Machine ρ') : Prop where
  alike : m.Alike m'
  inStep : C.inStep m.standing m'.standing

/-- Two actions keep twins in step or part them, and each of them keeps what is parted. -/
structure Related (C : Coupling ρ ρ') (r : Action ρ α) (r' : Action ρ' α) : Prop where
  left : ∀ b, Keeps (fun a => C.parted a b) r
  right : ∀ a, Keeps (fun b => C.parted a b) r'
  twins : ∀ {m : Machine ρ} {m' : Machine ρ'}, Twins C m m' →
    ((r m).1 = (r' m').1 ∧ Twins C (r m).2 (r' m').2) ∨
      C.parted (r m).2.standing (r' m').2.standing

namespace Action

def follow (r : Action ρ α) (next : α → Action ρ β) : Action ρ β := fun m => next (r m).1 (r m).2

end Action

namespace Run

def onResult (next : α → Run ρ β) : Outcome α → Run ρ β
  | .ok a => next a
  | .failed f => fail f

def settle : Outcome α → Run ρ Bool
  | .ok _ => pure true
  | .failed .endless => fail .endless
  | .failed _ => pure false

theorem bind_eq_follow (r : Run ρ α) (next : α → Run ρ β) :
    r >>= next = Action.follow r (onResult next) := by
  funext m
  change Run.bind r next m = _
  unfold Run.bind Action.follow
  rcases r m with ⟨_ | _, _⟩ <;> rfl

theorem attempt_eq_follow (r : Run ρ α) : r.attempt = Action.follow r settle := by
  funext m
  unfold attempt Action.follow
  rcases r m with ⟨_ | ⟨_ | _ | _ | _⟩, _⟩ <;> rfl

end Run

namespace Related

variable {C : Coupling ρ ρ'}

/-- Actions that leave the standing alone. -/
theorem of_local {r : Action ρ α} {r' : Action ρ' α}
    (hl : ∀ m, (r m).2.standing = m.standing) (hr : ∀ m, (r' m).2.standing = m.standing)
    (h : ∀ {m : Machine ρ} {m' : Machine ρ'}, m.Alike m' →
      (r m).1 = (r' m').1 ∧ (r m).2.Alike (r' m').2) :
    Related C r r' where
  left b m hm := by rw [hl]; exact hm
  right a m hm := by rw [hr]; exact hm
  twins := by
    intro m m' t
    obtain ⟨ho, ha⟩ := h t.alike
    refine .inl ⟨ho, ha, ?_⟩
    rw [hl, hr]
    exact t.inStep

/-- Actions that change nothing. -/
theorem give (a : α) : Related C (fun m => (a, m)) (fun m => (a, m)) :=
  of_local (fun _ => rfl) (fun _ => rfl) fun h => ⟨rfl, h⟩

theorem pure (a : α) : Related C (Pure.pure a : Run ρ α) (Pure.pure a : Run ρ' α) := give _

theorem fail (f : Failure) : Related C (Run.fail f : Run ρ α) (Run.fail f : Run ρ' α) := give _

theorem failWith (text : String) :
    Related C (Run.failWith text : Run ρ α) (Run.failWith text : Run ρ' α) :=
  fail _

theorem failAt (f : Frame) (text : String) :
    Related C (Run.failAt f text : Run ρ α) (Run.failAt f text : Run ρ' α) :=
  fail _

theorem follow {r : Action ρ α} {r' : Action ρ' α} {k : α → Action ρ β} {k' : α → Action ρ' β}
    (h : Related C r r') (hk : ∀ o, Related C (k o) (k' o)) :
    Related C (r.follow k) (r'.follow k') where
  left b m hm := (hk _).left b _ (h.left b m hm)
  right a m hm := (hk _).right a _ (h.right a m hm)
  twins := by
    intro m m' t
    unfold Action.follow
    rcases h.twins t with ⟨ho, t⟩ | hp
    · rw [← ho]
      exact (hk _).twins t
    · exact .inr ((hk _).left _ _ ((hk _).right _ _ hp))

theorem bind {r : Run ρ α} {r' : Run ρ' α} {k : α → Run ρ β} {k' : α → Run ρ' β}
    (h : Related C r r') (hk : ∀ a, Related C (k a) (k' a)) :
    Related C (r >>= k : Run ρ β) (r' >>= k' : Run ρ' β) := by
  rw [Run.bind_eq_follow, Run.bind_eq_follow]
  exact h.follow fun
    | .ok a => hk a
    | .failed f => fail f

theorem attempt {r : Run ρ α} {r' : Run ρ' α} (h : Related C r r') :
    Related C r.attempt r'.attempt := by
  rw [Run.attempt_eq_follow, Run.attempt_eq_follow]
  exact h.follow fun
    | .ok _ => pure true
    | .failed .endless => fail .endless
    | .failed (.value _) | .failed (.message _) | .failed (.panic _) => pure false

/-- Runs that begin with a look at the state. Each of the two sees its own. -/
theorem get_bind {k : Machine ρ → Run ρ β} {k' : Machine ρ' → Run ρ' β}
    (h : ∀ {m : Machine ρ} {m' : Machine ρ'}, m.Alike m' → Related C (k m) (k' m')) :
    Related C (Run.get >>= k : Run ρ β) (Run.get >>= k' : Run ρ' β) where
  left b m hm := (h (.intro b.place m.world (.refl _))).left b m hm
  right a m hm :=
    (h (m := m.moved a.place m.world) (.intro m.place m.world (.refl _))).right a m hm
  twins t := (h t.alike).twins t

theorem onHeap (change : Heap → α × Heap) :
    Related C (Run.onHeap change : Run ρ α) (Run.onHeap change : Run ρ' α) :=
  of_local (fun _ => rfl) (fun _ => rfl) fun ⟨p, w, sights⟩ => ⟨rfl, .intro p w sights⟩

theorem making (change : Heap → α × Heap) :
    Related C (Run.making change : Run ρ α) (Run.making change : Run ρ' α) := by
  refine of_local (fun _ => rfl) (fun _ => rfl) fun {m m'} h => ?_
  unfold Run.making
  rw [h.heap, h.arrangement]
  exact ⟨rfl, h.withHeap _⟩

/-- Changes of what a script can see, made in both. -/
theorem modify {change : Machine ρ → Machine ρ} {change' : Machine ρ' → Machine ρ'}
    (hl : ∀ m, (change m).standing = m.standing) (hr : ∀ m, (change' m).standing = m.standing)
    (h : ∀ {m : Machine ρ} {m' : Machine ρ'}, m.Alike m' → (change m).Alike (change' m')) :
    Related C (Run.modify change) (Run.modify change') :=
  of_local hl hr fun ha => ⟨rfl, h ha⟩

theorem withParams {r : Run ρ α} {r' : Run ρ' α} (params : List Value) (h : Related C r r') :
    Related C (Run.withParams params r) (Run.withParams params r') where
  left b m hm := h.left b { m with params } hm
  right a m hm := h.right a { m with params } hm
  twins := by
    intro m m' t
    rcases h.twins ⟨t.alike.withParams params, t.inStep⟩ with ⟨ho, t'⟩ | hp
    · refine .inl ⟨ho, ?_, t'.inStep⟩
      unfold Run.withParams
      rw [← t.alike.params]
      exact t'.alike.withParams m.params
    · exact .inr hp

end Related

end Script

end ScriptServer
