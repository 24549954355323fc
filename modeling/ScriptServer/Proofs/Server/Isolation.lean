import ScriptServer.Proofs.Script.Order
import ScriptServer.Proofs.Server.Outcomes

/-!
# Isolation of requests

Interpreters that a pool makes at one base while the files and the environment stay the same are the
same, the rest of the world aside, and do the same when they are called. The ready ones among them
have served nothing, so whatever was requested before, the next request is answered as it would have
been by a pool that has answered none, if the interpreter that answers had been made at the same
base. Where the objects of an interpreter lie, and so the texts of their addresses and the order in
which its tables are enumerated, is up to no request and no pool.
-/

namespace ScriptServer.Server

open Http (Request)
open Route (Registry validate)
open Script (Machine Standing Twins Related Ending)

/-! ### Interpreters that are the same -/

/-- The interpreters differ in the world at most, in what no script sees of it. -/
structure Same (i j : Interpreter) : Prop where
  alike : i.machine.Alike j.machine
  place : i.machine.place = j.machine.place

abbrev TwinReplicas (m m' : Machine Replica) : Prop := Twins Pacing.equal.coupling m m'

namespace Same

variable {i j : Interpreter}

theorem of_twins {m m' : Machine Replica} (h : TwinReplicas m m') : Same ⟨m⟩ ⟨m'⟩ :=
  ⟨h.alike, h.inStep.1⟩

theorem timed (h : Same i j) (t : Timer) : TwinReplicas (i.machine.timed t) (j.machine.timed t) :=
  ⟨h.alike.timed t t, h.place, rfl⟩

theorem enter (h : Same i j) {w w' : World} (hw : SameSights w w') :
    Same (i.enter w) (j.enter w') := by
  obtain ⟨i⟩ := i
  obtain ⟨j⟩ := j
  obtain ⟨⟨place, _, -⟩, same⟩ := h
  obtain rfl : i.place = place := same
  exact ⟨.intro i.place w' hw, rfl⟩

theorem addTexts (h : Same i j) (texts : Dictionary String) :
    (i.addTexts texts).1 = (j.addTexts texts).1 ∧
      Same (i.addTexts texts).2 (j.addTexts texts).2 := by
  obtain ⟨i⟩ := i
  obtain ⟨j⟩ := j
  obtain ⟨alike, place⟩ := h
  dsimp only at alike place
  unfold Interpreter.addTexts
  dsimp only
  rw [alike.heap, alike.arrangement]
  exact ⟨rfl, alike.withHeap _, place⟩

end Same

/-- Interpreters were made that are the same, or none for the same reason. -/
inductive SameMade : Ending Fault Interpreter → Ending Fault Interpreter → Prop where
  | ok {i j : Interpreter} : Same i j → SameMade (.ok i) (.ok j)
  | error (fault : Fault) : SameMade (.error fault) (.error fault)
  | panic (text : String) : SameMade (.panic text) (.panic text)
  | endless : SameMade .endless .endless

theorem replicaRun_same (p : Pool) {w w' : World} (h : SameSights w w')
    (base : w.bases 0 = w'.bases 0) :
    (replicaRun p w).1 = (replicaRun p w').1 ∧
      TwinReplicas (replicaRun p w).2 (replicaRun p w').2 := by
  have twins : TwinReplicas (freshMachine p.entry.args .fresh w)
      (freshMachine p.entry.args .fresh w') := by
    refine ⟨freshMachine_alike _ _ _ h base, ?_⟩
    rw [freshMachine_standing, freshMachine_standing]
    exact ⟨rfl, rfl⟩
  unfold replicaRun
  exact ((Related.runSource (Pacing.equal.agree p) p.entry.source).twins twins).resolve_right id

theorem ofMachine_same (keys : List Route.Key) {m m' : Machine Replica} (h : TwinReplicas m m') :
    SameMade (Interpreter.ofMachine keys m) (Interpreter.ofMachine keys m') := by
  obtain ⟨w, rfl, sights, -⟩ := Pacing.equal.twins h
  unfold Interpreter.ofMachine
  dsimp only
  cases divergence? m.place.registry.handlerKeys keys with
  | some d => exact .error _
  | none => exact .ok ⟨.intro _ w sights, rfl⟩

theorem accepted_same (keys : List Route.Key) {x y : Ending Script.Fault Unit × Machine Replica}
    (h : x.1 = y.1) (twins : TwinReplicas x.2 y.2) :
    SameMade (accepted keys x) (accepted keys y) := by
  obtain ⟨result, m⟩ := x
  obtain ⟨result', m'⟩ := y
  obtain rfl : result = result' := h
  cases result with
  | ok _ => exact ofMachine_same keys twins
  | error fault =>
    have place : m.place = m'.place := twins.inStep.1
    unfold accepted
    dsimp only
    rw [place]
    split
    · exact ofMachine_same keys twins
    · exact .error _
  | panic text => exact .panic text
  | endless => exact .endless

/-- Interpreters that a pool makes at one base in worlds that look the same are the same. -/
theorem build_same (p : Pool) (t : Route.Table) {w w' : World} (h : SameSights w w')
    (base : w.bases 0 = w'.bases 0) : SameMade (p.build t w).1 (p.build t w').1 := by
  cases starved : isStarved p.settings.memoryLimitBytes with
  | true =>
    rw [build_of_starved starved, build_of_starved starved]
    exact .error _
  | false =>
    obtain ⟨result, twins⟩ := replicaRun_same p h base
    rw [build_eq starved, build_eq starved]
    exact accepted_same t.handlerKeys result twins

/-- The same interpreters do the same when a handler is called with the same time for it. -/
theorem invoke_same (p : Pool) (id : Nat) (args : List Script.Value) (limit : Option Nat)
    {i j : Interpreter} (h : Same i j)
    (deadline : i.machine.world.deadline limit = j.machine.world.deadline limit) :
    (i.invoke p.context id args limit).1 = (j.invoke p.context id args limit).1 ∧
      Same (i.invoke p.context id args limit).2 (j.invoke p.context id args limit).2 := by
  have handlers : i.machine.handlers = j.machine.handlers := h.alike.handlers
  cases hf : i.machine.handlers.lookup id with
  | none =>
    rw [invoke_of_none hf, invoke_of_none (handlers ▸ hf)]
    exact ⟨rfl, h⟩
  | some f =>
    have start := h.timed (.start (i.machine.world.deadline limit))
    rw [invoke_eq hf, invoke_eq (handlers ▸ hf)]
    unfold limitedRun
    rw [← deadline]
    obtain ⟨result, twins⟩ := (Pacing.equal.handlerRun p f args start).resolve_right fun h => h
    revert result twins
    generalize handlerRun p.context f args (i.machine.timed _) = x
    generalize handlerRun p.context f args (j.machine.timed _) = y
    intro result twins
    have timer : x.2.world.timer = y.2.world.timer := twins.inStep.2
    rw [result, timer]
    exact ⟨rfl, .of_twins ((Same.of_twins twins).timed _)⟩

/-- The same interpreters do the same for a request that meets the same. -/
theorem callHandler_same (p : Pool) (e : Execution) {i j : Interpreter} (h : Same i j)
    (calls : i.machine.world.calls 0 = j.machine.world.calls 0) :
    (callHandler p e i).1 = (callHandler p e j).1 ∧
      Same (callHandler p e i).2 (callHandler p e j).2 := by
  have refuses : refusesTable p.settings.memoryLimitBytes e.params.length i.machine.world =
      refusesTable p.settings.memoryLimitBytes e.params.length j.machine.world := by
    unfold refusesTable
    rw [calls]
  unfold callHandler
  rw [refuses]
  split
  · exact ⟨rfl, h⟩
  · obtain ⟨params, prepared⟩ := h.addTexts e.params
    dsimp only
    rw [params]
    refine invoke_same p e.handler _ _ prepared ?_
    unfold World.deadline
    exact congrArg (fun c => Option.bind _ fun ms => Option.map (Deadline.mk ms) c.time) calls

/-! ### The interpreters of a pool -/

/-- What the pool makes at this base. -/
def madeAt (t : Route.Table) (s : Server) (base : Nat) : Ending Fault Interpreter :=
  (s.pool.build t (s.basedAt base).world).1

/-- The interpreters that are ready are the same as ones that are made, and so many are lent. A
crash of the entry script keeps its slot. -/
structure Pristine (made : Nat → Ending Fault Interpreter) (lent : Nat) (s : Server) : Prop where
  ready : ∀ i ∈ s.pool.slots.free, ∃ base, SameMade (made base) (.ok i)
  lent : s.pool.slots.checkedOut = lent ∨ ∃ base text, made base = .panic text

/-- The server is `s₀` but for its slots, and its ready interpreters have served nothing. -/
structure Unspoilt (t : Route.Table) (s₀ : Server) (lent : Nat) (s : Server) : Prop where
  steady : Steady s₀ s
  pristine : Pristine (madeAt t s₀) lent s

namespace Unspoilt

variable {t : Route.Table} {s₀ s : Server} {n : Nat}

/-- What the pool makes now is what it made at first at the same base. -/
theorem build (h : Unspoilt t s₀ n s) (slots : Slots Interpreter) :
    SameMade (madeAt t s₀ (s.world.bases 0)) (Pool.build { s.pool with slots } t s.world).1 := by
  rw [h.steady.build]
  have steady := (basedAt_steady s₀ (s.world.bases 0)).trans h.steady
  exact build_same s₀.pool t steady.sights rfl

/-- Only the ready interpreters and the number of those that are lent matter. -/
theorem of_slots (h : Unspoilt t s₀ n s) {s' : Server} (steady : Steady s s')
    (free : s'.pool.slots.free = s.pool.slots.free)
    (lent : s'.pool.slots.checkedOut = s.pool.slots.checkedOut) : Unspoilt t s₀ n s' where
  steady := h.steady.trans steady
  pristine := ⟨by rw [free]; exact h.pristine.ready, by rw [lent]; exact h.pristine.lent⟩

theorem log (h : Unspoilt t s₀ n s) (level : Log.Level) (message : String) :
    Unspoilt t s₀ n (s.log level message) :=
  h.of_slots ((Steady.refl s).log level message) rfl rfl

theorem inWorld (h : Unspoilt t s₀ n s) {w : World} (hw : SameSights s.world w) :
    Unspoilt t s₀ n { s with world := w } :=
  h.of_slots ((Steady.refl s).inWorld hw) rfl rfl

theorem endRefill (h : Unspoilt t s₀ n s) : Unspoilt t s₀ n (s.onSlots Slots.endRefill) :=
  h.of_slots ((Steady.refl s).onSlots _) rfl rfl

theorem release (h : Unspoilt t s₀ (n + 1) s) : Unspoilt t s₀ n (s.onSlots Slots.release) where
  steady := h.steady.onSlots _
  pristine := by
    refine ⟨h.pristine.ready, h.pristine.lent.imp_left fun lent => ?_⟩
    change s.pool.slots.checkedOut - 1 = n
    rw [lent]
    rfl

theorem store (h : Unspoilt t s₀ n s) {i : Interpreter} {base : Nat}
    (hi : SameMade (madeAt t s₀ base) (.ok i)) :
    Unspoilt t s₀ n (s.onSlots (Slots.store i)) where
  steady := h.steady.onSlots _
  pristine := by
    refine ⟨fun j hj => ?_, h.pristine.lent⟩
    rcases List.mem_cons.mp hj with rfl | hj
    · exact ⟨base, hi⟩
    · exact h.pristine.ready j hj

theorem refill : ∀ (m : Nat) {s : Server}, Unspoilt t s₀ n s → Unspoilt t s₀ n (refill t m s)
  | 0, _, h => h.endRefill
  | m + 1, s, h => by
    have made := h.build s.pool.slots
    have sights := build_sights s.pool t s.world
    unfold Server.refill
    revert made sights
    obtain ⟨result, w⟩ := s.pool.build t s.world
    intro made sights
    have moved := h.inWorld sights
    cases result with
    | ok i => exact refill m (moved.store made)
    | error e => exact (moved.log _ _).endRefill
    | panic text => exact moved.log _ _
    | endless => exact moved

theorem scheduleRefill (h : Unspoilt t s₀ n s) (published : s₀.pool.routes = .published t) :
    Unspoilt t s₀ n s.scheduleRefill := by
  unfold Server.scheduleRefill
  rw [h.steady.published published]
  dsimp only
  cases started : s.pool.slots.startRefill? s.pool.settings.prewarm with
  | none => exact h
  | some slots =>
    obtain ⟨-, -, rfl⟩ := Slots.startRefill?_eq_some started
    exact refill _ (h.of_slots (.of_parts s _ (.refl _)) rfl rfl)

theorem lend (h : Unspoilt t s₀ n s) (slots : Slots Interpreter)
    (free : ∀ i ∈ slots.free, i ∈ s.pool.slots.free)
    (lent : slots.checkedOut = s.pool.slots.checkedOut + 1) :
    Unspoilt t s₀ (n + 1) { s with pool := { s.pool with slots } } where
  steady := h.steady.trans (.of_parts s slots (.refl _))
  pristine := by
    refine ⟨fun i hi => h.pristine.ready i (free i hi), h.pristine.lent.imp_left fun old => ?_⟩
    rw [← old]
    exact lent

end Unspoilt

/-- What acquiring leads to. An interpreter takes a slot with it, and what never ends too. -/
inductive Acquired (t : Route.Table) (s₀ : Server) (n : Nat) :
    Ending Fault Interpreter × Server → Prop where
  | ok (i : Interpreter) {s : Server} : Unspoilt t s₀ (n + 1) s → Acquired t s₀ n (.ok i, s)
  | error (fault : Fault) {s : Server} : Unspoilt t s₀ n s → Acquired t s₀ n (.error fault, s)
  | panic (text : String) {s : Server} : Unspoilt t s₀ n s → Acquired t s₀ n (.panic text, s)
  | endless (s : Server) : Acquired t s₀ n (.endless, s)

namespace Unspoilt

variable {t : Route.Table} {s₀ s : Server} {n : Nat}

/-- While all slots are taken there is nothing to acquire. Otherwise what is acquired is the same as
what was made at first. -/
theorem acquire (h : Unspoilt t s₀ n s) (published : s₀.pool.routes = .published t) :
    (s.acquire.1 = .endless ∧ s.pool.settings.maxInterpreters ≤ s.pool.slots.checkedOut) ∨
      (∃ base, SameMade (madeAt t s₀ base) s.acquire.1) ∧ Acquired t s₀ n s.acquire := by
  unfold Server.acquire
  rw [h.steady.published published]
  dsimp only
  unfold Slots.take?
  by_cases room : s.pool.slots.checkedOut < s.pool.settings.maxInterpreters
  · rw [if_pos room]
    refine .inr ?_
    cases free : s.pool.slots.free with
    | cons i rest =>
      refine ⟨h.pristine.ready i (by rw [free]; exact List.mem_cons_self), .ok i (h.lend _ ?_ rfl)⟩
      exact fun j hj => by rw [free]; exact List.mem_cons_of_mem i hj
    | nil =>
      dsimp only [List.head?_nil, List.tail_nil]
      generalize taken : (⟨[], s.pool.slots.checkedOut + 1, s.pool.slots.refilling⟩ :
        Slots Interpreter) = slots
      have lent := h.lend slots (by rw [← taken]; simp) (by rw [← taken])
      have made := h.build slots
      have sights := build_sights { s.pool with slots } t s.world
      revert made sights
      obtain ⟨result, w⟩ := Pool.build { s.pool with slots } t s.world
      intro made sights
      have moved := lent.inWorld sights
      refine ⟨⟨s.world.bases 0, ?_⟩, ?_⟩
      · cases result <;> exact made
      · cases result with
        | ok i => exact .ok i moved
        | error fault => exact .error fault moved.release
        | panic text =>
          refine .panic text ⟨moved.steady, moved.pristine.ready, .inr ⟨s.world.bases 0, text, ?_⟩⟩
          generalize madeAt t s₀ (s.world.bases 0) = first at made
          cases made
          rfl
        | endless => exact .endless _
  · rw [if_neg room]
    exact .inl ⟨rfl, Nat.le_of_not_lt room⟩

end Unspoilt

/-! ### Answers -/

/-- What a request to a handler comes to, given what was acquired for it. -/
def resultFor (e : Execution) (s : Server) :
    Ending Fault Interpreter → Ending Fault Script.Synthesis
  | .ok i => (runHandler e i s).1
  | .error fault => .error fault
  | .panic text => .panic text
  | .endless => .endless

theorem runScript_eq (e : Execution) (s : Server) :
    (runScript e s).1 = resultFor e s.acquire.2 s.acquire.1 := by
  unfold runScript
  obtain ⟨result, s'⟩ := s.acquire
  cases result <;> rfl

/-- The same interpreters answer a request alike. -/
theorem runHandler_same (e : Execution) {i j : Interpreter} (h : Same i j) {s s' : Server}
    (steady : Steady s s') (calls : s.world.calls 0 = s'.world.calls 0) :
    (runHandler e i s).1 = (runHandler e j s').1 := by
  have pool : callHandler s'.pool e = callHandler s.pool e := by
    unfold callHandler
    rw [steady.settings, steady.context]
  obtain ⟨result, after⟩ := callHandler_same s.pool e (h.enter steady.sights) calls
  unfold runHandler
  dsimp only
  rw [pool, steady.settings]
  revert result after
  generalize callHandler s.pool e (i.enter s.world) = x
  generalize callHandler s.pool e (j.enter s'.world) = y
  obtain ⟨r, i'⟩ := x
  obtain ⟨r', j'⟩ := y
  intro result after
  obtain rfl : r = r' := result
  have heap : i'.machine.heap = j'.machine.heap := after.alike.heap
  cases r with
  | ok v =>
    dsimp only
    rw [heap]
  | _ => rfl

theorem resultFor_same (e : Execution) {a b : Ending Fault Interpreter} (h : SameMade a b)
    {s s' : Server} (steady : Steady s s') (calls : s.world.calls 0 = s'.world.calls 0) :
    resultFor e s a = resultFor e s' b := by
  cases h with
  | ok same => exact runHandler_same e same steady calls
  | _ => rfl

theorem acquire_calls (s : Server) : s.acquire.2.world.calls = s.world.calls := by
  unfold acquire
  split
  · rfl
  · split
    · rfl
    · rfl
    · rename_i table _ _ slots _
      have calls := (build_undisturbed { s.pool with slots } table s.world).2
      dsimp only
      revert calls
      obtain ⟨result, w⟩ := Pool.build { s.pool with slots } table s.world
      intro calls
      cases result <;> exact calls

/-- If no interpreter is ready and a slot is, one is made. -/
theorem acquire_of_none_free {t : Route.Table} {s : Server} (table : s.pool.table? = some t)
    (free : s.pool.slots.free = [])
    (room : s.pool.slots.checkedOut < s.pool.settings.maxInterpreters) :
    s.acquire.1 = (s.pool.build t s.world).1 := by
  unfold acquire
  rw [table]
  dsimp only
  unfold Slots.take?
  rw [if_pos room, free]
  dsimp only [List.head?_nil, List.tail_nil]
  rw [(Steady.refl s).build]
  obtain ⟨result, w⟩ := s.pool.build t s.world
  cases result <;> rfl

/-- The server when the next interpreters begin at this base and the next calls meet this. -/
def facing (base : Nat) (c : Circumstances) (s : Server) : Server :=
  { s with world := { s.world with bases := fun _ => base, calls := fun _ => c } }

theorem facing_steady (s : Server) (base : Nat) (c : Circumstances) :
    Steady (s.facing base c) s :=
  ⟨rfl, rfl, rfl, rfl, rfl, rfl, rfl⟩

theorem Steady.facing {s s' : Server} (h : Steady s s') (base : Nat) (c : Circumstances) :
    Steady (s.facing base c) (s'.facing base c) :=
  ((facing_steady s base c).trans h).inWorld ⟨rfl, rfl, rfl⟩

/-- What a request to a handler comes to for which an interpreter is made at this base. -/
theorem runScript_of_none_free {t : Route.Table} {s₀ s : Server} (steady : Steady s₀ s)
    (published : s₀.pool.routes = .published t) (free : s.pool.slots.free = [])
    (room : s.pool.slots.checkedOut < s₀.pool.settings.maxInterpreters) (e : Execution)
    (base : Nat) (c : Circumstances) :
    (runScript e (s.facing base c)).1 = resultFor e (s₀.facing base c) (madeAt t s₀ base) := by
  have there := steady.facing base c
  have made : SameMade (madeAt t s₀ base) (s.facing base c).acquire.1 := by
    rw [acquire_of_none_free (there.published published) free (steady.settings ▸ room)]
    rw [there.build (s.facing base c).pool.slots t]
    have based : Steady (s₀.basedAt base) (s.facing base c) :=
      ((basedAt_steady s₀ base).trans steady).inWorld ⟨rfl, rfl, rfl⟩
    exact build_same s₀.pool t based.sights rfl
  rw [runScript_eq]
  refine (resultFor_same e made (there.trans (acquire_steady _)) ?_).symm
  rw [acquire_calls]
  rfl

theorem runScript_first {t : Route.Table} {s₀ : Server} (published : s₀.pool.routes = .published t)
    (empty : s₀.pool.slots = .empty) (capacity : 1 ≤ s₀.pool.settings.maxInterpreters)
    (e : Execution) (base : Nat) (c : Circumstances) :
    (runScript e (s₀.facing base c)).1 = resultFor e (s₀.facing base c) (madeAt t s₀ base) :=
  runScript_of_none_free (.refl s₀) published (by rw [empty]; rfl) (by rw [empty]; exact capacity)
    e base c

/-- Wherever its interpreter lies, the handler of a first request returns a table with the contents
of this one. A text of an address in one of its fields would not be the same everywhere. -/
def ReturnsAlike (t : Route.Table) (s₀ : Server) (e : Execution) (c : Circumstances)
    (heap : Script.Heap) (id : Nat) : Prop :=
  ∀ base, ∃ heap' id', courseOf t e (s₀.facing base c) = .returned heap' (.table id') ∧
    Script.SameContents heap (heap.table id) heap' (heap'.table id')

/-- The first answer is the same wherever the interpreter lies if the tables have the same contents
and no header is given two values in two spellings. -/
theorem ReturnsAlike.runScript {t : Route.Table} {s₀ : Server} {e : Execution} {c : Circumstances}
    {heap : Script.Heap} {id : Nat} (alike : ReturnsAlike t s₀ e c heap id)
    (agree : Dictionary.Agree (Script.givenHeaders heap (.table id)))
    (published : s₀.pool.routes = .published t) (empty : s₀.pool.slots = .empty)
    (capacity : 1 ≤ s₀.pool.settings.maxInterpreters) (base : Nat) :
    (Server.runScript e (s₀.facing base c)).1 =
      .ok (Script.synthesize heap s₀.pool.settings.serverName (.table id)) := by
  have room : (s₀.facing base c).pool.slots.checkedOut <
      (s₀.facing base c).pool.settings.maxInterpreters := by
    change s₀.pool.slots.checkedOut < _
    rw [empty]
    exact capacity
  obtain ⟨heap', id', returned, contents⟩ := alike base
  rw [(runScript_course (((Steady.refl s₀).facing base c).published published) room e).1, returned]
  exact congrArg Ending.ok (contents.synthesize_eq _ agree)

/-- An interpreter that served is not kept. -/
theorem Unspoilt.runHandler {t : Route.Table} {s₀ s : Server} {n : Nat}
    (h : Unspoilt t s₀ (n + 1) s) (published : s₀.pool.routes = .published t) (e : Execution)
    (i : Interpreter) (ends : (runHandler e i s).1 ≠ .endless) :
    Unspoilt t s₀ n (runHandler e i s).2 := by
  obtain ⟨w, sights, after⟩ := runHandler_released ends
  rw [after]
  have moved : Unspoilt t s₀ (n + 1) { s with world := w } := h.inWorld sights
  exact moved.release.scheduleRefill published

theorem Unspoilt.runScript {t : Route.Table} {s₀ s : Server} {n : Nat} (h : Unspoilt t s₀ n s)
    (published : s₀.pool.routes = .published t) (e : Execution)
    (ends : (runScript e s).1 ≠ .endless) : Unspoilt t s₀ n (runScript e s).2 := by
  rcases h.acquire published with ⟨full, -⟩ | ⟨-, acquired⟩
  · rw [runScript_eq, full] at ends
    exact absurd rfl ends
  · unfold Server.runScript at ends ⊢
    revert ends acquired
    generalize s.acquire = x
    intro ends acquired
    cases acquired with
    | ok i lent => exact lent.runHandler published e i ends
    | error fault unspoilt => exact unspoilt
    | panic text unspoilt => exact unspoilt
    | endless s' => exact absurd rfl ends

/-- A request to a handler comes to what it would have come to at first in an interpreter made at
some base, unless it waits for a slot. -/
theorem Unspoilt.runScript_eq {t : Route.Table} {s₀ s : Server} {n : Nat} (h : Unspoilt t s₀ n s)
    (published : s₀.pool.routes = .published t) (empty : s₀.pool.slots = .empty)
    (capacity : 1 ≤ s₀.pool.settings.maxInterpreters) (e : Execution) :
    (∃ base, (Server.runScript e s).1 =
        (Server.runScript e (s₀.facing base (s.world.calls 0))).1) ∨
      (Server.runScript e s).1 = .endless ∧
        s₀.pool.settings.maxInterpreters ≤ s.pool.slots.checkedOut := by
  rw [Server.runScript_eq]
  rcases h.acquire published with ⟨waits, full⟩ | ⟨⟨base, made⟩, -⟩
  · rw [h.steady.settings] at full
    exact .inr ⟨by rw [waits]; rfl, full⟩
  · refine .inl ⟨base, ?_⟩
    rw [runScript_first published empty capacity]
    have steady : Steady (s₀.facing base (s.world.calls 0)) s :=
      (facing_steady s₀ _ _).trans h.steady
    refine (resultFor_same e made (steady.trans (acquire_steady s)) ?_).symm
    rw [acquire_calls]
    rfl

/-- A request is answered as it would have been at first by an interpreter made at some base, unless
it waits for a slot. -/
theorem Unspoilt.handle_eq {t : Route.Table} {s₀ s : Server} {n : Nat} (h : Unspoilt t s₀ n s)
    (published : s₀.pool.routes = .published t) (empty : s₀.pool.slots = .empty)
    (capacity : 1 ≤ s₀.pool.settings.maxInterpreters) (r : Request) :
    (∃ base, (handle t r s).1 = (handle t r (s₀.facing base (s.world.calls 0))).1) ∨
      (handle t r s).1 = .endless ∧
        s₀.pool.settings.maxInterpreters ≤ s.pool.slots.checkedOut := by
  rcases handle_cases t r with ⟨reply, answered⟩ | ⟨route, e, answered⟩
  · refine .inl ⟨0, ?_⟩
    rw [answered, answered, h.steady.sights.files]
    rfl
  · rcases h.runScript_eq published empty capacity e with ⟨base, same⟩ | ⟨waits, full⟩
    · refine .inl ⟨base, ?_⟩
      rw [(answered _).1, (answered _).1, same]
    · refine .inr ⟨?_, full⟩
      rw [(answered _).1, waits]
      rfl

/-- If an interpreter has to be made the answer is the first one at the same base. -/
theorem handle_of_none_free {t : Route.Table} {s₀ s : Server} (steady : Steady s₀ s)
    (published : s₀.pool.routes = .published t) (empty : s₀.pool.slots = .empty)
    (capacity : 1 ≤ s₀.pool.settings.maxInterpreters) (free : s.pool.slots.free = [])
    (room : s.pool.slots.checkedOut < s₀.pool.settings.maxInterpreters) (r : Request)
    (base : Nat) (c : Circumstances) :
    (handle t r (s.facing base c)).1 = (handle t r (s₀.facing base c)).1 := by
  rcases handle_cases t r with ⟨reply, answered⟩ | ⟨route, e, answered⟩
  · rw [answered, answered]
    exact congrArg (fun files => Ending.ok (reply files)) steady.sights.files
  · rw [(answered _).1, (answered _).1, runScript_first published empty capacity,
      runScript_of_none_free steady published free room]

/-! ### Histories -/

/-- What a server goes through after its routes were published: requests that are answered or on
which it crashes, tasks that make interpreters and may be late with some of them, and anything that
changes what scripts do not see. -/
inductive History (t : Route.Table) (s₀ : Server) : Server → Prop where
  | start : History t s₀ s₀
  | request {s : Server} (r : Request) (ends : (handle t r s).1 ≠ .endless) :
    History t s₀ s → History t s₀ (handle t r s).2
  | refill {s : Server} : History t s₀ s → History t s₀ s.scheduleRefill
  | late {s : Server} (free : List Interpreter) (refilling : Bool)
    (fewer : List.Sublist free s.pool.slots.free) :
    History t s₀ s → History t s₀ (s.onSlots fun slots => { slots with free, refilling })
  | world {s : Server} (w : World) (sights : SameSights s.world w) :
    History t s₀ s → History t s₀ { s with world := w }

theorem Unspoilt.execute {t : Route.Table} {s₀ s : Server} (h : Unspoilt t s₀ 0 s)
    (published : s₀.pool.routes = .published t) (e : Execution)
    (ends : (Server.runScript e s).1 ≠ .endless) : Unspoilt t s₀ 0 (execute e s).2 := by
  have ran := h.runScript published e ends
  unfold Server.execute
  revert ran
  generalize Server.runScript e s = x
  obtain ⟨result, s'⟩ := x
  intro ran
  cases result with
  | error fault => exact ran.log _ _
  | _ => exact ran

theorem Unspoilt.handle {t : Route.Table} {s₀ s : Server} (h : Unspoilt t s₀ 0 s)
    (published : s₀.pool.routes = .published t) (r : Request)
    (ends : (handle t r s).1 ≠ .endless) : Unspoilt t s₀ 0 (handle t r s).2 := by
  rcases handle_cases t r with ⟨reply, answered⟩ | ⟨route, e, answered⟩
  · rw [answered]
    exact h
  · rw [(answered s).1] at ends
    rw [(answered s).2]
    exact h.execute published e fun waits => ends (by rw [waits]; rfl)

theorem History.unspoilt {t : Route.Table} {s₀ s : Server}
    (published : s₀.pool.routes = .published t) (empty : s₀.pool.slots = .empty)
    (h : History t s₀ s) : Unspoilt t s₀ 0 s := by
  induction h with
  | start =>
    refine ⟨.refl s₀, ?_, ?_⟩
    · rw [empty]
      exact fun i hi => absurd hi List.not_mem_nil
    · rw [empty]
      exact .inl rfl
  | request r ends _ ih => exact ih.handle published r ends
  | refill _ ih => exact ih.scheduleRefill published
  | late free refilling fewer _ ih =>
    exact ⟨ih.steady.onSlots _, fun i hi => ih.pristine.ready i (fewer.subset hi), ih.pristine.lent⟩
  | world w sights _ ih => exact ih.inWorld sights

def bodyOf : Ending Empty Reply → Option Bytes
  | .ok reply => some reply.response.body
  | _ => none

theorem bodyOf_ends {body : Bytes} {answer : Ending Empty Reply} (h : bodyOf answer = some body) :
    answer ≠ .endless := by
  rintro rfl
  cases h

def headerOf (name : String) : Ending Empty Reply → Option String
  | .ok reply => reply.response.header? name
  | _ => none

/-- A header in two spellings. The tables of the second interpreter are enumerated from last to
first, and so it is the other spelling that comes last there. -/
example :
    let t : Route.Table :=
      ⟨[⟨⟨"GET", "/a"⟩, .handler 0, [.exact "a"]⟩], [⟨"GET", "/a"⟩]⟩
    let s := (ofScript ("[\x7b\"call\":\"router.get\",\"args\":[\"/a\"," ++
      "\x7b\"handler\":[\x7b\"return\":\x7b\"t\":[[\"headers\"," ++
      "\x7b\"t\":[[\"x-a\",\"1\"],[\"X-A\",\"2\"]]\x7d]]\x7d\x7d]\x7d]\x7d]")).withTable t
    let s₀ : Server :=
      { s with world := { s.world with bases := (· / 2), arrangement := alternating } }
    let r : Request := ⟨"GET", "/a", none, [], []⟩
    headerOf "X-A" (handle t r s₀).1 = some "2" ∧
      headerOf "X-A" (handle t r (handle t r s₀).2).1 = some "1" := by decide +kernel

end ScriptServer.Server
