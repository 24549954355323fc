import ScriptServer.Proofs.Script.Synthesis
import ScriptServer.Proofs.Server.Deadline
import ScriptServer.Proofs.Server.Traffic

/-!
# Outcomes of requests to handlers

What a request to a handler comes to is what the handler would do without a limit in the interpreter
that is ready first, or in a new one, if it does that in time (`courseOf`). Whatever that is, a
request that is answered gives its slot back, and its interpreter is not kept: the ready ones are
those that were, but for the first one, and new ones that have served nothing (`Stocked`).
-/

namespace ScriptServer

namespace Server

open Http (Request Response)
open Script (Ending)

/-! ### What a request comes to -/

/-- The interpreter for a request: the one that is ready first, or else a new one. -/
def replicaFor (t : Route.Table) (s : Server) : Ending Fault Interpreter × World :=
  match s.pool.slots.free with
  | i :: _ => (.ok i, s.world)
  | [] => s.pool.build t s.world

/-- What a request to a handler comes to. -/
inductive Course where
  /-- The handler has returned a value among these objects. -/
  | returned (heap : Script.Heap) (v : Script.Value)
  /-- No interpreter could be made, there was no memory for the parameters, or the handler has
  failed. -/
  | failed (fault : Fault)
  /-- The handler would have taken longer than so many milliseconds. -/
  | stopped (limit : Nat)
  | crashed (text : String)
  | endless

/-- What a run comes to for which there is no limit. -/
def Course.ofRun : Ending Script.Fault Script.Value × Script.Machine Replica → Course
  | (.ok v, m) => .returned m.heap v
  | (.error fault, _) => .failed (.script fault)
  | (.panic text, _) => .crashed text
  | (.endless, _) => .endless

/-- What a handler comes to in an interpreter: what it would without a limit, if it does so within
the limit that there is. -/
def courseIn (p : Pool) (e : Execution) (i : Interpreter) : Course :=
  if refusesTable p.settings.memoryLimitBytes e.params.length i.machine.world then
    .failed (.script Script.noMemory)
  else
    let (params, i) := i.addTexts e.params
    let args := [.ofText e.method, .ofText e.path, params]
    match i.machine.handlers.lookup e.handler with
    | none => .failed (.noHandler e.handler)
    | some f =>
      let alone := unlimitedRun p.context f args i.machine
      match p.settings.handlerTimeoutMs with
      | none => .ofRun alone
      | some limit =>
        if isLate p.context f args limit i.machine || alone.1.isEndless then .stopped limit
        else .ofRun alone

theorem Steady.course {s s' : Server} (h : Steady s s') : courseIn s'.pool = courseIn s.pool := by
  unfold courseIn
  rw [h.settings, h.context]

/-- What a request comes to for which there is a slot. -/
def courseOf (t : Route.Table) (e : Execution) (s : Server) : Course :=
  match replicaFor t s with
  | (.ok i, w) => courseIn s.pool e (i.enter w)
  | (.error fault, _) => .failed fault
  | (.panic text, _) => .crashed text
  | (.endless, _) => .endless

namespace Course

/-- The handler returned, failed or was stopped, or no interpreter could be made. -/
def isAnswered : Course → Bool
  | returned _ _ | failed _ | stopped _ => true
  | crashed _ | endless => false

def result (serverName : String) : Course → Ending Fault Script.Synthesis
  | returned heap v => .ok (Script.synthesize heap serverName v)
  | failed fault => .error fault
  | stopped limit => .error (.timeout limit)
  | crashed text => .panic text
  | endless => .endless

def fault? : Course → Option Fault
  | failed fault => some fault
  | stopped limit => some (.timeout limit)
  | _ => none

theorem result_ne_endless {course : Course} (h : course.isAnswered = true) (serverName : String) :
    course.result serverName ≠ .endless := by
  cases course with
  | endless => cases h
  | _ => exact nofun

end Course

/-! ### Faults that are no time-outs -/

theorem ofMachine_ne_timeout (keys : List Route.Key) (m : Script.Machine Replica) (ms : Nat) :
    Interpreter.ofMachine keys m ≠ .error (.timeout ms) := by
  unfold Interpreter.ofMachine
  split <;> exact nofun

theorem accepted_ne_timeout (keys : List Route.Key)
    (x : Ending Script.Fault Unit × Script.Machine Replica) (ms : Nat) :
    accepted keys x ≠ .error (.timeout ms) := by
  obtain ⟨result, m⟩ := x
  cases result with
  | ok _ => exact ofMachine_ne_timeout keys m ms
  | error fault =>
    unfold accepted
    dsimp only
    split
    · exact ofMachine_ne_timeout keys m ms
    · exact nofun
  | panic text | endless => exact nofun

theorem build_ne_timeout (p : Pool) (t : Route.Table) (w : World) (ms : Nat) :
    (p.build t w).1 ≠ .error (.timeout ms) := by
  cases starved : isStarved p.settings.memoryLimitBytes with
  | true =>
    rw [build_of_starved starved]
    exact nofun
  | false =>
    rw [build_eq starved]
    exact accepted_ne_timeout _ _ ms

theorem replicaFor_ne_timeout (t : Route.Table) (s : Server) (ms : Nat) :
    (replicaFor t s).1 ≠ .error (.timeout ms) := by
  unfold replicaFor
  split
  · exact nofun
  · exact build_ne_timeout s.pool t s.world ms

theorem Course.ofRun_ne_timeout
    (x : Ending Script.Fault Script.Value × Script.Machine Replica) (ms : Nat) :
    Course.ofRun x ≠ .failed (.timeout ms) := by
  obtain ⟨result, m⟩ := x
  cases result <;> exact nofun

theorem courseIn_ne_timeout (p : Pool) (e : Execution) (i : Interpreter) (ms : Nat) :
    courseIn p e i ≠ .failed (.timeout ms) := by
  unfold courseIn
  dsimp only
  split
  · exact nofun
  · split
    · exact nofun
    · split
      · exact Course.ofRun_ne_timeout _ ms
      · split
        · exact nofun
        · exact Course.ofRun_ne_timeout _ ms

/-- Only a handler that was stopped has run too long. -/
theorem courseOf_ne_timeout (t : Route.Table) (e : Execution) (s : Server) (ms : Nat) :
    courseOf t e s ≠ .failed (.timeout ms) := by
  have made := replicaFor_ne_timeout t s ms
  unfold courseOf
  revert made
  generalize replicaFor t s = x
  obtain ⟨result, w⟩ := x
  intro made
  cases result with
  | ok i => exact courseIn_ne_timeout s.pool e _ ms
  | error fault =>
    rintro ⟨⟩
    exact made rfl
  | panic text | endless => exact nofun

/-! ### The interpreters of a pool -/

/-- So many interpreters are lent, and the ready ones are these and new ones, which the pool of `s₀`
makes and which have served nothing. -/
structure Stocked (t : Route.Table) (s₀ : Server) (lent : Nat) (rest : List Interpreter)
    (s : Server) : Prop where
  steady : Steady s₀ s
  lent : s.pool.slots.checkedOut = lent
  free : ∃ new, s.pool.slots.free = new ++ rest ∧
    ∀ i ∈ new, ∃ w, SameSights s₀.world w ∧ (s₀.pool.build t w).1 = .ok i

namespace Stocked

variable {t : Route.Table} {s₀ s s' : Server} {n : Nat} {rest : List Interpreter}

/-- Only the ready interpreters and the number of those that are lent matter. -/
theorem of_slots (h : Stocked t s₀ n rest s) (steady : Steady s s')
    (free : s'.pool.slots.free = s.pool.slots.free)
    (lent : s'.pool.slots.checkedOut = s.pool.slots.checkedOut) : Stocked t s₀ n rest s' where
  steady := h.steady.trans steady
  lent := lent.trans h.lent
  free := by
    rw [free]
    exact h.free

theorem log (h : Stocked t s₀ n rest s) (level : Log.Level) (message : String) :
    Stocked t s₀ n rest (s.log level message) :=
  h.of_slots ((Steady.refl s).log level message) rfl rfl

theorem inWorld (h : Stocked t s₀ n rest s) {w : World} (hw : SameSights s.world w) :
    Stocked t s₀ n rest { s with world := w } :=
  h.of_slots ((Steady.refl s).inWorld hw) rfl rfl

theorem endRefill (h : Stocked t s₀ n rest s) :
    Stocked t s₀ n rest (s.onSlots Slots.endRefill) :=
  h.of_slots ((Steady.refl s).onSlots _) rfl rfl

theorem release (h : Stocked t s₀ (n + 1) rest s) :
    Stocked t s₀ n rest (s.onSlots Slots.release) where
  steady := h.steady.onSlots _
  lent := by
    change s.pool.slots.checkedOut - 1 = n
    rw [h.lent]
    rfl
  free := h.free

theorem store (h : Stocked t s₀ n rest s) {i : Interpreter} {w : World}
    (made : s.pool.build t s.world = (.ok i, w)) :
    Stocked t s₀ n rest ({ s with world := w }.onSlots (Slots.store i)) where
  steady := by
    have sights := build_sights s.pool t s.world
    rw [made] at sights
    exact (h.steady.inWorld sights).onSlots _
  lent := h.lent
  free := by
    obtain ⟨new, free, fresh⟩ := h.free
    refine ⟨i :: new, congrArg (i :: ·) free, fun j hj => ?_⟩
    rcases List.mem_cons.mp hj with rfl | hj
    · refine ⟨s.world, h.steady.sights, ?_⟩
      rw [← h.steady.build s.pool.slots t]
      exact congrArg Prod.fst made
    · exact fresh j hj

theorem refill : ∀ (m : Nat) {s : Server}, Stocked t s₀ n rest s →
    Stocked t s₀ n rest (refill t m s)
  | 0, _, h => h.endRefill
  | m + 1, s, h => by
    have sights := build_sights s.pool t s.world
    unfold Server.refill
    cases made : s.pool.build t s.world with
    | mk result w =>
      rw [made] at sights
      have moved := h.inWorld sights
      cases result with
      | ok i => exact refill m (h.store made)
      | error e => exact (moved.log _ _).endRefill
      | panic text => exact moved.log _ _
      | endless => exact moved

theorem scheduleRefill (h : Stocked t s₀ n rest s) (published : s₀.pool.table? = some t) :
    Stocked t s₀ n rest s.scheduleRefill := by
  unfold Server.scheduleRefill
  rw [h.steady.table, published]
  dsimp only
  cases started : s.pool.slots.startRefill? s.pool.settings.prewarm with
  | none => exact h
  | some slots =>
    obtain ⟨-, -, rfl⟩ := Slots.startRefill?_eq_some started
    exact refill _ (h.of_slots (.of_parts s _ (.refl _)) rfl rfl)

/-- A handler that comes to its end gives the slot back. -/
theorem runHandler (h : Stocked t s₀ (n + 1) rest s) (published : s₀.pool.table? = some t)
    (e : Execution) (i : Interpreter) (ends : (runHandler e i s).1 ≠ .endless) :
    Stocked t s₀ n rest (runHandler e i s).2 := by
  obtain ⟨w, sights, after⟩ := runHandler_released ends
  rw [after]
  have moved : Stocked t s₀ (n + 1) rest { s with world := w } := h.inWorld sights
  exact moved.release.scheduleRefill published

end Stocked

/-! ### Running a handler -/

variable {t : Route.Table} {s : Server} {e : Execution}

/-- What a call gives, with its value made into a response from the objects that are there then. -/
def synthesized (serverName : String) :
    Ending Fault Script.Value × Interpreter → Ending Fault Script.Synthesis
  | (.ok v, i) => .ok (Script.synthesize i.machine.heap serverName v)
  | (.error fault, _) => .error fault
  | (.panic text, _) => .panic text
  | (.endless, _) => .endless

theorem synthesized_ofRun {result : Ending Script.Fault Script.Value} {i : Interpreter}
    {m : Script.Machine Replica} (heap : i.machine.heap = m.heap) (serverName : String) :
    synthesized serverName (Interpreter.ofRun result, i) =
      (Course.ofRun (result, m)).result serverName := by
  cases result with
  | ok v => exact congrArg (fun h => Ending.ok (Script.synthesize h serverName v)) heap
  | _ => rfl

/-- A call comes to its course. -/
theorem callHandler_course (p : Pool) (e : Execution) (i : Interpreter) (serverName : String) :
    synthesized serverName (callHandler p e i) = (courseIn p e i).result serverName := by
  unfold callHandler courseIn
  cases refusesTable p.settings.memoryLimitBytes e.params.length i.machine.world with
  | true => rfl
  | false =>
    rw [if_neg Bool.false_ne_true, if_neg Bool.false_ne_true]
    obtain ⟨params, i⟩ := i.addTexts e.params
    dsimp only
    generalize p.settings.handlerTimeoutMs = limit
    cases found : i.machine.handlers.lookup e.handler with
    | none =>
      rw [invoke_of_none found]
      rfl
    | some f =>
      dsimp only
      obtain ⟨result, heap⟩ :=
        invoke_alone p [.ofText e.method, .ofText e.path, params] limit found
      revert result heap
      generalize Interpreter.invoke _ _ _ limit i = x
      obtain ⟨called, i'⟩ := x
      rintro rfl heap
      generalize unlimitedRun _ f _ i.machine = alone at heap ⊢
      cases limit with
      | none => exact synthesized_ofRun (heap rfl) serverName
      | some ms =>
        dsimp only [Interpreter.withLimit]
        generalize isLate _ f _ _ i.machine = late at heap ⊢
        cases stopped : late || alone.1.isEndless with
        | true => rfl
        | false => exact synthesized_ofRun (heap (Bool.or_eq_false_iff.mp stopped).1) serverName

theorem runHandler_course (e : Execution) (i : Interpreter) (s : Server) :
    (runHandler e i s).1 =
      (courseIn s.pool e (i.enter s.world)).result s.pool.settings.serverName := by
  rw [← callHandler_course]
  unfold runHandler
  obtain ⟨result, i'⟩ := callHandler s.pool e (i.enter s.world)
  cases result <;> rfl

/-- What acquiring leads to while there is a slot. -/
inductive Equipped (t : Route.Table) (s : Server) : Ending Fault Interpreter × Server → Prop where
  | ok {i : Interpreter} {w : World} {s' : Server} (made : replicaFor t s = (.ok i, w))
    (world : s'.world = w)
    (lent : Stocked t s (s.pool.slots.checkedOut + 1) s.pool.slots.free.tail s') :
    Equipped t s (.ok i, s')
  | error {fault : Fault} {w : World} {s' : Server} (made : replicaFor t s = (.error fault, w))
    (kept : Stocked t s s.pool.slots.checkedOut s.pool.slots.free.tail s') :
    Equipped t s (.error fault, s')
  | panic {text : String} {w : World} (s' : Server) (made : replicaFor t s = (.panic text, w)) :
    Equipped t s (.panic text, s')
  | endless {w : World} (s' : Server) (made : replicaFor t s = (.endless, w)) :
    Equipped t s (.endless, s')

theorem acquire_equipped (published : s.pool.table? = some t)
    (room : s.pool.slots.checkedOut < s.pool.settings.maxInterpreters) :
    Equipped t s s.acquire := by
  have taken (slots : Slots Interpreter) (lent : slots.checkedOut = s.pool.slots.checkedOut + 1)
      (free : slots.free = s.pool.slots.free.tail) :
      Stocked t s (s.pool.slots.checkedOut + 1) s.pool.slots.free.tail
        { s with pool := { s.pool with slots } } :=
    ⟨.of_parts s slots (.refl _), lent, [], free, fun _ h => absurd h List.not_mem_nil⟩
  unfold Server.acquire
  rw [published]
  dsimp only
  rw [Slots.take?, if_pos room]
  cases free : s.pool.slots.free with
  | cons i rest =>
    rw [free] at taken
    refine .ok ?_ rfl ?_
    · unfold replicaFor
      rw [free]
    · rw [free]
      exact taken _ rfl rfl
  | nil =>
    dsimp only [List.head?_nil, List.tail_nil]
    rw [free] at taken
    have lent := taken ⟨[], s.pool.slots.checkedOut + 1, s.pool.slots.refilling⟩ rfl rfl
    have same : replicaFor t s = s.pool.build t s.world := by
      unfold replicaFor
      rw [free]
    have sights := build_sights s.pool t s.world
    -- making an interpreter does not depend on the slots
    have unchanged (slots : Slots Interpreter) :
        Pool.build { s.pool with slots } t s.world = s.pool.build t s.world := rfl
    rw [unchanged]
    cases made : s.pool.build t s.world with
    | mk result w =>
      rw [made] at sights same
      have moved := lent.inWorld sights
      cases result with
      | ok i => exact .ok same rfl (by rw [free]; exact moved)
      | error fault => exact .error same (by rw [free]; exact moved.release)
      | panic text => exact .panic _ same
      | endless => exact .endless _ same

/-- A request for which there is a slot comes to its course, and gives the slot back if it is
answered. -/
theorem runScript_course (published : s.pool.table? = some t)
    (room : s.pool.slots.checkedOut < s.pool.settings.maxInterpreters) (e : Execution) :
    (runScript e s).1 = (courseOf t e s).result s.pool.settings.serverName ∧
      ((courseOf t e s).isAnswered = true →
        Stocked t s s.pool.slots.checkedOut s.pool.slots.free.tail (runScript e s).2) := by
  have equipped := acquire_equipped published room
  have steady := acquire_steady s
  unfold runScript courseOf
  revert equipped steady
  generalize s.acquire = x
  intro equipped steady
  cases equipped with
  | @ok i w s' made world lent =>
    rw [made]
    dsimp only
    have course := runHandler_course e i s'
    rw [steady.course, steady.settings, world] at course
    refine ⟨course, fun answered => lent.runHandler published e i ?_⟩
    rw [course]
    exact Course.result_ne_endless answered _
  | error made kept =>
    rw [made]
    exact ⟨rfl, fun _ => kept⟩
  | panic s' made | endless s' made =>
    rw [made]
    exact ⟨rfl, nofun⟩

/-! ### Answers -/

@[simp] theorem status_ofText (status : Nat) (text : String) :
    (Response.ofText status text).status = status := rfl

theorem failureResponse_status {fault : Fault} (h : ∀ ms, fault ≠ .timeout ms) :
    failureResponse fault = .ofText 500 fault.message := by
  cases fault with
  | timeout limit => exact absurd rfl (h limit)
  | _ => rfl

variable {r : Request} {key : Route.Key} {id : Nat} {params : Dictionary String}

/-- A request to a handler is answered with what its run gives. -/
theorem handle_handler (found : t.resolve r.method r.path = .found key (.handler id) params)
    (s : Server) :
    (handle t r s).1 =
        replyTo (some key.text) (runScript (.start id r.method r.path params) s).1 ∧
      (handle t r s).2 = (execute (.start id r.method r.path params) s).2 := by
  unfold handle execute
  rw [found]
  dsimp only
  generalize runScript _ s = x
  obtain ⟨result, s'⟩ := x
  cases result <;> exact ⟨rfl, rfl⟩

theorem Stocked.execute {s₀ : Server} {n : Nat} {rest : List Interpreter}
    (h : Stocked t s₀ n rest (runScript e s).2) : Stocked t s₀ n rest (execute e s).2 := by
  unfold Server.execute
  revert h
  generalize runScript e s = x
  obtain ⟨result, s'⟩ := x
  intro h
  cases result with
  | error fault => exact h.log _ _
  | _ => exact h

/-- While all slots are taken a request to a handler waits. -/
theorem handle_full (published : s.pool.routes = .published t)
    (found : t.resolve r.method r.path = .found key (.handler id) params)
    (full : s.pool.settings.maxInterpreters ≤ s.pool.slots.checkedOut) :
    handle t r s = (.endless, s) := by
  have table : s.pool.table? = some t := by rw [Pool.table?, published]
  have waits : s.acquire = (.endless, s) := by
    rw [Server.acquire, table]
    dsimp only
    rw [Slots.take?, if_neg (Nat.not_lt.mpr full)]
  have ran : runScript (.start id r.method r.path params) s = (.endless, s) := by
    rw [runScript, waits]
  have executed : execute (.start id r.method r.path params) s = (.endless, s) := by
    rw [execute, ran]
  obtain ⟨answered, after⟩ := handle_handler found s
  rw [ran] at answered
  rw [executed] at after
  exact Prod.ext answered after

end Server

end ScriptServer
