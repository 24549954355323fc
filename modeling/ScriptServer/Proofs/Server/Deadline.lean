import ScriptServer.Proofs.Server.Frame

/-!
# Handlers and their deadlines

Two replicas that differ in their timers run in step as long as the timers agree on every step
(`Pacing`). A handler that has a deadline runs in step with one that has none until the deadline has
passed, and from then on every step fails. So the call of a handler comes to what the handler does
without a limit, if it takes no more steps than there is time for, and to a time-out otherwise
(`invoke_alone`).
-/

namespace ScriptServer.Server

open Script (Machine Coupling Twins Related Serves Agree Ending Keeps)

/-- How two timers go on side by side, and once a step has failed in one of the two runs. -/
structure Pacing where
  inStep : Timer → Timer → Prop
  parted : Timer → Timer → Prop
  step : ∀ {t t' : Timer}, inStep t t' →
    (t.next.exceeded? = t'.next.exceeded? ∧ inStep t.next t'.next) ∨ parted t.next t'.next
  left : ∀ {t t' : Timer}, parted t t' → parted t.next t'
  right : ∀ {t t' : Timer}, parted t t' → parted t t'.next

namespace Pacing

/-- Two replicas with the same registry. -/
def coupling (P : Pacing) : Coupling Replica Replica where
  inStep a b := a.place = b.place ∧ P.inStep a.timer b.timer
  parted a b := P.parted a.timer b.timer

variable (P : Pacing)

theorem twins {m m' : Machine Replica} (h : Twins P.coupling m m') :
    ∃ w, m' = { m with world := w } ∧ SameSights m.world w ∧
      P.inStep m.world.timer w.timer := by
  obtain ⟨⟨place, w, sights⟩, same, timers⟩ := h
  obtain rfl : m.place = place := same
  exact ⟨w, rfl, sights, timers⟩

/-- What a replica registers depends on its registry alone. -/
theorem serves : Serves P.coupling Replica.services Replica.services := by
  have left (b : Timer) := replica_upholds (P := fun a => P.parted a.timer b)
    (fun _ => P.left) fun _ _ _ => id
  have right (a : Timer) := replica_upholds (P := fun b => P.parted a b.timer)
    (fun _ => P.right) fun _ _ _ => id
  refine ⟨⟨fun b => (left b.timer).tick, fun a => (right a.timer).tick, fun {m m'} twins => ?_⟩,
    fun method pattern f => ⟨fun b => (left b.timer).handler method pattern f,
      fun a => (right a.timer).handler method pattern f, fun {m m'} twins => .inl ?_⟩,
    fun kind start path => ⟨fun b => (left b.timer).static kind start path,
      fun a => (right a.timer).static kind start path, fun {m m'} twins => .inl ?_⟩,
    fun addr => ⟨fun b => (left b.timer).listen addr, fun a => (right a.timer).listen addr,
      fun {m m'} twins => .inl ?_⟩⟩
  · obtain ⟨same, timers⟩ := twins.inStep
    rw [Script.tick_snd, Script.tick_snd]
    rcases P.step timers with ⟨exceeded, timers⟩ | parted
    · exact .inl ⟨Script.tick_fst exceeded, twins.alike.timed _ _, same, timers⟩
    · exact .inr parted
  · obtain ⟨w, rfl, sights, timers⟩ := P.twins twins
    unfold Script.registerHandler
    dsimp only
    rcases Replica.services.addHandler method pattern m.place with ⟨_ | id, place⟩
    · exact ⟨rfl, .intro place w sights, rfl, timers⟩
    · exact ⟨rfl, .intro place (w.log _ _) ⟨sights.files, sights.env, sights.arrangement⟩,
        rfl, timers⟩
  · obtain ⟨w, rfl, sights, timers⟩ := P.twins twins
    unfold Script.registerStatic
    dsimp only
    rcases Replica.services.addStatic kind (Script.staticPattern kind start) path m.place
      with ⟨_ | _, place⟩ <;> exact ⟨rfl, .intro place w sights, rfl, timers⟩
  · obtain ⟨w, rfl, sights, timers⟩ := P.twins twins
    cases h : m.place.isSealed with
    | true =>
      rw [replica_listenAt_sealed addr h,
        replica_listenAt_sealed (m := { m with world := w }) addr h]
      exact ⟨rfl, twins⟩
    | false =>
      rw [replica_listenAt addr h, replica_listenAt (m := { m with world := w }) addr h]
      exact ⟨rfl, .intro _ w sights, rfl, timers⟩

theorem agree (p : Pool) : Agree P.coupling p.context p.context := ⟨P.serves, rfl, rfl⟩

/-- The handler does the same, or the timers have parted the runs. -/
theorem handlerRun (p : Pool) (f : Script.Closure) (args : List Script.Value)
    {m m' : Machine Replica} (h : Twins P.coupling m m') :
    ((Server.handlerRun p.context f args m).1 = (Server.handlerRun p.context f args m').1 ∧
        Twins P.coupling (Server.handlerRun p.context f args m).2
          (Server.handlerRun p.context f args m').2) ∨
      P.parted (Server.handlerRun p.context f args m).2.world.timer
        (Server.handlerRun p.context f args m').2.world.timer := by
  have agree := P.agree p
  unfold Server.handlerRun
  exact (Related.finish agree (.callClosure agree (.contextRun agree) f args)).twins h

def equal : Pacing where
  inStep := Eq
  parted _ _ := False
  step h := .inl ⟨by rw [h], by rw [h]⟩
  left := False.elim
  right := False.elim

/-- The second timer has a deadline and the first one has none. -/
def before (d : Deadline) : Pacing where
  inStep t t' := t.deadline = none ∧ t' = ⟨t.steps, some d⟩ ∧ t.steps ≤ d.steps
  parted t t' := d.steps < t.steps ∧ t'.deadline = some d ∧ d.steps < t'.steps
  step := by
    rintro ⟨steps, _⟩ _ ⟨rfl, rfl, -⟩
    by_cases late : d.steps < steps + 1
    · exact .inr ⟨late, rfl, late⟩
    · refine .inl ⟨?_, rfl, rfl, Nat.le_of_not_lt late⟩
      exact (if_neg late).symm
  left := fun ⟨late, deadline, late'⟩ => ⟨Nat.lt_succ_of_lt late, deadline, late'⟩
  right := fun ⟨late, deadline, late'⟩ => ⟨late, deadline, Nat.lt_succ_of_lt late'⟩

end Pacing

/-! ### Calls with a limit -/

def unlimitedRun (c : Script.Context Replica) (f : Script.Closure) (args : List Script.Value)
    (m : Machine Replica) : Ending Script.Fault Script.Value × Machine Replica :=
  handlerRun c f args (m.timed (.start none))

/-- The steps that the handler takes when there is no limit are more than there is time for. -/
def isLate (c : Script.Context Replica) (f : Script.Closure) (args : List Script.Value)
    (limit : Option Nat) (m : Machine Replica) : Bool :=
  (m.world.deadline limit).any fun d => d.steps < (unlimitedRun c f args m).2.world.timer.steps

variable (p : Pool) (f : Script.Closure) (args : List Script.Value) (limit : Option Nat)
  (m : Machine Replica)

/-- A run that has no deadline gets none. -/
theorem unlimitedRun_exceeded :
    (unlimitedRun p.context f args m).2.world.timer.exceeded? = none := by
  have upheld := replica_upholds (P := fun a => a.timer.deadline = none) (fun _ h => h)
    fun _ _ _ => id
  have none : (unlimitedRun p.context f args m).2.world.timer.deadline = none :=
    handlerRun_keeps upheld p f args (m.timed (.start none)) rfl
  unfold Timer.exceeded?
  rw [none]

/-- Until its deadline a handler does what it does without. -/
theorem limitedRun_eq :
    (isLate p.context f args limit m = false →
        (limitedRun p.context f args limit m).1 = (unlimitedRun p.context f args m).1 ∧
        (limitedRun p.context f args limit m).2.heap = (unlimitedRun p.context f args m).2.heap) ∧
      (limitedRun p.context f args limit m).2.world.timer.exceeded?.isSome =
        isLate p.context f args limit m := by
  unfold limitedRun isLate
  cases m.world.deadline limit with
  | none =>
    refine ⟨fun _ => ⟨rfl, rfl⟩, ?_⟩
    change (unlimitedRun p.context f args m).2.world.timer.exceeded?.isSome = _
    rw [unlimitedRun_exceeded]
    rfl
  | some d =>
    have start : Twins (Pacing.before d).coupling (m.timed (.start none))
        (m.timed (.start (some d))) :=
      ⟨(Machine.Alike.refl m).timed _ _, rfl, rfl, rfl, Nat.zero_le _⟩
    rw [Option.any_some, decide_eq_false_iff_not]
    unfold unlimitedRun
    rcases (Pacing.before d).handlerRun p f args start with ⟨same, twins⟩ | ⟨late, deadline, late'⟩
    · obtain ⟨w, after, -, -, timer, inTime⟩ := (Pacing.before d).twins twins
      have notLate := Nat.not_lt.mpr inTime
      rw [same, after]
      refine ⟨fun _ => ⟨rfl, rfl⟩, ?_⟩
      dsimp only
      rw [timer, decide_eq_false notLate, Timer.exceeded?]
      dsimp only
      rw [if_neg notLate]
      rfl
    · refine ⟨fun inTime => absurd late inTime, ?_⟩
      unfold Timer.exceeded?
      rw [deadline, decide_eq_true late]
      dsimp only
      rw [if_pos late']
      rfl

/-- A call with a limit comes to what the handler does without a limit, or to a time-out if the
handler is late. -/
theorem invoke_alone {i : Interpreter} {id : Nat} {f : Script.Closure}
    (found : i.machine.handlers.lookup id = some f) :
    (i.invoke p.context id args limit).1 =
        Interpreter.withLimit limit (isLate p.context f args limit i.machine)
          (unlimitedRun p.context f args i.machine).1 ∧
      (isLate p.context f args limit i.machine = false →
        (i.invoke p.context id args limit).2.machine.heap =
          (unlimitedRun p.context f args i.machine).2.heap) := by
  obtain ⟨same, expired⟩ := limitedRun_eq p f args limit i.machine
  rw [invoke_eq found, expired]
  refine ⟨?_, fun inTime => (same inTime).2⟩
  cases late : isLate p.context f args limit i.machine with
  | false =>
    dsimp only
    rw [(same late).1]
  | true =>
    cases limit with
    | none => cases late
    | some ms => rfl

end ScriptServer.Server
