import ScriptServer.Proofs.Server.Frame

/-!
# Startup and replay

The startup interpreter and a replica run the same entry script. If their objects lie at the same
place, then up to the first `listen` of the startup interpreter that is not refused the two are in
step: what is registered in one is registered in the other under the same number, and what one
refuses the other refuses with the same message. There the two part, and neither registers anything
more. So the handlers that a replica has in the end are those that were published, if what the
script registers does not depend on where its objects lie.
-/

namespace ScriptServer

namespace Script

/-- The functions that an interpreter has registered as handlers, in the order of registration. -/
def Machine.registered {ρ : Type} (m : Machine ρ) : List Closure := (m.handlers.map (·.2)).reverse

def Ending.fault? {ε α : Type} : Ending ε α → Option ε
  | .error fault => some fault
  | _ => none

/-- The script came to an end. -/
def Ending.isOver {ε α : Type} : Ending ε α → Bool
  | .ok _ | .error _ => true
  | .panic _ | .endless => false

end Script

namespace Server

open Route (Registry Key Target Pattern validate)
open Script (Machine Closure Standing Coupling Twins Related Keeps Upholds Serves Agree Ending)

/-! ### Numbers of handlers -/

/-- Handlers have the numbers from zero on in the order of registration. The newest one is in
front. -/
inductive InOrder : List (Nat × Closure) → Prop where
  | nil : InOrder []
  | cons {hs : List (Nat × Closure)} (f : Closure) : InOrder hs → InOrder ((hs.length, f) :: hs)

/-- A number that was given leads to the function that was registered with it. -/
theorem InOrder.lookup {hs : List (Nat × Closure)} (h : InOrder hs) :
    ∀ id < hs.length, ∃ f, (hs.map (·.2)).reverse[id]? = some f ∧ hs.lookup id = some f := by
  induction h with
  | nil => exact fun id hid => absurd hid (Nat.not_lt_zero id)
  | @cons hs f _ ih =>
    intro id hid
    rw [List.map_cons, List.reverse_cons]
    have length : (hs.map (·.2)).reverse.length = hs.length := by simp
    by_cases newest : id = hs.length
    · subst newest
      exact ⟨f, by rw [← length]; simp, by simp⟩
    · have older : id < hs.length := by
        simp only [List.length_cons] at hid
        omega
      obtain ⟨g, hg, hl⟩ := ih id older
      refine ⟨g, ?_, ?_⟩
      · rw [List.getElem?_append_left (by omega)]
        exact hg
      · rw [List.lookup_cons, beq_eq_false_iff_ne.mpr newest]
        exact hl

/-- Routes to handlers lead to numbers that were given. -/
def Within (n : Nat) (es : List Route.Entry) : Prop :=
  ∀ e ∈ es, ∀ id, e.target = .handler id → id < n

theorem Within.place {n n' : Nat} {es : List Route.Entry} (h : Within n es) (hn : n ≤ n')
    (key : Key) {target : Target} (ht : ∀ id, target = .handler id → id < n') (p : Pattern) :
    Within n' (Registry.place key target p es) := by
  induction es with
  | nil =>
    intro e he id hid
    obtain rfl := List.mem_singleton.mp he
    exact ht id hid
  | cons e es ih =>
    have hes : Within n es := fun e' he' => h e' (List.mem_cons_of_mem _ he')
    unfold Registry.place
    intro e' he' id hid
    split at he'
    · rcases List.mem_cons.mp he' with rfl | he'
      · exact ht id hid
      · exact Nat.lt_of_lt_of_le (hes e' he' id hid) hn
    · rcases List.mem_cons.mp he' with rfl | he'
      · exact Nat.lt_of_lt_of_le (h e' List.mem_cons_self id hid) hn
      · exact ih hes e' he' id hid

theorem Within.freeze {n : Nat} {r : Registry} (h : Within n r.entries) :
    Within n r.freeze.entries :=
  fun e he => h e (List.mem_mergeSort.mp he)

/-! ### The two interpreters -/

/-- The two have registered the same. `keys` and `es` are what the pool has. -/
structure Replays (keys : List Key) (es : List Route.Entry) (a : Standing Pool)
    (b : Standing Replica) : Prop where
  sameKeys : b.place.registry.handlerKeys = keys
  handlers : b.handlers = a.handlers
  count : a.handlers.length = keys.length
  inOrder : InOrder a.handlers
  within : Within keys.length es

/-- The startup interpreter and a replica. They part when the routes are published and the replica
is sealed. -/
def replaying : Coupling Pool Replica where
  inStep a b := ∃ r, a.place.routes = .collecting r ∧ Replays r.handlerKeys r.entries a b ∧
    b.place.isSealed = false ∧ a.timer = b.timer
  parted a b := ∃ t, a.place.routes = .published t ∧ Replays t.handlerKeys t.entries a b ∧
    b.place.isSealed = true ∧ b.place.listenReached = true

namespace Replays

variable {a : Standing Pool} {b : Standing Replica}

theorem withHandler {r : Registry} (h : Replays r.handlerKeys r.entries a b) (key : Key)
    (p : Pattern) (f : Closure) {a' : Standing Pool} {b' : Standing Replica}
    (ha : a'.handlers = (r.handlerKeys.length, f) :: a.handlers)
    (hb : b'.handlers = (r.handlerKeys.length, f) :: b.handlers)
    (hr : b'.place.registry = b.place.registry.withHandler key p) :
    Replays (r.withHandler key p).handlerKeys (r.withHandler key p).entries a' b' where
  sameKeys := by
    rw [hr]
    exact congrArg (· ++ [key]) h.sameKeys
  handlers := by rw [ha, hb, h.handlers]
  count := by
    rw [ha, List.length_cons, h.count, Registry.withHandler_length]
  inOrder := by
    rw [ha, ← h.count]
    exact h.inOrder.cons f
  within := by
    rw [Registry.withHandler_length]
    refine h.within.place (Nat.le_succ _) key (fun id hid => ?_) p
    cases hid
    exact Nat.lt_succ_self _

theorem withRoute {r : Registry} (h : Replays r.handlerKeys r.entries a b) (key : Key)
    (p : Pattern) {target target' : Target} (ht : ∀ id, target ≠ .handler id)
    {a' : Standing Pool} {b' : Standing Replica} (ha : a'.handlers = a.handlers)
    (hb : b'.handlers = b.handlers)
    (hr : b'.place.registry = b.place.registry.withRoute key p target') :
    Replays (r.withRoute key p target).handlerKeys (r.withRoute key p target).entries a' b' where
  sameKeys := by
    rw [hr]
    exact h.sameKeys
  handlers := by rw [ha, hb, h.handlers]
  count := by rw [ha]; exact h.count
  inOrder := by rw [ha]; exact h.inOrder
  within := h.within.place (Nat.le_refl _) key (fun id hid => absurd hid (ht id)) p

/-- A table has the handlers of the registry that it was made from. -/
theorem freeze {r : Registry} (h : Replays r.handlerKeys r.entries a b) :
    Replays r.freeze.handlerKeys r.freeze.entries a b :=
  ⟨h.sameKeys, h.handlers, h.count, h.inOrder, h.within.freeze⟩

theorem of_same {keys : List Key} {es : List Route.Entry} (h : Replays keys es a b)
    {a' : Standing Pool} {b' : Standing Replica} (ha : a'.handlers = a.handlers)
    (hb : b'.handlers = b.handlers) (hr : b'.place.registry = b.place.registry) :
    Replays keys es a' b' where
  sameKeys := by rw [hr]; exact h.sameKeys
  handlers := by rw [ha, hb, h.handlers]
  count := by rw [ha]; exact h.count
  inOrder := by rw [ha]; exact h.inOrder
  within := h.within

end Replays

theorem related_tick : Related replaying Script.Run.tick Script.Run.tick where
  left b := .tick fun a ⟨t, ht, same, rest⟩ => ⟨t, ht, same.of_same rfl rfl rfl, rest⟩
  right a := .tick fun b ⟨t, ht, same, rest⟩ => ⟨t, ht, same.of_same rfl rfl rfl, rest⟩
  twins := by
    intro m m' twins
    obtain ⟨r, hr, same, unsealed, timers⟩ := twins.inStep
    have next : m.world.timer.next = m'.world.timer.next := congrArg Timer.next timers
    rw [Script.tick_snd, Script.tick_snd]
    exact .inl ⟨Script.tick_fst (congrArg Timer.exceeded? next), twins.alike.timed _ _, r, hr,
      same.of_same rfl rfl rfl, unsealed, next⟩

theorem related_registerHandler (method pattern : String) (f : Nat) :
    Related replaying (Script.registerHandler Startup.services method pattern f)
      (Script.registerHandler Replica.services method pattern f) where
  left b m := by
    intro ⟨t, ht, rest⟩
    rw [startup_registerHandler_published method pattern f ht]
    exact ⟨t, ht, rest⟩
  right a m := by
    intro ⟨t, ht, same, isSealed, listened⟩
    rw [replica_registerHandler_sealed method pattern f isSealed]
    exact ⟨t, ht, same, isSealed, listened⟩
  twins := by
    intro m m' twins
    obtain ⟨r, hr, same, unsealed, timers⟩ := twins.inStep
    rw [startup_registerHandler method pattern f hr,
      replica_registerHandler method pattern f unsealed]
    cases validate method pattern with
    | error e => exact .inl ⟨rfl, twins⟩
    | ok route =>
      obtain ⟨key, p⟩ := route
      have number : m'.place.registry.handlerKeys.length = r.handlerKeys.length :=
        congrArg List.length same.sameKeys
      refine .inl ⟨rfl, ?_, r.withHandler key p, rfl, ?_, unsealed, timers⟩
      · obtain ⟨place, w, sights⟩ := twins.alike
        dsimp only
        rw [number]
        exact .intro _ (w.log _ _) ⟨sights.files, sights.env, sights.arrangement⟩
      · refine same.withHandler key p (m.heap.function f) rfl ?_ rfl
        dsimp only
        rw [number, twins.alike.heap]
        rfl

theorem related_registerStatic (kind : Script.StaticKind) (pattern path : String) :
    Related replaying (Script.registerStatic Startup.services kind pattern path)
      (Script.registerStatic Replica.services kind pattern path) where
  left b m := by
    intro ⟨t, ht, rest⟩
    rw [startup_registerStatic_published pattern path kind ht]
    exact ⟨t, ht, rest⟩
  right a m := by
    intro ⟨t, ht, same, isSealed, listened⟩
    rw [replica_registerStatic_sealed pattern path kind isSealed]
    exact ⟨t, ht, same, isSealed, listened⟩
  twins := by
    intro m m' twins
    obtain ⟨r, hr, same, unsealed, timers⟩ := twins.inStep
    rw [startup_registerStatic pattern path kind hr,
      replica_registerStatic pattern path kind unsealed]
    cases validate Route.anyMethod (Script.staticPattern kind pattern) with
    | error e => exact .inl ⟨rfl, twins⟩
    | ok route =>
      obtain ⟨key, p⟩ := route
      have toFiles : ∀ id,
          Startup.staticTarget kind (m.place.entry.resolvePath path) ≠ .handler id := by
        cases kind <;> exact fun _ => Target.noConfusion
      refine .inl ⟨rfl, ?_, _, rfl, same.withRoute key p toFiles rfl rfl rfl, unsealed, timers⟩
      obtain ⟨place, w, sights⟩ := twins.alike
      exact .intro _ w sights

theorem related_listenAt (addr : String) :
    Related replaying (Script.listenAt Startup.services addr)
      (Script.listenAt Replica.services addr) where
  left b m := by
    intro ⟨t, ht, rest⟩
    rw [startup_listenAt_published addr ht]
    exact ⟨t, ht, rest⟩
  right a m := by
    intro ⟨t, ht, same, isSealed, listened⟩
    rw [replica_listenAt_sealed addr isSealed]
    exact ⟨t, ht, same, isSealed, listened⟩
  twins := by
    intro m m' twins
    obtain ⟨r, hr, same, unsealed, timers⟩ := twins.inStep
    obtain ⟨o, s, steady, listened⟩ := startup_listenAt hr addr
    rw [listened, replica_listenAt addr unsealed]
    exact .inr ⟨r.freeze, steady.routes, same.freeze.of_same rfl rfl rfl, rfl, rfl⟩

theorem replaying_serves : Serves replaying Startup.services Replica.services :=
  ⟨related_tick, related_registerHandler, related_registerStatic, related_listenAt⟩

/-! ### Whole runs -/

@[irreducible] def startupRun (s : Server) : Ending Script.Fault Unit × Machine Pool :=
  Script.runSource ⟨Startup.services, s.pool.modules, s.pool.entry.searchPath⟩ s.pool.entry.source
    (freshMachine s.pool.entry.args s.pool s.world)

/-- Both runs end alike and in step, or they have parted. -/
theorem runs_replay {s : Server} (fresh : s.pool.routes = .collecting .empty) {p : Pool} {w : World}
    (entry : p.entry = s.pool.entry) (modules : p.modules = s.pool.modules)
    (sights : SameSights s.world w) (base : s.world.bases 0 = w.bases 0) :
    ((startupRun s).1 = (replicaRun p w).1 ∧ Twins replaying (startupRun s).2 (replicaRun p w).2) ∨
      replaying.parted (startupRun s).2.standing (replicaRun p w).2.standing := by
  have agree : Agree replaying ⟨Startup.services, s.pool.modules, s.pool.entry.searchPath⟩
      p.context := by
    refine ⟨replaying_serves, modules.symm, ?_⟩
    unfold Pool.context
    rw [entry]
  have twins : Twins replaying (freshMachine s.pool.entry.args s.pool s.world)
      (freshMachine s.pool.entry.args .fresh w) := by
    refine ⟨freshMachine_alike _ _ _ sights base, ?_⟩
    rw [freshMachine_standing, freshMachine_standing]
    exact ⟨.empty, fresh, ⟨rfl, rfl, rfl, .nil, fun e he => absurd he (List.not_mem_nil)⟩, rfl, rfl⟩
  unfold startupRun replicaRun
  rw [entry]
  exact (Related.runSource agree s.pool.entry.source).twins twins

theorem runEntry_of_starved {s : Server} (h : isStarved s.pool.settings.memoryLimitBytes = true) :
    (runEntry s).2 = s := by
  unfold runEntry
  rw [if_pos h]

theorem runEntry_eq {s : Server} (h : isStarved s.pool.settings.memoryLimitBytes = false) :
    (runEntry s).2 = ⟨(startupRun s).2.place, (startupRun s).2.world⟩ ∧
      ((runEntry s).1 = .ok () → (startupRun s).1 = .ok ()) := by
  unfold runEntry startupRun
  rw [h, if_neg Bool.false_ne_true]
  dsimp only
  generalize Script.runSource _ _ _ = x
  obtain ⟨result, m⟩ := x
  cases result with
  | ok _ => exact ⟨rfl, fun _ => rfl⟩
  | _ => exact ⟨rfl, fun h => nomatch h⟩

/-- What a pool is set up with stays, and what scripts see does. -/
structure SetUp (p : Pool) (w : World) (a : Standing Pool) : Prop where
  entry : a.place.entry = p.entry
  settings : a.place.settings = p.settings
  modules : a.place.modules = p.modules
  files : a.files = w.files
  env : a.env = w.env
  arrangement : a.arrangement = w.arrangement

theorem startup_upholds (p : Pool) (w : World) : Upholds (SetUp p w) Startup.services where
  tick := .tick fun _ h => ⟨h.entry, h.settings, h.modules, h.files, h.env, h.arrangement⟩
  handler method pattern f m hm := by
    cases routes : m.place.routes with
    | published t =>
      rw [startup_registerHandler_published method pattern f routes]
      exact hm
    | collecting r =>
      rw [startup_registerHandler method pattern f routes]
      cases validate method pattern with
      | error e => exact hm
      | ok route => exact ⟨hm.entry, hm.settings, hm.modules, hm.files, hm.env, hm.arrangement⟩
  static kind pattern path m hm := by
    cases routes : m.place.routes with
    | published t =>
      rw [startup_registerStatic_published pattern path kind routes]
      exact hm
    | collecting r =>
      rw [startup_registerStatic pattern path kind routes]
      cases validate Route.anyMethod (Script.staticPattern kind pattern) with
      | error e => exact hm
      | ok route => exact ⟨hm.entry, hm.settings, hm.modules, hm.files, hm.env, hm.arrangement⟩
  listen addr m hm := by
    cases routes : m.place.routes with
    | published t =>
      rw [startup_listenAt_published addr routes]
      exact hm
    | collecting r =>
      obtain ⟨o, s, steady, listened⟩ := startup_listenAt routes addr
      rw [listened]
      exact ⟨steady.entry.trans hm.entry, steady.settings.trans hm.settings,
        steady.modules.trans hm.modules, steady.sights.files.trans hm.files,
        steady.sights.env.trans hm.env, steady.sights.arrangement.trans hm.arrangement⟩

/-- Running the entry script changes neither what the pool is set up with nor what scripts see. -/
theorem runEntry_setUp (s : Server) :
    (runEntry s).2.pool.entry = s.pool.entry ∧ (runEntry s).2.pool.settings = s.pool.settings ∧
      (runEntry s).2.pool.modules = s.pool.modules ∧
      SameSights s.world (runEntry s).2.world := by
  cases h : isStarved s.pool.settings.memoryLimitBytes with
  | true =>
    rw [runEntry_of_starved h]
    exact ⟨rfl, rfl, rfl, .refl _⟩
  | false =>
    have agree := Upholds.agree
      (c := ⟨Startup.services, s.pool.modules, s.pool.entry.searchPath⟩)
      (startup_upholds s.pool s.world)
    have kept : SetUp s.pool s.world (startupRun s).2.standing := by
      unfold startupRun
      exact (Related.runSource agree s.pool.entry.source).keeps
        (freshMachine s.pool.entry.args s.pool s.world) ⟨rfl, rfl, rfl, rfl, rfl, rfl⟩
    rw [(runEntry_eq h).1]
    exact ⟨kept.entry, kept.settings, kept.modules, kept.files, kept.env, kept.arrangement⟩

/-- A replica with the right handlers is taken if its script came to an end, after `listen` also to
a bad one. -/
theorem accepted_eq_ok {keys : List Key} {x : Ending Script.Fault Unit × Machine Replica}
    (same : x.2.place.registry.handlerKeys = keys)
    (cameToEnd : x.1 = .ok () ∨ x.2.place.listenReached = true) (i : Interpreter) :
    accepted keys x = .ok i ↔
      x.1.isOver = true ∧ i = ⟨{ x.2 with place := x.2.place.finished }⟩ := by
  obtain ⟨result, m⟩ := x
  dsimp only at same cameToEnd ⊢
  have taken : Interpreter.ofMachine keys m = .ok ⟨{ m with place := m.place.finished }⟩ := by
    unfold Interpreter.ofMachine divergence?
    rw [if_pos same]
  cases result with
  | ok _ => simp [accepted, Ending.isOver, taken, eq_comm]
  | error fault =>
    have listened := cameToEnd.resolve_left fun h => nomatch h
    simp [accepted, Ending.isOver, taken, listened, eq_comm]
  | panic text => simp [accepted, Ending.isOver]
  | endless => simp [accepted, Ending.isOver]

/-! ### Interpreters that serve -/

/-- The interpreter has the handlers that were published, with the functions that `m`, the startup
interpreter, has registered. -/
structure Faithful (m : Machine Pool) (t : Route.Table) (i : Interpreter) : Prop where
  isSealed : i.machine.place.isSealed = true
  keys : i.machine.place.registry.handlerKeys = t.handlerKeys
  registered : i.machine.registered = m.registered
  stored : ∀ id < t.handlerKeys.length, ∃ f,
    i.machine.registered[id]? = some f ∧ i.machine.handlers.lookup id = some f
  within : Within t.handlerKeys.length t.entries

/-- An interpreter to which things were done: it was taken to other surroundings, was given tables
or had handlers called. -/
inductive Used (c : Script.Context Replica) (i : Interpreter) : Interpreter → Prop where
  | unused : Used c i i
  | enter {j : Interpreter} (w : World) : Used c i j → Used c i (j.enter w)
  | addTexts {j : Interpreter} (texts : Dictionary String) :
    Used c i j → Used c i (j.addTexts texts).2
  | invoke {j : Interpreter} (id : Nat) (args : List Script.Value) (limit : Option Nat) :
    Used c i j → Used c i (j.invoke c id args limit).2

/-- A replica that is sealed keeps its handlers. -/
theorem sealed_upholds {r : Replica} (h : r.isSealed = true) (handlers : List (Nat × Closure)) :
    Upholds (fun a : Standing Replica => a.place = r ∧ a.handlers = handlers) Replica.services where
  tick := .tick fun _ h => h
  handler method pattern f m hm := by
    rw [replica_registerHandler_sealed method pattern f (by rw [show m.place = r from hm.1, h])]
    exact hm
  static kind pattern path m hm := by
    rw [replica_registerStatic_sealed pattern path kind (by rw [show m.place = r from hm.1, h])]
    exact hm
  listen addr m hm := by
    rw [replica_listenAt_sealed addr (by rw [show m.place = r from hm.1, h])]
    exact hm

theorem invoke_keeps (p : Pool) {i : Interpreter} (h : i.machine.place.isSealed = true) (id : Nat)
    (args : List Script.Value) (limit : Option Nat) :
    (i.invoke p.context id args limit).2.machine.place = i.machine.place ∧
      (i.invoke p.context id args limit).2.machine.handlers = i.machine.handlers := by
  cases hf : i.machine.handlers.lookup id with
  | none =>
    rw [invoke_of_none hf]
    exact ⟨rfl, rfl⟩
  | some f =>
    rw [invoke_eq hf]
    exact handlerRun_keeps (sealed_upholds h i.machine.handlers) p f args
      (i.machine.timed (.start (i.machine.world.deadline limit))) ⟨rfl, rfl⟩

theorem withLimit_ne_noHandler (limit : Option Nat) (expired : Bool)
    (result : Ending Script.Fault Script.Value) (missing : Nat) :
    Interpreter.withLimit limit expired result ≠ .error (.noHandler missing) := by
  have ended : Interpreter.ofRun result ≠ .error (.noHandler missing) := by
    cases result <;> exact fun h => nomatch h
  unfold Interpreter.withLimit
  split
  · split
    · exact fun h => nomatch h
    · exact ended
  · exact ended

namespace Faithful

variable {m : Machine Pool} {t : Route.Table} {i j : Interpreter}

/-- Only the place and the handlers of an interpreter matter. -/
theorem of_same (h : Faithful m t i) (place : j.machine.place = i.machine.place)
    (handlers : j.machine.handlers = i.machine.handlers) : Faithful m t j where
  isSealed := by rw [place]; exact h.isSealed
  keys := by rw [place]; exact h.keys
  registered := by
    unfold Machine.registered
    rw [handlers]
    exact h.registered
  stored := by
    unfold Machine.registered
    rw [handlers]
    exact h.stored
  within := h.within

theorem used (h : Faithful m t i) {p : Pool} (hj : Used p.context i j) : Faithful m t j := by
  induction hj with
  | unused => exact h
  | enter w _ ih => exact ih.of_same rfl rfl
  | addTexts texts _ ih => exact ih.of_same rfl rfl
  | invoke id args limit _ ih =>
    obtain ⟨place, handlers⟩ := invoke_keeps p ih.isSealed id args limit
    exact ih.of_same place handlers

/-- The handlers that routes lead to are there. -/
theorem invoke_ne_noHandler (h : Faithful m t i) {e : Route.Entry} (he : e ∈ t.entries) {id : Nat}
    (target : e.target = .handler id) (c : Script.Context Replica) (args : List Script.Value)
    (limit : Option Nat) (missing : Nat) :
    (i.invoke c id args limit).1 ≠ .error (.noHandler missing) := by
  obtain ⟨f, -, stored⟩ := h.stored id (h.within e he id target)
  rw [invoke_eq stored]
  exact withLimit_ne_noHandler limit _ _ missing

/-- What replays is faithful once it is sealed, also to another startup interpreter that registers
the same. -/
theorem of_replays {keys : List Key} {es : List Route.Entry} {m m₀ : Machine Pool}
    {m' : Machine Replica} (h : Replays keys es m₀.standing m'.standing)
    (sameKeys : keys = t.handlerKeys) (registered : m₀.registered = m.registered)
    (within : Within t.handlerKeys.length t.entries) :
    Faithful m t ⟨{ m' with place := m'.place.finished }⟩ where
  isSealed := rfl
  keys := h.sameKeys.trans sameKeys
  registered := (congrArg (fun hs => (hs.map (·.2)).reverse) h.handlers).trans registered
  stored := by
    have handlers : m'.handlers = m₀.handlers := h.handlers
    have count : m₀.handlers.length = t.handlerKeys.length := sameKeys ▸ h.count
    unfold Machine.registered
    rw [handlers, ← count]
    exact h.inOrder.lookup
  within := within

end Faithful

theorem publish_routes (s : Server) :
    (∀ t, s.pool.routes = .published t → s.publish.1 = t) ∧
      ∀ r, s.pool.routes = .collecting r → s.publish.1 = r.freeze := by
  refine ⟨fun t h => ?_, fun r h => ?_⟩ <;> rw [publish, h]

/-- The entry script came to `listen` or to its end at startup. -/
def Started (s : Server) : Prop :=
  (runEntry s).2.pool.table?.isSome ∨ (runEntry s).1 = .ok ()

/-- A replica of a pool that was fresh, and whose startup run came to `listen` or to its end, has
registered what the startup interpreter has if the objects of the two begin at the same base. -/
theorem replicaRun_replays {s : Server} (fresh : s.pool.routes = .collecting .empty)
    (unlimited : s.pool.settings.memoryLimitBytes = none) (started : Started s) {p : Pool}
    {w : World} (entry : p.entry = s.pool.entry) (modules : p.modules = s.pool.modules)
    (sights : SameSights s.world w) (base : s.world.bases 0 = w.bases 0) :
    Replays (runEntry s).2.publish.1.handlerKeys (runEntry s).2.publish.1.entries
        (startupRun s).2.standing (replicaRun p w).2.standing ∧
      ((replicaRun p w).1 = .ok () ∨
        (runEntry s).2.pool.table?.isSome ∧ (replicaRun p w).2.place.listenReached = true) := by
  obtain ⟨server, ended⟩ := runEntry_eq (by rw [unlimited]; rfl)
  rcases runs_replay fresh entry modules sights base with
    ⟨same, twins⟩ | ⟨t, published, replays, -, listened⟩
  · -- The routes are not published, so the script is over in both.
    obtain ⟨r, collecting, replays, -⟩ := twins.inStep
    have routes : (runEntry s).2.pool.routes = .collecting r := by
      rw [server]
      exact collecting
    have done : (runEntry s).1 = .ok () := by
      refine started.resolve_left ?_
      simp [Pool.table?, routes]
    rw [(publish_routes _).2 r routes]
    exact ⟨replays.freeze, .inl (same.symm.trans (ended done))⟩
  · rw [Machine.standing_place] at published listened
    have routes : (runEntry s).2.pool.routes = .published t := by
      rw [server]
      exact published
    rw [(publish_routes _).1 t routes]
    exact ⟨replays, .inr ⟨by simp [Pool.table?, routes], listened⟩⟩

/-- What the entry script registers is the same if the objects of the startup interpreter begin at
this base, where its tables may also be enumerated in another order: no text of an address and no
order of a table goes into a registration. -/
structure RegistersAlike (s : Server) (base : Nat) : Prop where
  started : Started (s.basedAt base)
  keys : (runEntry (s.basedAt base)).2.publish.1.handlerKeys = (runEntry s).2.publish.1.handlerKeys
  functions : (startupRun (s.basedAt base)).2.registered = (startupRun s).2.registered

theorem registered_of_check {ρ : Type} {m : Machine ρ}
    (check : (match m.registered with
      | [.script [] place] => place == "main.lua:1: "
      | _ => false) = true) : m.registered = [.script [] "main.lua:1: "] := by
  split at check
  · next place same => rw [same, eq_of_beq check]
  · cases check

end Server

end ScriptServer
