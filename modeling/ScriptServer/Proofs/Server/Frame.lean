import ScriptServer.Proofs.Script.Lockstep
import ScriptServer.Proofs.Server.Router

/-!
# What a server leaves alone

Making interpreters, answering requests and serving connections change the slots of the pool and
what was printed and sent. What the pool is set up with, its routes once they are published, the
files and the environment stay as they are.
-/

namespace ScriptServer.Server

open Script (Machine Standing Related Keeps Upholds Ending)

/-- Everything but the slots of the pool stays, and nothing that a script could see changes. -/
structure Steady (s s' : Server) : Prop where
  entry : s'.pool.entry = s.pool.entry
  settings : s'.pool.settings = s.pool.settings
  modules : s'.pool.modules = s.pool.modules
  routes : s'.pool.routes = s.pool.routes
  sights : SameSights s.world s'.world

namespace Steady

variable {s s' s'' : Server}

theorem refl (s : Server) : Steady s s := ⟨rfl, rfl, rfl, rfl, .refl _⟩

theorem trans (h : Steady s s') (h' : Steady s' s'') : Steady s s'' :=
  ⟨h'.entry.trans h.entry, h'.settings.trans h.settings, h'.modules.trans h.modules,
    h'.routes.trans h.routes, h.sights.trans h'.sights⟩

/-- The slots and the rest of the world are free. -/
theorem of_parts (s : Server) (slots : Slots Interpreter) {w : World} (h : SameSights s.world w) :
    Steady s ⟨{ s.pool with slots }, w⟩ :=
  ⟨rfl, rfl, rfl, rfl, h⟩

theorem onSlots (h : Steady s s') (change : Slots Interpreter → Slots Interpreter) :
    Steady s (s'.onSlots change) :=
  h.trans (.of_parts s' _ (.refl _))

theorem log (h : Steady s s') (level : Log.Level) (message : String) :
    Steady s (s'.log level message) :=
  h.trans (.of_parts s' _ ⟨rfl, rfl, rfl⟩)

theorem inWorld (h : Steady s s') {w : World} (hw : SameSights s'.world w) :
    Steady s { s' with world := w } :=
  h.trans (.of_parts s' _ hw)

theorem table (h : Steady s s') : s'.pool.table? = s.pool.table? := by
  unfold Pool.table?
  rw [h.routes]

theorem published (h : Steady s s') {t : Route.Table} (published : s.pool.routes = .published t) :
    s'.pool.table? = some t := by
  rw [h.table, Pool.table?, published]

theorem context (h : Steady s s') : s'.pool.context = s.pool.context := by
  unfold Pool.context
  rw [h.modules, h.entry]

theorem build (h : Steady s s') (slots : Slots Interpreter) (t : Route.Table) :
    Pool.build { s'.pool with slots } t = s.pool.build t := by
  funext w
  unfold Pool.build Pool.context
  rw [h.entry, h.modules, h.settings]

end Steady

/-- A server that runs a script of its own, without files and variables. -/
def ofScript (text : String) : Server :=
  ⟨.ofEntry (.ofText "main.lua" text) .standard, .ofFiles .empty [] none⟩

/-- The server when the next interpreters begin at this base. -/
def basedAt (s : Server) (base : Nat) : Server :=
  { s with world := { s.world with bases := fun _ => base } }

theorem basedAt_steady (s : Server) (base : Nat) : Steady (s.basedAt base) s :=
  ⟨rfl, rfl, rfl, rfl, rfl, rfl, rfl⟩

/-- The entries of every other table are enumerated from last to first. -/
def alternating : Script.Arrangement where
  order id entries := if id % 2 = 1 then entries.reverse else entries
  perm id entries := by
    split
    · exact List.reverse_perm entries
    · exact .refl entries

/-! ### Interpreters -/

theorem freshMachine_standing {ρ : Type} (args : Dictionary String) (place : ρ) (w : World) :
    (freshMachine args place w).standing =
      ⟨place, [], w.files, w.env, w.arrangement, .start none, w.calls⟩ := rfl

/-- Interpreters whose objects begin at the same base are alike. -/
theorem freshMachine_alike {ρ ρ' : Type} (args : Dictionary String) (place : ρ) (place' : ρ')
    {w w' : World} (h : SameSights w w') (base : w.bases 0 = w'.bases 0) :
    (freshMachine args place w).Alike (freshMachine args place' w') := by
  unfold freshMachine
  rw [← base, h.arrangement]
  exact .intro place' w'.afterMaking ⟨h.files, h.env, h.arrangement⟩

@[irreducible] def replicaRun (p : Pool) (w : World) : Ending Script.Fault Unit × Machine Replica :=
  Script.runSource p.context p.entry.source (freshMachine p.entry.args .fresh w)

/-- The interpreter that a replica becomes after its run. -/
def accepted (published : List Route.Key) :
    Ending Script.Fault Unit × Machine Replica → Ending Fault Interpreter
  | (.ok (), m) => Interpreter.ofMachine published m
  | (.error fault, m) =>
    if m.place.listenReached then Interpreter.ofMachine published m else .error (.entryFailed fault)
  | (.panic text, _) => .panic text
  | (.endless, _) => .endless

theorem build_of_starved {p : Pool} (h : isStarved p.settings.memoryLimitBytes = true)
    (t : Route.Table) (w : World) : p.build t w = (.error (.script Script.noMemory), w) := by
  unfold Pool.build Interpreter.build
  rw [if_pos h]

theorem build_eq {p : Pool} (h : isStarved p.settings.memoryLimitBytes = false)
    (t : Route.Table) (w : World) :
    p.build t w = (accepted t.handlerKeys (replicaRun p w), (replicaRun p w).2.world) := by
  unfold Pool.build Interpreter.build replicaRun
  rw [h, if_neg Bool.false_ne_true]
  generalize Script.runSource _ _ _ = x
  obtain ⟨result, m⟩ := x
  cases result <;> rfl

@[irreducible] def handlerRun (c : Script.Context Replica) (f : Script.Closure)
    (args : List Script.Value) (m : Machine Replica) :
    Ending Script.Fault Script.Value × Machine Replica :=
  Script.finish c (Script.callClosure c c.run f args) m

def limitedRun (c : Script.Context Replica) (f : Script.Closure) (args : List Script.Value)
    (limit : Option Nat) (m : Machine Replica) :
    Ending Script.Fault Script.Value × Machine Replica :=
  handlerRun c f args (m.timed (.start (m.world.deadline limit)))

theorem invoke_eq {i : Interpreter} {id : Nat} {f : Script.Closure}
    (h : i.machine.handlers.lookup id = some f) (c : Script.Context Replica)
    (args : List Script.Value) (limit : Option Nat) :
    i.invoke c id args limit =
      (Interpreter.withLimit limit
          (limitedRun c f args limit i.machine).2.world.timer.exceeded?.isSome
          (limitedRun c f args limit i.machine).1,
        ⟨(limitedRun c f args limit i.machine).2.timed (.start none)⟩) := by
  unfold Interpreter.invoke limitedRun handlerRun
  rw [h]

theorem invoke_of_none {i : Interpreter} {id : Nat} (h : i.machine.handlers.lookup id = none)
    (c : Script.Context Replica) (args : List Script.Value) (limit : Option Nat) :
    i.invoke c id args limit = (.error (.noHandler id), i) := by
  unfold Interpreter.invoke
  rw [h]

/-- What the `router` module of a replica keeps a handler keeps. -/
theorem handlerRun_keeps {P : Standing Replica → Prop} (h : Upholds P Replica.services) (p : Pool)
    (f : Script.Closure) (args : List Script.Value) : Keeps P (handlerRun p.context f args) := by
  have agree := Upholds.agree (c := p.context) h
  unfold handlerRun
  exact (Related.finish agree (.callClosure agree (.contextRun agree) f args)).keeps

/-- The `router` module of a replica touches nothing but the replica and its handlers. -/
theorem replica_upholds {P : Standing Replica → Prop}
    (tick : ∀ a, P a → P { a with timer := a.timer.next })
    (router : ∀ a place handlers, P a → P { a with place, handlers }) :
    Upholds P Replica.services where
  tick := .tick tick
  handler method pattern f m hm := by
    unfold Script.registerHandler
    split <;> exact router m.standing _ _ hm
  static kind start path m hm := by
    unfold Script.registerStatic
    split <;> exact router m.standing _ m.handlers hm
  listen addr m hm := by
    by_cases h : m.place.isSealed = true
    · rw [replica_listenAt_sealed addr h]
      exact hm
    · rw [replica_listenAt addr (by simpa using h)]
      exact router m.standing _ m.handlers hm

/-- Scripts see what they see in the world, and the same requests are still to come. -/
structure Undisturbed (w : World) (a : Standing Replica) : Prop where
  files : a.files = w.files
  env : a.env = w.env
  arrangement : a.arrangement = w.arrangement
  calls : a.calls = w.calls

theorem undisturbed_upheld (w : World) : Upholds (Undisturbed w) Replica.services :=
  replica_upholds (fun _ h => ⟨h.files, h.env, h.arrangement, h.calls⟩)
    fun _ _ _ h => ⟨h.files, h.env, h.arrangement, h.calls⟩

theorem Undisturbed.sights {w : World} {m : Machine Replica} (h : Undisturbed w m.standing) :
    SameSights w m.world :=
  ⟨h.files, h.env, h.arrangement⟩

theorem replicaRun_undisturbed (p : Pool) (w : World) :
    Undisturbed w (replicaRun p w).2.standing := by
  have agree := Upholds.agree (c := p.context) (undisturbed_upheld w)
  unfold replicaRun
  exact (Related.runSource agree p.entry.source).keeps (freshMachine p.entry.args .fresh w)
    ⟨rfl, rfl, rfl, rfl⟩

/-- Making an interpreter leaves what scripts see alone, and the requests to come. -/
theorem build_undisturbed (p : Pool) (t : Route.Table) (w : World) :
    SameSights w (p.build t w).2 ∧ (p.build t w).2.calls = w.calls := by
  cases h : isStarved p.settings.memoryLimitBytes with
  | true =>
    rw [build_of_starved h]
    exact ⟨.refl w, rfl⟩
  | false =>
    rw [build_eq h]
    exact ⟨(replicaRun_undisturbed p w).sights, (replicaRun_undisturbed p w).calls⟩

theorem build_sights (p : Pool) (t : Route.Table) (w : World) : SameSights w (p.build t w).2 :=
  (build_undisturbed p t w).1

/-- So does calling a handler. -/
theorem invoke_sights (p : Pool) (id : Nat) (args : List Script.Value) (limit : Option Nat)
    (i : Interpreter) :
    SameSights i.machine.world (i.invoke p.context id args limit).2.machine.world := by
  cases h : i.machine.handlers.lookup id with
  | none =>
    rw [invoke_of_none h]
    exact .refl _
  | some f =>
    rw [invoke_eq h]
    have kept := handlerRun_keeps (undisturbed_upheld i.machine.world) p f args
      (i.machine.timed (.start (i.machine.world.deadline limit))) ⟨rfl, rfl, rfl, rfl⟩
    exact ⟨kept.files, kept.env, kept.arrangement⟩

theorem callHandler_sights (p : Pool) (e : Execution) (i : Interpreter) :
    SameSights i.machine.world (callHandler p e i).2.machine.world := by
  unfold callHandler
  split
  · exact .refl _
  · exact invoke_sights p e.handler _ _ (i.addTexts e.params).2

/-! ### The pool -/

theorem refill_steady (table : Route.Table) : ∀ n s, Steady s (refill table n s)
  | 0, s => (Steady.refl s).onSlots _
  | n + 1, s => by
    have sights := build_sights s.pool table s.world
    unfold refill
    revert sights
    obtain ⟨result, w⟩ := s.pool.build table s.world
    intro sights
    have steady : Steady s { s with world := w } := (Steady.refl s).inWorld sights
    cases result with
    | ok i => exact (steady.onSlots _).trans (refill_steady table n _)
    | error e => exact (steady.log _ _).onSlots _
    | panic text => exact steady.log _ _
    | endless => exact steady

theorem scheduleRefill_steady (s : Server) : Steady s s.scheduleRefill := by
  unfold scheduleRefill
  split
  · exact .refl s
  · dsimp only
    split
    · exact .refl s
    · exact ((Steady.refl s).onSlots fun _ => _).trans (refill_steady _ _ _)

theorem release_steady (s : Server) : Steady s s.release :=
  ((Steady.refl s).onSlots _).trans (scheduleRefill_steady _)

theorem acquire_steady (s : Server) : Steady s s.acquire.2 := by
  unfold acquire
  split
  · exact .refl s
  · split
    · exact .refl s
    · exact .of_parts s _ (.refl _)
    · rename_i table _ _ slots _
      have sights := build_sights { s.pool with slots } table s.world
      dsimp only
      revert sights
      obtain ⟨result, w⟩ := Pool.build { s.pool with slots } table s.world
      intro sights
      have steady : Steady s ⟨{ s.pool with slots }, w⟩ := .of_parts s slots sights
      cases result with
      | error e => exact steady.onSlots _
      | _ => exact steady

/-! ### Requests and connections -/

/-- A handler gives its slot back unless it never ends. -/
theorem runHandler_after (e : Execution) (i : Interpreter) (s : Server) :
    ∃ w, SameSights s.world w ∧
      (runHandler e i s).2 =
        if (runHandler e i s).1.isEndless then { s with world := w }
        else release { s with world := w } := by
  have sights := callHandler_sights s.pool e (i.enter s.world)
  unfold runHandler
  revert sights
  obtain ⟨result, i'⟩ := callHandler s.pool e (i.enter s.world)
  intro sights
  refine ⟨i'.machine.world.afterCall, sights.trans (.of_parts ..), ?_⟩
  cases result <;> rfl

theorem runHandler_released {e : Execution} {i : Interpreter} {s : Server}
    (ends : (runHandler e i s).1 ≠ .endless) :
    ∃ w, SameSights s.world w ∧ (runHandler e i s).2 = release { s with world := w } := by
  obtain ⟨w, sights, after⟩ := runHandler_after e i s
  refine ⟨w, sights, ?_⟩
  rw [after]
  cases result : (runHandler e i s).1 with
  | endless => exact absurd result ends
  | _ => rfl

theorem runHandler_steady (e : Execution) (i : Interpreter) (s : Server) :
    Steady s (runHandler e i s).2 := by
  obtain ⟨w, sights, after⟩ := runHandler_after e i s
  have steady : Steady s { s with world := w } := (Steady.refl s).inWorld sights
  rw [after]
  split
  · exact steady
  · exact steady.trans (release_steady _)

theorem runScript_steady (e : Execution) (s : Server) : Steady s (runScript e s).2 := by
  have steady := acquire_steady s
  unfold runScript
  revert steady
  obtain ⟨result, s'⟩ := s.acquire
  intro steady
  cases result with
  | ok i => exact steady.trans (runHandler_steady e i s')
  | _ => exact steady

theorem execute_steady (e : Execution) (s : Server) : Steady s (execute e s).2 := by
  have steady := runScript_steady e s
  unfold execute
  revert steady
  obtain ⟨result, s'⟩ := runScript e s
  intro steady
  cases result with
  | error fault => exact steady.log _ _
  | _ => exact steady

def replyTo (route : Option String) : Ending Fault Script.Synthesis → Ending Empty Reply
  | .ok v => .ok ⟨responseOf v, route, some .completed⟩
  | .error fault => .ok ⟨failureResponse fault, route, some .failed⟩
  | .panic text => .panic text
  | .endless => .endless

/-- A request is answered from the files alone, or by a handler. -/
theorem handle_cases (t : Route.Table) (r : Http.Request) :
    (∃ reply : Files → Reply, ∀ s, handle t r s = (.ok (reply s.world.files), s)) ∨
      ∃ route e, ∀ s, (handle t r s).1 = replyTo route (runScript e s).1 ∧
        (handle t r s).2 = (execute e s).2 := by
  unfold handle
  cases t.resolve r.method r.path with
  | notFound => exact .inl ⟨fun _ => _, fun _ => rfl⟩
  | methodNotAllowed allowed => exact .inl ⟨fun _ => _, fun _ => rfl⟩
  | found key target params =>
    cases target with
    | file path => exact .inl ⟨fun files => ⟨Static.serveFile files r path, _, none⟩, fun _ => rfl⟩
    | directory dir =>
      exact .inl ⟨fun files => ⟨Static.serveDirectory files r dir _, _, none⟩, fun _ => rfl⟩
    | handler id =>
      refine .inr ⟨some key.text, .start id r.method r.path params, fun s => ?_⟩
      unfold execute
      dsimp only
      obtain ⟨result, s'⟩ := runScript (.start id r.method r.path params) s
      cases result <;> exact ⟨rfl, rfl⟩

/-- Answering a request leaves everything but the slots alone. -/
theorem handle_steady (t : Route.Table) (r : Http.Request) (s : Server) :
    Steady s (handle t r s).2 := by
  rcases handle_cases t r with ⟨reply, answered⟩ | ⟨route, e, answered⟩
  · rw [answered]
    exact .refl s
  · rw [(answered s).2]
    exact execute_steady e s

theorem handleSafely_steady (table : Route.Table) (request : Http.Request) (id : String)
    (s : Server) : Steady s (handleSafely table request id s).2 := by
  have steady := handle_steady table request s
  unfold handleSafely
  revert steady
  obtain ⟨result, s'⟩ := handle table request s
  intro steady
  cases result with
  | error e => exact e.elim
  | panic text => exact steady.log _ _
  | _ => exact steady

theorem answer_steady (table : Route.Table) (request : Http.Request) (s : Server) :
    Steady s (answer table request s).2 := by
  unfold answer
  obtain ⟨id, next⟩ := Log.RequestId.resolve request.headers s.world.nextRequest
  dsimp only
  have counted : Steady s { s with world := { s.world with nextRequest := next } } :=
    (Steady.refl s).inWorld ⟨rfl, rfl, rfl⟩
  have steady := counted.trans (handleSafely_steady table request id _)
  revert steady
  obtain ⟨reply, s'⟩ := handleSafely table request id
    { s with world := { s.world with nextRequest := next } }
  intro steady
  cases reply with
  | none => exact steady
  | some reply => exact steady.inWorld ⟨rfl, rfl, rfl⟩

theorem serveConnection_steady (table : Route.Table) (stream : Http.Stream) (s : Server) :
    Steady s (serveConnection table stream s).2 := by
  unfold serveConnection
  split
  · exact answer_steady table _ s
  · exact (Steady.refl s).log _ _

theorem serveClients_steady (table : Route.Table) : ∀ clients l s,
    Steady s (serveClients table clients l s).2
  | [], _, s => .refl s
  | stream :: clients, l, s => by
    have connected : Steady s { s with world := { s.world with clients } } :=
      (Steady.refl s).inWorld ⟨rfl, rfl, rfl⟩
    have steady := connected.trans (serveConnection_steady table stream _)
    unfold serveClients
    dsimp only
    revert steady
    obtain ⟨reply, s'⟩ := serveConnection table stream { s with world := { s.world with clients } }
    intro steady
    cases reply with
    | none => exact steady
    | some bytes =>
      have steady' : Steady s
          { s' with world := { s'.world with replies := s'.world.replies ++ [bytes] } } :=
        steady.inWorld ⟨rfl, rfl, rfl⟩
      dsimp only
      split
      · exact steady'
      · exact steady'.trans (serveClients_steady table clients _ _)

theorem publish_of_published {s : Server} {t : Route.Table} (h : s.pool.routes = .published t) :
    s.publish = (t, s) := by
  unfold publish
  rw [h]

/-- Serving leaves everything but the slots alone once the routes are published. -/
theorem serve_steady {s : Server} {t : Route.Table} (h : s.pool.routes = .published t)
    (addr : String) : Steady s (serve addr s).2 := by
  unfold serve
  rw [publish_of_published h]
  dsimp only
  split
  · exact ((Steady.refl s).log _ _).trans (serveClients_steady t _ _ _)
  · exact .refl s

def withTable (s : Server) (t : Route.Table) : Server :=
  { s with pool := { s.pool with routes := .published t } }

theorem publish_of_collecting {s : Server} {r : Route.Registry}
    (h : s.pool.routes = .collecting r) :
    ∃ s', s.publish = (r.freeze, s') ∧ Steady (s.withTable r.freeze) s' := by
  unfold publish
  rw [h]
  exact ⟨_, rfl, (Steady.refl (s.withTable r.freeze)).log _ _⟩

/-- At startup `listen` publishes the routes that were collected. Whatever comes of serving, the
rest of the interpreter is as before. -/
theorem startup_listenAt {m : Machine Pool} {r : Route.Registry}
    (h : m.place.routes = .collecting r) (addr : String) :
    ∃ o s, Steady (withTable ⟨m.place, m.world⟩ r.freeze) s ∧
      Script.listenAt Startup.services addr m =
        (o, { m with place := s.pool, world := s.world }) := by
  obtain ⟨s₁, published, steady₁⟩ := publish_of_collecting (s := ⟨m.place, m.world⟩) h
  have steady₂ := (steady₁.trans (scheduleRefill_steady s₁)).log .info
    ("starting server on " ++ addr ++ " with " ++ Text.number r.freeze.entries.length ++ " routes")
  simp only [Script.listenAt, Startup.services, Startup.listen, Pool.table?, h, published,
    Option.isSome_none, Bool.false_eq_true, if_false]
  generalize s₁.scheduleRefill.log _ _ = s₂ at steady₂ ⊢
  have steady₃ := steady₂.trans (serve_steady (steady₂.routes.trans rfl) addr)
  revert steady₃
  obtain ⟨result, s₃⟩ := serve addr s₂
  intro steady₃
  cases result with
  | _ => exact ⟨_, s₃, steady₃, rfl⟩

end ScriptServer.Server
