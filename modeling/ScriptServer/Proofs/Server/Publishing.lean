import Mathlib.Data.Multiset.Count
import Mathlib.Logic.Relation
import ScriptServer.Proofs.Route.Registration

/-!
# Publishing while routes are registered

Any number of threads register routes with one pool and publish its routes. A registration has the
routes to itself (`Section.filed`), and so has the call that takes them and makes the table
(`Section.taken`). That call shows the table to others only later, and calls that publish in the
meantime wait. The one section in which the routes are taken divides the registrations: those before
it are in the table, as if they had been made one after the other, but for those that are not valid,
and those after it are refused (`publishing_linearizes`).
-/

namespace ScriptServer.Server

open Route (Registration Registry validate)

/-- What is given for a route that was registered. -/
inductive Receipt where
  | handler (id : Nat)
  | route (key : Route.Key)
  deriving DecidableEq

/-- The receipt says where the registry has the route. -/
def Receipt.Confirms (registry : Registry) (r : Registration) : Receipt → Prop
  | handler id => registry.handlerKeys[id]? = some r.key
  | route key => key = r.key

/-- Registers a route, or refuses it and stays as it is. -/
def Pool.register (p : Pool) : Registration → Except Fault Receipt × Pool
  | .handler method pattern =>
    match p.registerHandler method pattern with
    | .ok (id, p) => (.ok (.handler id), p)
    | .error e => (.error e, p)
  | .route method pattern target =>
    match p.registerRoute method pattern target with
    | .ok (key, p) => (.ok (.route key), p)
    | .error e => (.error e, p)

/-- A registration with its answer. -/
structure Filing where
  registration : Registration
  answer : Except Fault Receipt

/-- What a call does while it has the routes to itself. -/
inductive Section where
  | filed (f : Filing)
  | taken (table : Route.Table)

/-- How far a call has come that registers or publishes. -/
inductive Errand where
  | registering (r : Registration)
  /-- Publishes, and sees next whether a table is shown. -/
  | publishing
  /-- Publishes, and takes the routes next. -/
  | taking
  /-- Publishes, and shows next the table that it has made. -/
  | showing (table : Route.Table)
  deriving DecidableEq

/-- The call has begun to make the table, and others wait for it. -/
def Errand.isInside : Errand → Bool
  | taking | showing _ => true
  | _ => false

/-- A server whose routes are registered and published. -/
structure Publication where
  server : Server
  /-- The table that calls find. -/
  shown : Option Route.Table
  calls : Multiset Errand
  /-- What was done with the routes, in this order. -/
  sections : List Section
  /-- The tables that calls which published have given. -/
  returned : List Route.Table

namespace Publication

def start (s : Server) : Publication := ⟨s, none, 0, [], []⟩

inductive Step : Publication → Publication → Prop where
  | register (t : Publication) (r : Registration) :
    Step t { t with calls := .registering r ::ₘ t.calls }
  | publish (t : Publication) : Step t { t with calls := .publishing ::ₘ t.calls }
  | file {t : Publication} {r : Registration} {rest : Multiset Errand}
    (who : t.calls = .registering r ::ₘ rest) :
    Step t { t with
      server := { t.server with pool := (t.server.pool.register r).2 }
      calls := rest
      sections := t.sections ++ [.filed ⟨r, (t.server.pool.register r).1⟩] }
  | find {t : Publication} {table : Route.Table} {rest : Multiset Errand}
    (who : t.calls = .publishing ::ₘ rest) (found : t.shown = some table) :
    Step t { t with calls := rest, returned := table :: t.returned }
  /-- While a call is inside, others wait. -/
  | enter {t : Publication} {rest : Multiset Errand} (who : t.calls = .publishing ::ₘ rest)
    (none : t.shown = none) (alone : ∀ c ∈ t.calls, c.isInside = false) :
    Step t { t with calls := .taking ::ₘ rest }
  | take {t : Publication} {rest : Multiset Errand} (who : t.calls = .taking ::ₘ rest) :
    Step t { t with
      server := (Server.publish t.server).2
      calls := .showing (Server.publish t.server).1 ::ₘ rest
      sections := t.sections ++ [.taken (Server.publish t.server).1] }
  | reveal {t : Publication} {table : Route.Table} {rest : Multiset Errand}
    (who : t.calls = .showing table ::ₘ rest) :
    Step t { t with shown := some table, calls := rest, returned := table :: t.returned }

abbrev Steps : Publication → Publication → Prop := Relation.ReflTransGen Step

/-- A call that registers a route at once. -/
theorem register_run (t : Publication) {r : Registration} {answer : Except Fault Receipt}
    {pool : Pool} (registered : t.server.pool.register r = (answer, pool)) :
    Steps t { t with
      server := { t.server with pool }, sections := t.sections ++ [.filed ⟨r, answer⟩] } := by
  have filed : Steps t { t with
      server := { t.server with pool := (t.server.pool.register r).2 }
      sections := t.sections ++ [.filed ⟨r, (t.server.pool.register r).1⟩] } :=
    .tail (.single (.register t r)) (.file rfl)
  rwa [registered] at filed

/-- A call that publishes and takes the routes at once. -/
theorem take_run (t : Publication) {table : Route.Table} {s : Server}
    (alone : ∀ c ∈ t.calls, c.isInside = false) (none : t.shown = none)
    (published : Server.publish t.server = (table, s)) :
    Steps t { t with
      server := s
      calls := .showing table ::ₘ t.calls
      sections := t.sections ++ [.taken table] } := by
  have alone' : ∀ c ∈ Errand.publishing ::ₘ t.calls, c.isInside = false :=
    Multiset.forall_mem_cons.mpr ⟨rfl, alone⟩
  have asked : Steps t { t with calls := .publishing ::ₘ t.calls } := .single (.publish t)
  have taken := (asked.tail (.enter rfl none alone')).tail (.take rfl)
  rwa [published] at taken

/-- A call that publishes and that nobody else comes between does what publishing does. -/
theorem publish_run (t : Publication) (alone : ∀ c ∈ t.calls, c.isInside = false)
    (same : t.shown = t.server.pool.table?) :
    ∃ t', Steps t t' ∧ t'.server = (Server.publish t.server).2 ∧
      t'.returned = (Server.publish t.server).1 :: t.returned ∧ t'.calls = t.calls ∧
      t'.shown = t'.server.pool.table? := by
  cases routes : t.server.pool.routes with
  | published table =>
    have found : t.shown = some table := by rw [same, Pool.table?, routes]
    have published : Server.publish t.server = (table, t.server) := by
      rw [Server.publish, routes]
    have asked : Steps t { t with calls := .publishing ::ₘ t.calls } := .single (.publish t)
    rw [published]
    exact ⟨_, asked.tail (.find rfl found), rfl, rfl, rfl, same⟩
  | collecting registry =>
    have none : t.shown = none := by rw [same, Pool.table?, routes]
    refine ⟨_, (take_run t alone none rfl).tail (.reveal rfl), rfl, rfl, rfl, ?_⟩
    simp [routes, Server.log, Pool.table?]

end Publication

/-! ### One registration -/

namespace Filing

def accepted? (f : Filing) : Option Registration :=
  match f.answer with
  | .ok _ => some f.registration
  | .error _ => none

def accepted (fs : List Filing) : List Registration := fs.filterMap accepted?

theorem accepted_append (fs gs : List Filing) :
    accepted (fs ++ gs) = accepted fs ++ accepted gs := List.filterMap_append

/-- The answer that a pool gives while it collects routes. -/
inductive Answered (registry : Registry) : Filing → Prop where
  | accepted {r : Registration} {receipt : Receipt} {valid : Route.Key × Route.Pattern}
    (h : r.validity = .ok valid) (confirms : receipt.Confirms registry r) :
    Answered registry ⟨r, .ok receipt⟩
  | refused {r : Registration} {fault : Route.Fault} (h : r.validity = .error fault) :
    Answered registry ⟨r, .error (.route fault)⟩

end Filing

variable {p : Pool} {registry registry' : Registry} {r : Registration} {table : Route.Table}

theorem Receipt.Confirms.mono {receipt : Receipt} (confirms : receipt.Confirms registry r)
    (longer : registry.handlerKeys <+: registry'.handlerKeys) : receipt.Confirms registry' r := by
  cases receipt with
  | handler id =>
    obtain ⟨bound, eq⟩ := List.getElem?_eq_some_iff.mp confirms
    exact (List.prefix_iff_getElem?.mp longer id bound).trans (congrArg some eq)
  | route key => exact confirms

theorem Filing.Answered.mono {f : Filing} (answered : f.Answered registry)
    (longer : registry.handlerKeys <+: registry'.handlerKeys) : f.Answered registry' := by
  cases answered with
  | accepted h confirms => exact .accepted h (confirms.mono longer)
  | refused h => exact .refused h

theorem Pool.register_published (routes : p.routes = .published table) (r : Registration) :
    p.register r = (.error .routesFrozen, p) := by
  cases r <;> simp [Pool.register, Pool.registerHandler, Pool.registerRoute, routes]

theorem Pool.register_invalid (routes : p.routes = .collecting registry) {fault : Route.Fault}
    (invalid : r.validity = .error fault) : p.register r = (.error (.route fault), p) := by
  cases r with
  | handler method pattern =>
    change validate method pattern = _ at invalid
    simp [Pool.register, Pool.registerHandler, routes, Registry.registerHandler_eq, invalid,
      Except.map]
  | route method pattern target =>
    change validate method pattern = _ at invalid
    simp [Pool.register, Pool.registerRoute, routes, Registry.register_eq, invalid, Except.map]

theorem Pool.register_valid (routes : p.routes = .collecting registry)
    {valid : Route.Key × Route.Pattern} (h : r.validity = .ok valid) :
    ∃ registry' receipt, r.apply registry = .ok registry' ∧
      p.register r = (.ok receipt, { p with routes := .collecting registry' }) ∧
      receipt.Confirms registry' r ∧ registry.handlerKeys <+: registry'.handlerKeys := by
  have key := Registry.key_of_validity h
  cases r with
  | handler method pattern =>
    change validate method pattern = _ at h
    refine ⟨registry.withHandler valid.1 valid.2, .handler registry.handlerKeys.length, ?_, ?_, ?_,
      List.prefix_append ..⟩
    · rw [Registry.apply_handler, h]
      rfl
    · simp [Pool.register, Pool.registerHandler, routes, Registry.registerHandler_eq, h, Except.map]
    · rw [Receipt.Confirms, Registry.withHandler, List.getElem?_concat_length, key]
  | route method pattern target =>
    change validate method pattern = _ at h
    refine ⟨registry.withRoute valid.1 valid.2 target, .route valid.1, ?_, ?_, key,
      List.prefix_refl _⟩
    · rw [Registry.apply_route, h]
      rfl
    · simp [Pool.register, Pool.registerRoute, routes, Registry.register_eq, h, Except.map]

/-! ### Before the routes are taken, and after -/

/-- Registrations and the registry that they lead to, one after the other. -/
structure Filed (fs : List Filing) (registry : Registry) : Prop where
  applied : Registry.empty.registerAll (Filing.accepted fs) = .ok registry
  answered : ∀ f ∈ fs, f.Answered registry

theorem Filed.nil : Filed [] .empty := ⟨rfl, nofun⟩

/-- One more registration. -/
theorem Filed.register {fs : List Filing} (filed : Filed fs registry)
    (routes : p.routes = .collecting registry) (r : Registration) :
    ∃ registry', (p.register r).2.routes = .collecting registry' ∧
      Filed (fs ++ [⟨r, (p.register r).1⟩]) registry' := by
  cases h : r.validity with
  | error fault =>
    rw [Pool.register_invalid routes h]
    refine ⟨registry, routes, ?_, ?_⟩
    · rw [Filing.accepted_append]
      exact (List.append_nil _).symm ▸ filed.applied
    · exact List.forall_mem_append.mpr
        ⟨filed.answered, List.forall_mem_singleton.mpr (.refused h)⟩
  | ok valid =>
    obtain ⟨registry', receipt, applied, registered, confirms, longer⟩ :=
      Pool.register_valid routes h
    rw [registered]
    refine ⟨registry', rfl, ?_, ?_⟩
    · rw [Filing.accepted_append]
      exact Registry.registerAll_concat filed.applied applied
    · exact List.forall_mem_append.mpr ⟨fun f mem => (filed.answered f mem).mono longer,
        List.forall_mem_singleton.mpr (.accepted h confirms)⟩

theorem Filing.Answered.accepted_iff {f : Filing} (answered : f.Answered registry) :
    (∃ receipt, f.answer = .ok receipt) ↔ ∃ valid, f.registration.validity = .ok valid := by
  cases answered with
  | accepted h _ => exact iff_of_true ⟨_, rfl⟩ ⟨_, h⟩
  | refused h => exact iff_of_false nofun fun ⟨valid, h'⟩ => by cases h.symm.trans h'

/-- The table has a route for the key of each registration, to the target that came last. -/
theorem Filed.entries {fs : List Filing} (filed : Filed fs registry) :
    (∀ r ∈ Filing.accepted fs, ∃ e ∈ registry.freeze.entries, e.key = r.key) ∧
      ∀ e ∈ registry.freeze.entries,
        (Registration.assignments 0 (Filing.accepted fs)).reverse.lookup e.key = some e.target := by
  have holds := Registry.holds_of_registerAll filed.applied
  have same (e : Route.Entry) : e ∈ registry.freeze.entries ↔ e ∈ registry.entries :=
    List.mem_mergeSort
  refine ⟨fun r mem => ?_, fun e mem => holds.target e ((same e).mp mem)⟩
  have key : r.key ∈ registry.entries.map Route.Entry.key := by
    rw [← holds.keys, Registration.keys_assignments]
    exact List.mem_map_of_mem mem
  obtain ⟨e, mem, eq⟩ := List.mem_map.mp key
  exact ⟨e, (same e).mpr mem, eq⟩

theorem Filed.accepted_iff {fs : List Filing} {f : Filing} (filed : Filed fs registry)
    (mem : f ∈ fs) : (∃ receipt, f.answer = .ok receipt) ↔
      f ∈ fs ∧ ∃ valid, f.registration.validity = .ok valid :=
  (filed.answered f mem).accepted_iff.trans (and_iff_right mem).symm

namespace Publication

/-- Nobody has taken the routes. -/
structure Collecting (t : Publication) (fs : List Filing) (registry : Registry) : Prop where
  routes : t.server.pool.routes = .collecting registry
  sections : t.sections = fs.map .filed
  filed : Filed fs registry
  shown : t.shown = none
  returned : t.returned = []
  making : ∀ table, .showing table ∉ t.calls
  alone : t.calls.count .taking ≤ 1

/-- The routes were taken once, between two runs of registrations, and are shown or will be. -/
structure Taken (t : Publication) (before after : List Filing) (registry : Registry) : Prop where
  routes : t.server.pool.routes = .published registry.freeze
  sections : t.sections = before.map .filed ++ .taken registry.freeze :: after.map .filed
  filed : Filed before registry
  late : ∀ f ∈ after, f.answer = .error .routesFrozen
  shown : ∀ table, t.shown = some table → table = registry.freeze
  returned : ∀ table ∈ t.returned, table = registry.freeze
  making : ∀ table, .showing table ∈ t.calls → table = registry.freeze
  once : .taking ∉ t.calls
  visible : t.shown ≠ none ∨ ∃ c ∈ t.calls, c.isInside = true

variable {t t' : Publication} {before after : List Filing}

theorem Collecting.start {s : Server} (new : s.pool.routes = .collecting .empty) :
    Collecting (start s) [] .empty :=
  ⟨new, rfl, .nil, rfl, rfl, fun _ => Multiset.notMem_zero _, Nat.zero_le _⟩

theorem publish_collecting {s : Server} (routes : s.pool.routes = .collecting registry) :
    (Server.publish s).1 = registry.freeze ∧
      (Server.publish s).2.pool.routes = .published registry.freeze := by
  simp [Server.publish, routes, Server.log]

theorem Collecting.step (h : Collecting t before registry) (s : Step t t') :
    (∃ before registry, Collecting t' before registry) ∨
      ∃ before registry, Taken t' before [] registry := by
  obtain ⟨routes, sections, filed, shown, returned, making, alone⟩ := h
  cases s with
  | register | publish =>
    exact .inl ⟨before, registry, routes, sections, filed, shown, returned, by simpa using making,
      by simpa using alone⟩
  | @file r rest who =>
    obtain ⟨registry', routes', filed'⟩ := filed.register routes r
    rw [who] at making alone
    exact .inl ⟨_, registry', routes', by simp [sections], filed', shown, returned,
      by simpa using making, by simpa using alone⟩
  | find who found =>
    rw [shown] at found
    cases found
  | @enter rest who none single =>
    rw [who] at making single
    have absent : .taking ∉ rest := fun mem =>
      Bool.false_ne_true (single _ (Multiset.mem_cons_of_mem mem)).symm
    exact .inl ⟨before, registry, routes, sections, filed, shown, returned, by simpa using making,
      by simp [Multiset.count_eq_zero.mpr absent]⟩
  | @take rest who =>
    obtain ⟨table, routes'⟩ := publish_collecting routes
    rw [who] at making alone
    have absent : .taking ∉ rest := by
      rw [Multiset.count_cons_self] at alone
      exact Multiset.count_eq_zero.mp (by omega)
    refine .inr ⟨before, registry, routes', ?_, filed, nofun, ?_, ?_, ?_, ?_, ?_⟩
    · simp [sections, table]
    · simp [shown]
    · simp [returned]
    · intro table' mem
      refine (Multiset.mem_cons.mp mem).elim (fun eq => ?_) fun mem => ?_
      · exact (Errand.showing.inj eq).trans table
      · exact absurd (Multiset.mem_cons_of_mem mem) (making table')
    · simpa using absent
    · exact .inr ⟨_, Multiset.mem_cons_self _ _, rfl⟩
  | reveal who => exact absurd (who ▸ Multiset.mem_cons_self _ _) (making _)

theorem Taken.step (h : Taken t before after registry) (s : Step t t') :
    ∃ after, Taken t' before after registry := by
  obtain ⟨routes, sections, filed, late, shown, returned, making, once, visible⟩ := h
  cases s with
  | register | publish =>
    exact ⟨after, routes, sections, filed, late, shown, returned, by simpa using making,
      by simpa using once, visible.imp_right fun ⟨c, mem, inside⟩ =>
        ⟨c, Multiset.mem_cons_of_mem mem, inside⟩⟩
  | @file r rest who =>
    rw [who] at making once visible
    rw [Pool.register_published routes]
    refine ⟨after ++ [⟨r, .error .routesFrozen⟩], routes, ?_, filed, ?_, shown, returned, ?_, ?_,
      ?_⟩
    · simp [sections]
    · exact List.forall_mem_append.mpr ⟨late, List.forall_mem_singleton.mpr rfl⟩
    · simpa using making
    · simpa using once
    · simpa [Errand.isInside] using visible
  | @find table rest who found =>
    rw [who] at making once visible
    refine ⟨after, routes, sections, filed, late, shown, ?_, ?_, ?_, ?_⟩
    · exact List.forall_mem_cons.mpr ⟨shown table found, returned⟩
    · simpa using making
    · simpa using once
    · exact .inl (by simp [found])
  | enter who none single =>
    refine absurd visible (not_or.mpr ⟨not_not.mpr none, fun ⟨c, mem, inside⟩ => ?_⟩)
    rw [single c mem] at inside
    cases inside
  | take who => exact absurd (who ▸ Multiset.mem_cons_self _ _) once
  | @reveal table rest who =>
    have same : table = registry.freeze := making table (who ▸ Multiset.mem_cons_self _ _)
    rw [who] at making once
    refine ⟨after, routes, sections, filed, late, ?_, ?_, ?_, ?_, ?_⟩
    · rintro _ ⟨⟩
      exact same
    · exact List.forall_mem_cons.mpr ⟨same, returned⟩
    · exact fun table' mem => making table' (Multiset.mem_cons_of_mem mem)
    · simpa using once
    · exact .inl (by simp)

/-- Whatever threads have done, the routes were taken once or not yet. -/
theorem Steps.divided {s : Server} (new : s.pool.routes = .collecting .empty)
    (run : Steps (Publication.start s) t) :
    (∃ before registry, Collecting t before registry) ∨
      ∃ before after registry, Taken t before after registry := by
  induction run with
  | refl => exact .inl ⟨_, _, .start new⟩
  | tail _ step ih =>
    rcases ih with ⟨before, registry, h⟩ | ⟨before, after, registry, h⟩
    · exact (h.step step).imp_right fun ⟨before, registry, h⟩ => ⟨before, [], registry, h⟩
    · obtain ⟨after, h⟩ := h.step step
      exact .inr ⟨before, after, registry, h⟩

/-! ### The table -/

/-- The registrations `before` were made and `after` were refused, and the calls that published gave
the table of those that were made. -/
structure Divided (t : Publication) (before after : List Filing) (registry : Registry) : Prop where
  sections : t.sections = before.map .filed ∧ after = [] ∧ t.returned = [] ∨
    t.sections = before.map .filed ++ .taken registry.freeze :: after.map .filed
  returned : ∀ table ∈ t.returned, table = registry.freeze
  accepted_iff : ∀ f, .filed f ∈ t.sections →
    ((∃ receipt, f.answer = .ok receipt) ↔
      f ∈ before ∧ ∃ valid, f.registration.validity = .ok valid)
  answered : ∀ f ∈ before, f.Answered registry
  late : ∀ f ∈ after, f.answer = .error .routesFrozen
  applied : Registry.empty.registerAll (Filing.accepted before) = .ok registry
  registered : ∀ r ∈ Filing.accepted before, ∃ e ∈ registry.freeze.entries, e.key = r.key
  entries : ∀ e ∈ registry.freeze.entries,
    (Registration.assignments 0 (Filing.accepted before)).reverse.lookup e.key = some e.target

/-- **Publishing.** Whatever threads have done, all calls that published gave the same table. It is
made of the registrations that had the routes to themselves before they were taken, one after the
other in this order. Those are accepted just if they are valid, and all later ones are refused. -/
theorem publishing_linearizes {s : Server} (new : s.pool.routes = .collecting .empty)
    (run : Steps (Publication.start s) t) : ∃ before after registry,
      Divided t before after registry := by
  rcases Steps.divided new run with ⟨before, registry, h⟩ | ⟨before, after, registry, h⟩
  · refine ⟨before, [], registry, .inl ⟨h.sections, rfl, h.returned⟩, ?_, fun f mem => ?_,
      h.filed.answered, nofun, h.filed.applied, h.filed.entries.1, h.filed.entries.2⟩
    · simp [h.returned]
    · exact h.filed.accepted_iff (by simpa [h.sections] using mem)
  · refine ⟨before, after, registry, .inr h.sections, h.returned, fun f mem => ?_,
      h.filed.answered, h.late, h.filed.applied, h.filed.entries.1, h.filed.entries.2⟩
    have cases : f ∈ before ∨ f ∈ after := by simpa [h.sections] using mem
    rcases cases with early | late
    · exact h.filed.accepted_iff early
    · have refused := h.late f late
      refine iff_of_false (by simp [refused]) fun ⟨early, valid⟩ => ?_
      obtain ⟨receipt, ok⟩ := (h.filed.accepted_iff early).mpr ⟨early, valid⟩
      rw [refused] at ok
      cases ok

/-- A second route is registered between the moments at which the table is made and shown. -/
theorem publishing_linearizes_between :
    let s : Server := ⟨.ofEntry (.ofText "main.lua" "") .standard, .ofFiles ⟨[], []⟩ [] none⟩
    let table : Route.Table := ⟨[⟨⟨"GET", "/a"⟩, .handler 0, [.exact "a"]⟩], [⟨"GET", "/a"⟩]⟩
    ∃ t, s.pool.routes = .collecting .empty ∧ Steps (Publication.start s) t ∧
      t.returned = [table, table] ∧
      t.sections = [.filed ⟨.handler "GET" "/a", .ok (.handler 0)⟩, .taken table,
        .filed ⟨.route "GET" "/b" (.file "b"), .error .routesFrozen⟩] ∧
      ∃ before after registry, Divided t before after registry := by
  intro s table
  let pool : Pool := { s.pool with routes := .collecting ⟨table.entries, table.handlerKeys⟩ }
  let s₂ : Server := (Server.publish ⟨pool, s.world⟩).2
  let first : Section := .filed ⟨.handler "GET" "/a", .ok (.handler 0)⟩
  let second : Section := .filed ⟨.route "GET" "/b" (.file "b"), .error .routesFrozen⟩
  have registered : s.pool.register (.handler "GET" "/a") = (.ok (.handler 0), pool) := rfl
  have published : Server.publish ⟨pool, s.world⟩ = (table, s₂) :=
    Prod.ext (congrArg (Route.Table.mk · table.handlerKeys) (List.mergeSort_singleton _)) rfl
  have refused : s₂.pool.register (.route "GET" "/b" (.file "b")) =
      (.error .routesFrozen, s₂.pool) := Pool.register_published rfl _
  have filed : Steps (Publication.start s) ⟨⟨pool, s.world⟩, none, 0, [first], []⟩ :=
    register_run (Publication.start s) registered
  have taken : Steps (Publication.start s)
      ⟨s₂, none, .showing table ::ₘ 0, [first, .taken table], []⟩ :=
    filed.trans (take_run _ (fun _ mem => absurd mem (Multiset.notMem_zero _)) rfl published)
  have late : Steps (Publication.start s)
      ⟨s₂, none, .showing table ::ₘ 0, [first, .taken table, second], []⟩ :=
    taken.trans (register_run _ refused)
  have shown : Steps (Publication.start s)
      ⟨s₂, some table, 0, [first, .taken table, second], [table]⟩ := late.tail (.reveal rfl)
  have asked : Steps (Publication.start s)
      ⟨s₂, some table, .publishing ::ₘ 0, [first, .taken table, second], [table]⟩ :=
    shown.tail (.publish _)
  have found : Steps (Publication.start s)
      ⟨s₂, some table, 0, [first, .taken table, second], [table, table]⟩ :=
    asked.tail (.find rfl rfl)
  exact ⟨_, rfl, found, rfl, rfl, publishing_linearizes rfl found⟩

/-- A pattern without a slash comes before the routes are taken, and is refused. -/
theorem early_registration_refused :
    let s : Server := ⟨.ofEntry (.ofText "main.lua" "") .standard, .ofFiles ⟨[], []⟩ [] none⟩
    let f : Filing := ⟨.handler "GET" "x", .error (.route (.badPattern "x" .noSlash))⟩
    ∃ t, s.pool.routes = .collecting .empty ∧ Steps (Publication.start s) t ∧
      t.sections = [.filed f, .taken Registry.empty.freeze] ∧
      ¬ ∃ receipt, f.answer = .ok receipt := by
  intro s f
  have invalid : f.registration.validity = .error (.badPattern "x" .noSlash) := rfl
  have filed : Steps (Publication.start s) ⟨s, none, 0, [.filed f], []⟩ :=
    register_run (Publication.start s) (Pool.register_invalid rfl invalid)
  have taken := filed.trans
    (take_run _ (fun _ mem => absurd mem (Multiset.notMem_zero _)) rfl rfl)
  exact ⟨_, rfl, taken, rfl, nofun⟩

end Publication

end ScriptServer.Server
