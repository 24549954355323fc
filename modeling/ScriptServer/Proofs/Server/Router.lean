import ScriptServer.Server.Startup

/-!
# What the `router` module does

Whether a route can be registered depends on the route alone and not on those that are there. A
replica that is sealed and a pool whose routes are published refuse everything.
-/

namespace ScriptServer

namespace Route

/-- The key of a route and its pattern, if it can be registered. -/
def validate (method pattern : String) : Except Fault (Key × Pattern) :=
  if (Key.of method pattern).method.isEmpty then .error (.emptyMethod pattern)
  else
    match Pattern.read pattern with
    | .error fault => .error (.badPattern pattern fault)
    | .ok p => .ok (Key.of method pattern, p)

namespace Registry

/-- The registry with one more route, to a handler with the next number. -/
def withHandler (r : Registry) (key : Key) (pattern : Pattern) : Registry :=
  ⟨place key (.handler r.handlerKeys.length) pattern r.entries, r.handlerKeys ++ [key]⟩

def withRoute (r : Registry) (key : Key) (pattern : Pattern) (target : Target) : Registry :=
  { r with entries := place key target pattern r.entries }

@[simp] theorem withHandler_length (r : Registry) (key : Key) (pattern : Pattern) :
    (r.withHandler key pattern).handlerKeys.length = r.handlerKeys.length + 1 :=
  List.length_append

theorem register_eq (r : Registry) (method pattern : String) (target : Target) :
    r.register method pattern target =
      (validate method pattern).map fun (key, p) => (key, r.withRoute key p target) := by
  unfold register validate
  dsimp only
  split
  · rfl
  · cases Pattern.read pattern <;> rfl

theorem registerHandler_eq (r : Registry) (method pattern : String) :
    r.registerHandler method pattern =
      (validate method pattern).map fun (key, p) =>
        (r.handlerKeys.length, r.withHandler key p) := by
  simp only [registerHandler, register_eq]
  cases validate method pattern <;> rfl

end Registry

end Route

namespace Server

open Route (Registry validate)
open Script (Machine Failure Outcome StaticKind Value)

abbrev frozen : Failure := .message Fault.routesFrozen.message

/-- The interpreter after a function was registered as a handler. -/
def withHandler {ρ : Type} (m : Machine ρ) (place : ρ) (id f : Nat) (method pattern : String) :
    Machine ρ :=
  { m with
    place
    handlers := (id, m.heap.function f) :: m.handlers
    world := m.world.log .debug
      ("route " ++ method ++ " " ++ pattern ++ " -> handler " ++ Text.number id) }

section Replica

variable {m : Machine Replica} (method pattern path : String) (kind : StaticKind) (f : Nat)

theorem replica_registerHandler (h : m.place.isSealed = false) :
    Script.registerHandler Replica.services method pattern f m =
      match validate method pattern with
      | .error e => (.failed (.message e.message), m)
      | .ok (key, p) =>
        (.ok [], withHandler m { m.place with registry := m.place.registry.withHandler key p }
          m.place.registry.handlerKeys.length f method pattern) := by
  simp only [Script.registerHandler, Replica.services, Replica.addHandler, h,
    Registry.registerHandler_eq]
  cases validate method pattern <;> rfl

theorem replica_registerHandler_sealed (h : m.place.isSealed = true) :
    Script.registerHandler Replica.services method pattern f m = (.failed frozen, m) := by
  simp [Script.registerHandler, Replica.services, Replica.addHandler, h]

theorem replica_registerStatic (h : m.place.isSealed = false) :
    Script.registerStatic Replica.services kind pattern path m =
      match validate Route.anyMethod (Script.staticPattern kind pattern) with
      | .error e => (.failed (.message e.message), m)
      | .ok (key, p) =>
        (.ok [], { m with
          place := { m.place with
            registry := m.place.registry.withRoute key p (.file path) } }) := by
  simp only [Script.registerStatic, Replica.services, Replica.addStatic, h, Registry.register_eq]
  cases validate Route.anyMethod (Script.staticPattern kind pattern) <;> rfl

theorem replica_registerStatic_sealed (h : m.place.isSealed = true) :
    Script.registerStatic Replica.services kind pattern path m = (.failed frozen, m) := by
  simp [Script.registerStatic, Replica.services, Replica.addStatic, h]

theorem replica_listenAt (h : m.place.isSealed = false) :
    Script.listenAt Replica.services path m =
      (.failed (.message "router.listen reached"),
        { m with place := { m.place with listenReached := true, isSealed := true } }) := by
  simp [Script.listenAt, Replica.services, Replica.listen, h]

theorem replica_listenAt_sealed (h : m.place.isSealed = true) :
    Script.listenAt Replica.services path m = (.failed frozen, m) := by
  simp [Script.listenAt, Replica.services, Replica.listen, h]

end Replica

section Startup

variable {m : Machine Pool} (method pattern path : String) (kind : StaticKind) (f : Nat)

theorem startup_registerHandler {r : Registry} (h : m.place.routes = .collecting r) :
    Script.registerHandler Startup.services method pattern f m =
      match validate method pattern with
      | .error e => (.failed (.message e.message), m)
      | .ok (key, p) =>
        (.ok [], withHandler m { m.place with routes := .collecting (r.withHandler key p) }
          r.handlerKeys.length f method pattern) := by
  simp only [Script.registerHandler, Startup.services, Startup.addHandler, Pool.registerHandler, h,
    Registry.registerHandler_eq]
  cases validate method pattern <;> rfl

theorem startup_registerHandler_published {t : Route.Table} (h : m.place.routes = .published t) :
    Script.registerHandler Startup.services method pattern f m = (.failed frozen, m) := by
  simp [Script.registerHandler, Startup.services, Startup.addHandler, Pool.registerHandler, h]

theorem startup_registerStatic {r : Registry} (h : m.place.routes = .collecting r) :
    Script.registerStatic Startup.services kind pattern path m =
      match validate Route.anyMethod (Script.staticPattern kind pattern) with
      | .error e => (.failed (.message e.message), m)
      | .ok (key, p) =>
        (.ok [], { m with
          place := { m.place with
            routes := .collecting (r.withRoute key p
              (Startup.staticTarget kind (m.place.entry.resolvePath path))) } }) := by
  simp only [Script.registerStatic, Startup.services, Startup.addStatic, Pool.registerRoute, h,
    Registry.register_eq]
  cases validate Route.anyMethod (Script.staticPattern kind pattern) <;> rfl

theorem startup_registerStatic_published {t : Route.Table} (h : m.place.routes = .published t) :
    Script.registerStatic Startup.services kind pattern path m = (.failed frozen, m) := by
  simp [Script.registerStatic, Startup.services, Startup.addStatic, Pool.registerRoute, h]

theorem startup_listenAt_published {t : Route.Table} (h : m.place.routes = .published t) :
    Script.listenAt Startup.services path m =
      (.failed (.message "server is already running"), m) := by
  simp [Script.listenAt, Startup.services, Startup.listen, Pool.table?, h]

end Startup

end Server

end ScriptServer
