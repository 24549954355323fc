import Mathlib.Data.List.Basic
import ScriptServer.Proofs.Server.Router

/-!
# Runs of registrations

A registry after any registrations has one route a key, in the order in which the keys were first
registered, with the target that was registered for the key last.
-/

namespace ScriptServer.Route

/-- A route that is to be registered. -/
inductive Registration where
  | handler (method pattern : String)
  | route (method pattern : String) (target : Target)
  deriving DecidableEq, Repr

namespace Registration

def key : Registration → Key
  | handler method pattern => .of method pattern
  | route method pattern _ => .of method pattern

def apply (r : Registry) : Registration → Except Fault Registry
  | handler method pattern => (r.registerHandler method pattern).map (·.2)
  | route method pattern target => (r.register method pattern target).map (·.2)

/-- The key of the route and its pattern, if it can be registered. -/
def validity : Registration → Except Fault (Key × Pattern)
  | handler method pattern => validate method pattern
  | route method pattern _ => validate method pattern

/-- The keys and targets of routes. Handlers are numbered from `n` on. -/
def assignments (n : Nat) : List Registration → List (Key × Target)
  | [] => []
  | .handler method pattern :: rs => (.of method pattern, .handler n) :: assignments (n + 1) rs
  | .route method pattern target :: rs => (.of method pattern, target) :: assignments n rs

theorem keys_assignments (n : Nat) (rs : List Registration) :
    (assignments n rs).map (·.1) = rs.map key := by
  induction rs generalizing n with
  | nil => rfl
  | cons r rs ih => cases r <;> simp [assignments, key, ih]

end Registration

namespace Registry

open Registration (assignments)

/-- Registers routes one after the other, as long as none is refused. -/
def registerAll (r : Registry) : List Registration → Except Fault Registry
  | [] => .ok r
  | call :: calls =>
    match call.apply r with
    | .error e => .error e
    | .ok r => r.registerAll calls

/-- The routes of a registry are those of some keys with their targets. -/
structure Holds (as : List (Key × Target)) (es : List Entry) : Prop where
  keys : ∀ k, k ∈ as.map (·.1) ↔ k ∈ es.map Entry.key
  target : ∀ e ∈ es, as.reverse.lookup e.key = some e.target
  pattern : ∀ e ∈ es, Pattern.read e.key.pattern = .ok e.pattern
  order : es.Pairwise fun a b => (as.map (·.1)).idxOf a.key < (as.map (·.1)).idxOf b.key

theorem Holds.nil : Holds [] [] where
  keys _ := Iff.rfl
  target _ h := absurd h List.not_mem_nil
  pattern _ h := absurd h List.not_mem_nil
  order := .nil

variable {key : Key} {target : Target} {p : Pattern} {es : List Entry} {as : List (Key × Target)}

theorem place_of_not_mem (h : key ∉ es.map Entry.key) :
    place key target p es = es ++ [⟨key, target, p⟩] := by
  induction es with
  | nil => rfl
  | cons e es ih =>
    rw [List.map_cons, List.mem_cons, not_or] at h
    rw [place, if_neg (Ne.symm h.1), ih h.2]
    rfl

/-- A key that is there keeps its place. -/
theorem place_of_mem (h : key ∈ es.map Entry.key) (nodup : (es.map Entry.key).Nodup) :
    place key target p es = es.map fun e => if e.key = key then { e with target } else e := by
  induction es with
  | nil => exact absurd h List.not_mem_nil
  | cons e es ih =>
    rw [List.map_cons, List.nodup_cons] at nodup
    rw [place, List.map_cons]
    split
    · next same =>
      have later : ∀ e' ∈ es, e'.key ≠ key := fun e' he' eq =>
        nodup.1 (same ▸ eq ▸ List.mem_map_of_mem he')
      congr 1
      exact ((List.map_congr_left fun e' he' => if_neg (later e' he')).trans (List.map_id es)).symm
    · next other =>
      rw [List.map_cons, List.mem_cons] at h
      rw [ih (h.resolve_left (Ne.symm other)) nodup.2]

theorem Holds.nodup (h : Holds as es) : (es.map Entry.key).Nodup := by
  refine List.pairwise_map.mpr (h.order.imp fun lt same => ?_)
  rw [same] at lt
  exact Nat.lt_irrefl _ lt

theorem Holds.place (h : Holds as es) (read : Pattern.read key.pattern = .ok p)
    (target : Target) : Holds (as ++ [(key, target)]) (place key target p es) := by
  have keys : (as ++ [(key, target)]).map (·.1) = as.map (·.1) ++ [key] := List.map_append
  have last (k : Key) : (as ++ [(key, target)]).reverse.lookup k =
      if k = key then some target else as.reverse.lookup k := by
    rw [List.reverse_append, List.reverse_singleton, List.singleton_append, List.lookup_cons]
    by_cases same : k = key
    · simp [same]
    · rw [if_neg same, beq_eq_false_iff_ne.mpr same]
  have index {e : Entry} (he : e ∈ es) :
      (as.map (·.1) ++ [key]).idxOf e.key = (as.map (·.1)).idxOf e.key :=
    List.idxOf_append_of_mem ((h.keys _).mpr (List.mem_map_of_mem he))
  by_cases there : key ∈ es.map Entry.key
  · rw [place_of_mem there h.nodup]
    have sameKey (e : Entry) : (if e.key = key then { e with target } else e).key = e.key := by
      split <;> rfl
    have sameKeys : (es.map fun e => if e.key = key then { e with target } else e).map Entry.key =
        es.map Entry.key := by
      rw [List.map_map]
      exact List.map_congr_left fun e _ => sameKey e
    refine ⟨fun k => ?_, fun e' he' => ?_, fun e' he' => ?_, ?_⟩
    · rw [keys, sameKeys, List.mem_append, h.keys, List.mem_singleton]
      exact ⟨fun hk => hk.elim id fun same => same ▸ there, .inl⟩
    · obtain ⟨e, he, rfl⟩ := List.mem_map.mp he'
      rw [last, sameKey]
      split
      · rfl
      · exact h.target e he
    · obtain ⟨e, he, rfl⟩ := List.mem_map.mp he'
      rw [sameKey, h.pattern e he]
      split <;> rfl
    · rw [keys, List.pairwise_map]
      refine h.order.imp_of_mem fun ha hb lt => ?_
      rwa [sameKey, sameKey, index ha, index hb]
  · rw [place_of_not_mem there]
    have new : key ∉ as.map (·.1) := fun hk => there ((h.keys key).mp hk)
    refine ⟨fun k => ?_, fun e he => ?_, fun e he => ?_, ?_⟩
    · rw [keys, List.map_append, List.mem_append, List.mem_append, h.keys]
      rfl
    · rw [last]
      rcases List.mem_append.mp he with he | he
      · rw [if_neg fun (same : e.key = key) => there (same ▸ List.mem_map_of_mem he)]
        exact h.target e he
      · obtain rfl := List.mem_singleton.mp he
        exact if_pos rfl
    · rcases List.mem_append.mp he with he | he
      · exact h.pattern e he
      · obtain rfl := List.mem_singleton.mp he
        exact read
    · rw [keys, List.pairwise_append]
      refine ⟨h.order.imp_of_mem fun ha hb lt => by rwa [index ha, index hb],
        List.pairwise_singleton _ _, fun e he e' he' => ?_⟩
      obtain rfl := List.mem_singleton.mp he'
      rw [index he, List.idxOf_append_of_notMem new, List.idxOf_cons_self, Nat.add_zero]
      exact List.idxOf_lt_length_of_mem ((h.keys _).mpr (List.mem_map_of_mem he))

/-- What is made of a route that can be registered. -/
theorem of_map_validate {β : Type} {method pattern : String} {f : Key × Pattern → β} {b : β}
    (h : (validate method pattern).map f = .ok b) :
    ∃ p, Pattern.read pattern = .ok p ∧ b = f (.of method pattern, p) := by
  unfold validate at h
  split at h
  · cases h
  · split at h
    · cases h
    · next read =>
      cases h
      exact ⟨_, read, rfl⟩

theorem key_of_validity {call : Registration} {valid : Key × Pattern}
    (h : call.validity = .ok valid) : valid.1 = call.key := by
  cases call with
  | handler method pattern | route method pattern target =>
    have mapped : (validate method pattern).map id = .ok valid := congrArg (Except.map id) h
    obtain ⟨p, -, rfl⟩ := of_map_validate mapped
    rfl

theorem apply_handler (r : Registry) (method pattern : String) :
    (Registration.handler method pattern).apply r =
      (validate method pattern).map fun (key, p) => r.withHandler key p := by
  rw [Registration.apply, registerHandler_eq]
  cases validate method pattern <;> rfl

theorem apply_route (r : Registry) (method pattern : String) (target : Target) :
    (Registration.route method pattern target).apply r =
      (validate method pattern).map fun (key, p) => r.withRoute key p target := by
  rw [Registration.apply, register_eq]
  cases validate method pattern <;> rfl

/-- Registering a route puts it in its place with the target that it is assigned. -/
theorem apply_eq_ok {call : Registration} {r r' : Registry} (h : call.apply r = .ok r') :
    ∃ p target, Pattern.read call.key.pattern = .ok p ∧
      r'.entries = place call.key target p r.entries ∧
      ∀ calls, assignments r.handlerKeys.length (call :: calls) =
        (call.key, target) :: assignments r'.handlerKeys.length calls := by
  cases call with
  | handler method pattern =>
    rw [apply_handler] at h
    obtain ⟨p, read, rfl⟩ := of_map_validate h
    refine ⟨p, _, read, rfl, fun calls => ?_⟩
    rw [withHandler_length]
    rfl
  | route method pattern target =>
    rw [apply_route] at h
    obtain ⟨p, read, rfl⟩ := of_map_validate h
    exact ⟨p, target, read, rfl, fun _ => rfl⟩

theorem registerAll_concat {call : Registration} {calls : List Registration} {r r₁ r₂ : Registry}
    (first : r.registerAll calls = .ok r₁) (last : call.apply r₁ = .ok r₂) :
    r.registerAll (calls ++ [call]) = .ok r₂ := by
  induction calls generalizing r with
  | nil =>
    cases first
    simp [registerAll, last]
  | cons c calls ih =>
    rw [List.cons_append, registerAll]
    rw [registerAll] at first
    cases applied : c.apply r with
    | error e => simp [applied] at first
    | ok r' =>
      rw [applied] at first
      exact ih first

/-- A registry after any registrations holds their routes. -/
theorem holds_registerAll {calls : List Registration} {r r' : Registry} (h : Holds as r.entries)
    (registered : r.registerAll calls = .ok r') :
    Holds (as ++ assignments r.handlerKeys.length calls) r'.entries := by
  induction calls generalizing r as with
  | nil =>
    cases registered
    simpa [assignments] using h
  | cons call calls ih =>
    rw [registerAll] at registered
    split at registered
    · cases registered
    · next r₁ applied =>
      obtain ⟨p, target, read, entries, assigned⟩ := apply_eq_ok applied
      have one : Holds (as ++ [(call.key, target)]) r₁.entries := by
        rw [entries]
        exact h.place read target
      rw [assigned, List.append_cons]
      exact ih one registered

theorem holds_of_registerAll {calls : List Registration} {r : Registry}
    (registered : empty.registerAll calls = .ok r) : Holds (assignments 0 calls) r.entries :=
  holds_registerAll .nil registered

end Registry

end ScriptServer.Route
