import ScriptServer.Config.Settings
import ScriptServer.Proofs.Text.Digits

/-!
# Settings under an environment

Eight variables override six settings. A variable counts as absent if it is unset, if its value is
no text, and if there is nothing but white space in it. The overrides are put in place one variable
after the other, and any of them may end the whole (`gives_number?`); a change that goes well has
gone through each of its parts (`gives_bind`). So all eight variables are read, the short names also
where the long ones are there, and the settings that are checked have every override
(`overridden`).
-/

namespace ScriptServer

/-! ## Variables -/

section

variable {env : Environment} {key value : String} {n : Nat}

/-- What is read of a variable is its text without the white space around it. -/
theorem Environment.setting?_eq_some : env.setting? key = some value ↔
    ∃ raw, env.text? key = some raw ∧ Text.trim raw = value ∧ value ≠ "" := by
  unfold setting?
  cases env.text? key with
  | none => simp
  | some raw =>
    simp only [String.isEmpty_iff]
    grind

/-- The value is a number that a setting can have: digits, after an optional plus sign. -/
def Config.SpellsNatural (value : String) (n : Nat) : Prop :=
  ∃ ds, (value.toList = ds ∨ value.toList = '+' :: ds) ∧ Text.IsNumeral ds ∧
    Text.digitsValue ds = n ∧ n < 2 ^ 64

theorem Config.SpellsNatural.ne_empty (h : SpellsNatural value n) : value ≠ "" := by
  rintro rfl
  obtain ⟨ds, rfl | sign, ⟨some, -⟩, -⟩ := h
  · exact some rfl
  · cases sign

theorem Config.natural?_eq_some : natural? value = some n ↔ SpellsNatural value n := by
  have bound : natBound = 2 ^ 64 := by decide
  rw [natural?, bound]
  refine ⟨Text.natural?_eq_some, ?_⟩
  rintro ⟨ds, sign, numeral, digits, small⟩
  exact Text.natural?_of_isNumeral numeral sign digits small

end

namespace Settings

open Config (SpellsNatural)

variable {α β : Type} {env : Environment} {key : String} {s s' : Settings} {n : Nat}

/-- The variable is absent or holds a number that a setting can have. -/
def Reads (env : Environment) (key : String) : Prop :=
  ∀ raw, env.text? key = some raw → Text.trim raw = "" ∨ ∃ n, SpellsNatural (Text.trim raw) n

def override? (env : Environment) (key : String) : Option Nat :=
  (env.setting? key).bind Config.natural?

theorem reads_iff : Reads env key ↔
    ∀ value, env.setting? key = some value → ∃ n, Config.natural? value = some n := by
  simp only [Reads, Environment.setting?_eq_some, Config.natural?_eq_some]
  constructor
  · rintro reads _ ⟨raw, found, rfl, some⟩
    exact (reads raw found).resolve_left some
  · intro reads raw found
    exact or_iff_not_imp_left.mpr fun some => reads _ ⟨raw, found, rfl, some⟩

/-- A setting is overridden just by what spells a number, since no number is blank. -/
theorem override?_eq_some : override? env key = some n ↔
    ∃ raw, env.text? key = some raw ∧ SpellsNatural (Text.trim raw) n := by
  simp only [override?, Option.bind_eq_some_iff, Environment.setting?_eq_some,
    Config.natural?_eq_some]
  constructor
  · rintro ⟨_, ⟨raw, found, rfl, -⟩, spells⟩
    exact ⟨raw, found, spells⟩
  · rintro ⟨raw, found, spells⟩
    exact ⟨_, ⟨raw, found, rfl, spells.ne_empty⟩, spells⟩

/-! ## Changes that go well -/

def outcome (c : Change α) (s : Settings) : Except ConfigError α × Settings := c.run.run s

/-- A change of some settings goes well, with this value and these settings after it. -/
def Gives (c : Change α) (s : Settings) (a : α) (s' : Settings) : Prop :=
  outcome c s = (.ok a, s')

theorem gives_pure {a b : α} : Gives (pure a) s b s' ↔ b = a ∧ s' = s := by
  show (Except.ok a, s) = (Except.ok b, s') ↔ _
  grind

theorem not_gives_throw {e : ConfigError} {a : α} : ¬ Gives (throw e) s a s' :=
  fun h => nomatch h

theorem outcome_bind (c : Change α) (f : α → Change β) (s : Settings) :
    outcome (c >>= f) s = match outcome c s with
      | (.ok a, t) => outcome (f a) t
      | (.error e, t) => (.error e, t) := by
  unfold outcome ExceptT.run StateT.run
  simp only [bind, ExceptT.bind, ExceptT.mk, StateT.bind]
  rcases c s with ⟨_ | _, _⟩ <;> rfl

theorem gives_bind {c : Change α} {f : α → Change β} {b : β} :
    Gives (c >>= f) s b s' ↔ ∃ a t, Gives c s a t ∧ Gives (f a) t b s' := by
  simp only [Gives, outcome_bind]
  rcases outcome c s with ⟨_ | a, t⟩ <;> simp

theorem gives_number? {m : Option Nat} : Gives (number? env key) s m s' ↔
    Reads env key ∧ m = override? env key ∧ s' = s := by
  rw [reads_iff]
  unfold number? Config.overriding override?
  cases env.setting? key with
  | none => simp [gives_pure]
  | some value =>
    cases number : Config.natural? value with
    | some n =>
      simp only [number, gives_pure, Option.some.injEq, forall_eq', Option.bind_some]
      exact (and_iff_right ⟨n, rfl⟩).symm
    | none =>
      simp only [number, not_gives_throw, false_iff]
      rintro ⟨reads, -⟩
      obtain ⟨n, some⟩ := reads value rfl
      rw [number] at some
      cases some

theorem gives_assign {set : Nat → Settings → Settings} {m : Option Nat} {u : Unit} :
    Gives (assign set m) s u s' ↔ s' = m.elim s (set · s) := by
  cases m with
  | none => exact gives_pure.trans (by simp)
  | some n =>
    show (Except.ok (), set n s) = (Except.ok u, s') ↔ _
    simp [eq_comm]

/-- What is checked are the settings that have been made so far. -/
def check : Change Unit := do
  match (← get).validate with
  | .ok () => pure ()
  | .error e => throw e

theorem outcome_check (s : Settings) : outcome check s = (s.validate, s) := by
  rw [check, outcome_bind]
  show outcome (match s.validate with | .ok () => pure () | .error e => throw e) s = _
  cases s.validate <;> rfl

theorem gives_check {u : Unit} : Gives check s u s' ↔ s.Valid ∧ s' = s := by
  rw [Gives, outcome_check, ← validate_eq_ok_iff]
  cases s.validate with
  | ok => simp [eq_comm]
  | error e => simp

/-! ## The overrides -/

def overridingNames : List String :=
  ["LUME_SERVER_WORKERS", "LUME_SERVER_MAX_INTERPRETERS", "LUME_SERVER_PREWARM",
    "LUME_SERVER_HANDLER_TIMEOUT_MS", "LUME_SERVER_MEMORY_LIMIT_BYTES", "LUME_SERVER_MAX_REQUESTS",
    "LUME_WORKERS", "LUME_MAX_REQUESTS"]

/-- The settings with each override that there is. The long names of two variables come before the
short ones. -/
def overridden (env : Environment) (s : Settings) : Settings where
  workers :=
    ((override? env "LUME_SERVER_WORKERS").or (override? env "LUME_WORKERS")).or s.workers
  maxInterpreters := (override? env "LUME_SERVER_MAX_INTERPRETERS").getD s.maxInterpreters
  prewarm := (override? env "LUME_SERVER_PREWARM").getD s.prewarm
  handlerTimeoutMs := (override? env "LUME_SERVER_HANDLER_TIMEOUT_MS").or s.handlerTimeoutMs
  memoryLimitBytes := (override? env "LUME_SERVER_MEMORY_LIMIT_BYTES").or s.memoryLimitBytes
  maxRequests := ((override? env "LUME_SERVER_MAX_REQUESTS").or
    (override? env "LUME_MAX_REQUESTS")).getD s.maxRequests
  serverName := s.serverName

def overrideBy (env : Environment) (key : String) (set : Nat → Settings → Settings) :
    Change Unit := do
  assign set (← number? env key)

/-- Overrides a setting by the first of two variables that is there. -/
def overrideByEither (env : Environment) (long short : String) (set : Nat → Settings → Settings) :
    Change Unit := do
  let m ← number? env long
  assign set (m.or (← number? env short))

theorem gives_overrideBy {set : Nat → Settings → Settings} {u : Unit} :
    Gives (overrideBy env key set) s u s' ↔
      Reads env key ∧ s' = (override? env key).elim s (set · s) := by
  simp [overrideBy, gives_bind, gives_number?, gives_assign]

theorem gives_overrideByEither {long short : String} {set : Nat → Settings → Settings} {u : Unit} :
    Gives (overrideByEither env long short set) s u s' ↔
      Reads env long ∧ Reads env short ∧
        s' = ((override? env long).or (override? env short)).elim s (set · s) := by
  simp [overrideByEither, gives_bind, gives_number?, gives_assign]

theorem applyEnvironment_eq (env : Environment) : applyEnvironment env = (do
    overrideByEither env "LUME_SERVER_WORKERS" "LUME_WORKERS"
      fun n s => { s with workers := some n }
    overrideBy env "LUME_SERVER_MAX_INTERPRETERS" fun n s => { s with maxInterpreters := n }
    overrideBy env "LUME_SERVER_PREWARM" fun n s => { s with prewarm := n }
    overrideBy env "LUME_SERVER_HANDLER_TIMEOUT_MS" fun n s => { s with handlerTimeoutMs := some n }
    overrideBy env "LUME_SERVER_MEMORY_LIMIT_BYTES" fun n s => { s with memoryLimitBytes := some n }
    overrideByEither env "LUME_SERVER_MAX_REQUESTS" "LUME_MAX_REQUESTS"
      fun n s => { s with maxRequests := n }
    check) := by
  have workers : variableName "workers" = "LUME_SERVER_WORKERS" := by decide
  have maxInterpreters : variableName "max_interpreters" = "LUME_SERVER_MAX_INTERPRETERS" := by
    decide
  have prewarm : variableName "prewarm" = "LUME_SERVER_PREWARM" := by decide
  have handlerTimeoutMs :
      variableName "handler_timeout_ms" = "LUME_SERVER_HANDLER_TIMEOUT_MS" := by decide
  have memoryLimitBytes :
      variableName "memory_limit_bytes" = "LUME_SERVER_MEMORY_LIMIT_BYTES" := by decide
  have maxRequests : variableName "max_requests" = "LUME_SERVER_MAX_REQUESTS" := by decide
  simp only [applyEnvironment, overrideBy, overrideByEither, bind_assoc, workers, maxInterpreters,
    prewarm, handlerTimeoutMs, memoryLimitBytes, maxRequests]
  rfl

theorem gives_applyEnvironment {u : Unit} : Gives (applyEnvironment env) s u s' ↔
    (∀ key ∈ overridingNames, Reads env key) ∧ s'.Valid ∧ s' = overridden env s := by
  -- An override that is not there leaves its member as it was.
  have workers (m : Option Nat) (s : Settings) :
      (m.elim s fun n => { s with workers := some n }) = { s with workers := m.or s.workers } := by
    cases m <;> rfl
  have maxInterpreters (m : Option Nat) (s : Settings) :
      (m.elim s fun n => { s with maxInterpreters := n }) =
        { s with maxInterpreters := m.getD s.maxInterpreters } := by cases m <;> rfl
  have prewarm (m : Option Nat) (s : Settings) :
      (m.elim s fun n => { s with prewarm := n }) = { s with prewarm := m.getD s.prewarm } := by
    cases m <;> rfl
  have handlerTimeoutMs (m : Option Nat) (s : Settings) :
      (m.elim s fun n => { s with handlerTimeoutMs := some n }) =
        { s with handlerTimeoutMs := m.or s.handlerTimeoutMs } := by cases m <;> rfl
  have memoryLimitBytes (m : Option Nat) (s : Settings) :
      (m.elim s fun n => { s with memoryLimitBytes := some n }) =
        { s with memoryLimitBytes := m.or s.memoryLimitBytes } := by cases m <;> rfl
  have maxRequests (m : Option Nat) (s : Settings) :
      (m.elim s fun n => { s with maxRequests := n }) =
        { s with maxRequests := m.getD s.maxRequests } := by cases m <;> rfl
  simp only [applyEnvironment_eq, gives_bind, gives_overrideBy, gives_overrideByEither, gives_check,
    workers, maxInterpreters, prewarm, handlerTimeoutMs, memoryLimitBytes, maxRequests, and_assoc,
    exists_and_left, exists_eq_left, exists_const]
  constructor
  · rintro ⟨workers, workers', interpreters, prewarm, time, memory, requests, requests', valid, rfl⟩
    refine ⟨?_, valid, rfl⟩
    simp only [overridingNames, List.forall_mem_cons]
    exact ⟨workers, interpreters, prewarm, time, memory, requests, workers', requests', nofun⟩
  · rintro ⟨read, valid, rfl⟩
    simp only [overridingNames, List.forall_mem_cons] at read
    obtain ⟨workers, interpreters, prewarm, time, memory, requests, workers', requests', -⟩ := read
    exact ⟨workers, workers', interpreters, prewarm, time, memory, requests, requests', valid, rfl⟩

/-- **Overrides.** The environment is applied just if each of the eight variables is absent or holds
a number, the short names included, and a server can run with the settings that have all overrides.
These are the settings then: each is what the variable says that is there, with the long name before
the short one, or what it was. -/
theorem withEnvironment_exact (env : Environment) (s : Settings) :
    ((s.withEnvironment env).1 = .ok () ↔
        (∀ key ∈ overridingNames, Reads env key) ∧ (overridden env s).Valid) ∧
      ((s.withEnvironment env).1 = .ok () → (s.withEnvironment env).2 = overridden env s) := by
  have gives (s' : Settings) : s.withEnvironment env = (.ok (), s') ↔
      (∀ key ∈ overridingNames, Reads env key) ∧ s'.Valid ∧ s' = overridden env s :=
    gives_applyEnvironment
  refine ⟨⟨fun ok => ?_, fun ⟨read, valid⟩ => ?_⟩, fun ok => ?_⟩
  · obtain ⟨read, valid, eq⟩ := (gives (s.withEnvironment env).2).mp (Prod.ext ok rfl)
    exact ⟨read, eq ▸ valid⟩
  · rw [(gives (overridden env s)).mpr ⟨read, valid, rfl⟩]
  · exact ((gives (s.withEnvironment env).2).mp (Prod.ext ok rfl)).2.2

/-- Variables with a long name over a short one, a plus sign, white space around a number, and
nothing but white space. -/
def mixedEnvironment : Environment :=
  [("LUME_MAX_REQUESTS", Utf8.ofText "+7"), ("LUME_SERVER_PREWARM", Utf8.ofText " \t"),
    ("LUME_SERVER_WORKERS", Utf8.ofText " 3 "), ("LUME_WORKERS", Utf8.ofText "5")]

theorem withEnvironment_exact_mixed :
    (standard.withEnvironment mixedEnvironment).1 = .ok () ∧
      (standard.withEnvironment mixedEnvironment).2 =
        { standard with workers := some 3, maxRequests := 7 } := by
  have ok : (standard.withEnvironment mixedEnvironment).1 = .ok () := by decide +kernel
  have settings : overridden mixedEnvironment standard =
      { standard with workers := some 3, maxRequests := 7 } := by decide +kernel
  exact ⟨ok, settings ▸ (withEnvironment_exact mixedEnvironment standard).2 ok⟩

end Settings

end ScriptServer
