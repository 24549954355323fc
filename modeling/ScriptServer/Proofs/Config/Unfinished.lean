import ScriptServer.CommandLine
import ScriptServer.Proofs.Config.Overriding

/-!
# Overrides that fail on the way

The overrides are put in place field by field, each when all its variables have been read. So a
variable that cannot be read leaves those of the fields before it in place, and settings that turn
out not to be usable have all of them. What fields are overridden to is told apart by reading every
field back (`get_foldl_put`). A server is started with settings that were checked to the end.
-/

namespace ScriptServer.Settings

open Config (Unreadable SpellsNatural)

variable {env : Environment} {key : String} {s s' : Settings} {n : Nat}

/-! ## Fields -/

/-- A field of the settings that variables override. -/
inductive Field where
  | workers
  | maxInterpreters
  | prewarm
  | handlerTimeoutMs
  | memoryLimitBytes
  | maxRequests
  deriving DecidableEq

variable {f g : Field} {fields : List Field}

namespace Field

def order : List Field :=
  [workers, maxInterpreters, prewarm, handlerTimeoutMs, memoryLimitBytes, maxRequests]

def long : Field → String
  | workers => "LUME_SERVER_WORKERS"
  | maxInterpreters => "LUME_SERVER_MAX_INTERPRETERS"
  | prewarm => "LUME_SERVER_PREWARM"
  | handlerTimeoutMs => "LUME_SERVER_HANDLER_TIMEOUT_MS"
  | memoryLimitBytes => "LUME_SERVER_MEMORY_LIMIT_BYTES"
  | maxRequests => "LUME_SERVER_MAX_REQUESTS"

def short? : Field → Option String
  | workers => some "LUME_WORKERS"
  | maxRequests => some "LUME_MAX_REQUESTS"
  | _ => none

/-- The variables of the field, of which the first one that is there counts. -/
def names (f : Field) : List String := f.long :: f.short?.toList

def get : Field → Settings → Option Nat
  | workers, s => s.workers
  | maxInterpreters, s => some s.maxInterpreters
  | prewarm, s => some s.prewarm
  | handlerTimeoutMs, s => s.handlerTimeoutMs
  | memoryLimitBytes, s => s.memoryLimitBytes
  | maxRequests, s => some s.maxRequests

def set : Field → Nat → Settings → Settings
  | workers, n, s => { s with workers := some n }
  | maxInterpreters, n, s => { s with maxInterpreters := n }
  | prewarm, n, s => { s with prewarm := n }
  | handlerTimeoutMs, n, s => { s with handlerTimeoutMs := some n }
  | memoryLimitBytes, n, s => { s with memoryLimitBytes := some n }
  | maxRequests, n, s => { s with maxRequests := n }

/-- A server cannot run with a zero in the field. -/
def isPositive : Field → Bool
  | workers | maxInterpreters | handlerTimeoutMs => true
  | prewarm | memoryLimitBytes | maxRequests => false

theorem get_set (f g : Field) (n : Nat) (s : Settings) :
    g.get (f.set n s) = if g = f then some n else g.get s := by
  cases f <;> cases g <;> rfl

theorem serverName_set (f : Field) (n : Nat) (s : Settings) :
    (f.set n s).serverName = s.serverName := by
  cases f <;> rfl

theorem valid_iff : s.Valid ↔ ∀ f : Field, f.isPositive = true → f.get s ≠ some 0 := by
  constructor
  · intro valid f positive
    cases f with
    | workers => exact valid.workers
    | maxInterpreters => exact fun zero => valid.maxInterpreters (Option.some.inj zero)
    | handlerTimeoutMs => exact valid.handlerTimeoutMs
    | prewarm | memoryLimitBytes | maxRequests => cases positive
  · intro positive
    exact ⟨fun zero => positive .maxInterpreters rfl (congrArg some zero),
      positive .workers rfl, positive .handlerTimeoutMs rfl⟩

/-- Settings are known by their fields and the name of the server. -/
theorem ext (same : ∀ f : Field, f.get s = f.get s') (name : s.serverName = s'.serverName) :
    s = s' := by
  obtain ⟨w, i, p, t, m, r, n⟩ := s
  obtain ⟨w', i', p', t', m', r', n'⟩ := s'
  have workers : w = w' := same .workers
  have maxInterpreters : i = i' := Option.some.inj (same .maxInterpreters)
  have prewarm : p = p' := Option.some.inj (same .prewarm)
  have handlerTimeoutMs : t = t' := same .handlerTimeoutMs
  have memoryLimitBytes : m = m' := same .memoryLimitBytes
  have maxRequests : r = r' := Option.some.inj (same .maxRequests)
  have serverName : n = n' := name
  rw [workers, maxInterpreters, prewarm, handlerTimeoutMs, memoryLimitBytes, maxRequests,
    serverName]

/-! ## Overrides of fields -/

def value? (env : Environment) (f : Field) : Option Nat := f.names.findSome? (override? env)

def put (env : Environment) (s : Settings) (f : Field) : Settings :=
  (f.value? env).elim s (f.set · s)

theorem get_put (env : Environment) (s : Settings) (f g : Field) :
    g.get (put env s f) = if g = f then (f.value? env).or (f.get s) else g.get s := by
  rw [put]
  cases f.value? env with
  | none =>
    rw [Option.elim_none, Option.none_or]
    split
    · next same => rw [same]
    · rfl
  | some n => rw [Option.elim_some, get_set, Option.some_or]

theorem serverName_put (env : Environment) (s : Settings) (f : Field) :
    (put env s f).serverName = s.serverName := by
  rw [put]
  cases f.value? env with
  | none => rfl
  | some n => exact serverName_set f n s

/-- Each of the fields is what it is overridden to, if it is, and the others are what they were. -/
theorem get_foldl_put (env : Environment) (s : Settings) (fields : List Field) (g : Field) :
    g.get (fields.foldl (put env) s) =
      if g ∈ fields then (g.value? env).or (g.get s) else g.get s := by
  induction fields generalizing s with
  | nil => rfl
  | cons f fields ih =>
    rw [List.foldl_cons, ih, get_put]
    by_cases same : g = f
    · subst same
      rw [if_pos rfl, if_pos List.mem_cons_self, ← Option.or_assoc, Option.or_self, ite_self]
    · simp only [List.mem_cons, same, if_false, false_or]

theorem serverName_foldl_put (env : Environment) (s : Settings) (fields : List Field) :
    (fields.foldl (put env) s).serverName = s.serverName := by
  induction fields generalizing s with
  | nil => rfl
  | cons f fields ih => rw [List.foldl_cons, ih, serverName_put]

theorem foldl_put_eq_self : fields.foldl (put env) s = s ↔
    ∀ f ∈ fields, ∀ n, f.value? env = some n → f.get s = some n := by
  constructor
  · intro same f mem n overridden
    have value := get_foldl_put env s fields f
    rwa [same, if_pos mem, overridden, Option.some_or] at value
  · intro same
    refine ext (fun f => ?_) (serverName_foldl_put env s fields)
    rw [get_foldl_put]
    split
    · next mem =>
      cases overridden : f.value? env with
      | none => rw [Option.none_or]
      | some n => rw [Option.some_or, same f mem n overridden]
    · rfl

theorem valid_foldl_put (valid : s.Valid) : (fields.foldl (put env) s).Valid ↔
    ∀ f ∈ fields, f.isPositive = true → f.value? env ≠ some 0 := by
  rw [valid_iff]
  constructor
  · intro positive f mem needed zero
    refine positive f needed ?_
    rw [get_foldl_put, if_pos mem, zero, Option.some_or]
  · intro positive f needed zero
    rw [get_foldl_put] at zero
    split at zero
    · next mem =>
      rcases Option.or_eq_some_iff.mp zero with overridden | ⟨-, before⟩
      · exact positive f mem needed overridden
      · exact valid_iff.mp valid f needed before
    · exact valid_iff.mp valid f needed zero

end Field

/-! ## Variables that cannot be read -/

/-- The variable holds something, and it is no number that a setting can have. -/
def IsUnreadable (env : Environment) (u : Unreadable) : Prop :=
  env.setting? u.key = some u.value ∧ ∀ n, ¬ SpellsNatural u.value n

def unreadable? (env : Environment) (key : String) : Option Unreadable :=
  (env.setting? key).bind fun value =>
    if (Config.natural? value).isNone then some ⟨key, value⟩ else none

theorem unreadable?_eq_some {u : Unreadable} :
    unreadable? env key = some u ↔ u.key = key ∧ IsUnreadable env u := by
  have none_iff (value : String) :
      (Config.natural? value).isNone = true ↔ ∀ n, ¬ SpellsNatural value n := by
    simp only [Option.isNone_iff_eq_none, Option.eq_none_iff_forall_ne_some, ne_eq,
      Config.natural?_eq_some]
  rw [unreadable?, Option.bind_eq_some_iff]
  constructor
  · rintro ⟨value, found, h⟩
    split at h
    · next no =>
      cases h
      exact ⟨rfl, found, (none_iff value).mp no⟩
    · cases h
  · rintro ⟨rfl, found, no⟩
    exact ⟨u.value, found, if_pos ((none_iff u.value).mpr no)⟩

theorem unreadable?_eq_none : unreadable? env key = none ↔ Reads env key := by
  rw [reads_iff, unreadable?, Option.bind_eq_none_iff]
  refine forall_congr' fun value => forall_congr' fun _ => ?_
  cases Config.natural? value <;> simp

theorem outcome_number? (env : Environment) (key : String) (s : Settings) :
    outcome (number? env key) s = match unreadable? env key with
      | some u => (.error (.unreadable u), s)
      | none => (.ok (override? env key), s) := by
  unfold number? Config.overriding unreadable? override?
  cases env.setting? key with
  | none => rfl
  | some value =>
    cases number : Config.natural? value with
    | none =>
      simp only [Option.bind_some, number, Option.isNone_none, if_true]
      rfl
    | some n =>
      simp only [Option.bind_some, number, Option.isNone_some, Bool.false_eq_true, if_false]
      rfl

theorem outcome_assign (set : Nat → Settings → Settings) (m : Option Nat) (s : Settings) :
    outcome (assign set m) s = (.ok (), m.elim s (set · s)) :=
  gives_assign.mpr rfl

namespace Field

/-- What is wrong with the first variable of the field that cannot be read. -/
def unreadable? (env : Environment) (f : Field) : Option Unreadable :=
  f.names.findSome? (Settings.unreadable? env)

def change (env : Environment) (f : Field) : Change Unit :=
  match f.short? with
  | some short => overrideByEither env f.long short f.set
  | none => overrideBy env f.long f.set

theorem findSome?_names {α : Type} (f : Field) (g : String → Option α) :
    f.names.findSome? g = (g f.long).or (f.short?.bind g) := by
  rw [names, List.findSome?_cons]
  cases g f.long with
  | some a => rfl
  | none => cases f.short? <;> simp

/-- A field is overridden when all its variables have been read. -/
theorem outcome_change (env : Environment) (f : Field) (s : Settings) :
    outcome (f.change env) s = match f.unreadable? env with
      | some u => (.error (.unreadable u), s)
      | none => (.ok (), put env s f) := by
  rw [unreadable?, put, value?, findSome?_names, findSome?_names, change]
  cases f.short? with
  | none =>
    simp only [overrideBy, outcome_bind, outcome_number?, Option.bind_none, Option.or_none]
    cases Settings.unreadable? env f.long with
    | some u => rfl
    | none => exact outcome_assign f.set _ s
  | some short =>
    simp only [overrideByEither, outcome_bind, outcome_number?, Option.bind_some]
    cases Settings.unreadable? env f.long with
    | some u => rfl
    | none =>
      simp only [Option.none_or]
      cases Settings.unreadable? env short with
      | some u => rfl
      | none => exact outcome_assign f.set _ s

/-- The overrides are put in place up to the first field with a variable that cannot be read. -/
theorem outcome_forM (env : Environment) (s : Settings) (fields : List Field) :
    (∀ f ∈ fields, f.unreadable? env = none) ∧
        outcome (forM fields (change env)) s = (.ok (), fields.foldl (put env) s) ∨
      ∃ front f back u, fields = front ++ f :: back ∧ (∀ g ∈ front, g.unreadable? env = none) ∧
        f.unreadable? env = some u ∧
        outcome (forM fields (change env)) s =
          (.error (.unreadable u), front.foldl (put env) s) := by
  induction fields generalizing s with
  | nil => exact .inl ⟨nofun, rfl⟩
  | cons f fields ih =>
    have step : outcome (forM (f :: fields) (change env)) s = match f.unreadable? env with
        | some u => (.error (.unreadable u), s)
        | none => outcome (forM fields (change env)) (put env s f) := by
      rw [List.forM_cons, outcome_bind, outcome_change]
      cases f.unreadable? env <;> rfl
    cases wrong : f.unreadable? env with
    | some u =>
      rw [wrong] at step
      exact .inr ⟨[], f, fields, u, rfl, nofun, wrong, step⟩
    | none =>
      rw [wrong] at step
      rw [step]
      rcases ih (put env s f) with ⟨read, ends⟩ | ⟨front, g, back, u, rfl, read, wrong', ends⟩
      · exact .inl ⟨List.forall_mem_cons.mpr ⟨wrong, read⟩, ends⟩
      · have read' : ∀ h ∈ f :: front, unreadable? env h = none :=
          List.forall_mem_cons.mpr ⟨wrong, read⟩
        exact .inr ⟨f :: front, g, back, u, rfl, read', wrong', ends⟩

theorem unreadable?_eq_none : f.unreadable? env = none ↔ ∀ key ∈ f.names, Reads env key := by
  simp only [unreadable?, List.findSome?_eq_none_iff, Settings.unreadable?_eq_none]

theorem unreadable?_eq_some {u : Unreadable} : f.unreadable? env = some u ↔
    ∃ front back, f.names = front ++ u.key :: back ∧ (∀ key ∈ front, Reads env key) ∧
      IsUnreadable env u := by
  simp only [unreadable?, List.findSome?_eq_some_iff, Settings.unreadable?_eq_some,
    Settings.unreadable?_eq_none]
  constructor
  · rintro ⟨front, key, back, eq, ⟨rfl, wrong⟩, read⟩
    exact ⟨front, back, eq, read, wrong⟩
  · rintro ⟨front, back, eq, read, wrong⟩
    exact ⟨front, u.key, back, eq, ⟨rfl, wrong⟩, read⟩

end Field

/-! ## All overrides -/

theorem applyEnvironment_eq_forM (env : Environment) :
    applyEnvironment env = (do forM Field.order (Field.change env); check) := by
  rw [applyEnvironment_eq]
  simp only [Field.order, List.forM_cons, List.forM_nil, bind_assoc, pure_bind]
  rfl

/-- The overrides end like this when those of the fields `done` are in place. -/
inductive Ends (env : Environment) (s : Settings) : List Field → Except ConfigError Unit → Prop
  /-- A variable of the next field cannot be read. -/
  | unreadable {done later : List Field} {f : Field} {front back : List String} {u : Unreadable} :
      Field.order = done ++ f :: later → (∀ g ∈ done, ∀ key ∈ g.names, Reads env key) →
      f.names = front ++ u.key :: back → (∀ key ∈ front, Reads env key) → IsUnreadable env u →
      Ends env s done (.error (.unreadable u))
  /-- No field is left, and the settings are checked. -/
  | checked : (∀ f ∈ Field.order, ∀ key ∈ f.names, Reads env key) →
      Ends env s Field.order (Field.order.foldl (Field.put env) s).validate

theorem withEnvironment_ends (env : Environment) (s : Settings) :
    ∃ done, Ends env s done (s.withEnvironment env).1 ∧
      (s.withEnvironment env).2 = done.foldl (Field.put env) s := by
  have whole : s.withEnvironment env = outcome (applyEnvironment env) s := rfl
  rw [whole, applyEnvironment_eq_forM, outcome_bind]
  rcases Field.outcome_forM env s Field.order with
    ⟨read, ends⟩ | ⟨done, f, later, u, eq, read, wrong, ends⟩
  · rw [ends]
    simp only [outcome_check]
    exact ⟨Field.order, .checked fun f mem => Field.unreadable?_eq_none.mp (read f mem), rfl⟩
  · obtain ⟨front, back, names, before, unreadable⟩ := Field.unreadable?_eq_some.mp wrong
    rw [ends]
    refine ⟨done, .unreadable eq (fun g mem => ?_) names before unreadable, rfl⟩
    exact Field.unreadable?_eq_none.mp (read g mem)

theorem valid_of_withEnvironment (h : s.withEnvironment env = (.ok (), s')) : s'.Valid :=
  (gives_applyEnvironment.mp h).2.1

/-- Settings that failed are not gone on with. -/
theorem valid_of_settings {fs : Files} {manifest dir : Option String}
    (h : CommandLine.settings fs env manifest dir = .ok s) : s.Valid := by
  unfold CommandLine.settings at h
  split at h
  · cases h
  · split at h
    · next ends =>
      cases h
      exact valid_of_withEnvironment ends
    · cases h

/-- **Overrides that fail.** The overrides of the fields before the failure are in place after it, so
the settings are what they were just if these change nothing, and a server can run with them just if
none of these is a zero where there must not be one. A server is only ever started with settings
that passed, and always has an interpreter to lend. -/
theorem withEnvironment_unfinished (env : Environment) (s : Settings) (valid : s.Valid) :
    (∃ done, Ends env s done (s.withEnvironment env).1 ∧
        (s.withEnvironment env).2 = done.foldl (Field.put env) s ∧
        ((s.withEnvironment env).2 = s ↔
          ∀ f ∈ done, ∀ n, f.value? env = some n → f.get s = some n) ∧
        ((s.withEnvironment env).2.Valid ↔
          ∀ f ∈ done, f.isPositive = true → f.value? env ≠ some 0)) ∧
      ((s.withEnvironment env).1 = .ok () → (s.withEnvironment env).2.Valid) ∧
      ∀ fs manifest dir s', CommandLine.settings fs env manifest dir = .ok s' →
        s'.Valid ∧ ∀ entry, (Server.Pool.ofEntry entry s').slots.take? s'.maxInterpreters ≠ none := by
  obtain ⟨done, ends, eq⟩ := withEnvironment_ends env s
  refine ⟨⟨done, ends, eq, ?_, ?_⟩, fun ok => ?_, fun fs manifest dir s' started => ?_⟩
  · rw [eq]
    exact Field.foldl_put_eq_self
  · rw [eq]
    exact Field.valid_foldl_put valid
  · exact valid_of_withEnvironment (Prod.ext ok rfl)
  · have valid' := valid_of_settings started
    refine ⟨valid', fun entry => ?_⟩
    have free : (Server.Pool.ofEntry entry s').slots.checkedOut < s'.maxInterpreters :=
      Nat.pos_of_ne_zero valid'.maxInterpreters
    rw [Server.Slots.take?, if_pos free]
    exact Option.some_ne_none _

theorem valid_standard : standard.Valid := ⟨by decide, by decide, by decide⟩

/-- A number, something that is none, and a number that comes after it. -/
def brokenEnvironment : Environment :=
  [("LUME_MAX_REQUESTS", Utf8.ofText "5"), ("LUME_SERVER_HANDLER_TIMEOUT_MS", Utf8.ofText "soon"),
    ("LUME_SERVER_PREWARM", Utf8.ofText "7")]

theorem withEnvironment_unfinished_broken :
    standard.Valid ∧
      (standard.withEnvironment brokenEnvironment).2 = { standard with prewarm := 7 } ∧
      ∃ done, Ends brokenEnvironment standard done (standard.withEnvironment brokenEnvironment).1 ∧
        (standard.withEnvironment brokenEnvironment).2 =
          done.foldl (Field.put brokenEnvironment) standard ∧
        ∀ f ∈ done, f.isPositive = true → f.value? brokenEnvironment ≠ some 0 := by
  have after : (standard.withEnvironment brokenEnvironment).2 = { standard with prewarm := 7 } := by
    decide +kernel
  obtain ⟨⟨done, ends, eq, -, usable⟩, -⟩ :=
    withEnvironment_unfinished brokenEnvironment standard valid_standard
  refine ⟨valid_standard, after, done, ends, eq, usable.mp ?_⟩
  rw [after]
  exact ⟨by decide, by decide, by decide⟩

/-- A zero stays in the settings that are refused for it. -/
theorem refused_zero_stays :
    let env : Environment := [("LUME_SERVER_MAX_INTERPRETERS", Utf8.ofText "0")]
    standard.Valid ∧ (standard.withEnvironment env).1 = .error .noInterpreters ∧
      (standard.withEnvironment env).2 = { standard with maxInterpreters := 0 } ∧
      (standard.withEnvironment env).2 ≠ standard ∧ ¬ (standard.withEnvironment env).2.Valid := by
  intro env
  have ends : standard.withEnvironment env =
      (.error .noInterpreters, { standard with maxInterpreters := 0 }) := by decide +kernel
  rw [ends]
  exact ⟨valid_standard, rfl, rfl, by decide, fun valid => valid.maxInterpreters rfl⟩

end ScriptServer.Settings
