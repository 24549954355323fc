import ScriptServer.Proofs.Script.Coupling

/-!
# Scripts run in step

If the `router` modules and the timers of two interpreters do related things, every script does: by
recursion on the code, with the calls of functions and module files by the depth that is left for
them.
-/

namespace ScriptServer.Script

variable {ρ ρ' α β : Type}

/-- The `router` modules do related things, and so do steps. -/
structure Serves (C : Coupling ρ ρ') (s : Services ρ) (s' : Services ρ') : Prop where
  tick : Related C Run.tick Run.tick
  handler : ∀ method pattern f,
    Related C (registerHandler s method pattern f) (registerHandler s' method pattern f)
  static : ∀ kind start path,
    Related C (registerStatic s kind start path) (registerStatic s' kind start path)
  listen : ∀ addr, Related C (listenAt s addr) (listenAt s' addr)

/-- The surroundings of two interpreters differ in their `router` modules only. -/
structure Agree (C : Coupling ρ ρ') (c : Context ρ) (c' : Context ρ') : Prop where
  serves : Serves C c.services c'.services
  modules : c.modules = c'.modules
  searchPath : c.searchPath = c'.searchPath

/-! ### Endings as what follows a run -/

/-- What a failure is made into that the script did not catch, as long as values can be shown. -/
def Context.toText (c : Context ρ) (fuel : Nat) : Outcome Bytes → Run ρ String
  | .ok bs => pure (Utf8.toTextLossy bs)
  | .failed (.value v) => failureText c fuel v
  | .failed (.message text) => pure text
  | .failed f => Run.fail f

theorem failureText_eq (c : Context ρ) (fuel : Nat) (v : Value) :
    failureText c (fuel + 1) v = Action.follow (showValue c c.run v) (c.toText fuel) := by
  funext m
  unfold failureText Action.follow
  rcases showValue c c.run v m with ⟨_ | ⟨_ | _ | _ | _⟩, _⟩ <;> rfl

def Ending.ofText : Outcome String → Ending Fault α
  | .ok text => .error (.runtime text)
  | .failed (.panic text) => .panic text
  | .failed .endless => .endless
  | .failed (.message text) => .error (.runtime text)
  | .failed (.value _) => .error (.runtime "")

def Context.conclude (c : Context ρ) : Outcome α → Action ρ (Ending Fault α)
  | .ok a => fun m => (.ok a, m)
  | .failed (.message text) => fun m => (.error (.runtime text), m)
  | .failed (.value v) => Action.follow (failureText c maxCalls v) fun o m => (.ofText o, m)
  | .failed (.panic text) => fun m => (.panic text, m)
  | .failed .endless => fun m => (.endless, m)

theorem finish_eq (c : Context ρ) (r : Run ρ α) :
    finish c r = Action.follow r c.conclude := by
  funext m
  unfold finish Action.follow
  rcases r m with ⟨_ | ⟨v | _ | _ | _⟩, m₁⟩ <;> try rfl
  unfold Context.conclude Action.follow
  dsimp only
  rcases failureText c maxCalls v m₁ with ⟨_ | ⟨_ | _ | _ | _⟩, _⟩ <;> rfl

namespace Related

variable {C : Coupling ρ ρ'}

theorem converted {r : Except ConversionFault α} {k : α → Run ρ β} {k' : α → Run ρ' β}
    (h : ∀ a, Related C (k a) (k' a)) :
    Related C (Script.converted r k) (Script.converted r k') := by
  cases r with
  | ok a => exact h a
  | error e => exact failWith _

theorem builtin {s : Services ρ} {s' : Services ρ'} (hs : Serves C s s') (args : List Value) :
    ∀ b : Builtin, Related C (b.call s args) (b.call s' args)
  | .jsonEncode => of_local (fun _ => rfl) (fun _ => rfl) fun ⟨p, w, sights⟩ =>
      ⟨rfl, .intro p w sights⟩
  | .jsonDecode => converted fun _ => making _
  | .handle => converted fun method => converted fun pattern => converted fun f =>
      hs.handler method pattern f
  | .on method => converted fun pattern => converted fun f => hs.handler method pattern f
  | .serve kind => converted fun start => converted fun path => hs.static kind start path
  | .listen => converted fun addr => hs.listen addr

theorem valueOf (f : Frame) (name : String) :
    Related C (Run.valueOf f name) (Run.valueOf f name) := by
  unfold Run.valueOf
  cases f.parameter? name with
  | some p => exact of_local (fun _ => rfl) (fun _ => rfl) fun ha => ⟨by rw [ha.params], ha⟩
  | none => exact of_local (fun _ => rfl) (fun _ => rfl) fun ha => ⟨by rw [ha.globals], ha⟩

theorem setVariable (f : Frame) (name : String) (v : Value) :
    Related C (Run.setVariable f name v) (Run.setVariable f name v) := by
  unfold Run.setVariable
  cases f.parameter? name with
  | some p =>
    exact modify (fun _ => rfl) (fun _ => rfl) fun ⟨p, w, sights⟩ => .intro p w sights
  | none =>
    exact modify (fun _ => rfl) (fun _ => rfl) fun ⟨p, w, sights⟩ => .intro p w sights

theorem environment (name : Bytes) :
    Related C (Run.environment name) (Run.environment name) :=
  of_local (fun _ => rfl) (fun _ => rfl) fun ha => ⟨by unfold Run.environment; rw [ha.env], ha⟩

theorem index (f : Frame) (v key : Value) (what : String) :
    Related C (Run.index f v key what) (Run.index f v key what) := by
  unfold Run.index
  cases v with
  | table id => exact of_local (fun _ => rfl) (fun _ => rfl) fun ha => ⟨by rw [ha.heap], ha⟩
  | _ => exact of_local (fun _ => rfl) (fun _ => rfl) fun ha => ⟨rfl, ha⟩

theorem store (id : Nat) (key v : Value) : Related C (Run.store id key v) (Run.store id key v) := by
  refine modify (fun _ => rfl) (fun _ => rfl) fun {m m'} ha => ?_
  rw [ha.heap, ha.arrangement]
  exact ha.withHeap _

theorem assign (f : Frame) (t key v : Value) :
    Related C (Run.assign f t key v) (Run.assign f t key v) := by
  cases key with
  | nil => exact failAt _ _
  | float x =>
    change Related C (if x.isNaN then _ else _) (if x.isNaN then _ else _)
    by_cases hx : x.isNaN = true
    · simp only [hx]
      exact failAt _ _
    · simp only [hx]
      exact store _ _ _
  | _ => exact store _ _ _

theorem setLabel (label : Option Nat) (v : Value) :
    Related C (Run.setLabel label v) (Run.setLabel label v) := by
  cases label with
  | none => exact pure ()
  | some n => exact modify (fun _ => rfl) (fun _ => rfl) fun ⟨p, w, sights⟩ => .intro p w sights

theorem increment (f : Frame) (v : Value) :
    Related C (Run.increment f v) (Run.increment f v) := by
  unfold Run.increment
  split
  · exact pure _
  · exact pure _
  · split
    · exact pure _
    · exact pure _
    · exact failAt _ _
  · exact failAt _ _

theorem nest (f : Frame) (key : Value) : ∀ n v,
    Related C (Script.nest f key n v) (Script.nest f key n v)
  | 0, v => pure v
  | n + 1, v => (onHeap _).bind fun t => (assign f t key v).bind fun _ => nest f key n t

theorem keepModule (name : Bytes) (v : Value) :
    Related C (Script.keepModule name v) (Script.keepModule name v) := by
  refine bind ?_ fun _ => pure _
  exact modify (fun _ => rfl) (fun _ => rfl) fun ⟨p, w, sights⟩ => .intro p w sights

theorem runLoader (l : Loader) : Related C (Script.runLoader l) (Script.runLoader l) := by
  cases l with
  | fields texts =>
    unfold Script.runLoader
    exact making _
  | failing text => exact failWith _
  | panicking text => exact fail _

theorem variableNamed (f : Frame) (v : Value) :
    Related C (Script.variableNamed f v) (Script.variableNamed f v) := by
  unfold Script.variableNamed
  cases asBytes? v with
  | some name => exact environment name
  | none => exact failAt _ _

/-! ### Calls -/

variable {c : Context ρ} {c' : Context ρ'} {run : Runner ρ} {run' : Runner ρ'}

theorem callClosure (hc : Agree C c c') (hr : ∀ f b, Related C (run f b) (run' f b))
    (f : Closure) (args : List Value) :
    Related C (Script.callClosure c run f args) (Script.callClosure c' run' f args) := by
  cases f with
  | script body place => exact withParams args (hr _ _)
  | builtin b => exact (builtin hc.serves args b).bind fun _ => pure _

theorem callFunction (hc : Agree C c c') (hr : ∀ f b, Related C (run f b) (run' f b))
    (id : Nat) (args : List Value) :
    Related C (Script.callFunction c run id args) (Script.callFunction c' run' id args) := by
  refine get_bind fun ha => ?_
  rw [ha.heap]
  exact callClosure hc hr _ args

theorem showValue (hc : Agree C c c') (hr : ∀ f b, Related C (run f b) (run' f b)) (v : Value) :
    Related C (Script.showValue c run v) (Script.showValue c' run' v) := by
  refine get_bind fun {m m'} ha => ?_
  rw [ha.heap]
  dsimp only
  cases m'.heap.metafield v "__tostring" with
  | nil =>
    cases v with
    | string bs => exact pure bs
    | _ => dsimp only; split <;> exact pure _
  | function id =>
    refine (callFunction hc hr id [v]).bind fun r => ?_
    cases asBytes? r with
    | some bs => exact pure bs
    | none => exact failWith _
  | _ => exact failWith _

theorem runFile (hr : ∀ f b, Related C (run f b) (run' f b)) (f : Frame) (name path : String) :
    Related C (Script.runFile run f name path) (Script.runFile run' f name path) := by
  refine get_bind fun ha => ?_
  rw [ha.files]
  split
  · exact failAt _ _
  · split
    · exact failAt _ _
    · exact hr _ _

theorem requireModule (hc : Agree C c c') (hr : ∀ f b, Related C (run f b) (run' f b)) (f : Frame)
    (v : Value) :
    Related C (Script.requireModule c run f v) (Script.requireModule c' run' f v) := by
  -- Loading looks at the files of the state that was there before.
  have load : ∀ {m : Machine ρ} {m' : Machine ρ'}, m.Alike m' → ∀ name,
      Related C (requireModule.load c run f m name) (requireModule.load c' run' f m' name) := by
    intro m m' ha name
    unfold requireModule.load findModule missingModule
    rw [hc.modules, hc.searchPath, ha.files]
    dsimp only
    split
    · exact (runLoader _).bind fun v => keepModule name v
    · split
      · exact (runFile hr f _ _).bind fun v => keepModule name v
      · exact failAt _ _
  unfold Script.requireModule
  cases asBytes? v with
  | none => exact failAt _ _
  | some name =>
    refine get_bind fun {m m'} ha => ?_
    rw [ha.loaded]
    cases m'.loaded.lookup name with
    | none => exact load ha name
    | some v =>
      dsimp only
      split
      · exact pure v
      · exact load ha name

theorem call (hc : Agree C c c') (hr : ∀ f b, Related C (run f b) (run' f b)) (f : Frame)
    (callee : Callee) (args : List Value) :
    Related C (Script.call c run f callee args) (Script.call c' run' f callee args) := by
  unfold Script.call
  split
  · split
    · exact failAt _ _
    · split
      · exact builtin hc.serves args _
      · exact failAt _ _
  · split
    · split
      · exact failAt _ _
      · exact (showValue hc hr _).bind fun _ => pure _
    · exact failAt _ _

/-! ### Expressions and statements -/

mutual

theorem eval (hc : Agree C c c') (hr : ∀ f b, Related C (run f b) (run' f b)) (f : Frame) :
    ∀ e : Expr, Related C (Script.eval c run f e) (Script.eval c' run' f e)
  | .nil => by simp only [Script.eval]; exact pure _
  | .bool _ => by simp only [Script.eval]; exact pure _
  | .integer _ => by simp only [Script.eval]; exact pure _
  | .float _ => by simp only [Script.eval]; exact pure _
  | .string _ => by simp only [Script.eval]; exact pure _
  | .table label fields metatable => by
    rw [Script.eval, Script.eval]
    refine (onHeap _).bind fun t => (setLabel label t).bind fun _ =>
      (evalFields hc hr f t fields).bind fun _ => ?_
    match metatable with
    | none => exact pure t
    | some fields =>
      refine (onHeap _).bind fun mt => (evalFields hc hr f mt fields).bind fun _ => ?_
      refine bind ?_ fun _ => pure t
      exact modify (fun _ => rfl) (fun _ => rfl) fun ⟨p, w, sights⟩ => .intro p w sights
  | .nested depth key inner => by
    simp only [Script.eval]
    exact (eval hc hr f key).bind fun key => (eval hc hr f inner).bind fun v => nest f key depth v
  | .labelled label => by
    simp only [Script.eval]
    exact of_local (fun _ => rfl) (fun _ => rfl) fun ⟨p, w, sights⟩ => ⟨rfl, .intro p w sights⟩
  | .newFunction => by simp only [Script.eval]; exact onHeap _
  | .newThread => by simp only [Script.eval]; exact onHeap _
  | .handler _ => by simp only [Script.eval]; exact onHeap _
  | .parameter _ => by simp only [Script.eval]; exact valueOf _ _
  | .captured _ => by
    simp only [Script.eval]
    exact (valueOf _ _).bind fun params => index _ _ _ _
  | .concat parts => by
    simp only [Script.eval]
    refine (evalList hc hr f parts).bind fun values => ?_
    split
    · exact pure _
    · split
      · exact pure _
      · exact failAt _ _
  | .call callee args _ => by
    simp only [Script.eval]
    exact (evalList hc hr f args).bind fun args => (call hc hr f callee args).bind fun _ => pure _
  | .global _ => by simp only [Script.eval]; exact valueOf _ _
  | .require module _ => by
    simp only [Script.eval]
    exact (eval hc hr f module).bind fun name => (requireModule hc hr f name).bind fun _ =>
      index _ _ _ _
  | .argument name => by
    simp only [Script.eval]
    exact (eval hc hr f name).bind fun key => (valueOf f "arg").bind fun _ => index _ _ _ _
  | .environment name => by
    simp only [Script.eval]
    exact (eval hc hr f name).bind fun v => variableNamed f v

theorem evalList (hc : Agree C c c') (hr : ∀ f b, Related C (run f b) (run' f b)) (f : Frame) :
    ∀ es : List Expr, Related C (Script.evalList c run f es) (Script.evalList c' run' f es)
  | [] => by simp only [Script.evalList]; exact pure _
  | e :: es => by
    simp only [Script.evalList]
    exact (eval hc hr f e).bind fun _ => (evalList hc hr f es).bind fun _ => pure _

theorem evalFields (hc : Agree C c c') (hr : ∀ f b, Related C (run f b) (run' f b)) (f : Frame)
    (t : Value) : ∀ fields : List Field,
    Related C (Script.evalFields c run f t fields) (Script.evalFields c' run' f t fields)
  | [] => by simp only [Script.evalFields]; exact pure _
  | .mk key e :: fields => by
    simp only [Script.evalFields]
    exact (eval hc hr f key).bind fun key => (eval hc hr f e).bind fun v =>
      (assign f t key v).bind fun _ => evalFields hc hr f t fields

end

mutual

theorem exec (hc : Agree C c c') (hr : ∀ f b, Related C (run f b) (run' f b)) (f : Frame) :
    ∀ s : Stmt, Related C (Script.exec c run f s) (Script.exec c' run' f s)
  | .set name e => by
    simp only [Script.exec]
    exact (eval hc hr f e).bind fun v => (setVariable f name v).bind fun _ => pure _
  | .increment name => by
    simp only [Script.exec]
    exact (valueOf f name).bind fun v => (increment f _).bind fun v =>
      (setVariable f name v).bind fun _ => pure _
  | .return e => by
    simp only [Script.exec]
    exact (eval hc hr f e).bind fun _ => hc.serves.tick.bind fun _ => pure _
  | .error e => by
    simp only [Script.exec]
    exact (eval hc hr f e).bind fun _ => fail _
  | .errorHere e => by
    simp only [Script.exec]
    refine (eval hc hr f e).bind fun v => ?_
    cases v with
    | string bs => exact fail _
    | _ => exact fail _
  | .call callee args => by
    simp only [Script.exec]
    exact (evalList hc hr f args).bind fun args => (call hc hr f callee args).bind fun _ => pure _
  | .attempt body flag => by
    simp only [Script.exec]
    refine (execBlock hc hr f body).attempt.bind fun done => ?_
    split
    · exact (setVariable f flag _).bind fun _ => pure _
    · exact pure _
  | .print e => by
    simp only [Script.exec]
    refine (eval hc hr f e).bind fun v => (showValue hc hr v).bind fun bs => bind ?_ fun _ => pure _
    exact modify (fun _ => rfl) (fun _ => rfl) fun ⟨p, w, sights⟩ =>
      .intro p (w.print _) ⟨sights.files, sights.env, sights.arrangement⟩
  | .ifVariable name yes no => by
    simp only [Script.exec]
    refine (environment name).bind fun v => ?_
    cases v with
    | nil => exact execBlock hc hr f no
    | _ => exact execBlock hc hr f yes
  | .spin => by simp only [Script.exec]; exact fail _

theorem execBlock (hc : Agree C c c') (hr : ∀ f b, Related C (run f b) (run' f b)) (f : Frame) :
    ∀ b : Block, Related C (Script.execBlock c run f b) (Script.execBlock c' run' f b)
  | [] => by
    simp only [Script.execBlock]
    exact hc.serves.tick.bind fun _ => pure _
  | s :: rest => by
    simp only [Script.execBlock]
    refine hc.serves.tick.bind fun _ => (exec hc hr f s).bind fun v => ?_
    cases v with
    | some v => exact pure _
    | none => exact execBlock hc hr f rest

end

/-- Blocks run in step at every depth of calls. -/
theorem runBlock (hc : Agree C c c') :
    ∀ depth f b, Related C (Script.runBlock c depth f b) (Script.runBlock c' depth f b)
  | 0, _, _ => failAt _ _
  | depth + 1, f, b => by
    unfold Script.runBlock
    refine (execBlock hc (runBlock hc depth) f b).bind fun v => ?_
    cases v <;> exact pure _

theorem contextRun (hc : Agree C c c') (f : Frame) (b : Block) :
    Related C (c.run f b) (c'.run f b) :=
  runBlock hc maxCalls f b

/-! ### From the beginning to the end -/

theorem failureText (hc : Agree C c c') : ∀ fuel v,
    Related C (Script.failureText c fuel v) (Script.failureText c' fuel v)
  | 0, _ => failWith _
  | fuel + 1, v => by
    rw [failureText_eq, failureText_eq]
    exact (showValue hc (contextRun hc) v).follow fun
      | .ok _ => pure _
      | .failed (.value v) => failureText hc fuel v
      | .failed (.message _) => pure _
      | .failed (.panic _) => fail _
      | .failed .endless => fail _

theorem finish (hc : Agree C c c') {r : Run ρ α} {r' : Run ρ' α} (h : Related C r r') :
    Related C (Script.finish c r) (Script.finish c' r') := by
  rw [finish_eq, finish_eq]
  exact h.follow fun
    | .ok _ => give _
    | .failed (.message _) => give _
    | .failed (.value v) => (failureText hc maxCalls v).follow fun _ => give _
    | .failed (.panic _) => give _
    | .failed .endless => give _

/-- A script from its beginning to its end. -/
theorem runSource (hc : Agree C c c') (s : Source) :
    Related C (Script.runSource c s) (Script.runSource c' s) := by
  unfold Script.runSource
  cases s.read with
  | none => exact give _
  | some script => exact finish hc ((contextRun hc _ _).bind fun _ => pure ())

end Related

/-! ### One run -/

/-- The `router` module keeps a condition, and so does a step. -/
structure Upholds (P : Standing ρ → Prop) (s : Services ρ) : Prop where
  tick : Keeps P Run.tick
  handler : ∀ method pattern f, Keeps P (registerHandler s method pattern f)
  static : ∀ kind start path, Keeps P (registerStatic s kind start path)
  listen : ∀ addr, Keeps P (listenAt s addr)

/-- Only a condition on the standing of the first interpreter counts. -/
def Coupling.only (P : Standing ρ → Prop) : Coupling ρ ρ := ⟨fun _ _ => False, fun a _ => P a⟩

variable {P : Standing ρ → Prop}

theorem Keeps.related {r : Action ρ α} (h : Keeps P r) : Related (.only P) r r where
  left _ := h
  right _ _ hm := hm
  twins t := absurd t.inStep id

theorem Related.keeps {r r' : Action ρ α} (h : Related (.only P) r r') : Keeps P r :=
  fun m => h.left m.standing m

/-- What the `router` module keeps every script keeps. -/
theorem Upholds.agree {c : Context ρ} (h : Upholds P c.services) : Agree (.only P) c c :=
  ⟨⟨h.tick.related, fun a b f => (h.handler a b f).related, fun k a b => (h.static k a b).related,
    fun a => (h.listen a).related⟩, rfl, rfl⟩

end ScriptServer.Script
