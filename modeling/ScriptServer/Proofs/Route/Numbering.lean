import ScriptServer.Proofs.Route.Registration

/-!
# The numbers of handlers

A registry is asked to register any routes, valid or not, and answers each call. It numbers the
handlers that it accepts from zero on and has the key of each under its number, whatever was refused
or registered again in between.
-/

namespace ScriptServer.Route

/-- What a registry answers to a call. -/
inductive Answer where
  | handler (id : Nat)
  | route (key : Key)
  | refused (fault : Fault)
  deriving DecidableEq, Repr

def Answer.isHandler : Answer → Bool
  | handler _ => true
  | _ => false

/-- The call does not choose the number of a handler on its own. -/
def Registration.choosesNone : Registration → Bool
  | route _ _ (.handler _) => false
  | _ => true

/-- The keys and targets that were accepted. -/
def grants : List Registration → List Answer → List (Key × Target)
  | .handler method pattern :: calls, .handler id :: answers =>
    (.of method pattern, .handler id) :: grants calls answers
  | .route _ _ target :: calls, .route key :: answers => (key, target) :: grants calls answers
  | _ :: calls, _ :: answers => grants calls answers
  | _, _ => []

namespace Registry

def submit (r : Registry) : Registration → Answer × Registry
  | .handler method pattern =>
    match r.registerHandler method pattern with
    | .ok (id, r) => (.handler id, r)
    | .error e => (.refused e, r)
  | .route method pattern target =>
    match r.register method pattern target with
    | .ok (key, r) => (.route key, r)
    | .error e => (.refused e, r)

def submitAll (r : Registry) : List Registration → List Answer × Registry
  | [] => ([], r)
  | call :: calls =>
    ((r.submit call).1 :: ((r.submit call).2.submitAll calls).1,
      ((r.submit call).2.submitAll calls).2)

/-- What a call does to a registry that has accepted `n` handlers. -/
inductive Handling (n : Nat) (r : Registry) : Registration → Answer → Registry → Prop where
  | emptyMethod {call : Registration} (h : call.key.method = "") :
    Handling n r call (.refused (.emptyMethod call.key.pattern)) r
  | badPattern {call : Registration} {fault : PatternFault} (method : call.key.method ≠ "")
    (h : Pattern.read call.key.pattern = .error fault) :
    Handling n r call (.refused (.badPattern call.key.pattern fault)) r
  | handler {method pattern : String} {p : Pattern} (h : (Key.of method pattern).method ≠ "")
    (read : Pattern.read pattern = .ok p) (next : r.handlerKeys.length = n) :
    Handling n r (.handler method pattern) (.handler n)
      ⟨place (.of method pattern) (.handler n) p r.entries,
        r.handlerKeys ++ [.of method pattern]⟩
  | route {method pattern : String} {target : Target} {p : Pattern}
    (h : (Key.of method pattern).method ≠ "") (read : Pattern.read pattern = .ok p) :
    Handling n r (.route method pattern target) (.route (.of method pattern))
      ⟨place (.of method pattern) target p r.entries, r.handlerKeys⟩

variable {calls : List Registration} {call : Registration} {answer : Answer}
  {answers : List Answer} {r r' : Registry} {as : List (Key × Target)}

/-! ### One call -/

theorem submit_handling (r : Registry) (call : Registration) :
    Handling r.handlerKeys.length r call (r.submit call).1 (r.submit call).2 := by
  cases call with
  | handler method pattern =>
    rw [submit, registerHandler_eq, validate]
    by_cases empty : (Key.of method pattern).method = ""
    · rw [if_pos (String.isEmpty_iff.mpr empty)]
      exact .emptyMethod empty
    · rw [if_neg (mt String.isEmpty_iff.mp empty)]
      cases read : Pattern.read pattern with
      | error fault => exact .badPattern empty read
      | ok p => exact .handler empty read rfl
  | route method pattern target =>
    rw [submit, register_eq, validate]
    by_cases empty : (Key.of method pattern).method = ""
    · rw [if_pos (String.isEmpty_iff.mpr empty)]
      exact .emptyMethod empty
    · rw [if_neg (mt String.isEmpty_iff.mp empty)]
      cases read : Pattern.read pattern with
      | error fault => exact .badPattern empty read
      | ok p => exact .route empty read

/-- The keys and targets are in the registry, and a target that is a handler has the number under
which its key is. -/
structure Follows (as : List (Key × Target)) (r : Registry) : Prop where
  holds : Holds as r.entries
  named : ∀ a ∈ as, ∀ id, a.2 = .handler id → r.handlerKeys[id]? = some a.1

/-- A route has a target that was given for its key. -/
theorem Holds.mem {es : List Entry} {e : Entry} (holds : Holds as es) (he : e ∈ es) :
    (e.key, e.target) ∈ as := by
  obtain ⟨before, after, eq, -⟩ := List.lookup_eq_some_iff.mp (holds.target e he)
  rw [← List.mem_reverse, eq]
  exact List.mem_append_right _ List.mem_cons_self

theorem Follows.empty : Follows [] empty := ⟨.nil, fun _ h => absurd h List.not_mem_nil⟩

variable {n : Nat}

theorem Handling.keys_grow (h : Handling n r call answer r') :
    r.handlerKeys <+: r'.handlerKeys := by
  cases h with
  | emptyMethod | badPattern | route => exact List.prefix_rfl
  | handler => exact List.prefix_append _ _

/-- The number of handlers grows with the answers that give one. -/
theorem Handling.keys_length (h : Handling r.handlerKeys.length r call answer r') :
    r'.handlerKeys.length = r.handlerKeys.length + [answer].countP Answer.isHandler := by
  cases h with
  | emptyMethod | badPattern | route => rfl
  | handler => exact List.length_append

theorem Handling.follows (h : Handling n r call answer r') (follows : Follows as r)
    (plain : call.choosesNone) : Follows (as ++ grants [call] [answer]) r' := by
  have kept : ∀ a ∈ as, ∀ id, a.2 = .handler id → r'.handlerKeys[id]? = some a.1 := by
    intro a ha id same
    obtain ⟨bound, eq⟩ := List.getElem?_eq_some_iff.mp (follows.named a ha id same)
    exact (List.prefix_iff_getElem?.mp h.keys_grow id bound).trans (congrArg some eq)
  cases h with
  | emptyMethod | badPattern =>
    cases call <;> simpa [grants] using follows
  | handler _ read next =>
    refine ⟨follows.holds.place read _, fun a ha id same => ?_⟩
    rcases List.mem_append.mp ha with ha | ha
    · exact kept a ha id same
    · obtain rfl := List.mem_singleton.mp ha
      cases same
      rw [← next]
      exact List.getElem?_concat_length
  | @route _ _ target _ _ read =>
    refine ⟨follows.holds.place read target, fun a ha id same => ?_⟩
    rcases List.mem_append.mp ha with ha | ha
    · exact kept a ha id same
    · obtain rfl := List.mem_singleton.mp ha
      obtain rfl : target = .handler id := same
      cases plain

/-! ### All calls -/

theorem grants_cons (call : Registration) (calls : List Registration) (answer : Answer)
    (answers : List Answer) :
    grants (call :: calls) (answer :: answers) = grants [call] [answer] ++ grants calls answers := by
  cases call <;> cases answer <;> rfl

theorem submitAll_append (r : Registry) (before after : List Registration) :
    r.submitAll (before ++ after) =
      ((r.submitAll before).1 ++ ((r.submitAll before).2.submitAll after).1,
        ((r.submitAll before).2.submitAll after).2) := by
  induction before generalizing r with
  | nil => rfl
  | cons call before ih => simp only [List.cons_append, submitAll, ih]

theorem submitAll_keys_grow (r : Registry) (calls : List Registration) :
    r.handlerKeys <+: (r.submitAll calls).2.handlerKeys := by
  induction calls generalizing r with
  | nil => exact List.prefix_rfl
  | cons call calls ih => exact (submit_handling r call).keys_grow.trans (ih _)

theorem submitAll_keys_length (r : Registry) (calls : List Registration) :
    (r.submitAll calls).2.handlerKeys.length =
      r.handlerKeys.length + (r.submitAll calls).1.countP Answer.isHandler := by
  induction calls generalizing r with
  | nil => rfl
  | cons call calls ih =>
    rw [submitAll, ih, (submit_handling r call).keys_length, Nat.add_assoc]
    exact congrArg (_ + ·) (@List.countP_append _ _ [(r.submit call).1] _).symm

theorem submitAll_follows (follows : Follows as r) (plain : ∀ call ∈ calls, call.choosesNone) :
    Follows (as ++ grants calls (r.submitAll calls).1) (r.submitAll calls).2 := by
  induction calls generalizing r as with
  | nil => simpa [grants, submitAll] using follows
  | cons call calls ih =>
    rw [submitAll, grants_cons, ← List.append_assoc]
    exact ih ((submit_handling r call).follows follows (plain _ List.mem_cons_self))
      fun c hc => plain c (List.mem_cons_of_mem _ hc)

/-- After any calls the keys are distinct, a route to a handler has the number under which its key
is, a route has the target that was accepted for it last and the place that it was given first, and
each call that accepts a handler gives it the next number, which is the place of its key, while a
call that is refused changes nothing. -/
theorem submitAll_numbers (run : empty.submitAll calls = (answers, r))
    (plain : ∀ call ∈ calls, call.choosesNone) :
    (r.entries.map Entry.key).Nodup ∧
    (∀ e ∈ r.entries, ∀ id, e.target = .handler id → r.handlerKeys[id]? = some e.key) ∧
    Holds (grants calls answers) r.entries ∧
    ∀ before call after, calls = before ++ call :: after →
      ∃ said answer later r₁ r₂, answers = said ++ answer :: later ∧
        empty.submitAll before = (said, r₁) ∧ r₁.submit call = (answer, r₂) ∧
        r₂.submitAll after = (later, r) ∧ r₂.handlerKeys <+: r.handlerKeys ∧
        Handling (said.countP Answer.isHandler) r₁ call answer r₂ := by
  have follows := submitAll_follows Follows.empty plain
  rw [run] at follows
  refine ⟨follows.holds.nodup, fun e he id same => ?_, follows.holds, ?_⟩
  · exact follows.named (e.key, e.target) (follows.holds.mem he) id same
  · rintro before call after rfl
    rw [submitAll_append] at run
    cases run
    have count := submitAll_keys_length empty before
    rw [show empty.handlerKeys.length = 0 from rfl, Nat.zero_add] at count
    have handled := submit_handling (empty.submitAll before).2 call
    rw [count] at handled
    exact ⟨_, _, _, _, _, rfl, rfl, rfl, rfl, submitAll_keys_grow _ _, handled⟩

/-- Two calls are refused between the handlers, of which the first two have the same key. -/
theorem submitAll_numbers_again :
    ∃ r, empty.submitAll
        [.handler "get" "/a", .handler " " "/b", .handler " GET " "/a",
          .route "*" "a" (.file "a.html"), .handler "PUT" "/a"] =
        ([.handler 0, .refused (.emptyMethod "/b"), .handler 1,
          .refused (.badPattern "a" .noSlash), .handler 2], r) ∧
      r.entries.map (fun e => (e.key, e.target)) =
        [(⟨"GET", "/a"⟩, .handler 1), (⟨"PUT", "/a"⟩, .handler 2)] ∧
      ∀ e ∈ r.entries, ∀ id, e.target = .handler id → r.handlerKeys[id]? = some e.key := by
  let r : Registry :=
    ⟨[⟨⟨"GET", "/a"⟩, .handler 1, [.exact "a"]⟩, ⟨⟨"PUT", "/a"⟩, .handler 2, [.exact "a"]⟩],
      [⟨"GET", "/a"⟩, ⟨"GET", "/a"⟩, ⟨"PUT", "/a"⟩]⟩
  have run : empty.submitAll
      [.handler "get" "/a", .handler " " "/b", .handler " GET " "/a",
        .route "*" "a" (.file "a.html"), .handler "PUT" "/a"] =
      ([.handler 0, .refused (.emptyMethod "/b"), .handler 1,
        .refused (.badPattern "a" .noSlash), .handler 2], r) := by decide +kernel
  obtain ⟨-, named, -⟩ := submitAll_numbers run (by decide)
  exact ⟨r, run, rfl, named⟩

end Registry

end ScriptServer.Route
