import ScriptServer.Proofs.Route.Precedence

/-!
# Routes for HEAD beside routes for GET

A route for GET answers HEAD too, and one pattern can have a route for each of the two methods. Both
are for a named method and their patterns are the same, so it is the order of registration that
decides between them: if the route for GET came first, the one for HEAD answers nothing.
-/

namespace ScriptServer.Route

open Registration (key)

/-- A request is answered by the route with this key. -/
def Table.Finds (t : Table) (method path : String) (k : Key) : Prop :=
  ∃ target params, t.resolve method path = .found k target params

variable {calls : List Registration} {keys : List Key} {r : Registry}
  {raw method m m' path : String} {k : Key} {p : Pattern}

/-- The route that is found is the one that has precedence over all others that match the path and
accept the method. -/
theorem Table.finds_iff (registered : Registry.empty.registerAll calls = .ok r) :
    r.freeze.Finds method path k ↔
      ∃ p captured, Candidate (calls.map key) (segments path) k p captured ∧
        k.Accepts (normalizeMethod method) ∧
        ∀ k' p' captured', Candidate (calls.map key) (segments path) k' p' captured' →
          k'.Accepts (normalizeMethod method) → k' = k ∨ Precedes (calls.map key) k p k' p' := by
  have held := Registry.holds_of_registerAll registered
  have answers := Table.answers_of_holds held method path
  rw [← Registration.keys_assignments 0 calls]
  constructor
  · rintro ⟨target, params, found⟩
    rw [found] at answers
    cases answers with
    | found candidate accepts _ first => exact ⟨_, _, candidate, accepts, first⟩
  · rintro ⟨p, captured, candidate, accepts, first⟩
    cases resolved : r.freeze.resolve method path with
    | notFound =>
      rw [resolved] at answers
      cases answers with
      | notFound none => exact absurd candidate (none _ _ _)
    | methodNotAllowed allowed =>
      rw [resolved] at answers
      cases answers with
      | methodNotAllowed _ _ refused => exact absurd accepts (refused _ _ _ candidate)
    | found k' target params =>
      rw [resolved] at answers
      cases answers with
      | found candidate' accepts' _ first' =>
        obtain rfl : k' = k := by
          by_contra ne
          have before := (first _ _ _ candidate' accepts').resolve_left ne
          have after := (first' _ _ _ candidate accepts).resolve_left (Ne.symm ne)
          exact before.asymm after
        exact ⟨_, _, resolved⟩

/-- Between two named methods of one pattern the order of registration decides. -/
theorem precedes_same_pattern_iff (named : m ≠ anyMethod) (named' : m' ≠ anyMethod) :
    Precedes keys ⟨m, raw⟩ p ⟨m', raw⟩ p ↔
      keys.idxOf ⟨m, raw⟩ < keys.idxOf ⟨m', raw⟩ := by
  rw [precedes_iff_ranks]
  constructor
  · rintro (lt | ⟨-, ⟨-, any⟩ | ⟨-, lt⟩⟩)
    · exact absurd lt (lt_irrefl _)
    · exact absurd any named'
    · exact lt
  · intro lt
    exact .inr ⟨rfl, .inr ⟨iff_of_false named named', lt⟩⟩

theorem head_ne_get : (⟨"HEAD", raw⟩ : Key) ≠ ⟨"GET", raw⟩ :=
  fun same => absurd (congrArg Key.method same) (show "HEAD" ≠ "GET" by decide)

theorem head_accepts_iff : Key.Accepts ⟨"HEAD", raw⟩ m ↔ m = "HEAD" := by
  constructor
  · rintro (any | same | ⟨-, get⟩)
    · exact absurd any (show "HEAD" ≠ anyMethod by decide)
    · exact same.symm
    · exact absurd get (show "HEAD" ≠ "GET" by decide)
  · rintro rfl
    exact .inr (.inl rfl)

/-- A route matches what another one with the same pattern matches. -/
theorem Candidate.other_method {parts : List String} {captured : List (String × String)}
    (candidate : Candidate keys parts ⟨m, raw⟩ p captured) (other : ⟨m', raw⟩ ∈ keys) :
    Candidate keys parts ⟨m', raw⟩ p captured :=
  ⟨other, candidate.pattern, candidate.captures⟩

theorem exists_pattern_of_registered (registered : Registry.empty.registerAll calls = .ok r)
    (mem : k ∈ calls.map key) : ∃ p, Pattern.read k.pattern = .ok p := by
  have held := Registry.holds_of_registerAll registered
  rw [← Registration.keys_assignments 0 calls] at mem
  obtain ⟨e, entry, rfl⟩ := List.mem_map.mp ((held.keys k).mp mem)
  exact ⟨e.pattern, held.pattern e entry⟩

section

variable (registered : Registry.empty.registerAll calls = .ok r)
  (get : ⟨"GET", raw⟩ ∈ calls.map key)
include registered get

/-- What the route for GET needs to answer a HEAD request, if there is a route for HEAD too. -/
theorem finds_get_iff (head : ⟨"HEAD", raw⟩ ∈ calls.map key) (read : Pattern.read raw = .ok p)
    (isHead : normalizeMethod method = "HEAD") :
    r.freeze.Finds method path ⟨"GET", raw⟩ ↔
      (calls.map key).idxOf ⟨"GET", raw⟩ < (calls.map key).idxOf ⟨"HEAD", raw⟩ ∧
      (∃ captured, Captures p (segments path) captured) ∧
      ∀ k' p' captured', Candidate (calls.map key) (segments path) k' p' captured' →
        k'.Accepts "HEAD" → k' = ⟨"GET", raw⟩ ∨ k' = ⟨"HEAD", raw⟩ ∨
          Precedes (calls.map key) ⟨"GET", raw⟩ p k' p' := by
  have only {p' : Pattern} (read' : Pattern.read raw = .ok p') : p' = p :=
    Except.ok.inj (read'.symm.trans read)
  rw [Table.finds_iff registered, isHead]
  constructor
  · rintro ⟨p', captured, candidate, -, before⟩
    obtain rfl := only candidate.pattern
    have shadowed := before _ _ _ (candidate.other_method head) (head_accepts_iff.mpr rfl)
    have order := shadowed.resolve_left head_ne_get
    refine ⟨(precedes_same_pattern_iff (by decide) (by decide)).mp order,
      ⟨captured, candidate.captures⟩, fun k' p' captured' candidate' accepts' => ?_⟩
    exact (before k' p' captured' candidate' accepts').imp_right .inr
  · rintro ⟨order, ⟨captured, captures⟩, before⟩
    refine ⟨p, captured, ⟨get, read, captures⟩, .inr (.inr ⟨rfl, rfl⟩), ?_⟩
    intro k' p' captured' candidate' accepts'
    rcases before k' p' captured' candidate' accepts' with own | rfl | later
    · exact .inl own
    · obtain rfl := only candidate'.pattern
      exact .inr ((precedes_same_pattern_iff (by decide) (by decide)).mpr order)
    · exact .inr later

/-- The route for HEAD is the first of the two, if it answers anything. -/
theorem head_first_of_finds (finds : r.freeze.Finds method path ⟨"HEAD", raw⟩) :
    (calls.map key).idxOf ⟨"HEAD", raw⟩ < (calls.map key).idxOf ⟨"GET", raw⟩ := by
  obtain ⟨p, captured, candidate, accepts, before⟩ := (Table.finds_iff registered).mp finds
  have fallback : Key.Accepts ⟨"GET", raw⟩ (normalizeMethod method) :=
    .inr (.inr ⟨head_accepts_iff.mp accepts, rfl⟩)
  have shadowing := before _ _ _ (candidate.other_method get) fallback
  exact (precedes_same_pattern_iff (by decide) (by decide)).mp
    (shadowing.resolve_left head_ne_get.symm)

end

/-- **Fallback.** Let a pattern have a route for GET and one for HEAD. A HEAD request is answered by
the one for GET just if that was registered before the one for HEAD, its pattern matches the path,
and it has precedence over all other routes that match and accept HEAD. If it was registered before
the one for HEAD, that one answers no request at all. -/
theorem head_shadowed_iff (registered : Registry.empty.registerAll calls = .ok r)
    (get : ⟨"GET", raw⟩ ∈ calls.map key) (head : ⟨"HEAD", raw⟩ ∈ calls.map key) :
    ∃ p, Pattern.read raw = .ok p ∧
      (∀ method path, normalizeMethod method = "HEAD" →
        (r.freeze.Finds method path ⟨"GET", raw⟩ ↔
          (calls.map key).idxOf ⟨"GET", raw⟩ < (calls.map key).idxOf ⟨"HEAD", raw⟩ ∧
          (∃ captured, Captures p (segments path) captured) ∧
          ∀ k' p' captured', Candidate (calls.map key) (segments path) k' p' captured' →
            k'.Accepts "HEAD" → k' = ⟨"GET", raw⟩ ∨ k' = ⟨"HEAD", raw⟩ ∨
              Precedes (calls.map key) ⟨"GET", raw⟩ p k' p')) ∧
      ((calls.map key).idxOf ⟨"GET", raw⟩ < (calls.map key).idxOf ⟨"HEAD", raw⟩ →
        ∀ method path, ¬ r.freeze.Finds method path ⟨"HEAD", raw⟩) := by
  obtain ⟨p, read⟩ := exists_pattern_of_registered registered get
  refine ⟨p, read, fun method path isHead => finds_get_iff registered get head read isHead, ?_⟩
  intro first method path finds
  exact Nat.lt_asymm first (head_first_of_finds registered get finds)

/-- The route for HEAD comes second and is never found. -/
theorem head_shadowed_iff_second :
    let calls : List Registration := [.handler "get" "/a/:x", .route "HEAD" "/a/:x" (.file "a.txt")]
    ∃ r, Registry.empty.registerAll calls = .ok r ∧
      r.freeze.Finds "head" "/a/b/" ⟨"GET", "/a/:x"⟩ ∧
      ∀ method path, ¬ r.freeze.Finds method path ⟨"HEAD", "/a/:x"⟩ := by
  intro calls
  let r : Registry :=
    ⟨[⟨⟨"GET", "/a/:x"⟩, .handler 0, [.exact "a", .parameter "x"]⟩,
      ⟨⟨"HEAD", "/a/:x"⟩, .file "a.txt", [.exact "a", .parameter "x"]⟩], [⟨"GET", "/a/:x"⟩]⟩
  have registered : Registry.empty.registerAll calls = .ok r := by decide +kernel
  have keys : calls.map key = [⟨"GET", "/a/:x"⟩, ⟨"HEAD", "/a/:x"⟩] := by decide +kernel
  have get : ⟨"GET", "/a/:x"⟩ ∈ calls.map key := by rw [keys]; decide
  have head : ⟨"HEAD", "/a/:x"⟩ ∈ calls.map key := by rw [keys]; decide
  obtain ⟨p, read, found, dead⟩ := head_shadowed_iff registered get head
  obtain rfl : [.exact "a", .parameter "x"] = p :=
    Except.ok.inj ((show Pattern.read "/a/:x" = .ok _ by decide +kernel).symm.trans read)
  have first : (calls.map key).idxOf ⟨"GET", "/a/:x"⟩ <
      (calls.map key).idxOf ⟨"HEAD", "/a/:x"⟩ := by
    rw [keys]
    decide
  refine ⟨r, registered, (found "head" "/a/b/" (by decide +kernel)).mpr ⟨first, ?_, ?_⟩, dead first⟩
  · have parts : segments "/a/b/" = ["a", "b"] := by decide +kernel
    rw [parts]
    exact ⟨_, .exact "a" (.parameter "x" "b" .nil)⟩
  · rintro k' p' captured' ⟨mem, -, -⟩ -
    rw [keys, List.mem_cons, List.mem_singleton] at mem
    exact mem.imp_right .inl

/-- A pattern has a route for HEAD, and the route for GET answers a HEAD request. -/
theorem head_shadowed :
    let calls : List Registration := [.handler "GET" "/a", .handler "HEAD" "/a"]
    ∃ r, Registry.empty.registerAll calls = .ok r ∧ ⟨"HEAD", "/a"⟩ ∈ calls.map key ∧
      r.freeze.resolve "HEAD" "/a" = .found ⟨"GET", "/a"⟩ (.handler 0) [] := by
  intro calls
  let r : Registry :=
    ⟨[⟨⟨"GET", "/a"⟩, .handler 0, [.exact "a"]⟩, ⟨⟨"HEAD", "/a"⟩, .handler 1, [.exact "a"]⟩],
      [⟨"GET", "/a"⟩, ⟨"HEAD", "/a"⟩]⟩
  have frozen : r.freeze = ⟨r.entries, r.handlerKeys⟩ :=
    congrArg (Table.mk · r.handlerKeys) (List.mergeSort_of_pairwise (by decide))
  refine ⟨r, by decide +kernel, by decide +kernel, ?_⟩
  rw [frozen]
  decide +kernel

end ScriptServer.Route
