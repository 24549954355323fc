import ScriptServer.Proofs.Dictionary
import ScriptServer.Route.Table

/-!
# Which methods a refusal lists

A method is refused on a path that has routes, but for other methods only. The refusal lists the
methods of these routes, and HEAD beside GET. Just these methods find a route there.
-/

namespace ScriptServer.Route.Table

variable {t : Table} {es : List Entry} {m method path : String} {methods : List String}

/-! ## What a table says -/

theorem resolve_eq_notFound :
    t.resolve method path = .notFound ↔ t.candidates (segments path) = [] := by
  unfold resolve
  dsimp only
  split
  · next found =>
    have some := List.mem_of_find?_eq_some found
    exact iff_of_false nofun (List.ne_nil_of_mem some)
  · split
    · next none => exact iff_of_true rfl (List.isEmpty_iff.mp none)
    · next some => exact iff_of_false nofun (mt List.isEmpty_iff.mpr some)

theorem resolve_eq_found :
    (∃ k target params, t.resolve method path = .found k target params) ↔
      ∃ c ∈ t.candidates (segments path), c.1.accepts (normalizeMethod method) = true := by
  rw [← List.find?_isSome]
  unfold resolve
  dsimp only
  split
  · next found => exact iff_of_true ⟨_, _, _, rfl⟩ (by rw [found]; rfl)
  · next none =>
    refine iff_of_false ?_ (by rw [none]; exact nofun)
    rintro ⟨k, target, params, found⟩
    split at found <;> cases found

theorem resolve_eq_methodNotAllowed :
    t.resolve method path = .methodNotAllowed methods ↔
      t.candidates (segments path) ≠ [] ∧
        (∀ c ∈ t.candidates (segments path), c.1.accepts (normalizeMethod method) = false) ∧
        methods = allowed ((t.candidates (segments path)).map (·.1)) := by
  have refused : (t.candidates (segments path)).find?
      (fun c => c.1.accepts (normalizeMethod method)) = none ↔
      ∀ c ∈ t.candidates (segments path), c.1.accepts (normalizeMethod method) = false := by
    simp only [List.find?_eq_none, Bool.not_eq_true]
  rw [← refused]
  unfold resolve
  dsimp only
  split
  · next found => exact iff_of_false nofun fun h => by rw [found] at h; cases h.2.1
  · next missed =>
    split
    · next none => exact iff_of_false nofun fun h => h.1 (List.isEmpty_iff.mp none)
    · next some =>
      rw [Resolution.methodNotAllowed.injEq]
      exact ⟨fun eq => ⟨mt List.isEmpty_iff.mpr some, missed, eq.symm⟩, fun h => h.2.2.symm⟩

/-! ## The methods of routes -/

theorem mem_allowed :
    m ∈ allowed es ↔ ∃ e ∈ es, e.key.method = m ∨ m = "HEAD" ∧ e.key.method = "GET" := by
  have named (k : String) :
      k ∈ (Dictionary.ofList (es.map fun e => (e.key.method, ()))).keys ↔
        ∃ e ∈ es, e.key.method = k := by
    rw [Dictionary.mem_keys_ofList, List.map_map, List.mem_map]
    rfl
  have reads : (Dictionary.ofList (es.map fun e => (e.key.method, ()))).contains "GET" = true ↔
      ∃ e ∈ es, e.key.method = "GET" := Dictionary.mem_keys_iff.symm.trans (named "GET")
  unfold allowed
  dsimp only
  split
  · next get =>
    obtain ⟨e, he, eq⟩ := reads.mp get
    rw [Dictionary.mem_keys_insert, named]
    constructor
    · rintro (rfl | ⟨e', he', eq'⟩)
      · exact ⟨e, he, .inr ⟨rfl, eq⟩⟩
      · exact ⟨e', he', .inl eq'⟩
    · rintro ⟨e', he', own | ⟨head, -⟩⟩
      · exact .inr ⟨e', he', own⟩
      · exact .inl head
  · next get =>
    rw [named]
    refine exists_congr fun e => and_congr_right fun he => (or_iff_left ?_).symm
    exact fun ⟨_, eq⟩ => get (reads.mpr ⟨e, he, eq⟩)

theorem allowed_ascending (es : List Entry) : (allowed es).Pairwise (· < ·) := by
  have named : (Dictionary.ofList (es.map fun e => (e.key.method, ()))).Ascending :=
    Dictionary.ascending_ofList _
  unfold allowed
  dsimp only
  split
  · exact List.pairwise_map.mpr named.insert
  · exact List.pairwise_map.mpr named

/-- Routes for named methods accept the methods that they list. -/
theorem accepts_iff_mem_allowed (named : ∀ e ∈ es, e.key.method ≠ anyMethod) :
    (∃ e ∈ es, e.accepts m = true) ↔ m ∈ allowed es := by
  rw [mem_allowed]
  refine exists_congr fun e => and_congr_right fun he => ?_
  simp only [Entry.accepts, Bool.or_eq_true, Bool.and_eq_true, beq_iff_eq]
  rw [or_iff_right (named e he)]

/-- No route of a path is for all methods, if one is refused. -/
theorem named_of_refused {cs : List (Entry × Dictionary String)}
    (refused : ∀ c ∈ cs, c.1.accepts m = false) : ∀ e ∈ cs.map (·.1), e.key.method ≠ anyMethod := by
  intro e mem any
  obtain ⟨c, among, rfl⟩ := List.mem_map.mp mem
  have none := refused c among
  rw [Entry.accepts, any] at none
  cases none

/-- The methods that a refusal lists are those that find a route for the path. -/
theorem found_iff_mem_of_refused (refused : t.resolve method path = .methodNotAllowed methods)
    (m : String) :
    (∃ k target params, t.resolve m path = .found k target params) ↔
      normalizeMethod m ∈ methods := by
  obtain ⟨-, none, rfl⟩ := resolve_eq_methodNotAllowed.mp refused
  rw [resolve_eq_found, ← accepts_iff_mem_allowed (named_of_refused none)]
  simp only [List.mem_map, exists_exists_and_eq_and]

/-- **Refusals.** If a table refuses a method on a path, the methods that it lists ascend, the sign
for all methods is not among them, and a method is listed just if, in its normal form, it finds a
route for the path. Whether there is any route depends on the path alone. -/
theorem allowed_exact (t : Table) (path : String) :
    (∀ method methods, t.resolve method path = .methodNotAllowed methods →
      methods ≠ [] ∧ methods.Pairwise (· < ·) ∧ methods.Nodup ∧ "*" ∉ methods ∧
        ∀ m, (∃ k target params, t.resolve m path = .found k target params) ↔
          Text.toUpper (Text.trim m) ∈ methods) ∧
      ∀ m m', t.resolve m path = .notFound ↔ t.resolve m' path = .notFound := by
  refine ⟨fun method methods refused => ?_, fun m m' => ?_⟩
  · obtain ⟨some, none, eq⟩ := resolve_eq_methodNotAllowed.mp refused
    have ascending : methods.Pairwise (· < ·) := eq ▸ allowed_ascending _
    refine ⟨?_, ascending, ascending.imp fun lt same => ?_, fun any => ?_,
      found_iff_mem_of_refused refused⟩
    · obtain ⟨c, mem⟩ := List.exists_mem_of_ne_nil _ some
      rw [eq]
      exact List.ne_nil_of_mem (mem_allowed.mpr ⟨c.1, List.mem_map_of_mem mem, .inl rfl⟩)
    · exact String.lt_irrefl _ (same ▸ lt)
    · rw [eq] at any
      obtain ⟨e, mem, own | ⟨head, -⟩⟩ := mem_allowed.mp any
      · exact named_of_refused none e mem own
      · exact absurd head (by decide)
  · rw [resolve_eq_notFound, resolve_eq_notFound]

/-- A path with routes for GET and PUT: HEAD is listed too, in its place, and found. -/
theorem allowed_exact_head :
    let t : Table :=
      ⟨[⟨⟨"PUT", "/a"⟩, .handler 0, [.exact "a"]⟩, ⟨⟨"GET", "/a"⟩, .handler 1, [.exact "a"]⟩],
        [⟨"PUT", "/a"⟩, ⟨"GET", "/a"⟩]⟩
    t.resolve "POST" "/a" = .methodNotAllowed ["GET", "HEAD", "PUT"] ∧
      (∃ k target params, t.resolve " head " "/a" = .found k target params) ∧
      ¬∃ k target params, t.resolve "TRACE" "/a" = .found k target params := by
  intro t
  have refused : t.resolve "POST" "/a" = .methodNotAllowed ["GET", "HEAD", "PUT"] := by
    decide +kernel
  obtain ⟨-, -, -, -, found⟩ := (allowed_exact t "/a").1 _ _ refused
  exact ⟨refused, (found " head ").mpr (by decide +kernel), fun h =>
    absurd ((found "TRACE").mp h) (by decide +kernel)⟩

end ScriptServer.Route.Table
