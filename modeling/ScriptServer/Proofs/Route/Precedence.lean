import Mathlib.Data.List.Lex
import Mathlib.Data.List.Nodup
import Mathlib.Data.List.Pairwise
import ScriptServer.Proofs.Route.Matching
import ScriptServer.Proofs.Route.Registration

/-!
# Which route answers

A frozen table lists its routes by precedence: special patterns first, then named methods, then what
was registered first. So the route that is found is the least one of those that match the path and
accept the method.
-/

namespace ScriptServer.Route

/-- What a segment of a pattern is. -/
inductive Kind where
  | exact
  | constrained
  | parameter
  | rest

def Segment.kind : Segment → Kind
  | exact _ => .exact
  | constrained _ _ => .constrained
  | parameter _ => .parameter
  | rest => .rest

/-- Of two segments the one of the first kind is the special one. -/
inductive Kind.Before : Kind → Kind → Prop where
  | exact_constrained : Before exact constrained
  | exact_parameter : Before exact parameter
  | exact_rest : Before exact rest
  | constrained_parameter : Before constrained parameter
  | constrained_rest : Before constrained rest
  | parameter_rest : Before parameter rest

def Pattern.kinds (p : Pattern) : List Kind := p.map Segment.kind

/-- The route with the first key and pattern has precedence over the other one, where `keys` are the
keys of all registrations. Patterns are compared by the first segments that differ in kind, and a
pattern comes before its extensions. -/
def Precedes (keys : List Key) (k : Key) (p : Pattern) (k' : Key) (p' : Pattern) : Prop :=
  List.Lex Kind.Before p.kinds p'.kinds ∨ p.kinds = p'.kinds ∧
    (k.method ≠ anyMethod ∧ k'.method = anyMethod ∨
      (k.method = anyMethod ↔ k'.method = anyMethod) ∧ keys.idxOf k < keys.idxOf k')

/-! ### The order of patterns -/

namespace Kind

def place : Kind → Nat
  | exact => 0
  | constrained => 1
  | parameter => 2
  | rest => 3

theorem place_injective : Function.Injective place := by
  intro k k' same
  cases k <;> cases k' <;> first | rfl | cases same

theorem before_iff {k k' : Kind} : k.Before k' ↔ k.place < k'.place := by
  constructor
  · rintro (_ | _) <;> decide
  · intro lt
    cases k <;> cases k' <;> first | constructor | exact absurd lt (by decide)

theorem lex_iff {ks ks' : List Kind} :
    List.Lex Before ks ks' ↔ ks.map place < ks'.map place := by
  induction ks generalizing ks' with
  | nil => cases ks' <;> simp
  | cons k ks ih =>
    cases ks' with
    | nil => simp
    | cons k' ks' =>
      have later_iff : List.Lex Before ks ks' ↔ ks.map place < ks'.map place := ih
      rw [List.map_cons, List.map_cons, List.cons_lt_cons_iff, ← before_iff, ← later_iff]
      constructor
      · intro lex
        cases lex with
        | rel before => exact .inl before
        | cons later => exact .inr ⟨rfl, later⟩
      · rintro (before | ⟨same, later⟩)
        · exact .rel before
        · obtain rfl := place_injective same
          exact .cons later

end Kind

/-- The ranks of a pattern are the places of the kinds of its segments. -/
theorem ranks_eq (p : Pattern) : p.ranks = p.kinds.map Kind.place := by
  unfold Pattern.ranks Pattern.kinds
  rw [List.map_map]
  exact List.map_congr_left fun s _ => by cases s <;> rfl

theorem precedes_iff_ranks {keys : List Key} {k k' : Key} {p p' : Pattern} :
    Precedes keys k p k' p' ↔ p.ranks < p'.ranks ∨ p.ranks = p'.ranks ∧
      (k.method ≠ anyMethod ∧ k'.method = anyMethod ∨
        (k.method = anyMethod ↔ k'.method = anyMethod) ∧ keys.idxOf k < keys.idxOf k') := by
  rw [ranks_eq, ranks_eq, ← Kind.lex_iff, (List.map_injective_iff.mpr Kind.place_injective).eq_iff,
    Precedes]

/-- At most one route comes first. -/
theorem Precedes.asymm {keys : List Key} {k k' : Key} {p p' : Pattern}
    (h : Precedes keys k p k' p') : ¬Precedes keys k' p' k p := by
  intro h'
  rw [precedes_iff_ranks] at h h'
  rcases h with lt | ⟨same, h⟩ <;> rcases h' with lt' | ⟨same', h'⟩
  · exact absurd lt' lt.asymm
  · exact absurd (same' ▸ lt) (lt_irrefl _)
  · exact absurd (same ▸ lt') (lt_irrefl _)
  · rcases h with ⟨named, any⟩ | ⟨both, lt⟩ <;> rcases h' with ⟨named', any'⟩ | ⟨both', lt'⟩
    · exact named any'
    · exact named (both'.mp any)
    · exact named' (both.mp any')
    · exact absurd lt' lt.asymm

theorem precedes_iff {as bs : List Nat} : precedes as bs = true ↔ as < bs ∨ as = bs := by
  induction as generalizing bs with
  | nil => cases bs <;> simp [precedes]
  | cons a as ih =>
    cases bs with
    | nil => simp [precedes]
    | cons b bs =>
      simp only [precedes, Bool.or_eq_true, Bool.and_eq_true, decide_eq_true_eq, beq_iff_eq, ih,
        List.cons_lt_cons_iff, List.cons.injEq]
      tauto

namespace Entry

theorem before_iff {a b : Entry} :
    a.before b = true ↔ a.pattern.ranks < b.pattern.ranks ∨
      a.pattern.ranks = b.pattern.ranks ∧
        (a.key.method ≠ anyMethod ∨ b.key.method = anyMethod) := by
  unfold before
  split
  · next same => simp [same]
  · next differ => simp [precedes_iff, differ]

theorem before_trans (a b c : Entry) (hab : a.before b = true) (hbc : b.before c = true) :
    a.before c = true := by
  rw [before_iff] at *
  rcases hab with lt | ⟨same, method⟩ <;> rcases hbc with lt' | ⟨same', method'⟩
  · exact .inl (lt.trans lt')
  · exact .inl (same' ▸ lt)
  · exact .inl (same ▸ lt')
  · exact .inr ⟨same.trans same', by grind⟩

theorem before_total (a b : Entry) : (a.before b || b.before a) = true := by
  rw [Bool.or_eq_true, before_iff, before_iff]
  rcases lt_trichotomy a.pattern.ranks b.pattern.ranks with lt | same | gt
  · exact .inl (.inl lt)
  · by_cases named : a.key.method = anyMethod
    · exact .inr (.inr ⟨same.symm, .inr named⟩)
    · exact .inl (.inr ⟨same, .inl named⟩)
  · exact .inr (.inl gt)

end Entry

namespace Registry

variable {α : Type} {a b : α} {l : List α}

/-- Two members of a list stand in one order or the other. -/
theorem pair_sublist_or (ha : a ∈ l) (hb : b ∈ l) (hne : a ≠ b) :
    [a, b].Sublist l ∨ [b, a].Sublist l := by
  have symm : Std.Symm fun a b => [a, b].Sublist l ∨ [b, a].Sublist l := ⟨fun _ _ => Or.symm⟩
  have pairs : l.Pairwise fun a b => [a, b].Sublist l ∨ [b, a].Sublist l :=
    List.pairwise_iff_forall_sublist.mpr Or.inl
  exact pairs.forall ha hb hne

theorem pair_sublist_asymm (nodup : l.Nodup) (hab : [a, b].Sublist l) : ¬[b, a].Sublist l := by
  induction l with
  | nil => exact fun _ => absurd hab.length_le (by simp)
  | cons x l ih =>
    rw [List.nodup_cons] at nodup
    intro hba
    rcases List.sublist_cons_iff.mp hab with hab' | ⟨_, eq, hb⟩ <;>
      rcases List.sublist_cons_iff.mp hba with hba' | ⟨_, eq', ha⟩
    · exact ih nodup.2 hab' hba'
    · cases eq'
      exact nodup.1 (hab'.subset (List.mem_cons_of_mem _ List.mem_cons_self))
    · cases eq
      exact nodup.1 (hba'.subset (List.mem_cons_of_mem _ List.mem_cons_self))
    · cases eq
      cases eq'
      exact nodup.1 (hb.subset List.mem_cons_self)

variable {as : List (Key × Target)} {r : Registry}

theorem freeze_nodup (h : Holds as r.entries) : r.freeze.entries.Nodup :=
  (List.mergeSort_perm r.entries Entry.before).nodup_iff.mpr (List.Nodup.of_map _ h.nodup)

/-- Freezing a registry orders its routes by precedence. -/
theorem Holds.freeze (h : Holds as r.entries) :
    r.freeze.entries.Pairwise fun a b =>
      Precedes (as.map (·.1)) a.key a.pattern b.key b.pattern := by
  have sorted := List.pairwise_mergeSort Entry.before_trans Entry.before_total r.entries
  have order := h.order
  rw [List.pairwise_iff_forall_sublist] at sorted order ⊢
  intro a b hab
  rw [precedes_iff_ranks]
  rcases Entry.before_iff.mp (sorted hab) with lt | ⟨same, method⟩
  · exact .inl lt
  refine .inr ⟨same, ?_⟩
  by_cases named : a.key.method = anyMethod ↔ b.key.method = anyMethod
  · -- Neither the pattern nor the method decides, so the sort has kept the order of registration.
    refine .inr ⟨named, ?_⟩
    have ha : a ∈ r.entries := List.mem_mergeSort.mp (hab.subset (by simp))
    have hb : b ∈ r.entries := List.mem_mergeSort.mp (hab.subset (by simp))
    have hne : a ≠ b := by
      rintro rfl
      exact absurd (freeze_nodup h) fun nodup => pair_sublist_asymm nodup hab hab
    rcases pair_sublist_or ha hb hne with kept | swapped
    · exact order kept
    · have before : b.before a = true :=
        Entry.before_iff.mpr (.inr ⟨same.symm, by tauto⟩)
      have moved : [b, a].Sublist r.freeze.entries :=
        List.pair_sublist_mergeSort Entry.before_trans Entry.before_total before swapped
      exact absurd moved (pair_sublist_asymm (freeze_nodup h) hab)
  · exact .inl (by tauto)

end Registry

/-- The route answers requests of a method in its normal form. -/
def Key.Accepts (k : Key) (method : String) : Prop :=
  k.method = anyMethod ∨ k.method = method ∨ method = "HEAD" ∧ k.method = "GET"

/-- One of the keys has a pattern that matches the segments of a path and captures some of them. -/
structure Candidate (keys : List Key) (parts : List String) (k : Key) (p : Pattern)
    (captured : List (String × String)) : Prop where
  registered : k ∈ keys
  pattern : Pattern.read k.pattern = .ok p
  captures : Captures p parts captured

/-- What a table of assigned routes has to say about a request. -/
inductive Answers (as : List (Key × Target)) (method : String) (parts : List String) :
    Resolution → Prop where
  /-- The first candidate that accepts the method, with its latest target. -/
  | found {k : Key} {p : Pattern} {captured : List (String × String)} {target : Target}
    (candidate : Candidate (as.map (·.1)) parts k p captured) (accepts : k.Accepts method)
    (latest : as.reverse.lookup k = some target)
    (first : ∀ k' p' captured', Candidate (as.map (·.1)) parts k' p' captured' →
      k'.Accepts method → k' = k ∨ Precedes (as.map (·.1)) k p k' p') :
    Answers as method parts (.found k target (.ofList captured))
  | methodNotAllowed {k : Key} {p : Pattern} {captured : List (String × String)}
    (allowed : List String) (candidate : Candidate (as.map (·.1)) parts k p captured)
    (refused : ∀ k' p' captured', Candidate (as.map (·.1)) parts k' p' captured' →
      ¬k'.Accepts method) :
    Answers as method parts (.methodNotAllowed allowed)
  | notFound (none : ∀ k p captured, ¬Candidate (as.map (·.1)) parts k p captured) :
    Answers as method parts .notFound

theorem Entry.accepts_iff {e : Entry} {method : String} :
    e.accepts method = true ↔ e.key.Accepts method := by
  simp [accepts, Key.Accepts, or_assoc]

namespace Table

variable {as : List (Key × Target)} {r : Registry} {parts : List String}

/-- The routes that a frozen table tries for a path are those of the candidates. -/
theorem mem_candidates (h : Registry.Holds as r.entries) {e : Entry} {params : Dictionary String} :
    (e, params) ∈ r.freeze.candidates parts ↔
      e ∈ r.entries ∧
        ∃ captured, Captures e.pattern parts captured ∧ params = .ofList captured := by
  simp only [candidates, Registry.freeze, List.mem_filterMap, List.mem_mergeSort,
    Option.map_eq_some_iff, Prod.mk.injEq]
  constructor
  · rintro ⟨e, he, params, isMatch, rfl, rfl⟩
    exact ⟨he, (Pattern.match?_eq_some (Pattern.restLast_of_read (h.pattern e he))).mp isMatch⟩
  · rintro ⟨he, isMatch⟩
    exact ⟨e, he, params,
      (Pattern.match?_eq_some (Pattern.restLast_of_read (h.pattern e he))).mpr isMatch, rfl, rfl⟩

theorem candidate_of_mem (h : Registry.Holds as r.entries) {e : Entry} {params : Dictionary String}
    (he : (e, params) ∈ r.freeze.candidates parts) :
    ∃ captured, Candidate (as.map (·.1)) parts e.key e.pattern captured ∧
      params = .ofList captured := by
  obtain ⟨held, captured, captures, rfl⟩ := (mem_candidates h).mp he
  exact ⟨captured, ⟨(h.keys _).mpr (List.mem_map_of_mem held), h.pattern e held, captures⟩, rfl⟩

theorem mem_of_candidate (h : Registry.Holds as r.entries) {k : Key} {p : Pattern}
    {captured : List (String × String)} (candidate : Candidate (as.map (·.1)) parts k p captured) :
    ∃ e, e.key = k ∧ e.pattern = p ∧ (e, .ofList captured) ∈ r.freeze.candidates parts := by
  obtain ⟨e, held, rfl⟩ := List.mem_map.mp ((h.keys k).mp candidate.registered)
  obtain rfl : e.pattern = p := Except.ok.inj ((h.pattern e held).symm.trans candidate.pattern)
  exact ⟨e, rfl, rfl, (mem_candidates h).mpr ⟨held, captured, candidate.captures, rfl⟩⟩

/-- The routes that a frozen table tries for a path stand by precedence. -/
theorem pairwise_candidates (h : Registry.Holds as r.entries) :
    (r.freeze.candidates parts).Pairwise fun a b =>
      Precedes (as.map (·.1)) a.1.key a.1.pattern b.1.key b.1.pattern := by
  refine List.Pairwise.filterMap _ (fun a b before => ?_) h.freeze
  intro a' ha' b' hb'
  obtain ⟨_, -, rfl⟩ := Option.map_eq_some_iff.mp ha'
  obtain ⟨_, -, rfl⟩ := Option.map_eq_some_iff.mp hb'
  exact before

/-- The first candidate that accepts the method has precedence over all others that do. -/
theorem answers_of_hit (h : Registry.Holds as r.entries) {method : String} {e : Entry}
    {params : Dictionary String}
    (hit : (r.freeze.candidates parts).find? (fun c => c.1.accepts method) = some (e, params)) :
    Answers as method parts (.found e.key e.target params) := by
  obtain ⟨accepts, before, after, split, refused⟩ := List.find?_eq_some_iff_append.mp hit
  have among : (e, params) ∈ r.freeze.candidates parts :=
    split ▸ List.mem_append_right _ List.mem_cons_self
  obtain ⟨captured, candidate, rfl⟩ := candidate_of_mem h among
  have held := ((mem_candidates h).mp among).1
  refine .found candidate (Entry.accepts_iff.mp accepts) (h.target e held)
    fun k' p' captured' candidate' accepts' => ?_
  obtain ⟨e', rfl, rfl, he'⟩ := mem_of_candidate h candidate'
  have order : (r.freeze.candidates parts).Pairwise _ := pairwise_candidates h
  rw [split] at he' order
  rw [List.mem_append, List.mem_cons] at he'
  rcases he' with earlier | same | later
  · have := refused _ earlier
    simp [Entry.accepts_iff.mpr accepts'] at this
  · exact .inl (congrArg (·.1.key) same)
  · exact .inr (List.rel_of_pairwise_cons (List.pairwise_append.mp order).2.1 later)

theorem not_accepts_of_miss (h : Registry.Holds as r.entries) {method : String}
    (miss : (r.freeze.candidates parts).find? (fun c => c.1.accepts method) = none) {k : Key}
    {p : Pattern} {captured : List (String × String)}
    (candidate : Candidate (as.map (·.1)) parts k p captured) : ¬k.Accepts method := by
  intro accepts
  obtain ⟨e, rfl, rfl, he⟩ := mem_of_candidate h candidate
  exact List.find?_eq_none.mp miss _ he (Entry.accepts_iff.mpr accepts)

/-- A frozen table answers as the routes that it holds demand. -/
theorem answers_of_holds (h : Registry.Holds as r.entries) (method path : String) :
    Answers as (normalizeMethod method) (segments path) (r.freeze.resolve method path) := by
  unfold resolve
  dsimp only
  split
  · next hit => exact answers_of_hit h hit
  · next miss =>
    split
    · next empty =>
      refine .notFound fun k p captured candidate => ?_
      obtain ⟨e, -, -, he⟩ := mem_of_candidate h candidate
      rw [List.isEmpty_iff.mp empty] at he
      exact absurd he List.not_mem_nil
    · next some =>
      rw [List.isEmpty_iff] at some
      obtain ⟨⟨e, params⟩, he⟩ := List.exists_mem_of_ne_nil _ some
      obtain ⟨captured, candidate, -⟩ := candidate_of_mem h he
      exact .methodNotAllowed _ candidate fun _ _ _ => not_accepts_of_miss h miss

/-- **Resolution.** A frozen table answers every request as its registrations demand. -/
theorem resolve_answers {calls : List Registration} {r : Registry}
    (registered : Registry.empty.registerAll calls = .ok r) (method path : String) :
    Answers (Registration.assignments 0 calls) (normalizeMethod method) (segments path)
      (r.freeze.resolve method path) := by
  have held := Registry.holds_of_registerAll registered
  exact answers_of_holds held method path

/-- The text of a segment comes before a parameter, a HEAD request is answered like a GET, and the
target is the last one. -/
theorem resolve_answers_head :
    ∃ r, Registry.empty.registerAll
        [.handler " Get " "/users/me", .handler "*" "/users/\x7bid\x7d",
          .route "GET" "/users/me" (.file "me.html")] = .ok r ∧
      r.freeze.resolve "head" "//users/me/" = .found ⟨"GET", "/users/me"⟩ (.file "me.html") [] ∧
      Answers
        [(⟨"GET", "/users/me"⟩, .handler 0), (⟨"*", "/users/\x7bid\x7d"⟩, .handler 1),
          (⟨"GET", "/users/me"⟩, .file "me.html")]
        "HEAD" ["users", "me"] (.found ⟨"GET", "/users/me"⟩ (.file "me.html") []) := by
  let r : Registry :=
    ⟨[⟨⟨"GET", "/users/me"⟩, .file "me.html", [.exact "users", .exact "me"]⟩,
      ⟨⟨"*", "/users/\x7bid\x7d"⟩, .handler 1, [.exact "users", .parameter "id"]⟩],
      [⟨"GET", "/users/me"⟩, ⟨"*", "/users/\x7bid\x7d"⟩]⟩
  have registered : Registry.empty.registerAll
      [.handler " Get " "/users/me", .handler "*" "/users/\x7bid\x7d",
        .route "GET" "/users/me" (.file "me.html")] = .ok r := by decide +kernel
  have frozen : r.freeze = ⟨r.entries, r.handlerKeys⟩ :=
    congrArg (Table.mk · r.handlerKeys) (List.mergeSort_of_pairwise (by decide))
  have resolved : r.freeze.resolve "head" "//users/me/" =
      .found ⟨"GET", "/users/me"⟩ (.file "me.html") [] := by
    rw [frozen]
    decide +kernel
  refine ⟨r, registered, resolved, ?_⟩
  have answers := resolve_answers registered "head" "//users/me/"
  rw [resolved] at answers
  have method : normalizeMethod "head" = "HEAD" := by decide +kernel
  have parts : segments "//users/me/" = ["users", "me"] := by decide +kernel
  have assigned : Registration.assignments 0
      [.handler " Get " "/users/me", .handler "*" "/users/\x7bid\x7d",
        .route "GET" "/users/me" (.file "me.html")] =
      [(⟨"GET", "/users/me"⟩, .handler 0), (⟨"*", "/users/\x7bid\x7d"⟩, .handler 1),
        (⟨"GET", "/users/me"⟩, .file "me.html")] := by decide +kernel
  rwa [method, parts, assigned] at answers

end Table

end ScriptServer.Route
