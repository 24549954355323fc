import ScriptServer.Proofs.Http.Lines

/-!
# Requests that arrive in pieces

A request is read while its bytes arrive, and the pieces may be cut anywhere: inside the empty line,
or with the beginning of the body behind it. The loop over the head stops at the first empty line of
the bytes, whatever it has read by then (`readHead_ends`), and the loop over the body gets what it
misses or all that is left (`readBody_gives`). So what is read depends on the bytes alone.
-/

namespace ScriptServer.Http

variable {bs head rest head' rest' more : Bytes}

/-! ## Heads of longer byte strings -/

theorem splitHead_isSome (head rest : Bytes) :
    (splitHead (head ++ crlf ++ crlf ++ rest)).isSome = true := by
  induction head with
  | nil => rfl
  | cons b head ih =>
    by_cases empty : ∃ later, b :: (head ++ crlf ++ crlf ++ rest) = 13 :: 10 :: 13 :: 10 :: later
    · obtain ⟨later, eq⟩ := empty
      rw [List.cons_append, List.cons_append, List.cons_append, eq]
      rfl
    · rw [List.cons_append, List.cons_append, List.cons_append,
        splitHead_cons fun later eq => empty ⟨later, eq⟩, Option.isSome_map, ih]

theorem splitHead_eq_none :
    splitHead bs = none ↔ ∀ head rest, bs ≠ head ++ crlf ++ crlf ++ rest := by
  refine ⟨?_, fun never => ?_⟩
  · rintro none head rest rfl
    have some := splitHead_isSome head rest
    rw [none] at some
    cases some
  · cases found : splitHead bs with
    | none => rfl
    | some parts => exact absurd (splitHead_eq_some.mp found).split (never _ _)

namespace EndsHead

theorem front (h : EndsHead bs head rest) : head ++ crlf ++ crlf <+: bs :=
  ⟨rest, h.split.symm⟩

theorem unique (h : EndsHead bs head rest) (h' : EndsHead bs head' rest') :
    head = head' ∧ rest = rest' := by
  have same := (splitHead_eq_some.mpr h).symm.trans (splitHead_eq_some.mpr h')
  simpa using same

/-- More bytes do not move the end of the head. -/
theorem append (h : EndsHead bs head rest) (more : Bytes) :
    EndsHead (bs ++ more) head (rest ++ more) := by
  refine ⟨by rw [h.split]; simp only [List.append_assoc], fun head' rest' eq => ?_⟩
  by_contra shorter
  have lengths := congrArg List.length h.split
  simp only [List.length_append, crlf, List.length_cons, List.length_nil] at lengths
  -- An earlier empty line would end inside of `bs`.
  have inside : head' ++ crlf ++ crlf <+: bs := by
    refine List.prefix_of_prefix_length_le ⟨rest', eq.symm⟩ (List.prefix_append bs more) ?_
    simp only [List.length_append, crlf, List.length_cons, List.length_nil]
    omega
  obtain ⟨later, split⟩ := inside
  exact shorter (h.first head' later split.symm)

/-- Bytes in which no head ends break off before the empty line is complete. -/
theorem length_lt (h : EndsHead (bs ++ more) head rest) (none : splitHead bs = none) :
    bs.length < head.length + 4 := by
  by_contra longer
  have inside : head ++ crlf ++ crlf <+: bs := by
    refine List.prefix_of_prefix_length_le h.front (List.prefix_append bs more) ?_
    simp only [List.length_append, crlf, List.length_cons, List.length_nil]
    omega
  obtain ⟨later, split⟩ := inside
  have ends : EndsHead bs head later := by
    refine ⟨split.symm, fun head' rest' eq => h.first head' (rest' ++ more) ?_⟩
    rw [eq, List.append_assoc]
  rw [splitHead_eq_some.mpr ends] at none
  cases none

end EndsHead

/-! ## Reading from pieces -/

namespace Stream

/-- A connection that gives these pieces and then ends. -/
def ofPieces (pieces : List Bytes) : Stream := pieces.map .data

/-- The connection gives just these bytes, in pieces of which none is empty. -/
def Gives (s : Stream) (bytes : Bytes) : Prop :=
  ∃ pieces, s = ofPieces pieces ∧ (∀ piece ∈ pieces, piece ≠ []) ∧ pieces.flatten = bytes

variable {s : Stream} {bytes : Bytes}

/-- A read at the end takes nothing. Any other read takes some bytes from the front. -/
theorem Gives.read (gives : s.Gives bytes) :
    (bytes = [] ∧ s.read = (.ok [], [])) ∨
      ∃ b part later s', s.read = (.ok (b :: part), s') ∧ bytes = b :: part ++ later ∧
        s'.Gives later ∧ s'.weight < s.weight := by
  obtain ⟨pieces, rfl, nonempty, rfl⟩ := gives
  cases pieces with
  | nil => exact .inl ⟨rfl, rfl⟩
  | cons piece pieces =>
    obtain ⟨some, others⟩ := List.forall_mem_cons.mp nonempty
    obtain ⟨b, part, rfl⟩ := List.exists_cons_of_ne_nil some
    refine .inr ?_
    by_cases fits : ((b :: part).drop bufferSize).isEmpty = true
    · exact ⟨b, part, pieces.flatten, ofPieces pieces, by simp [ofPieces, Stream.read, fits], rfl,
        ⟨pieces, rfl, others, rfl⟩, by simp only [ofPieces, List.map_cons, weight]; omega⟩
    · have left : (b :: part).drop bufferSize ≠ [] := by simpa using fits
      refine ⟨b, part.take (bufferSize - 1), (b :: part).drop bufferSize ++ pieces.flatten,
        ofPieces ((b :: part).drop bufferSize :: pieces), ?_, ?_, ?_, ?_⟩
      · simp only [ofPieces, List.map_cons, Stream.read, if_neg fits]
        rfl
      · rw [← List.append_assoc]
        exact congrArg (· ++ pieces.flatten) (List.take_append_drop bufferSize (b :: part)).symm
      · exact ⟨_, rfl, List.forall_mem_cons.mpr ⟨left, others⟩, rfl⟩
      · simp only [ofPieces, List.map_cons, weight, List.length_drop, bufferSize, List.length_cons]
        omega

end Stream

variable {s : Stream} {fuel : Nat} {seen later : Bytes}

/-- The head is what stands before the first empty line of what was seen and what comes. -/
theorem readHead_ends (gives : s.Gives later) (enough : s.weight < fuel)
    (unseen : splitHead seen = none) (ends : EndsHead (seen ++ later) head rest)
    (small : head.length + 4 ≤ maxHead) :
    ∃ early s' later', readHead fuel seen s = .ok (head, early, s') ∧ s'.Gives later' ∧
      rest = early ++ later' := by
  induction fuel generalizing seen s later with
  | zero => omega
  | succ fuel ih =>
    rcases gives.read with ⟨rfl, -⟩ | ⟨b, part, later', s', eq, rfl, gives', less⟩
    · rw [List.append_nil] at ends
      rw [splitHead_eq_some.mpr ends] at unseen
      cases unseen
    · rw [← List.append_assoc] at ends
      simp only [readHead, eq]
      cases found : splitHead (seen ++ b :: part) with
      | some parts =>
        obtain ⟨rfl, rfl⟩ := ends.unique ((splitHead_eq_some.mp found).append later')
        exact ⟨_, _, _, rfl, gives', rfl⟩
      | none =>
        have short : ¬ maxHead < (seen ++ b :: part).length := by
          have := ends.length_lt found
          omega
        rw [if_neg short]
        exact ih gives' (by omega) found ends

theorem readHead_missing (gives : s.Gives later) (enough : s.weight < fuel)
    (never : splitHead (seen ++ later) = none) (small : (seen ++ later).length ≤ maxHead) :
    readHead fuel seen s = .error .missingHead := by
  induction fuel generalizing seen s later with
  | zero => rfl
  | succ fuel ih =>
    rcases gives.read with ⟨rfl, eq⟩ | ⟨b, part, later', s', eq, rfl, gives', less⟩
    · simp only [readHead, eq]
    · rw [← List.append_assoc] at never small
      simp only [readHead, eq]
      cases found : splitHead (seen ++ b :: part) with
      | some parts =>
        have ends := (splitHead_eq_some.mp found).append later'
        rw [splitHead_eq_some.mpr ends] at never
        cases never
      | none =>
        have short : ¬ maxHead < (seen ++ b :: part).length := by
          rw [List.length_append] at small
          omega
        rw [if_neg short]
        exact ih gives' (by omega) never small

/-- The body is read until enough is there or nothing is left. -/
theorem readBody_gives (gives : s.Gives later) (enough : s.weight < fuel) (missing : Nat) :
    ∃ more unread, readBody fuel missing s = .ok more ∧ later = more ++ unread ∧
      (unread = [] ∨ missing ≤ more.length) := by
  induction fuel generalizing s later missing with
  | zero => omega
  | succ fuel ih =>
    by_cases full : missing = 0
    · exact ⟨[], later, by rw [readBody, if_pos full], rfl, .inr (by omega)⟩
    rcases gives.read with ⟨rfl, eq⟩ | ⟨b, part, later', s', eq, rfl, gives', less⟩
    · exact ⟨[], [], by simp only [readBody, if_neg full, eq], rfl, .inl rfl⟩
    · obtain ⟨more, unread, read, rfl, done⟩ :=
        ih gives' (by omega) (missing - (b :: part).length)
      refine ⟨b :: part ++ more, unread, ?_, by rw [List.append_assoc], done.imp_right ?_⟩
      · simp only [readBody, if_neg full, eq, read]
      · intro le
        rw [List.length_append]
        omega

/-! ## The request that some bytes are -/

namespace Request

/-- The request that is read from bytes that are all there. -/
def ofBytes (bytes : Bytes) : Except RequestError Request :=
  match splitHead bytes with
  | none => .error .missingHead
  | some (head, rest) =>
    match ofHead head with
    | .error e => .error e
    | .ok request =>
      match request.contentLength with
      | .error e => .error e
      | .ok length => .ok { request with body := rest.take length }

/-- What is read when the head describes `request` and `rest` stands behind it: the declared length
decides, and no body belongs to a request without one. -/
structure Completed (request : Request) (rest : Bytes) (result : Except RequestError Request) :
    Prop where
  undeclared : Dictionary.get? request.headers "content-length" = none →
    result = .ok { request with body := [] }
  unreadable : ∀ value, Dictionary.get? request.headers "content-length" = some value →
    Text.natural? lengthBound value.toList = none → result = .error (.contentLength value)
  excessive : ∀ value n, Dictionary.get? request.headers "content-length" = some value →
    Text.natural? lengthBound value.toList = some n → maxBody < n →
    result = .error .bodyTooLarge
  declared : ∀ value n, Dictionary.get? request.headers "content-length" = some value →
    Text.natural? lengthBound value.toList = some n → n ≤ maxBody →
    result = .ok { request with body := rest.take n }

theorem ofBytes_completed {bytes : Bytes} {request : Request} (ends : EndsHead bytes head rest)
    (describes : ofHead head = .ok request) : Completed request rest (ofBytes bytes) := by
  rw [ofBytes, splitHead_eq_some.mpr ends]
  simp only [describes]
  constructor
  · intro undeclared
    simp only [contentLength, undeclared, List.take_zero]
  · intro value found unreadable
    simp only [contentLength, found, unreadable]
  · intro value n found reads large
    simp only [contentLength, found, reads, if_pos large]
  · intro value n found reads fits
    simp only [contentLength, found, reads, if_neg (Nat.not_lt.mpr fits)]

end Request

/-- Bytes whose head ends early enough are read as they would be at once. -/
theorem readRequest_gives {bytes : Bytes} (gives : s.Gives bytes)
    (small : ∀ head rest, EndsHead bytes head rest → head.length + 4 ≤ maxHead)
    (bounded : splitHead bytes = none → bytes.length ≤ maxHead) :
    readRequest s = Request.ofBytes bytes := by
  cases found : splitHead bytes with
  | none =>
    have missing : readHead (s.weight + 1) [] s = .error .missingHead :=
      readHead_missing gives (Nat.lt_succ_self _) found (bounded found)
    rw [readRequest, Request.ofBytes, found, missing]
  | some parts =>
    obtain ⟨head, rest⟩ := parts
    have ends := splitHead_eq_some.mp found
    have read : ∃ early s' later, readHead (s.weight + 1) [] s = .ok (head, early, s') ∧
        s'.Gives later ∧ rest = early ++ later :=
      readHead_ends gives (Nat.lt_succ_self _) rfl ends (small head rest ends)
    obtain ⟨early, s', later, eq, gives', rfl⟩ := read
    rw [readRequest, Request.ofBytes, found, eq]
    dsimp only
    cases Request.ofHead head with
    | error e => rfl
    | ok request =>
      dsimp only
      cases request.contentLength with
      | error e => rfl
      | ok length =>
        obtain ⟨more, unread, read, rfl, done⟩ :=
          readBody_gives gives' (Nat.lt_succ_self _) (length - early.length)
        simp only [read, Except.ok.injEq, Request.mk.injEq, true_and]
        rcases done with rfl | enough
        · rw [List.append_nil]
        · have there : length ≤ (early ++ more).length := by
            rw [List.length_append]
            omega
          rw [← List.append_assoc, List.take_append_of_le_length there]

/-- **Packets.** Take any bytes whose first empty line ends within the greatest size of a head, or
that have none and are not longer. However they are cut into pieces, what is read is the same: an
error if there is no empty line, and otherwise what the bytes before the first one say, with as much
of the bytes behind it as is declared and there. -/
theorem readRequest_packets (bytes : Bytes)
    (small : ∀ head rest, EndsHead bytes head rest → head.length + 4 ≤ maxHead)
    (bounded : (∀ head rest, bytes ≠ head ++ crlf ++ crlf ++ rest) → bytes.length ≤ maxHead) :
    ∃ result,
      (∀ pieces : List Bytes, pieces.flatten = bytes → (∀ piece ∈ pieces, piece ≠ []) →
        readRequest (pieces.map .data) = result) ∧
      ((∀ head rest, bytes ≠ head ++ crlf ++ crlf ++ rest) → result = .error .missingHead) ∧
      ∀ head rest, EndsHead bytes head rest →
        (∀ e, Request.ofHead head = .error e → result = .error e) ∧
        ∀ request, Request.ofHead head = .ok request → request.Completed rest result := by
  refine ⟨Request.ofBytes bytes, fun pieces cut nonempty => ?_, fun never => ?_,
    fun head rest ends => ⟨fun e bad => ?_, fun request => Request.ofBytes_completed ends⟩⟩
  · exact readRequest_gives ⟨pieces, rfl, nonempty, cut⟩ small fun none =>
      bounded (splitHead_eq_none.mp none)
  · rw [Request.ofBytes, splitHead_eq_none.mpr never]
  · rw [Request.ofBytes, splitHead_eq_some.mpr ends]
    simp only [bad]

/-- The empty line is cut in the middle, and more arrives than the body. -/
theorem readRequest_packets_cut :
    let bytes := Utf8.ofText "PUT /a HTTP/1.1\r\nContent-Length: 2\r\n\r\nhi!"
    (∀ head rest, EndsHead bytes head rest → head.length + 4 ≤ maxHead) ∧
      bytes.length ≤ maxHead ∧
      readRequest [.data (bytes.take 36), .data (bytes.drop 36)] =
        .ok ⟨"PUT", "/a", none, [("content-length", "2")], Utf8.ofText "hi"⟩ := by
  intro bytes
  have short : bytes.length ≤ maxHead := by decide
  have small (head rest : Bytes) (ends : EndsHead bytes head rest) :
      head.length + 4 ≤ maxHead := by
    have := ends.front.length_le
    simp only [List.length_append, crlf, List.length_cons, List.length_nil] at this
    omega
  obtain ⟨result, same, -, answer⟩ := readRequest_packets bytes small fun _ => short
  have ends : EndsHead bytes (bytes.take 34) (Utf8.ofText "hi!") :=
    splitHead_eq_some.mp (by decide +kernel)
  have describes : Request.ofHead (bytes.take 34) =
      .ok ⟨"PUT", "/a", none, [("content-length", "2")], []⟩ := by
    have found : (Request.ofHead (bytes.take 34)).toOption =
        some ⟨"PUT", "/a", none, [("content-length", "2")], []⟩ := by decide +kernel
    cases eq : Request.ofHead (bytes.take 34) with
    | error e => rw [eq] at found; cases found
    | ok request => rw [eq] at found; exact congrArg _ (Option.some.inj found)
  refine ⟨small, short, ?_⟩
  exact (same [bytes.take 36, bytes.drop 36] (by decide +kernel) (by decide +kernel)).trans
    (((answer _ _ ends).2 _ describes).declared "2" 2 rfl (by decide +kernel) (by decide))

end ScriptServer.Http
