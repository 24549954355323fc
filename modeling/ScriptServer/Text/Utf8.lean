/-!
# UTF-8 text and the bytes that spell it

Requests, files and script strings are byte strings; everything the server prints is text. `ofText`
spells a text as bytes. `next` takes one character off a byte string, or reports how many bytes at
its front can start no character. `toText?` reads a byte string that is UTF-8 throughout, and
`toTextLossy` reads any byte string, with U+FFFD in place of every unreadable start.
-/

namespace ScriptServer

/-- A byte string. -/
abbrev Bytes := List UInt8

namespace Utf8

/-- What stands at the front of a byte string. -/
inductive Front where
  /-- One character. -/
  | char (c : Char)
  /-- So many bytes that begin no character, whatever follows them. -/
  | invalid (length : Nat)
  /-- The beginning of a character that the end of the byte string cuts off. -/
  | incomplete
  deriving DecidableEq, Repr

/-- What a lead byte of a longer character announces: the number of bytes that follow it, the range
of the first of them, and the bits of the character that the lead byte carries. -/
structure Lead where
  follow : Nat
  low : UInt8
  high : UInt8
  bits : Nat
  deriving DecidableEq, Repr

/-- The lead bytes. The narrow ranges after `E0`, `ED`, `F0` and `F4` keep out spellings that are
longer than needed, surrogates and values above U+10FFFF. -/
def Lead.of? (b : UInt8) : Option Lead :=
  let n := b.toNat
  if 0xC2 ≤ n ∧ n ≤ 0xDF then some ⟨1, 0x80, 0xBF, n - 0xC0⟩
  else if n = 0xE0 then some ⟨2, 0xA0, 0xBF, 0⟩
  else if n = 0xED then some ⟨2, 0x80, 0x9F, 13⟩
  else if 0xE1 ≤ n ∧ n ≤ 0xEF then some ⟨2, 0x80, 0xBF, n - 0xE0⟩
  else if n = 0xF0 then some ⟨3, 0x90, 0xBF, 0⟩
  else if 0xF1 ≤ n ∧ n ≤ 0xF3 then some ⟨3, 0x80, 0xBF, n - 0xF0⟩
  else if n = 0xF4 then some ⟨3, 0x80, 0x8F, 4⟩
  else none

/-- Reads `k` further bytes of a character, the first of them between `low` and `high`. `bits` is
the character so far and `used` the number of bytes taken for it. -/
def tail (k : Nat) (low high : UInt8) (bits used : Nat) (bs : Bytes) : Front × Bytes :=
  match k with
  | 0 => (.char (Char.ofNat bits), bs)
  | k + 1 =>
    match bs with
    | [] => (.incomplete, [])
    | b :: rest =>
      if low ≤ b ∧ b ≤ high then
        tail k 0x80 0xBF (bits * 64 + (b.toNat - 0x80)) (used + 1) rest
      else (.invalid used, bs)

/-- Takes the front off a byte string; nothing is left of an empty one. -/
def next : Bytes → Option (Front × Bytes)
  | [] => none
  | b :: rest =>
    if b < 0x80 then some (.char (Char.ofNat b.toNat), rest)
    else
      match Lead.of? b with
      | none => some (.invalid 1, rest)
      | some lead => some (tail lead.follow lead.low lead.high lead.bits 1 rest)

theorem length_tail_le (k : Nat) (low high : UInt8) (bits used : Nat) (bs : Bytes) :
    (tail k low high bits used bs).2.length ≤ bs.length := by
  induction k generalizing low high bits used bs with
  | zero => simp [tail]
  | succ k ih =>
    cases bs with
    | nil => simp [tail]
    | cons b rest =>
      simp only [tail]
      split
      · exact Nat.le_succ_of_le (ih ..)
      · simp

/-- Taking the front off shortens the byte string. -/
theorem length_next_lt {bs rest : Bytes} {f : Front} (h : next bs = some (f, rest)) :
    rest.length < bs.length := by
  cases bs with
  | nil => simp [next] at h
  | cons b tl =>
    simp only [next] at h
    split at h
    · simp_all
    · split at h
      · simp_all
      · rename_i lead _
        have := length_tail_le lead.follow lead.low lead.high lead.bits 1 tl
        simp only [Option.some.injEq] at h
        rw [h] at this
        simpa using Nat.lt_succ_of_le this

def fronts (bs : Bytes) : List Front :=
  match _h : next bs with
  | none => []
  | some (f, rest) => f :: fronts rest
termination_by bs.length
decreasing_by exact length_next_lt _h

/-- The character of a front, U+FFFD for an unreadable one. -/
def Front.lossy : Front → Char
  | .char c => c
  | _ => '\uFFFD'

/-- Reads any byte string, with one U+FFFD for every unreadable start. -/
def toTextLossy (bs : Bytes) : String :=
  String.ofList ((fronts bs).map Front.lossy)

/-- Why a byte string is no text: what stands there, and the number of bytes before it. -/
structure Fault where
  validUpTo : Nat
  front : Front
  deriving DecidableEq, Repr

def Fault.message (f : Fault) : String :=
  match f.front with
  | .invalid n => s!"invalid utf-8 sequence of {n} bytes from index {f.validUpTo}"
  | _ => s!"incomplete utf-8 byte sequence from index {f.validUpTo}"

/-- Reads characters up to the end, or up to the first unreadable front. `pos` counts the bytes
before `bs`. -/
def chars (pos : Nat) (bs : Bytes) : Except Fault (List Char) :=
  match _h : next bs with
  | none => .ok []
  | some (.char c, rest) =>
    match chars (pos + c.utf8Size) rest with
    | .ok cs => .ok (c :: cs)
    | .error e => .error e
  | some (f, _) => .error ⟨pos, f⟩
termination_by bs.length
decreasing_by exact length_next_lt _h

def toText (bs : Bytes) : Except Fault String :=
  (chars 0 bs).map String.ofList

def toText? (bs : Bytes) : Option String :=
  (toText bs).toOption

def ofChars (cs : List Char) : Bytes :=
  cs.flatMap String.utf8EncodeChar

def ofText (s : String) : Bytes :=
  ofChars s.toList

@[simp] theorem ofChars_nil : ofChars [] = [] := rfl

@[simp] theorem ofChars_cons (c : Char) (cs : List Char) :
    ofChars (c :: cs) = String.utf8EncodeChar c ++ ofChars cs := rfl

@[simp] theorem ofChars_append (a b : List Char) : ofChars (a ++ b) = ofChars a ++ ofChars b := by
  simp [ofChars]

@[simp] theorem ofText_append (a b : String) : ofText (a ++ b) = ofText a ++ ofText b := by
  simp [ofText]

end Utf8

end ScriptServer
