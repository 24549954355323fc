import ScriptServer.Text.Basic

/-!
# Sets of characters

A set is the list of its ranges of code points in ascending order, no two of which touch. `ofRanges`
brings any list of ranges into this form, and the operations of sets go through it and through
`complement`. The code points between U+D800 and U+DFFF, which are no characters, may be in a set or
not.
-/

namespace ScriptServer.Regex

/-- Ranges of code points, both ends included, in ascending order. -/
structure CharSet where
  ranges : List (Nat × Nat)
  deriving DecidableEq, Repr

namespace CharSet

def last : Nat := 0x10FFFF

def empty : CharSet := ⟨[]⟩

def full : CharSet := ⟨[(0, last)]⟩

def range (a b : Char) : CharSet := ⟨[(a.toNat, b.toNat)]⟩

def single (c : Char) : CharSet := range c c

def containsCode (s : CharSet) (n : Nat) : Bool :=
  s.ranges.any fun (a, b) => a ≤ n && n ≤ b

def contains (s : CharSet) (c : Char) : Bool := s.containsCode c.toNat

/-- Joins ranges that overlap or touch, of a list in ascending order. -/
def join : List (Nat × Nat) → List (Nat × Nat)
  | [] => []
  | (a, b) :: rest =>
    match join rest with
    | [] => [(a, b)]
    | (c, d) :: more =>
      if c ≤ b + 1 then (a, max b d) :: more else (a, b) :: (c, d) :: more

/-- The set of the code points in some ranges, given in any order. -/
def ofRanges (rs : List (Nat × Nat)) : CharSet :=
  ⟨join (rs.mergeSort fun x y => x.1 ≤ y.1)⟩

def union (s t : CharSet) : CharSet := ofRanges (s.ranges ++ t.ranges)

/-- The ranges between those of a list in ascending order, from the code point `start` on. -/
def gaps (start : Nat) : List (Nat × Nat) → List (Nat × Nat)
  | [] => if start ≤ last then [(start, last)] else []
  | (a, b) :: rest =>
    if start < a then (start, a - 1) :: gaps (b + 1) rest else gaps (b + 1) rest

def complement (s : CharSet) : CharSet := ⟨gaps 0 s.ranges⟩

def inter (s t : CharSet) : CharSet := (s.complement.union t.complement).complement

def diff (s t : CharSet) : CharSet := s.inter t.complement

def symmDiff (s t : CharSet) : CharSet := (s.diff t).union (t.diff s)

def unions (ss : List CharSet) : CharSet := ofRanges (ss.flatMap CharSet.ranges)

def isAscii (s : CharSet) : Bool := s.ranges.all fun r => r.2 < 0x80

def codePoint (cs : List Char) : Nat :=
  cs.foldl (fun n c => n * 16 + (Text.hexValue? c).getD 0) 0

/-- The code points that an entry of a table names: one number, a range `A-B`, or every second
number of a range, `A-B/2`. -/
def entry (cs : List Char) : List (Nat × Nat) :=
  match Text.splitOnce '-' cs with
  | none => [(codePoint cs, codePoint cs)]
  | some (a, b) =>
    match Text.splitOnce '/' b with
    | none => [(codePoint a, codePoint b)]
    | some (b, _) =>
      let first := codePoint a
      (List.range ((codePoint b - first) / 2 + 1)).map fun i => (first + 2 * i, first + 2 * i)

/-- Reads a table of entries with blanks between them. -/
def ofText (s : String) : CharSet :=
  ofRanges ((Text.words s.toList).flatMap entry)

end CharSet

end ScriptServer.Regex
