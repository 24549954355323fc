import ScriptServer.Regex.CharSet
import ScriptServer.Regex.Unicode.Folding

/-!
# Closure under letter case

Two characters are variants of each other if they have the same simple case folding. `closure` adds
the variants of its members to a set; `asciiClosure` knows the letters of ASCII only.
-/

namespace ScriptServer.Regex.Fold

/-- Each character with another folding than itself, with that folding. -/
def pairs : List (Nat × Nat) :=
  (Text.words Unicode.foldings.toList).flatMap fun token =>
    match Text.splitOnce '>' token with
    | none => []
    | some (source, target) =>
      let codes := (CharSet.entry source).flatMap fun (a, b) =>
        (List.range (b - a + 1)).map (a + ·)
      let first := (codes.head?).getD 0
      codes.map fun c => (c, CharSet.codePoint target + (c - first))

def closure (s : CharSet) : CharSet :=
  let folded := CharSet.ofRanges ((pairs.filter fun (c, f) =>
    s.containsCode c || s.containsCode f).map fun (_, f) => (f, f))
  let variants := CharSet.ofRanges ((pairs.filter fun (_, f) => folded.containsCode f).map
    fun (c, _) => (c, c))
  CharSet.unions [s, folded, variants]

def asciiClosure (s : CharSet) : CharSet :=
  let shift (low high : Nat) (move : Nat → Nat) : List (Nat × Nat) :=
    (s.inter ⟨[(low, high)]⟩).ranges.map fun (a, b) => (move a, move b)
  CharSet.ofRanges (s.ranges ++ shift 0x41 0x5A (· + 32) ++ shift 0x61 0x7A (· - 32))

end ScriptServer.Regex.Fold
