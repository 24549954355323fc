import ScriptServer.Regex.Property

/-!
# Regular expressions

A regular expression is matched against a text by the positions that it can reach: `ends r ps` lists
the positions where a match of `r` ends that begins at one of `ps`. `hasMatch` asks whether `r`
matches anywhere in the text. `weight` estimates the memory that an expression takes when it is
unfolded, so that expressions with huge repetitions can be refused.
-/

namespace ScriptServer.Regex

inductive WordEdge where
  | boundary | inside | start | stop | startHalf | stopHalf
  deriving DecidableEq, Repr

inductive Look where
  /-- The beginning of the text. -/
  | textStart
  /-- The end of the text. -/
  | textEnd
  /-- The beginning of a line; with `carriage`, also a carriage return ends lines. -/
  | lineStart (carriage : Bool)
  | lineEnd (carriage : Bool)
  /-- A place at or off the edge of a word of the given characters. -/
  | word (edge : WordEdge) (chars : CharSet)
  deriving DecidableEq, Repr

end Regex

open Regex in
/-- A regular expression. -/
inductive Regex where
  | empty
  | set (chars : CharSet)
  | look (condition : Look)
  | seq (a b : Regex)
  | alt (a b : Regex)
  /-- At least `min` and at most `max` times. -/
  | times (r : Regex) (min : Nat) (max : Option Nat)
  deriving DecidableEq, Repr

namespace Regex

/-- The position `i` of a text meets a condition. -/
def Look.holds (text : Array Char) (i : Nat) : Look → Bool
  | .textStart => i == 0
  | .textEnd => i == text.size
  | .lineStart carriage =>
    let before := if i = 0 then none else text[i - 1]?
    i == 0 || before == some '\n' ||
      (carriage && before == some '\x0d' && text[i]? != some '\n')
  | .lineEnd carriage =>
    let before := if i = 0 then none else text[i - 1]?
    let after := text[i]?
    i == text.size ||
      if carriage then
        after == some '\x0d' || (after == some '\n' && before != some '\x0d')
      else after == some '\n'
  | .word edge chars =>
    let before := (if i = 0 then none else text[i - 1]?).any chars.contains
    let after := text[i]?.any chars.contains
    match edge with
    | .boundary => before != after
    | .inside => before == after
    | .start => !before && after
    | .stop => before && !after
    | .startHalf => !before
    | .stopHalf => !after

/-- The positions of `ps` that are not marked in `seen`, each once, and `seen` with them. -/
def fresh (seen : Array Bool) : List Nat → List Nat × Array Bool
  | [] => ([], seen)
  | p :: ps =>
    if seen.getD p true then fresh seen ps
    else
      let (more, seen) := fresh (seen.setIfInBounds p true) ps
      (p :: more, seen)

/-- The positions of a list, none of them above `n`, each once. -/
def distinct (n : Nat) : List Nat → List Nat
  | [] => []
  | [p] => [p]
  | ps => (fresh (Array.replicate (n + 1) false) ps).1

/-- The positions after exactly `k` steps. -/
def iterate (step : List Nat → List Nat) : Nat → List Nat → List Nat
  | 0, ps => ps
  | _ + 1, [] => []
  | k + 1, ps => iterate step k (step ps)

/-- The positions that at most `k` steps lead to from `ps` and that are not marked in `seen`. -/
def reach (step : List Nat → List Nat) : Nat → Array Bool → List Nat → List Nat
  | 0, seen, ps => (fresh seen ps).1
  | k + 1, seen, ps =>
    match fresh seen ps with
    | ([], _) => []
    | (new, seen) => new ++ reach step k seen (step new)

/-- The positions where a match ends that begins at one of `ps`. -/
def ends (text : Array Char) : Regex → List Nat → List Nat
  | .empty, ps => ps
  | .set chars, ps => ps.filterMap fun i =>
    match text[i]? with
    | some c => if chars.contains c then some (i + 1) else none
    | none => none
  | .look l, ps => ps.filter fun i => l.holds text i
  | .seq a b, ps => ends text b (ends text a ps)
  | .alt a b, ps => distinct text.size (ends text a ps ++ ends text b ps)
  | .times r min max, ps =>
    let step := fun ps => distinct text.size (ends text r ps)
    let most := match max with
      | none => text.size + 1
      | some max => Nat.min (max - min) (text.size + 1)
    reach step most (Array.replicate (text.size + 1) false) (iterate step min ps)

/-- The expression matches some part of the text. -/
def hasMatch (r : Regex) (text : String) : Bool :=
  let cs := text.toList.toArray
  !(ends cs r (List.range (cs.size + 1))).isEmpty

/-- The expression takes no character. -/
def isEmptyOnly : Regex → Bool
  | .empty | .look _ => true
  | .set _ => false
  | .seq a b | .alt a b => a.isEmptyOnly && b.isEmptyOnly
  | .times r _ max => r.isEmptyOnly || max == some 0

/-- An estimate of the memory in bytes that the unfolded expression takes. -/
def weight : Regex → Nat
  | .empty => 32
  | .look _ => 32
  | .set chars =>
    match chars.ranges with
    | [] => 32
    | [(a, b)] => if a = b || b < 0x80 then 32 else 300
    | rs => if chars.isAscii then 64 + 8 * rs.length else 300 + 56 * rs.length
  | .seq a b => weight a + weight b
  | .alt a b => weight a + weight b + 40
  | .times r min max =>
    let copies := match max with
      | none => Nat.max min 1
      | some max => Nat.max max 1
    (if r.isEmptyOnly then 1 else copies) * (weight r + 32) + 32

/-- The memory that an expression may take. -/
def maxWeight : Nat := 10 * 1024 * 1024

end Regex

end ScriptServer
