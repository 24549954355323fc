/-!
# Slots of a pool

A pool lends at most `max` interpreters at once. It counts those that are lent, keeps some ready
that were never lent, and notes whether a task is on its way that makes more. Each function here is
one change of these numbers that nothing else comes between.
-/

namespace ScriptServer.Server

/-- What a pool keeps track of. -/
structure Slots (ι : Type) where
  /-- The interpreters that are ready, the one made last in front. -/
  free : List ι
  checkedOut : Nat
  /-- A task makes interpreters, or will. -/
  refilling : Bool
  deriving DecidableEq, Repr

namespace Slots

variable {ι : Type}

def empty : Slots ι := ⟨[], 0, false⟩

/-- Takes a slot, and an interpreter that is ready if there is one. While all slots are taken there
is nothing to take. -/
def take? (max : Nat) (s : Slots ι) : Option (Option ι × Slots ι) :=
  if s.checkedOut < max then
    some (s.free.head?, { s with free := s.free.tail, checkedOut := s.checkedOut + 1 })
  else none

def release (s : Slots ι) : Slots ι := { s with checkedOut := s.checkedOut - 1 }

/-- Fewer than `prewarm` interpreters are ready. -/
def lacks (prewarm : Nat) (s : Slots ι) : Bool := s.free.length < prewarm

/-- Notes that a task is on its way to make interpreters, unless one is already or none are
lacking. -/
def startRefill? (prewarm : Nat) (s : Slots ι) : Option (Slots ι) :=
  if s.refilling || !s.lacks prewarm then none else some { s with refilling := true }

/-- Keeps an interpreter that is ready. -/
def store (i : ι) (s : Slots ι) : Slots ι := { s with free := i :: s.free }

def endRefill (s : Slots ι) : Slots ι := { s with refilling := false }

end Slots

end ScriptServer.Server
