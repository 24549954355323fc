/-!
# Dictionaries with text keys

A dictionary is the list of its entries in ascending key order, which is also the order of the keys'
bytes. `insert` and `erase` keep the order, so a dictionary has one entry a key and equal
dictionaries are equal lists.
-/

namespace ScriptServer

/-- Entries with distinct keys in ascending order. -/
abbrev Dictionary (α : Type) := List (String × α)

namespace Dictionary

variable {α : Type}

/-- Puts a value under a key, in place of the one that was there. -/
def insert (key : String) (value : α) : Dictionary α → Dictionary α
  | [] => [(key, value)]
  | (k, v) :: rest =>
    if key = k then (key, value) :: rest
    else if key < k then (key, value) :: (k, v) :: rest
    else (k, v) :: insert key value rest

/-- The dictionary of some pairs, of which a later one replaces an earlier one with its key. -/
def ofList (pairs : List (String × α)) : Dictionary α :=
  pairs.foldl (fun d (k, v) => insert k v d) []

def get? (d : Dictionary α) (key : String) : Option α :=
  d.lookup key

def contains (d : Dictionary α) (key : String) : Bool :=
  (get? d key).isSome

def erase (d : Dictionary α) (key : String) : Dictionary α :=
  d.filter fun e => e.1 != key

def keys (d : Dictionary α) : List String := d.map (·.1)

/-- Every key is below all later ones. -/
def Ascending (d : Dictionary α) : Prop := d.Pairwise fun a b => a.1 < b.1

/-- What stands under a key after `insert`. -/
theorem get?_insert (d : Dictionary α) (key k : String) (value : α) :
    get? (insert key value d) k = if k = key then some value else get? d k := by
  unfold get?
  induction d with
  | nil => simp only [insert, List.lookup_cons, List.lookup_nil]; grind
  | cons e rest ih =>
    obtain ⟨k', v'⟩ := e
    simp only [insert]
    split
    · subst_vars
      simp only [List.lookup_cons]
      grind
    · split <;> simp only [List.lookup_cons, ih] <;> grind

end Dictionary

end ScriptServer
