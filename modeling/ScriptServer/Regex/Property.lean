import ScriptServer.Regex.CharSet
import ScriptServer.Regex.Unicode.Category
import ScriptServer.Regex.Unicode.Property
import ScriptServer.Regex.Unicode.Script

/-!
# Properties of characters by name

A name stands for a general category, a binary property or a script. `named?` looks a name up among
all of them, `valued?` looks a value up under the property that it belongs to. Names are compared in
their loose form, which has neither case, blanks, hyphens nor underscores, and no leading `is`.
-/

namespace ScriptServer.Regex.Property

open Unicode

/-- The loose form of a name. -/
def looseName (cs : List Char) : String :=
  let letters := cs.map Text.lower
  let stripped := (Text.dropStart? ['i', 's'] letters).getD letters
  let kept := stripped.filter fun c => c.toNat < 0x80 && c != ' ' && c != '_' && c != '-'
  if stripped.length < letters.length && kept == ['c'] then "isc" else String.ofList kept

def find? {α : Type} (table : List (List String × α)) (name : String) : Option α :=
  (table.find? fun e => e.1.contains name).map (·.2)

/-- The set that a table has under a name, the empty one if there is no such name. -/
def tabled (table : List (List String × String)) (name : String) : CharSet :=
  ((find? table name).map CharSet.ofText).getD CharSet.empty

def ofCategories (names : List String) : CharSet :=
  CharSet.unions (names.map (tabled categories))

def assigned (_ : Unit) : CharSet :=
  CharSet.unions (categories.map fun e => CharSet.ofText e.2)

def category? (name : String) : Option CharSet :=
  if name = "any" then some CharSet.full
  else if name = "ascii" then some ⟨[(0, 0x7F)]⟩
  else if name = "assigned" then some (assigned ())
  else if name = "cn" || name = "unassigned" then some (assigned ()).complement
  else if name = "c" || name = "other" then
    some ((assigned ()).complement.union (ofCategories ["cc", "cf", "co"]))
  else
    match find? categories name with
    | some table => some (CharSet.ofText table)
    | none => (find? categoryGroups name).map ofCategories

/-- Whole categories and what a property adds to them. -/
def made (parts : List String) (name : String) : CharSet :=
  (ofCategories parts).union (tabled additions name)

def lowercase (_ : Unit) : CharSet := made ["ll"] "lowercase"

def uppercase (_ : Unit) : CharSet := made ["lu"] "uppercase"

/-- Letters, and the signs that spell parts of words. -/
def alphabetic (_ : Unit) : CharSet :=
  CharSet.unions
    [lowercase (), uppercase (), made ["lt", "lm", "lo", "nl"] "alphabetic"]

def graphemeExtend (_ : Unit) : CharSet := made ["me", "mn"] "graphemeextend"

def idStart (_ : Unit) : CharSet :=
  (made ["lu", "ll", "lt", "lm", "lo", "nl"] "idstart").diff (tabled exceptions "idstart")

def idContinue (_ : Unit) : CharSet :=
  (idStart ()).union (made ["mn", "mc", "nd", "pc"] "idcontinue")

/-- The characters that a cluster of marks may begin with. -/
def graphemeBase (_ : Unit) : CharSet :=
  (assigned ()).diff
    (CharSet.unions [ofCategories ["cc", "cf", "co", "zl", "zp"], graphemeExtend ()])

/-- The binary properties that are made from others, each under its names. -/
def derived : List (List String × (Unit → CharSet)) :=
  [(["alpha", "alphabetic"], alphabetic),
    (["lower", "lowercase"], lowercase),
    (["upper", "uppercase"], uppercase),
    (["cased"], fun _ => CharSet.unions [lowercase (), uppercase (), ofCategories ["lt"]]),
    (["ci", "caseignorable"], fun _ => made ["mn", "me", "cf", "lm", "sk"] "caseignorable"),
    (["math"], fun _ => made ["sm"] "math"),
    (["grext", "graphemeextend"], graphemeExtend),
    (["grbase", "graphemebase"], graphemeBase),
    (["ids", "idstart"], idStart),
    (["idc", "idcontinue"], idContinue),
    (["xids", "xidstart"], fun _ => (idStart ()).diff (tabled exceptions "xidstart")),
    (["xidc", "xidcontinue"], fun _ => (idContinue ()).diff (tabled exceptions "xidcontinue"))]

def binary? (name : String) : Option CharSet :=
  match find? properties name with
  | some table => some (CharSet.ofText table)
  | none => (find? derived name).map fun set => set ()

def script? (name : String) : Option CharSet :=
  (find? scripts name).map CharSet.ofText

/-- The characters that a script uses. What several scripts share counts for these and no longer as
common or inherited. -/
def scriptExtension? (name : String) : Option CharSet :=
  (scripts.find? fun e => e.1.contains name).map fun (names, table) =>
    let own := CharSet.ofText table
    if names.contains "zyyy" || names.contains "zinh" then
      own.diff (CharSet.unions (scriptExtensions.map fun e => CharSet.ofText e.2))
    else CharSet.unions (own :: names.map (tabled scriptExtensions))

/-- The set with a name: a binary property, a general category or a script, in this order. The names
`cf`, `sc` and `lc` are those of categories. -/
def named? (cs : List Char) : Option CharSet :=
  let name := looseName cs
  (binary? name).or ((category? name).or (script? name))

def valued? (property value : List Char) : Option CharSet :=
  let name := looseName property
  let value := looseName value
  if name = "gc" || name = "generalcategory" then category? value
  else if name = "sc" || name = "script" then script? value
  else if name = "scx" || name = "scriptextensions" then scriptExtension? value
  else none

/-- The characters of words: letters, marks, digits, connectors and joiners. -/
def word : CharSet :=
  CharSet.unions
    [alphabetic (), ofCategories ["mn", "mc", "me", "nd", "pc"], tabled properties "joinc"]

def digit : CharSet := ofCategories ["nd"]

def blank : CharSet := tabled properties "wspace"

def alphanumeric (_ : Unit) : CharSet :=
  (alphabetic ()).union (ofCategories ["nd", "nl", "no"])

end ScriptServer.Regex.Property
