import ScriptServer.Number.Binary64
import ScriptServer.Text.Basic

/-!
# Decimal literals

Reads a decimal literal as the nearest binary number: an optional sign, digits with at most one
point among them, an optional exponent. The point may stand first or last, as long as there is a
digit. A whole number literal, which takes a sign and digits only, is read exactly and refused when
it lies outside its range.
-/

namespace ScriptServer

/-- The digits at the front of a text, and the rest of it. -/
def Text.digits (cs : List Char) : List Char × List Char :=
  (cs.takeWhile Text.isDigit, cs.dropWhile Text.isDigit)

namespace Binary64

def takeSign : List Char → Bool × List Char
  | '-' :: cs => (true, cs)
  | '+' :: cs => (false, cs)
  | cs => (false, cs)

def literalExponent? : List Char → Option Int
  | [] => some 0
  | c :: cs =>
    if c = 'e' ∨ c = 'E' then
      let (minus, cs) := takeSign cs
      match Text.digits cs with
      | ([], _) => none
      | (ds, []) =>
        let n : Int := Text.digitsValue ds
        some (if minus then -n else n)
      | (_, _ :: _) => none
    else none

def ofLiteral? (cs : List Char) : Option Binary64 :=
  let (minus, cs) := takeSign cs
  let (whole, cs) := Text.digits cs
  let (fraction, cs) :=
    match cs with
    | '.' :: cs => Text.digits cs
    | cs => ([], cs)
  if whole.isEmpty && fraction.isEmpty then none
  else
    (literalExponent? cs).map fun exp =>
      ofDecimal minus (Text.digitsValue (whole ++ fraction)) (exp - fraction.length)

end Binary64

/-- A natural number literal below `bound`: digits, after an optional plus sign. -/
def Text.natural? (bound : Nat) (cs : List Char) : Option Nat :=
  let ds :=
    match cs with
    | '+' :: cs => cs
    | cs => cs
  if ds.isEmpty || !ds.all Text.isDigit then none
  else
    let n := Text.digitsValue ds
    if n < bound then some n else none

/-- An integer literal of `-bound` to `bound - 1`: digits, after an optional sign. -/
def Text.integer? (bound : Nat) : List Char → Option Int
  | '-' :: ds =>
    if ds.isEmpty || !ds.all Text.isDigit then none
    else
      let n := Text.digitsValue ds
      if n ≤ bound then some (-(n : Int)) else none
  | cs => (Text.natural? bound cs).map Int.ofNat

end ScriptServer
