import ScriptServer.Number.Binary64
import ScriptServer.Text.Basic

/-!
# Decimal texts of binary numbers

Two ways to write the absolute value of a finite number in decimal. `shortest` takes the fewest
digits that read back to the same pattern, of two such decimals the nearer one, and of two equally
near ones the greater. `fixed` and `scientific` round the exact value to a given number of places, a
tie going to the even digit. The first is how JSON numbers and table keys are written, the second
how a script's numbers are shown.
-/

namespace ScriptServer

/-- The number `digits * 10 ^ exp`. -/
structure Decimal where
  digits : Nat
  exp : Int
  deriving DecidableEq, Repr

namespace Decimal

/-- The least `k` with `v < 10 ^ k`, for a positive `v` in units: the number of digits before the
point, or the negated number of zeros behind it. -/
def magnitude (v : Nat) : Int :=
  if Binary64.one ≤ v then ((Text.decimal (v / Binary64.one)).length : Int)
  else 1 - ((Text.decimal ((Binary64.one - 1) / v)).length : Int)

/-- The value `v` in units as a quotient over the grid `10 ^ exp`. -/
def onGrid (v : Nat) (exp : Int) : Nat × Nat :=
  (v * Nat.pow 10 (-exp).toNat, Binary64.one * Nat.pow 10 exp.toNat)

/-- The neighbours of `v` on the grid `10 ^ exp` that read back to `pattern`: the nearer one, and
the upper one if both are equally near. -/
def onGrid? (pattern v : Nat) (exp : Int) : Option Decimal :=
  let (num, den) := onGrid v exp
  let low := num / den
  let readsBack (d : Nat) := Binary64.nearestDecimal d exp == pattern
  if readsBack low && !(readsBack (low + 1) && den ≤ 2 * (num % den)) then some ⟨low, exp⟩
  else if readsBack (low + 1) then some ⟨low + 1, exp⟩
  else none

/-- Drops up to `fuel` zeros at the end of the digits. -/
def strip : Nat → Decimal → Decimal
  | 0, d => d
  | fuel + 1, d =>
    if d.digits % 10 = 0 then strip fuel ⟨d.digits / 10, d.exp + 1⟩ else d

/-- The shortest decimal that reads back to a positive finite pattern. Seventeen digits suffice; the
exact value stands behind them. -/
def ofPattern (pattern : Nat) : Decimal :=
  let v := Binary64.unitsOf pattern
  let k := magnitude v
  match (List.range 17).findSome? fun (n : Nat) => onGrid? pattern v (k - 1 - n) with
  | some d => strip 17 d
  | none => ⟨v * Nat.pow 5 1074, -1074⟩

def positional (d : Decimal) : List Char :=
  let ds := Text.decimal d.digits
  let places := (-d.exp).toNat
  if places = 0 then ds ++ List.replicate d.exp.toNat '0'
  else if places < ds.length then
    ds.take (ds.length - places) ++ '.' :: ds.drop (ds.length - places)
  else '0' :: '.' :: (List.replicate (places - ds.length) '0' ++ ds)

end Decimal

namespace Binary64

def sign (x : Binary64) : List Char := if x.negative then ['-'] else []

/-- A finite number with the fewest digits that read back to it, always without an exponent. -/
def shortest (x : Binary64) : List Char :=
  x.sign ++ if x.pattern = 0 then ['0'] else (Decimal.ofPattern x.pattern).positional

/-- A finite number with `places` digits behind the point. -/
def fixed (places : Nat) (x : Binary64) : List Char :=
  let m := roundEven (x.units * Nat.pow 10 places) one
  let ds := Text.decimal m
  let ds := List.replicate (places + 1 - ds.length) '0' ++ ds
  x.sign ++ ds.take (ds.length - places) ++
    if places = 0 then [] else '.' :: ds.drop (ds.length - places)

/-- A finite number with one digit before the point and `places` behind it: the digits, and the
exponent of ten that goes with them. -/
def scientific (places : Nat) (x : Binary64) : List Char × Int :=
  if x.units = 0 then
    (x.sign ++ ['0'] ++ if places = 0 then [] else '.' :: List.replicate places '0', 0)
  else
    let exp := Decimal.magnitude x.units - 1
    let (num, den) := Decimal.onGrid x.units (exp - places)
    let m := roundEven num den
    let (m, exp) := if m = Nat.pow 10 (places + 1) then (Nat.pow 10 places, exp + 1) else (m, exp)
    let ds := Text.decimal m
    (x.sign ++ ds.take 1 ++ if places = 0 then [] else '.' :: ds.drop 1, exp)

end Binary64

end ScriptServer
