import ScriptServer.Number.Decimal
import ScriptServer.Script.Value

/-!
# Texts of values

`display` is how a value is shown in a response and by the script itself: a float has fourteen
significant digits and always a point or an exponent. `keyText` is the name that a table key gets in
a JSON object, where a number has the fewest digits that read back.
-/

namespace ScriptServer.Script

def integerText (i : Int) : List Char :=
  (if i < 0 then ['-'] else []) ++ Text.decimal i.natAbs

/-- The number of significant digits of a float that is shown. -/
def shownDigits : Nat := 14

/-- Drops the zeros at the end of a fraction, and the point if nothing else is left of it. -/
def trimFraction (cs : List Char) : List Char :=
  if cs.contains '.' then
    ((cs.reverse.dropWhile (· == '0')).dropWhile (· == '.')).reverse
  else cs

def exponentText (exp : Int) : List Char :=
  let ds := Text.decimal exp.natAbs
  'e' :: (if exp < 0 then '-' else '+') :: (List.replicate (2 - ds.length) '0' ++ ds)

/-- A finite float with fourteen significant digits, without needless zeros. The exponent is written
out when it is below -4 or not below 14. -/
def significant (x : Binary64) : List Char :=
  let (mantissa, exp) := x.scientific (shownDigits - 1)
  if exp < -4 ∨ (shownDigits : Int) ≤ exp then trimFraction mantissa ++ exponentText exp
  else trimFraction (x.fixed ((shownDigits : Int) - 1 - exp).toNat)

def floatText (x : Binary64) : List Char :=
  if x.isNaN then (if x.negative then "-nan" else "nan").toList
  else if x.isInfinite then (if x.negative then "-inf" else "inf").toList
  else
    let text := significant x
    if text.all fun c => c == '-' || Text.isDigit c then text ++ ['.', '0'] else text

namespace Value

/-- A value as it is shown. -/
def display : Value → String
  | nil => "nil"
  | bool b => if b then "true" else "false"
  | integer i => String.ofList (integerText i.toInt)
  | float x => String.ofList (floatText x)
  | string bs => Utf8.toTextLossy bs
  | v => v.opaqueText

/-- One more than the greatest integer up to which every integer is a float. -/
def safeInteger : Nat := 1 <<< 53

def floatKey (x : Binary64) : List Char :=
  if x.isNaN then "NaN".toList
  else if x.isInfinite then (if x.negative then "-inf" else "inf").toList
  else if x.isIntegral && x.absBelow safeInteger then integerText x.truncate
  else x.shortest

/-- A table key as the key of an object. -/
def keyText : Value → String
  | integer i => String.ofList (integerText i.toInt)
  | float x => String.ofList (floatKey x)
  | string bs => Utf8.toTextLossy bs
  | bool b => if b then "true" else "false"
  | v => v.opaqueText

end Value

end ScriptServer.Script
