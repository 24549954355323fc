/-!
# Binary floating point of 64 bits

A number is its bit pattern: a sign, and below it the *pattern* of the absolute value, a natural
number under `2 ^ 63`. Absolute values are whole multiples of one unit, `2 ^ (-1074)`, and `unitsOf`
gives the multiple; patterns are ordered as the values they stand for. `nearest` is the pattern next
to a quotient of units, a tie going to the even pattern, and everything that rounds (`ofDecimal`,
`ofInt`) is an instance of it.
-/

namespace ScriptServer

/-- The integer nearest to `num / den`, a tie going to the even one. -/
def roundEven (num den : Nat) : Nat :=
  let q := num / den
  let r := num % den
  if 2 * r < den then q else if den < 2 * r then q + 1 else q + q % 2

/-- A floating point number of 64 bits, every pattern of which is a value of its own. -/
structure Binary64 where
  bits : UInt64
  deriving DecidableEq, Repr, Inhabited

namespace Binary64

/-- The pattern of infinity; patterns above it are no numbers. -/
def infinity : Nat := 0x7FF <<< 52

/-- The number of units in one. -/
def one : Nat := 1 <<< 1074

/-- The pattern of the absolute value. -/
def pattern (x : Binary64) : Nat := x.bits.toNat % (1 <<< 63)

/-- The sign bit, which zeros and patterns that are no numbers have too. -/
def negative (x : Binary64) : Bool := decide (1 <<< 63 ≤ x.bits.toNat)

/-- The number with this sign and this pattern of the absolute value. -/
def ofPattern (negative : Bool) (pattern : Nat) : Binary64 :=
  ⟨UInt64.ofNat (if negative then (1 <<< 63) + pattern else pattern)⟩

def isNaN (x : Binary64) : Bool := decide (infinity < x.pattern)

def isInfinite (x : Binary64) : Bool := decide (x.pattern = infinity)

def isFinite (x : Binary64) : Bool := decide (x.pattern < infinity)

/-- The absolute value that a pattern stands for, in units. Below `2 ^ 52` a pattern is the value
itself; above, its upper bits are an exponent and its lower ones follow a leading one. -/
def unitsOf (pattern : Nat) : Nat :=
  if pattern < 1 <<< 52 then pattern
  else ((1 <<< 52) + pattern % (1 <<< 52)) <<< (pattern / (1 <<< 52) - 1)

/-- The absolute value in units. -/
def units (x : Binary64) : Nat := unitsOf x.pattern

/-- The pattern nearest to `num / den` units, a tie going to the even one. Values half a step or
more above the greatest finite one become infinity. -/
def nearest (num den : Nat) : Nat :=
  let step := Nat.log2 (num / den) - 52
  min infinity ((step <<< 52) + roundEven num (den <<< step))

/-- The pattern nearest to `digits * 10 ^ exp`. The outer cases answer for exponents whose power of
ten need not be computed, as the value lies far outside the finite patterns. -/
def nearestDecimal (digits : Nat) (exp : Int) : Nat :=
  if digits = 0 then 0
  else if 400 < exp then infinity
  else if exp + (Nat.log2 digits + 1) < -400 then 0
  else nearest (digits * Nat.pow 10 exp.toNat * one) (Nat.pow 10 (-exp).toNat)

def ofDecimal (negative : Bool) (digits : Nat) (exp : Int) : Binary64 :=
  ofPattern negative (nearestDecimal digits exp)

def ofInt (i : Int) : Binary64 :=
  ofPattern (decide (i < 0)) (nearest (i.natAbs * one) 1)

def truncate (x : Binary64) : Int :=
  let n : Int := (x.units / one : Nat)
  if x.negative then -n else n

/-- Finite and without a fraction. -/
def isIntegral (x : Binary64) : Bool :=
  x.isFinite && x.units % one == 0

/-- The absolute value of a finite number is below the integer `n`. -/
def absBelow (x : Binary64) (n : Nat) : Bool := decide (x.units < n * one)

def absAtMost (x : Binary64) (n : Nat) : Bool := decide (x.units ≤ n * one)

/-- The value of a finite number in units. -/
def signedUnits (x : Binary64) : Int :=
  if x.negative then -(x.units : Int) else x.units

def add (x y : Binary64) : Binary64 :=
  if x.isNaN then x
  else if y.isNaN then y
  else if x.isInfinite then
    if y.isInfinite && x.negative != y.negative then ofPattern true (infinity + (1 <<< 51)) else x
  else if y.isInfinite then y
  else
    let sum := x.signedUnits + y.signedUnits
    if sum = 0 then ofPattern (x.negative && y.negative) 0
    else ofPattern (decide (sum < 0)) (nearest sum.natAbs 1)

end Binary64

end ScriptServer
