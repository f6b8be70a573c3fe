/-!
# Double-precision numbers as exact values

A finite double is `± mantissa · 2 ^ exponent` with a natural mantissa, and every question that has to
be answered exactly (which integer is left after truncation, which decimal digits are shortest, which
of two doubles comes first in a total order) is asked of that triple instead of the machine number.

## Main definitions

* `Binary64`, `Binary64.ofFloat` — the exact value behind a `Float`
* `Binary64.truncate` — the integer part, rounded toward zero
* `Binary64.totalKey` — an integer key that orders all doubles, negative zero below positive zero
-/

namespace WindowSurvey

/-- The value of a double: a finite one is `± mantissa · 2 ^ exponent`. -/
inductive Binary64 where
  | nan
  | infinite (negative : Bool)
  | finite (negative : Bool) (mantissa : Nat) (exponent : Int)
  deriving DecidableEq, Repr, Inhabited

namespace Binary64

/-- Split the sixty-four bits into sign, exponent and fraction. A zero exponent field marks the
subnormal range, where the implicit leading bit is absent. -/
def ofBits (bits : Nat) : Binary64 :=
  let negative := bits / Nat.pow 2 63 % 2 == 1
  let exponent : Nat := bits / Nat.pow 2 52 % Nat.pow 2 11
  let fraction : Nat := bits % Nat.pow 2 52
  if exponent = 2047 then
    if fraction = 0 then infinite negative else nan
  else if exponent = 0 then finite negative fraction (-1074)
  else finite negative (Nat.pow 2 52 + fraction) ((exponent : Int) - 1075)

/-- The exact value of a machine number. -/
def ofFloat (x : Float) : Binary64 := ofBits x.toBits.toNat

/-- The integer part of `mantissa · 2 ^ exponent`. -/
def floorMagnitude (mantissa : Nat) (exponent : Int) : Nat :=
  match exponent with
  | .ofNat k => mantissa * Nat.pow 2 k
  | .negSucc k => mantissa / Nat.pow 2 (k + 1)

/-- The integer left when the fraction is dropped; `none` for numbers that have none. -/
def truncate : Binary64 → Option Int
  | nan => none
  | infinite _ => none
  | finite negative m e =>
    let magnitude : Int := floorMagnitude m e
    some (if negative then -magnitude else magnitude)

/-- The least 64-bit signed integer. -/
def minInt64 : Int := -(Nat.pow 2 63)

/-- The greatest 64-bit signed integer. -/
def maxInt64 : Int := Nat.pow 2 63 - 1

/-- Truncation into the 64-bit signed range: what lies outside goes to the nearer end, and a number
without a value goes to zero. -/
def truncateInt64 : Binary64 → Int
  | nan => 0
  | infinite negative => if negative then minInt64 else maxInt64
  | finite negative m e =>
    let magnitude : Int := floorMagnitude m e
    max minInt64 (min maxInt64 (if negative then -magnitude else magnitude))

/-- An integer key that orders every double: negative numbers count down from zero by their bits, so
`-0.0` lies just below `0.0`, and a number that is no number lies beyond infinity on its side. -/
def totalKey (x : Float) : Int :=
  let bits := x.toBits.toNat
  if bits < Nat.pow 2 63 then (bits : Int) else (Nat.pow 2 63 : Int) - 1 - bits

end Binary64

end WindowSurvey

