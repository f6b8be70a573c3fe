import WindowSurvey.Decimal.Binary64
/-!
# The fewest digits that read back

A double stands for the whole interval of reals that round to it. Among the decimals inside that
interval the printed one has the fewest digits, and of several with as few digits it is the nearest to
the double. The search runs over grids of one, two, … seventeen digits and looks on each grid at the
two neighbours of the exact value; if any point of a grid lies in the interval, one of these two does.
All comparisons are between natural numbers.

## Main definitions

* `Decimal` — a coefficient times a power of ten
* `Rounding.Interval` — the reals that round to a double, over a common denominator
* `shortest` — the decimal that is printed for `mantissa · 2 ^ exponent`
-/

namespace WindowSurvey

/-- The number `coefficient · 10 ^ exponent`. -/
structure Decimal where
  coefficient : Nat
  exponent : Int
  deriving DecidableEq, Repr, Inhabited

namespace Decimal

/-- Drop trailing zeros of the coefficient, at most `fuel` of them. -/
def stripZeros : Nat → Decimal → Decimal
  | 0, d => d
  | fuel + 1, d =>
    if d.coefficient % 10 = 0 ∧ d.coefficient ≠ 0 then
      stripZeros fuel ⟨d.coefficient / 10, d.exponent + 1⟩
    else d

end Decimal

/-- The reals that round to a double, as numerators over one denominator. The ends belong to the
interval iff the mantissa is even, since ties go to the even neighbour. -/
structure RoundingInterval where
  low : Nat
  value : Nat
  high : Nat
  denominator : Nat
  closed : Bool
  deriving Repr

namespace RoundingInterval

/-- The interval around `mantissa · 2 ^ exponent`. Below a power of two the spacing of doubles is
halved, so the lower end lies only half as far away there; the least exponent has no finer spacing
beneath it. -/
def around (mantissa : Nat) (exponent : Int) : RoundingInterval :=
  let narrow := mantissa = Nat.pow 2 52 ∧ exponent ≠ -1074
  let low := 4 * mantissa - (if narrow then 1 else 2)
  let value := 4 * mantissa
  let high := 4 * mantissa + 2
  let closed := mantissa % 2 == 0
  match exponent - 2 with
  | .ofNat k => ⟨low * Nat.pow 2 k, value * Nat.pow 2 k, high * Nat.pow 2 k, 1, closed⟩
  | .negSucc k => ⟨low, value, high, Nat.pow 2 (k + 1), closed⟩

/-- The same interval with every numerator scaled so that `10 ^ place` becomes the natural number
returned beside it. -/
def onGrid (r : RoundingInterval) (place : Int) : RoundingInterval × Nat :=
  match place with
  | .ofNat k => (r, Nat.pow 10 k * r.denominator)
  | .negSucc k =>
    let scale := Nat.pow 10 (k + 1)
    (⟨r.low * scale, r.value * scale, r.high * scale, r.denominator, r.closed⟩, r.denominator)

/-- Whether a numerator lies in the interval. -/
def contains (r : RoundingInterval) (n : Nat) : Bool :=
  if r.closed then r.low ≤ n && n ≤ r.high else r.low < n && n < r.high

/-- The multiple of `10 ^ place` that lies in the interval and nearest to the value; of two equally
near the even one. -/
def nearestOn (r : RoundingInterval) (place : Int) : Option Decimal :=
  let (r, unit) := r.onGrid place
  let below := r.value / unit
  let above := below + 1
  let belowHits := r.contains (below * unit)
  let aboveHits := r.contains (above * unit)
  let pick (c : Nat) : Option Decimal := some ⟨c, place⟩
  if belowHits && aboveHits then
    let down := r.value - below * unit
    let up := above * unit - r.value
    if down < up then pick below
    else if up < down then pick above
    else if below % 2 = 0 then pick below else pick above
  else if belowHits then pick below
  else if aboveHits then pick above
  else none

/-- The first grid with a point in the interval, starting from `place` and going to finer ones. -/
def search (r : RoundingInterval) : Nat → Int → Option Decimal
  | 0, _ => none
  | fuel + 1, place =>
    match r.nearestOn place with
    | some d => some d
    | none => r.search fuel (place - 1)

/-- Whether the value is below `10 ^ place`. -/
def belowPower (r : RoundingInterval) (place : Int) : Bool :=
  let (r, unit) := r.onGrid place
  r.value < unit

/-- The least `place` from `start` on, within `fuel` steps, such that the value is below
`10 ^ place`. -/
def magnitude (r : RoundingInterval) : Nat → Int → Int
  | 0, place => place
  | fuel + 1, place => if r.belowPower place then place else r.magnitude fuel (place + 1)

end RoundingInterval

/-- The decimal printed for the positive number `mantissa · 2 ^ exponent`: the fewest digits that read
back, nearest to the number among those, without trailing zeros. Seventeen digits always suffice. The
first grid is estimated from the binary length by `1233 / 4096`, just below the logarithm of two. -/
def shortest (mantissa : Nat) (exponent : Int) : Decimal :=
  let r := RoundingInterval.around mantissa exponent
  let estimate := Int.fdiv (((mantissa.log2 : Int) + exponent) * 1233) 4096
  let top := r.magnitude 4 (estimate - 1)
  match r.search 18 (top - 1) with
  | some d => d.stripZeros 20
  | none => ⟨mantissa, exponent⟩

end WindowSurvey
