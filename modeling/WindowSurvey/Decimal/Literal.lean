import WindowSurvey.Decimal.Binary64
/-!
# Reading decimal literals

A literal is kept as its digits until a reader decides what number it names. Two rules turn it into a
double. The exact rule rounds the decimal once. The scaled rule gathers as many leading digits as an
unsigned 64-bit word holds and then multiplies or divides once by a power of ten, so it may be one unit
off for long literals; it is the rule of JSON texts.

## Main definitions

* `Literal` — sign, digits before and after the point, exponent
* `Literal.exact`, `Literal.scaled` — the two rules
* `Literal.ofChars?` — the literal a text spells
* `readDouble?` — a double from text, with the words for infinity and for no number
-/

namespace WindowSurvey

/-- A decimal literal as it is written. `fraction` and `exponent` are absent when the literal has no
point and no exponent mark. Digits are numbers below ten. -/
structure Literal where
  negative : Bool
  whole : List Nat
  fraction : Option (List Nat)
  exponent : Option (Bool × List Nat)
  deriving DecidableEq, Repr, Inhabited

namespace Literal

/-- The number spelled by a run of digits. -/
def natOfDigits (ds : List Nat) : Nat := ds.foldl (fun n d => 10 * n + d) 0

/-- Whether the literal has neither point nor exponent. -/
def isWhole (l : Literal) : Bool := l.fraction.isNone && l.exponent.isNone

/-- The signed value of the exponent part. -/
def exponentValue (l : Literal) : Int :=
  match l.exponent with
  | none => 0
  | some (negative, ds) => if negative then -(natOfDigits ds : Int) else natOfDigits ds

/-- Give a magnitude the sign of the literal; zero becomes negative zero. -/
def signed (l : Literal) (magnitude : Float) : Float :=
  if l.negative then -magnitude else magnitude

/-- The double nearest to the literal. Far beyond the range of doubles the answer is infinity or zero
without computing the power of ten. -/
def exact (l : Literal) : Float :=
  let fraction := l.fraction.getD []
  let coefficient := natOfDigits (l.whole ++ fraction)
  let exponent := l.exponentValue - fraction.length
  let leading := exponent + (Nat.toDigits 10 coefficient).length
  let magnitude :=
    if coefficient = 0 then 0.0
    else if leading > 400 then 1.0 / 0.0
    else if leading < -400 then 0.0
    else match exponent with
      | .ofNat k => Float.ofScientific coefficient false k
      | .negSucc k => Float.ofScientific coefficient true (k + 1)
  l.signed magnitude

/-- The greatest unsigned 64-bit word. -/
def maxWord : Nat := Nat.pow 2 64 - 1

/-- The greatest signed 32-bit word, the limit of an exponent. -/
def maxExponent : Nat := Nat.pow 2 31 - 1

/-- Take digits into the word while they fit. The answer holds the word, how many digits were taken,
and whether one was left over. -/
def gather (word : Nat) : List Nat → Nat × Nat × Bool
  | [] => (word, 0, false)
  | d :: rest =>
    if maxWord < 10 * word + d then (word, 0, true)
    else
      let (w, taken, full) := gather (10 * word + d) rest
      (w, taken + 1, full)

/-- Multiply or divide by a power of ten, in steps of at most three hundred and eight places. The
answer is absent when the result leaves the range of doubles. -/
def scale : Nat → Float → Int → Option Float
  | 0, _, _ => some 0.0
  | fuel + 1, x, exponent =>
    match exponent with
    | .ofNat k =>
      if k ≤ 308 then
        let y := x * Float.ofScientific 1 false k
        if y.isInf then none else some y
      else if x == 0.0 then some x else none
    | .negSucc k =>
      if k + 1 ≤ 308 then some (x / Float.ofScientific 1 false (k + 1))
      else if x == 0.0 then some x
      else scale fuel (x / Float.ofScientific 1 false 308) (exponent + 308)

/-- The double read by the scaled rule; absent when it leaves the range of doubles. -/
def scaled (l : Literal) : Option Float :=
  let (word, taken, _) := gather 0 l.whole
  let dropped := l.whole.length - taken
  let (word, fractionTaken, _) := gather word (l.fraction.getD [])
  let start : Int := (dropped : Int) - fractionTaken
  match l.exponent with
  | some (negative, ds) =>
    if maxExponent < natOfDigits ds then
      if word ≠ 0 ∧ negative = false then none else some (l.signed 0.0)
    else (scale 4 (Float.ofNat word) (start + l.exponentValue)).map l.signed
  | none => (scale 4 (Float.ofNat word) start).map l.signed

/-- The value of a decimal digit. -/
def digit? (c : Char) : Option Nat :=
  if '0' ≤ c ∧ c ≤ '9' then some (c.toNat - '0'.toNat) else none

/-- Split off the leading decimal digits. -/
def takeDigits : List Char → List Nat × List Char
  | [] => ([], [])
  | c :: rest =>
    match digit? c with
    | some d =>
      let (ds, tail) := takeDigits rest
      (d :: ds, tail)
    | none => ([], c :: rest)

/-- Split off a sign; `true` for minus. -/
def takeSign : List Char → Bool × List Char
  | '-' :: rest => (true, rest)
  | '+' :: rest => (false, rest)
  | cs => (false, cs)

/-- The literal spelled by the whole text: an optional sign, digits with an optional point among or
around them, and an optional exponent. -/
def ofChars? (cs : List Char) : Option Literal :=
  let (negative, cs) := takeSign cs
  let (whole, cs) := takeDigits cs
  let (fraction, cs) := match cs with
    | '.' :: rest =>
      let (ds, tail) := takeDigits rest
      (some ds, tail)
    | cs => (none, cs)
  if whole.isEmpty && (fraction.getD []).isEmpty then none
  else match cs with
    | [] => some ⟨negative, whole, fraction, none⟩
    | c :: rest =>
      if c = 'e' ∨ c = 'E' then
        let (sign, rest) := takeSign rest
        let (ds, tail) := takeDigits rest
        if ds.isEmpty || !tail.isEmpty then none
        else some ⟨negative, whole, fraction, some (sign, ds)⟩
      else none

end Literal

/-- The words that name no finite number, in any case, behind an optional sign. -/
def specialDouble? (cs : List Char) : Option Float :=
  let (negative, rest) := Literal.takeSign cs
  let word := String.ofList (rest.map Char.toLower)
  let magnitude : Option Float :=
    if word = "inf" ∨ word = "infinity" then some (1.0 / 0.0)
    else if word = "nan" then some (0.0 / 0.0)
    else none
  magnitude.map fun x => if negative then -x else x

/-- The double that a text spells, rounded once. -/
def readDouble? (cs : List Char) : Option Float :=
  match Literal.ofChars? cs with
  | some l => some l.exact
  | none => specialDouble? cs

end WindowSurvey
