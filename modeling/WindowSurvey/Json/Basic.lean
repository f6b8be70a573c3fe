import WindowSurvey.Decimal.Literal
/-!
# JSON trees, whole or broken off

A tree holds everything a text says up to the place where the text stops being JSON. The break is kept
as a leaf, so that a reader which walks the tree in the order of the text meets either a value of the
wrong kind or the break, whichever comes first. Objects keep their members in order and keep repeated
names.

## Main definitions

* `Json` — a tree; `Json.broken` and the `cut` fields record a break
* `Json.Fault` — how a text can break
* `Json.Number` — an integer of the 64-bit range, or a double
* `Json.ofMembers`, `Json.ofItems`, `Json.ofNat`, `Json.ofFloat` — trees without a break
-/

namespace WindowSurvey

namespace Json

/-- How a text breaks: it ends too early, or a character stands where none like it may. -/
inductive Fault where
  | endOfText
  | malformed
  deriving DecidableEq, Repr, Inhabited

/-- What a number literal names. Literals without point and exponent are integers if they fit 64 bits;
the others are doubles, and a few lie outside the range of doubles. -/
inductive Number where
  | integer (value : Int)
  | real (value : Float)
  | outOfRange
  deriving Repr, Inhabited

end Json

/-- A JSON tree in the order of its text. A string is `none` when its escapes name half of a surrogate
pair; `cut` tells how the text breaks off inside the brackets. -/
inductive Json where
  | null
  | bool (value : Bool)
  | number (value : Json.Number)
  | text (value : Option String)
  | array (items : List Json) (cut : Option Json.Fault)
  | object (members : List (Option String × Json)) (cut : Option Json.Fault)
  | broken (fault : Json.Fault)
  deriving Inhabited

namespace Json

namespace Number

/-- The integers that stay integers: unsigned 64-bit ones, and signed ones below zero. -/
def fitsInteger (n : Int) : Bool := -(Nat.pow 2 63) ≤ n && n < Nat.pow 2 64

/-- What a literal names. A bare negative zero is the double of that name. -/
def ofLiteral (l : Literal) : Number :=
  let magnitude : Int := Literal.natOfDigits l.whole
  let value := if l.negative then -magnitude else magnitude
  if l.isWhole && fitsInteger value && !(l.negative && magnitude == 0) then integer value
  else match l.scaled with
    | some x => real x
    | none => outOfRange

end Number

/-- A string. -/
def ofString (s : String) : Json := text (some s)

/-- An integer. -/
def ofInt (n : Int) : Json := number (.integer n)

/-- A natural number. -/
def ofNat (n : Nat) : Json := ofInt n

/-- A double. -/
def ofFloat (x : Float) : Json := number (.real x)

/-- A list. -/
def ofItems (items : List Json) : Json := array items none

/-- An object. -/
def ofMembers (members : List (String × Json)) : Json :=
  object (members.map fun (name, value) => (some name, value)) none

end Json

end WindowSurvey
