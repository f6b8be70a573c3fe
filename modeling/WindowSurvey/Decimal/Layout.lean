import WindowSurvey.Decimal.Shortest
/-!
# Laying out a decimal as text

The digits of a number are chosen once (`shortest`); where they are printed, a layout decides how they
look. Each kind of text owns its layout: the answers, the messages and the diagnostic texts.

## Main definitions

* `NumberLayout` — the decisions of one kind of text
* `NumberLayout.render` — a double as text
-/

namespace WindowSurvey

/-- How one kind of text writes numbers. -/
structure NumberLayout where
  /-- The least and the first too great decimal exponent of the leading digit that is written without
  an exponent; without bounds no number has one. -/
  positional : Option (Int × Int)
  /-- Whether a whole number written without an exponent carries `.0`. -/
  wholeMark : Bool
  /-- What stands in front of an exponent that is not negative. -/
  exponentPlus : String
  deriving Repr

namespace NumberLayout

/-- The decimal digits of a natural number. -/
def digits (n : Nat) : List Char := Nat.toDigits 10 n

/-- Positional text of `digits · 10 ^ exponent`. -/
def positionalText (wholeMark : Bool) (ds : List Char) (exponent : Int) : List Char :=
  match exponent with
  | .ofNat k => ds ++ List.replicate k '0' ++ (if wholeMark then ['.', '0'] else [])
  | .negSucc k =>
    let places := k + 1
    if ds.length ≤ places then
      ['0', '.'] ++ List.replicate (places - ds.length) '0' ++ ds
    else
      ds.take (ds.length - places) ++ '.' :: ds.drop (ds.length - places)

/-- Text with an exponent: one digit, then the others behind a point. -/
def exponentText (plus : String) (ds : List Char) (leading : Int) : List Char :=
  let point := match ds.drop 1 with
    | [] => []
    | rest => '.' :: rest
  let power := match leading with
    | .ofNat k => plus.toList ++ digits k
    | .negSucc k => '-' :: digits (k + 1)
  ds.take 1 ++ point ++ 'e' :: power

/-- Whether a leading digit at this decimal exponent is written positionally. -/
def isPositional (layout : NumberLayout) (leading : Int) : Bool :=
  match layout.positional with
  | none => true
  | some (low, high) => low ≤ leading && leading < high

/-- Text of a decimal that is not zero. -/
def decimalText (layout : NumberLayout) (d : Decimal) : List Char :=
  let ds := digits d.coefficient
  let leading := d.exponent + ds.length - 1
  if layout.isPositional leading then positionalText layout.wholeMark ds d.exponent
  else exponentText layout.exponentPlus ds leading

/-- Text of the exact value behind a double. Zero keeps its sign. -/
def renderBinary (layout : NumberLayout) : Binary64 → String
  | .nan => "NaN"
  | .infinite negative => if negative then "-inf" else "inf"
  | .finite negative m e =>
    let body := if m = 0 then positionalText layout.wholeMark ['0'] 0
      else layout.decimalText (shortest m e)
    String.ofList (if negative then '-' :: body else body)

/-- Text of a double. -/
def render (layout : NumberLayout) (x : Float) : String :=
  layout.renderBinary (Binary64.ofFloat x)

end NumberLayout

end WindowSurvey
