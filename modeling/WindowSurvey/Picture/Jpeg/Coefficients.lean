import WindowSurvey.Picture.PrefixCode
/-!
# Coefficients of a JPEG picture

A JPEG picture is cut into squares of eight by eight samples for each component of its colours. What is
stored of a square are sixty-four coefficients, the coarse ones first. A scan brings some of them for some
components: all at once, or first their high bits and later one bit more at a time.

## Main definitions

* `Jpeg.Component` — a component with its coefficients so far
* `Jpeg.Scan`, `Jpeg.readScan?` — a scan, and what it adds
-/

namespace WindowSurvey.Jpeg

/-! ## Bits -/

/-- A bit of a stream: the highest bit of a byte comes first. -/
def bit? (bytes : Array UInt8) (place : Nat) : Option Bool :=
  match bytes[place / 8]? with
  | some b => some (b.toNat.testBit (7 - place % 8))
  | none => none

/-- A number of some bits, highest first, behind a number read before. -/
def number? (bytes : Array UInt8) : Nat → Nat → Nat → Option Nat
  | 0, _, n => some n
  | count + 1, place, n =>
    match bit? bytes place with
    | some bit => number? bytes count (place + 1) (2 * n + bit.toNat)
    | none => none

/-- A number with a sign: the lower half of the numbers of so many bits stands for negative ones. -/
def signed (bits n : Nat) : Int :=
  if n < Nat.pow 2 (bits - 1) then (n : Int) - Nat.pow 2 bits + 1 else n

/-- Read a number with a sign, and the place behind it. -/
def signed? (bytes : Array UInt8) (bits place : Nat) : Option (Int × Nat) :=
  match number? bytes bits place 0 with
  | some n => some (if bits = 0 then 0 else signed bits n, place + bits)
  | none => none

/-! ## Components and scans -/

/-- The order in which the coefficients of a square are written, from coarse to fine: along diagonals, in
turn downwards and upwards. -/
def order : Array Nat :=
  #[0, 1, 8, 16, 9, 2, 3, 10, 17, 24, 32, 25, 18, 11, 4, 5, 12, 19, 26, 33, 40, 48, 41, 34, 27, 20, 13, 6, 7,
    14, 21, 28, 35, 42, 49, 56, 57, 50, 43, 36, 29, 22, 15, 23, 30, 37, 44, 51, 58, 59, 52, 45, 38, 31, 39,
    46, 53, 60, 61, 54, 47, 55, 62, 63]

/-- A component: how many of its squares go into a unit of the picture across and down, which divisors it
has, how many squares are stored in a row and how many rows there are, how many of them show something, and
the coefficients of all squares. -/
structure Component where
  id : Nat
  across : Nat
  down : Nat
  quantizer : Nat
  columns : Nat
  rows : Nat
  shownColumns : Nat
  shownRows : Nat
  coefficients : Array Int
  deriving Inhabited

/-- The codes for a component of a scan. -/
structure Selector where
  component : Nat
  coarse : PrefixCode
  fine : PrefixCode
  deriving Inhabited

/-- A scan: its components, the first and the last coefficient it brings, and the lowest bit before and
after it. -/
structure Scan where
  selectors : List Selector
  first : Nat
  last : Nat
  high : Nat
  low : Nat
  progressive : Bool

/-- What changes while a scan is read: the place, how many further squares have no more coefficients, and
the last coarsest coefficient of every component. -/
structure Position where
  place : Nat := 0
  idle : Nat := 0
  last : Array Int

/-! ## One square -/

/-- Put a coefficient in its place. -/
def put (start k : Nat) (v : Int) (cs : Array Int) : Array Int :=
  cs.setIfInBounds (start + order.getD k 0) v

/-- The fine coefficients of a square that are read at once, from number `k` on; what is read is shifted
left. -/
def fine? (bytes : Array UInt8) (code : PrefixCode) (s : Scan) (start : Nat) :
    Nat → Nat → Nat → Array Int → Option (Nat × Nat × Array Int)
  | 0, _, _, _ => none
  | fuel + 1, k, place, cs =>
    if s.last < k then some (place, 0, cs)
    else
      match code.read? (bit? bytes) place with
      | none => none
      | some (symbol, place) =>
        let zeros := symbol / 16
        let bits := symbol % 16
        if bits ≠ 0 then
          match signed? bytes bits place with
          | none => none
          | some (v, place) =>
            let cs := put start (k + zeros) (v * Nat.pow 2 s.low) cs
            fine? bytes code s start fuel (k + zeros + 1) place cs
        else if zeros = 15 then fine? bytes code s start fuel (k + 16) place cs
        else if !s.progressive then some (place, 0, cs)
        else
          match number? bytes zeros place 0 with
          | none => none
          | some extra => some (place + zeros, Nat.pow 2 zeros + extra - 1, cs)

/-- One bit more for a coefficient that is not zero. -/
def refined (s : Scan) (bit : Bool) (v : Int) : Int :=
  if bit && !v.natAbs.testBit s.low then
    if 0 ≤ v then v + Nat.pow 2 s.low else v - Nat.pow 2 s.low
  else v

/-- Go past a number of zeros from coefficient `k` on, and one bit more for every coefficient on the way
that is not zero. The answer holds the number of the coefficient behind. -/
def passZeros? (bytes : Array UInt8) (s : Scan) (start : Nat) :
    Nat → Nat → Nat → Nat → Array Int → Option (Nat × Nat × Array Int)
  | 0, k, _, place, cs => some (k, place, cs)
  | fuel + 1, k, zeros, place, cs =>
    if s.last < k then some (k, place, cs)
    else
      let v := cs.getD (start + order.getD k 0) 0
      if v ≠ 0 then
        match bit? bytes place with
        | none => none
        | some bit =>
          passZeros? bytes s start fuel (k + 1) zeros (place + 1) (put start k (refined s bit v) cs)
      else if zeros = 0 then some (k, place, cs)
      else passZeros? bytes s start fuel (k + 1) (zeros - 1) place cs

/-- More bits for the fine coefficients of a square, from number `k` on: those that were not zero get one,
and some others become one. -/
def refine? (bytes : Array UInt8) (code : PrefixCode) (s : Scan) (start : Nat) :
    Nat → Nat → Nat → Array Int → Option (Nat × Nat × Array Int)
  | 0, _, _, _ => none
  | fuel + 1, k, place, cs =>
    if s.last < k then some (place, 0, cs)
    else
      match code.read? (bit? bytes) place with
      | none => none
      | some (symbol, place) =>
        let zeros := symbol / 16
        let bits := symbol % 16
        if bits = 0 ∧ zeros < 15 then
          match number? bytes zeros place 0 with
          | none => none
          | some extra =>
            match passZeros? bytes s start 64 k 64 (place + zeros) cs with
            | none => none
            | some (_, place, cs) => some (place, Nat.pow 2 zeros + extra - 1, cs)
        else
          match number? bytes bits place 0 with
          | none => none
          | some sign =>
            match passZeros? bytes s start 64 k zeros (place + bits) cs with
            | none => none
            | some (k, place, cs) =>
              let cs := if bits = 0 then cs
                else put start k (if sign = 1 then Nat.pow 2 s.low else -(Nat.pow 2 s.low)) cs
              refine? bytes code s start fuel (k + 1) place cs

/-- The coarsest coefficient of a square, which is written as a difference to that of the last one. -/
def coarse? (bytes : Array UInt8) (sel : Selector) (s : Scan) (start : Nat) (p : Position)
    (cs : Array Int) : Option (Position × Array Int) :=
  if s.high = 0 then
    match sel.coarse.read? (bit? bytes) p.place with
    | none => none
    | some (bits, place) =>
      match signed? bytes bits place with
      | none => none
      | some (difference, place) =>
        let v := p.last.getD sel.component 0 + difference
        some ({ p with place, last := p.last.setIfInBounds sel.component v },
          put start 0 (v * Nat.pow 2 s.low) cs)
  else
    match bit? bytes p.place with
    | none => none
    | some bit =>
      let v := cs.getD start 0
      some ({ p with place := p.place + 1 }, if bit then put start 0 (v + Nat.pow 2 s.low) cs else cs)

/-- The coefficients that a scan brings for a square. -/
def square? (bytes : Array UInt8) (sel : Selector) (s : Scan) (start : Nat) (p : Position)
    (cs : Array Int) : Option (Position × Array Int) :=
  match if s.first = 0 then coarse? bytes sel s start p cs else some (p, cs) with
  | none => none
  | some (p, cs) =>
    let k := max 1 s.first
    if s.last < k then some (p, cs)
    else if p.idle ≠ 0 then
      if s.high = 0 then some ({ p with idle := p.idle - 1 }, cs)
      else
        match passZeros? bytes s start 64 k 64 p.place cs with
        | none => none
        | some (_, place, cs) => some ({ p with place, idle := p.idle - 1 }, cs)
    else
      let read := if s.high = 0 then fine? bytes sel.fine s start 65 k p.place cs
        else refine? bytes sel.fine s start 65 k p.place cs
      match read with
      | none => none
      | some (place, idle, cs) => some ({ p with place, idle }, cs)

/-! ## Scans -/

/-- The squares of one unit of a picture, as selectors with columns and rows. A unit of a scan with one
component is one of its squares that show something. -/
def unitSquares (components : Array Component) (s : Scan) (unitsAcross n : Nat) :
    List (Selector × Nat × Nat) :=
  match s.selectors with
  | [sel] =>
    let shown := max 1 (components.getD sel.component default).shownColumns
    [(sel, n % shown, n / shown)]
  | selectors =>
    selectors.flatMap fun sel =>
      let c := components.getD sel.component default
      (List.range (c.across * c.down)).map fun i =>
        (sel, n % unitsAcross * c.across + i % c.across, n / unitsAcross * c.down + i / c.across)

/-- How many units a scan has. -/
def unitCount (components : Array Component) (s : Scan) (units : Nat) : Nat :=
  match s.selectors with
  | [sel] =>
    let c := components.getD sel.component default
    c.shownColumns * c.shownRows
  | _ => units

/-- Read some squares. -/
def squares? (bytes : Array UInt8) (s : Scan) :
    List (Selector × Nat × Nat) → Position → Array Component → Option (Position × Array Component)
  | [], p, components => some (p, components)
  | (sel, column, row) :: others, p, components =>
    match components[sel.component]? with
    | none => none
    | some c =>
      let start := (row * c.columns + column) * 64
      let components := components.setIfInBounds sel.component { c with coefficients := #[] }
      match c with
      | ⟨id, across, down, quantizer, columns, rows, shownColumns, shownRows, cs⟩ =>
        match square? bytes sel s start p cs with
        | none => none
        | some (p, cs) =>
          squares? bytes s others p (components.setIfInBounds sel.component
            ⟨id, across, down, quantizer, columns, rows, shownColumns, shownRows, cs⟩)

/-- Read units in order. -/
def units? (bytes : Array UInt8) (s : Scan) (unitsAcross : Nat) :
    Nat → Nat → Position → Array Component → Option (Array Component)
  | 0, _, _, components => some components
  | left + 1, n, p, components =>
    match squares? bytes s (unitSquares components s unitsAcross n) p components with
    | none => none
    | some (p, components) => units? bytes s unitsAcross left (n + 1) p components

/-- Read the stretches of a scan, each of which begins anew after `interval` units. -/
def stretches? (s : Scan) (unitsAcross interval : Nat) :
    List (Array UInt8) → Nat → Nat → Array Component → Option (Array Component)
  | [], left, _, components => if left = 0 then some components else none
  | bytes :: others, left, n, components =>
    let count := if interval = 0 then left else min interval left
    let p : Position := { last := Array.replicate components.size 0 }
    match units? bytes s unitsAcross count n p components with
    | none => none
    | some components => stretches? s unitsAcross interval others (left - count) (n + count) components

/-- Add what a scan brings. -/
def readScan? (s : Scan) (unitsAcross units interval : Nat) (stretches : List (Array UInt8))
    (components : Array Component) : Option (Array Component) :=
  stretches? s unitsAcross interval stretches (unitCount components s units) 0 components

end WindowSurvey.Jpeg
