import WindowSurvey.Picture.Jpeg.Coefficients
import WindowSurvey.Picture.Rgba
/-!
# Reading JPEG

A JPEG stream is a row of segments behind two-byte marks: divisors, codes, the sides and components of the
picture, and scans. The coefficients of each square are multiplied by the divisors and turned into samples by
a cosine transform; components with fewer samples are spread over the picture.

## Main definitions

* `Jpeg.State`, `Jpeg.segments?` — what is known after some segments
* `Jpeg.samples` — the samples of a component
* `Jpeg.decode?` — the picture of a stream
-/

namespace WindowSurvey.Jpeg

/-- What is known after some segments. `transform` tells how an application marked the colours. -/
structure State where
  quantizers : Array (Array Nat) := Array.replicate 4 #[]
  coarseCodes : Array PrefixCode := Array.replicate 4 .empty
  fineCodes : Array PrefixCode := Array.replicate 4 .empty
  interval : Nat := 0
  width : Nat := 0
  height : Nat := 0
  progressive : Bool := false
  components : Array Component := #[]
  transform : Option Nat := none

namespace State

/-- The greatest factor by which components are finer than others, across. -/
def across (s : State) : Nat := s.components.foldl (fun n c => max n c.across) 1

/-- The greatest factor by which components are finer than others, down. -/
def down (s : State) : Nat := s.components.foldl (fun n c => max n c.down) 1

/-- How many units lie side by side. -/
def unitsAcross (s : State) : Nat := (s.width + 8 * s.across - 1) / (8 * s.across)

/-- How many units lie below each other. -/
def unitsDown (s : State) : Nat := (s.height + 8 * s.down - 1) / (8 * s.down)

end State

/-- A byte as a number; zero behind the end. -/
def byteAt (bytes : Array UInt8) (i : Nat) : Nat := (bytes.getD i 0).toNat

/-- A number of two bytes, the higher one first. -/
def wordAt (bytes : Array UInt8) (i : Nat) : Nat := byteAt bytes i * 256 + byteAt bytes (i + 1)

/-! ## Segments -/

/-- Read tables of divisors, of one or two bytes each. -/
def quantizers? (body : Array UInt8) : Nat → Nat → State → Option State
  | 0, _, s => some s
  | fuel + 1, i, s =>
    if body.size ≤ i then some s
    else
      let wide := 16 ≤ byteAt body i
      let size := if wide then 2 else 1
      if body.size < i + 1 + 64 * size then none
      else
        let table := (Array.range 64).map fun k =>
          if wide then wordAt body (i + 1 + 2 * k) else byteAt body (i + 1 + k)
        quantizers? body fuel (i + 1 + 64 * size)
          { s with quantizers := s.quantizers.setIfInBounds (byteAt body i % 16) table }

/-- Read codes: how many words there are of each length, then their symbols. -/
def codes? (body : Array UInt8) : Nat → Nat → State → Option State
  | 0, _, s => some s
  | fuel + 1, i, s =>
    if body.size ≤ i then some s
    else do
      let lengths := (List.range 16).flatMap fun k => List.replicate (byteAt body (i + 1 + k)) (k + 1)
      if body.size < i + 17 + lengths.length then none
      let words := lengths.zipIdx.map fun (length, k) => (byteAt body (i + 17 + k), length)
      let code ← PrefixCode.ofWords? words
      let slot := byteAt body i % 16
      let s := if byteAt body i < 16 then { s with coarseCodes := s.coarseCodes.setIfInBounds slot code }
        else { s with fineCodes := s.fineCodes.setIfInBounds slot code }
      codes? body fuel (i + 17 + lengths.length) s

/-- A component as the header of a picture names it, without squares yet. -/
def component (body : Array UInt8) (i : Nat) : Component where
  id := byteAt body i
  across := byteAt body (i + 1) / 16
  down := byteAt body (i + 1) % 16
  quantizer := byteAt body (i + 2)
  columns := 0
  rows := 0
  shownColumns := 0
  shownRows := 0
  coefficients := #[]

/-- A component with its squares, all coefficients zero. -/
def withSquares (s : State) (c : Component) : Component :=
  let columns := s.unitsAcross * c.across
  let rows := s.unitsDown * c.down
  let wide := (s.width * c.across + s.across - 1) / s.across
  let high := (s.height * c.down + s.down - 1) / s.down
  { c with
    columns
    rows
    shownColumns := (wide + 7) / 8
    shownRows := (high + 7) / 8
    coefficients := Array.replicate (columns * rows * 64) 0 }

/-- Read the header of the picture. Only samples of eight bits are known. -/
def frame? (body : Array UInt8) (progressive : Bool) (s : State) : Option State :=
  let count := byteAt body 5
  let components := (Array.range count).map fun i => component body (6 + 3 * i)
  let good (c : Component) : Bool := 0 < c.across && c.across ≤ 4 && 0 < c.down && c.down ≤ 4
  let s := { s with height := wordAt body 1, width := wordAt body 3, progressive, components }
  if byteAt body 0 = 8 ∧ body.size = 6 + 3 * count ∧ 0 < s.width ∧ 0 < s.height
      ∧ [1, 3, 4].contains count ∧ components.all good then
    some { s with components := components.map (withSquares s) }
  else none

/-- Read the header of a scan. -/
def scan? (body : Array UInt8) (s : State) : Option Scan := do
  let count := byteAt body 0
  if count = 0 ∨ 4 < count ∨ body.size ≠ 4 + 2 * count then none
  let selectors ← (List.range count).mapM fun i => do
    let component ← s.components.findIdx? fun c => c.id = byteAt body (1 + 2 * i)
    let codes := byteAt body (2 + 2 * i)
    some (⟨component, s.coarseCodes.getD (codes / 16) .empty, s.fineCodes.getD (codes % 16) .empty⟩ :
      Selector)
  let bits := byteAt body (3 + 2 * count)
  if s.progressive then
    let first := byteAt body (1 + 2 * count)
    let last := byteAt body (2 + 2 * count)
    if 63 < last ∨ (first ≠ 0 ∧ 1 < count) then none
    else return ⟨selectors, first, last, bits / 16, bits % 16, true⟩
  else return ⟨selectors, 0, 63, 0, 0, false⟩

/-- Collect the stretches of a scan: a byte of ones is followed by zero where it stands for itself, and by the
number of a stretch between two of them. The answer holds the place of the mark behind the scan. -/
def stretches (bytes : Array UInt8) :
    Nat → Nat → Array UInt8 → List (Array UInt8) → List (Array UInt8) × Nat
  | 0, i, out, done => ((out :: done).reverse, i)
  | fuel + 1, i, out, done =>
    match bytes[i]? with
    | none => ((out :: done).reverse, i)
    | some b =>
      if b ≠ 255 then stretches bytes fuel (i + 1) (out.push b) done
      else
        let next := byteAt bytes (i + 1)
        if next = 0 then stretches bytes fuel (i + 2) (out.push b) done
        else if 0xD0 ≤ next ∧ next ≤ 0xD7 then stretches bytes fuel (i + 2) #[] (out :: done)
        else if next = 255 then stretches bytes fuel (i + 1) out done
        else ((out :: done).reverse, i)

/-- Read segments from a place on, up to the end of the picture. Every segment takes two bytes. -/
def segments? (bytes : Array UInt8) : Nat → Nat → State → Option State
  | 0, _, _ => none
  | fuel + 1, i, s =>
    if bytes.size ≤ i then (if s.components.isEmpty then none else some s)
    else if byteAt bytes i ≠ 255 then none
    else
      let mark := byteAt bytes (i + 1)
      if mark = 255 then segments? bytes fuel (i + 1) s
      else if mark = 0xD9 then some s
      else
        let size := wordAt bytes (i + 2)
        let next := i + 2 + size
        let body := bytes.extract (i + 4) next
        if size < 2 ∨ bytes.size < next then none
        else if mark = 0xDB then
          (quantizers? body 65 0 s).bind (segments? bytes fuel next)
        else if mark = 0xC4 then (codes? body 65 0 s).bind (segments? bytes fuel next)
        else if mark = 0xDD then segments? bytes fuel next { s with interval := wordAt body 0 }
        else if mark = 0xC0 ∨ mark = 0xC1 ∨ mark = 0xC2 then
          if s.components.isEmpty then
            (frame? body (mark = 0xC2) s).bind (segments? bytes fuel next)
          else none
        else if mark = 0xDA then
          match scan? body s with
          | none => none
          | some scan =>
            let (found, next) := stretches bytes bytes.size next #[] []
            let components := s.components
            let units := s.unitsAcross * s.unitsDown
            match readScan? scan s.unitsAcross units s.interval found components with
            | none => none
            | some components => segments? bytes fuel next { s with components }
        else if mark = 0xEE ∧ body.extract 0 5 = #[65, 100, 111, 98, 101] then
          segments? bytes fuel next { s with transform := some (byteAt body 11) }
        else if 0xC3 ≤ mark ∧ mark ≤ 0xCF ∧ mark ≠ 0xC8 ∧ mark ≠ 0xCC then none
        else segments? bytes fuel next s

/-! ## Samples -/

/-- The parts that a sample at `x` takes of the coefficients, for all eight places. -/
def waves : Array Float :=
  (Array.range 64).map fun i =>
    let x := (i / 8).toFloat
    let u := (i % 8).toFloat
    let scale := if i % 8 = 0 then (0.125 : Float).sqrt else 0.5
    scale * Float.cos ((2.0 * x + 1.0) * u * 3.141592653589793 / 16.0)

/-- Turn rows of coefficients into rows of samples, and columns into rows. Done twice, it turns a square of
coefficients into one of samples. -/
def transformed (waves square : Array Float) : Array Float :=
  (Array.range 64).map fun i =>
    (List.range 8).foldl (fun sum u =>
      sum + waves.getD (i / 8 * 8 + u) 0.0 * square.getD (i % 8 * 8 + u) 0.0) 0.0

/-- A sample as a byte: the middle of the range is zero. -/
def clamped (x : Float) : UInt8 :=
  let y := (x + 0.5).floor
  if y ≤ 0.0 then 0 else if 255.0 ≤ y then 255 else y.toUInt8

/-- The samples of all squares, square by square. -/
def samples (s : State) (c : Component) : Array UInt8 :=
  let waves := waves
  let divisors := s.quantizers.getD c.quantizer #[]
  let table := (List.range 64).foldl (fun (out : Array Nat) k =>
    out.setIfInBounds (order.getD k 0) (divisors.getD k 0)) (Array.replicate 64 0)
  (List.range (c.columns * c.rows)).foldl (fun out n =>
    let square := (Array.range 64).map fun i =>
      Float.ofInt (c.coefficients.getD (n * 64 + i) 0 * (table.getD i 0 : Nat))
    let square := transformed waves (transformed waves square)
    square.foldl (fun out v => out.push (clamped (v + 128.0))) out) #[]

/-- The sample of a component for a pixel of the picture. -/
def sampleAt (s : State) (c : Component) (plane : Array UInt8) (x y : Nat) : UInt8 :=
  let x := x * c.across / s.across
  let y := y * c.down / s.down
  plane.getD ((y / 8 * c.columns + x / 8) * 64 + y % 8 * 8 + x % 8) 0

/-! ## Colours -/

/-- The colour of a brightness and two differences. -/
def ofDifferences (y b r : UInt8) : Colour :=
  let y := Float.ofNat y.toNat
  let b := Float.ofNat b.toNat - 128.0
  let r := Float.ofNat r.toNat - 128.0
  ⟨clamped (y + 1.402 * r), clamped (y - 0.344136 * b - 0.714136 * r), clamped (y + 1.772 * b), 255⟩

/-- A colour seen through black ink; the ink is written as what it leaves. -/
def throughBlack (c : Colour) (k : UInt8) : Colour :=
  let part (v : UInt8) : UInt8 := ((v.toNat * k.toNat + 127) / 255).toUInt8
  ⟨part c.red, part c.green, part c.blue, 255⟩

/-- The colour that the components of a pixel make. -/
def colourOf (s : State) : List UInt8 → Colour
  | [v] => Colour.gray v
  | [a, b, c] => if s.transform = some 0 then ⟨a, b, c, 255⟩ else ofDifferences a b c
  | [a, b, c, k] =>
    throughBlack (if s.transform = some 2 then ofDifferences a b c else ⟨a, b, c, 255⟩) k
  | _ => ⟨0, 0, 0, 255⟩

/-- The picture of a stream. -/
def decode? (bytes : Array UInt8) : Option Rgba := do
  if bytes.extract 0 2 ≠ #[0xFF, 0xD8] then none
  let s ← segments? bytes bytes.size 2 {}
  let planes := s.components.toList.map fun c => (c, samples s c)
  let colours := (Array.range (s.width * s.height)).map fun i =>
    colourOf s (planes.map fun (c, plane) => sampleAt s c plane (i % s.width) (i / s.width))
  return .build s.width s.height fun x y c => Rgba.byteOf (colours.getD (y * s.width + x) default) c

end WindowSurvey.Jpeg
