import WindowSurvey.Picture.Inflate
import WindowSurvey.Picture.Png.Chunk
import WindowSurvey.Picture.Rgba
/-!
# Reading PNG

The pixels of a PNG stream, whatever its colours, depth and order of rows, as a colour picture. Samples
with fewer than eight bits are spread over the whole range, those with sixteen are rounded.

## Main definitions

* `Png.Header`, `Png.chunks?` — the header of a stream, and its chunks
* `Png.Plane`, `Png.planes?` — the pixels as they are stored: all at once, or in seven passes
* `Png.decode?` — the picture of a stream
-/

namespace WindowSurvey.Png

/-! ## Chunks -/

/-- A chunk with its name. -/
structure Chunk where
  name : String
  content : Array UInt8

/-- The chunks from a place on, up to the one that ends the stream. Every chunk takes twelve bytes or
more. -/
def chunks? (bytes : Array UInt8) : Nat → Nat → Option (List Chunk)
  | 0, _ => none
  | fuel + 1, place =>
    let size := wordAt bytes place
    if bytes.size < place + 12 + size then none
    else
      let body := bytes.extract (place + 4) (place + 8 + size)
      let name := String.ofList ((body.extract 0 4).toList.map fun b => Char.ofNat b.toNat)
      if (crc body).toNat ≠ wordAt bytes (place + 8 + size) then none
      else
        let chunk : Chunk := ⟨name, body.extract 4 body.size⟩
        if name = "IEND" then some [chunk]
        else (chunks? bytes fuel (place + 12 + size)).map (chunk :: ·)

/-- How the colours of a stream are written. -/
inductive Colours where
  | gray
  | rgb
  | palette
  | grayAlpha
  | rgba
  deriving DecidableEq, Repr

namespace Colours

/-- The colours by their number in the header. -/
def ofNumber? : Nat → Option Colours
  | 0 => some gray
  | 2 => some rgb
  | 3 => some palette
  | 4 => some grayAlpha
  | 6 => some rgba
  | _ => none

/-- How many samples a pixel has. -/
def samples : Colours → Nat
  | gray => 1
  | rgb => 3
  | palette => 1
  | grayAlpha => 2
  | rgba => 4

/-- The depths that samples may have, in bits. -/
def depths : Colours → List Nat
  | gray => [1, 2, 4, 8, 16]
  | palette => [1, 2, 4, 8]
  | rgb => [8, 16]
  | grayAlpha => [8, 16]
  | rgba => [8, 16]

end Colours

/-- What the header of a stream says. -/
structure Header where
  width : Nat
  height : Nat
  depth : Nat
  colours : Colours
  interlaced : Bool

/-- Read the header. -/
def header? (content : Array UInt8) : Option Header := do
  let width := wordAt content 0
  let height := wordAt content 4
  let depth := (← content[8]?).toNat
  let colours ← Colours.ofNumber? (← content[9]?).toNat
  let compression ← content[10]?
  let filtering ← content[11]?
  let order := (← content[12]?).toNat
  if content.size = 13 ∧ 0 < width ∧ 0 < height ∧ colours.depths.contains depth
      ∧ compression = 0 ∧ filtering = 0 ∧ order < 2 then
    some ⟨width, height, depth, colours, order = 1⟩
  else none

/-! ## Rows -/

/-- Whichever of three neighbours is nearest to left plus above minus corner; ties go in this order. -/
def nearest (left above corner : Nat) : Nat :=
  let guess : Int := left + above - corner
  let far (n : Nat) : Nat := (guess - n).natAbs
  if far left ≤ far above ∧ far left ≤ far corner then left
  else if far above ≤ far corner then above
  else corner

/-- What a filter adds to a byte. -/
def prediction? (filter left above corner : Nat) : Option Nat :=
  match filter with
  | 0 => some 0
  | 1 => some left
  | 2 => some above
  | 3 => some ((left + above) / 2)
  | 4 => some (nearest left above corner)
  | _ => none

/-- Undo the filter of a row, byte by byte. `out` holds the rows so far without their filters, `unit` is the
distance to the left neighbour and `size` the length of a row. -/
def unfilterRow? (raw : Array UInt8) (filter unit size start : Nat) (first : Bool) :
    Nat → Nat → Array UInt8 → Option (Array UInt8)
  | 0, _, out => some out
  | left + 1, i, out =>
    let here := out.size
    let a := if unit ≤ i then (out.getD (here - unit) 0).toNat else 0
    let b := if first then 0 else (out.getD (here - size) 0).toNat
    let c := if unit ≤ i && !first then (out.getD (here - size - unit) 0).toNat else 0
    match prediction? filter a b c with
    | none => none
    | some p =>
      let v := (raw.getD (start + i) 0) + p.toUInt8
      unfilterRow? raw filter unit size start first left (i + 1) (out.push v)

/-- Undo the filters of all rows. -/
def unfilter? (raw : Array UInt8) (unit size : Nat) :
    Nat → Nat → Bool → Array UInt8 → Option (Array UInt8)
  | 0, _, _, out => some out
  | rows + 1, start, first, out =>
    match raw[start]? with
    | none => none
    | some filter =>
      match unfilterRow? raw filter.toNat unit size (start + 1) first size 0 out with
      | none => none
      | some out => unfilter? raw unit size rows (start + 1 + size) false out

/-! ## Planes -/

/-- Pixels that are stored together: those in every `stepX`th column from `left` on, and likewise for
rows. -/
structure Plane where
  left : Nat
  top : Nat
  stepX : Nat
  stepY : Nat
  rowSize : Nat
  bytes : Array UInt8

/-- Where the pixels of the passes lie: left, top, and the steps between columns and rows. -/
def passes (interlaced : Bool) : List (Nat × Nat × Nat × Nat) :=
  if interlaced then
    [(0, 0, 8, 8), (4, 0, 8, 8), (0, 4, 4, 8), (2, 0, 4, 4), (0, 2, 2, 4), (1, 0, 2, 2), (0, 1, 1, 2)]
  else [(0, 0, 1, 1)]

/-- How many of the first `n` places are met from `start` on in steps. -/
def met (n start step : Nat) : Nat := (n - start + step - 1) / step

/-- The planes of a stream of rows. A pass without pixels is not stored. -/
def planes? (h : Header) (raw : Array UInt8) : List (Nat × Nat × Nat × Nat) → Nat → Option (List Plane)
  | [], _ => some []
  | (left, top, stepX, stepY) :: others, start => do
    let width := met h.width left stepX
    let height := met h.height top stepY
    if width = 0 ∨ height = 0 then planes? h raw others start
    else
      let bits := h.colours.samples * h.depth
      let size := (width * bits + 7) / 8
      if raw.size < start + height * (size + 1) then none
      else
        let bytes ← unfilter? raw (max 1 (bits / 8)) size height start true #[]
        let others ← planes? h raw others (start + height * (size + 1))
        return ⟨left, top, stepX, stepY, size, bytes⟩ :: others

/-- Whether a pixel lies in a plane. -/
def Plane.holds (p : Plane) (x y : Nat) : Bool :=
  p.left ≤ x && p.top ≤ y && (x - p.left) % p.stepX = 0 && (y - p.top) % p.stepY = 0

/-- A sample of a pixel of the plane. -/
def Plane.sample (p : Plane) (h : Header) (x y c : Nat) : Nat :=
  let column := (x - p.left) / p.stepX * h.colours.samples + c
  let row := (y - p.top) / p.stepY * p.rowSize
  if h.depth = 16 then
    (p.bytes.getD (row + 2 * column) 0).toNat * 256 + (p.bytes.getD (row + 2 * column + 1) 0).toNat
  else if h.depth = 8 then (p.bytes.getD (row + column) 0).toNat
  else
    let bit := column * h.depth
    let byte := (p.bytes.getD (row + bit / 8) 0).toNat
    byte / Nat.pow 2 (8 - h.depth - bit % 8) % Nat.pow 2 h.depth

/-! ## Colours -/

/-- A sample as a byte. -/
def byteOf (depth v : Nat) : UInt8 :=
  if depth = 16 then ((v + 128) / 257).toUInt8 else (v * 255 / (Nat.pow 2 depth - 1)).toUInt8

/-- What a stream says about colours besides its pixels: the palette, and what is transparent. -/
structure Extras where
  palette : Array UInt8
  transparent : Option (Array UInt8)

/-- Whether a pixel is the transparent one. -/
def isTransparent (extras : Extras) (samples : List Nat) : Bool :=
  match extras.transparent with
  | none => false
  | some key =>
    samples.zipIdx.all fun (v, i) =>
      v = (key.getD (2 * i) 0).toNat * 256 + (key.getD (2 * i + 1) 0).toNat

/-- A colour of the palette. -/
def paletteColour (extras : Extras) (i : Nat) : Colour :=
  let byte (k : Nat) : UInt8 := extras.palette.getD (3 * i + k) 0
  let alpha := match extras.transparent with
    | none => 255
    | some alphas => alphas.getD i 255
  ⟨byte 0, byte 1, byte 2, alpha⟩

/-- The colour of a pixel. -/
def colourAt (h : Header) (extras : Extras) (p : Plane) (x y : Nat) : Colour :=
  let sample (c : Nat) : Nat := p.sample h x y c
  let byte (c : Nat) : UInt8 := byteOf h.depth (sample c)
  match h.colours with
  | .gray =>
    let v := byte 0
    ⟨v, v, v, if isTransparent extras [sample 0] then 0 else 255⟩
  | .rgb =>
    let alpha := if isTransparent extras [sample 0, sample 1, sample 2] then 0 else 255
    ⟨byte 0, byte 1, byte 2, alpha⟩
  | .palette => paletteColour extras (sample 0)
  | .grayAlpha => ⟨byte 0, byte 0, byte 0, byte 1⟩
  | .rgba => ⟨byte 0, byte 1, byte 2, byte 3⟩

/-- The colour of a pixel, which is looked for in all planes. -/
def pixel (h : Header) (extras : Extras) (planes : List Plane) (x y : Nat) : Colour :=
  match planes.find? fun p => p.holds x y with
  | some p => colourAt h extras p x y
  | none => ⟨0, 0, 0, 0⟩

/-- The contents of all chunks of a name, one after the other. -/
def contents (chunks : List Chunk) (name : String) : Array UInt8 :=
  (chunks.filter fun c => c.name = name).foldl (fun out c => out ++ c.content) #[]

/-- The picture of a stream. -/
def decode? (bytes : Array UInt8) : Option Rgba := do
  if bytes.extract 0 8 != signature then none
  let chunks ← chunks? bytes (bytes.size / 12 + 1) 8
  let first ← chunks.head?
  let h ← if first.name = "IHDR" then header? first.content else none
  let raw ← Inflate.stream? (contents chunks "IDAT")
  let planes ← planes? h raw (passes h.interlaced) 0
  let palette := contents chunks "PLTE"
  let transparent := (chunks.find? fun c => c.name = "tRNS").map Chunk.content
  if h.colours = .palette ∧ palette.isEmpty then none
  let colours := (Array.range (h.width * h.height)).map fun i =>
    pixel h ⟨palette, transparent⟩ planes (i % h.width) (i / h.width)
  return .build h.width h.height fun x y c => Rgba.byteOf (colours.getD (y * h.width + x) default) c

end WindowSurvey.Png
