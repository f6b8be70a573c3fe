import WindowSurvey.Picture.Jpeg.Reader
/-!
# Writing JPEG

A picture, or its red channel as a gray one, as a JPEG stream with one scan. Every component has a sample for
each pixel. All code words of a table have one length, so a symbol is its own code word.

## Main definitions

* `Jpeg.coefficients` — the divided coefficients of a square of samples
* `Jpeg.squareBits` — how they are written
* `Jpeg.encode` — the stream of a picture
-/

namespace WindowSurvey.Jpeg

/-! ## Samples and coefficients -/

/-- The divisors for brightness, row by row: those in common use, halved. -/
def lumaDivisors : Array Nat :=
  #[8, 6, 5, 8, 12, 20, 26, 31, 6, 6, 7, 10, 13, 29, 30, 28, 7, 7, 8, 12, 20, 29, 35, 28, 7, 9, 11, 15, 26,
    44, 40, 31, 9, 11, 19, 28, 34, 55, 52, 39, 12, 18, 28, 32, 41, 52, 57, 46, 25, 32, 39, 44, 52, 61, 60,
    51, 36, 46, 48, 49, 56, 50, 52, 50]

/-- The divisors for the differences of colour, row by row. -/
def chromaDivisors : Array Nat :=
  #[9, 9, 12, 24, 50, 50, 50, 50, 9, 11, 13, 33, 50, 50, 50, 50, 12, 13, 28, 50, 50, 50, 50, 50, 24, 33, 50,
    50, 50, 50, 50, 50, 50, 50, 50, 50, 50, 50, 50, 50, 50, 50, 50, 50, 50, 50, 50, 50, 50, 50, 50, 50, 50,
    50, 50, 50, 50, 50, 50, 50, 50, 50, 50, 50]

/-- The divisors of a component. -/
def divisors (component : Nat) : Array Nat := if component = 0 then lumaDivisors else chromaDivisors

/-- The brightness of a colour and its two differences, in whole steps. -/
def differences (c : Colour) : List Nat :=
  let r := c.red.toNat
  let g := c.green.toNat
  let b := c.blue.toNat
  let middle := 128 * 65536 + 32767
  [(19595 * r + 38469 * g + 7471 * b + 32767) / 65536,
    (32768 * b + middle - 11059 * r - 21709 * g) / 65536,
    (32768 * r + middle - 27439 * g - 5329 * b) / 65536]

/-- The nearest whole number; halves go away from zero. -/
def nearest (x : Float) : Int :=
  if x < 0.0 then -((0.5 - x).toUInt64.toNat : Int) else (x + 0.5).toUInt64.toNat

/-- The divided coefficients of a square of samples, coarse ones first. Coefficients lose their fraction
before they are divided. -/
def coefficients (divisors : Array Nat) (sample : Nat → Nat → Nat) : Array Int :=
  let waves := waves
  let half (value : Nat → Nat → Float) : Array Float := (Array.range 64).map fun i =>
    (List.range 8).foldl (fun sum x =>
      sum + waves.getD (x * 8 + i / 8) 0.0 * value x (i % 8)) 0.0
  let across := half fun x y => Float.ofNat (sample x y) - 128.0
  let both := half fun y u => across.getD (u * 8 + y) 0.0
  order.map fun i =>
    let whole := (nearest (8.0 * both.getD i 0.0)).tdiv 8
    nearest (Float.ofInt whole / Float.ofNat (divisors.getD i 1))

/-! ## Bits -/

/-- A number as so many bits, highest first. -/
def bitsOf (count n : Nat) : List Bool := (List.range count).map fun i => n.testBit (count - 1 - i)

/-- How many bits a number with a sign takes, and the bits. -/
def signedBits (v : Int) : Nat × List Bool :=
  let size := if v = 0 then 0 else v.natAbs.log2 + 1
  (size, bitsOf size (if v < 0 then (v + Nat.pow 2 size - 1).toNat else v.toNat))

/-- The fine coefficients of a square, behind a number of zeros. -/
def fineBits : List Int → Nat → List Bool
  | [], zeros => if zeros = 0 then [] else bitsOf 9 0
  | v :: vs, zeros =>
    if v = 0 then fineBits vs (zeros + 1)
    else
      let (size, bits) := signedBits v
      (List.replicate (zeros / 16) (bitsOf 9 0xF0)).flatten
        ++ bitsOf 9 (zeros % 16 * 16 + size) ++ bits ++ fineBits vs 0

/-- The coefficients of a square whose coarsest one is written as a difference to the last one. -/
def squareBits (last : Int) (cs : Array Int) : List Bool :=
  let (size, bits) := signedBits (cs.getD 0 0 - last)
  bitsOf 4 size ++ bits ++ fineBits (cs.toList.drop 1) 0

/-- Add bits to bytes. `n` holds the `count` bits of the byte that is not full yet; a byte of ones is
followed by zero. -/
def pack : List Bool → Nat → Nat → Array UInt8 → Array UInt8
  | [], n, count, out =>
    if count = 0 then out else out.push ((n + 1) * Nat.pow 2 (8 - count) - 1).toUInt8
  | b :: bs, n, count, out =>
    let n := 2 * n + b.toNat
    if count < 7 then pack bs n (count + 1) out
    else
      let out := out.push n.toUInt8
      pack bs 0 0 (if n = 255 then out.push 0 else out)

/-! ## Streams -/

/-- A number of two bytes. -/
def twoBytes (n : Nat) : Array UInt8 := #[(n / 256).toUInt8, n.toUInt8]

/-- A segment behind its mark. -/
def segment (mark : UInt8) (body : Array UInt8) : Array UInt8 :=
  #[0xFF, mark] ++ twoBytes (body.size + 2) ++ body

/-- A table in which each of the first symbols is a code word of one length. -/
def codeTable (slot : UInt8) (length symbols : Nat) : Array UInt8 :=
  #[slot] ++ ((Array.range 16).map fun i => if i + 1 = length then symbols.toUInt8 else 0)
    ++ (Array.range symbols).map Nat.toUInt8

/-- A table of divisors. -/
def divisorTable (component : Nat) : Array UInt8 :=
  #[component.toUInt8] ++ order.map fun i => ((divisors component).getD i 1).toUInt8

/-- The samples of all pixels, one list for each pixel. -/
def pixelSamples (gray : Bool) (p : Rgba) : Array (List Nat) :=
  (Array.range (p.width * p.height)).map fun i =>
    let c := PixelFormat.rgba8.colour p.pixels i
    if gray then [c.red.toNat] else differences c

/-- The squares of all components in the order of a scan. Squares that reach over the edge repeat the
pixels at it. -/
def squares (width height components : Nat) (pixels : Array (List Nat)) : List (Nat × Array Int) :=
  let across := (width + 7) / 8
  (List.range (across * ((height + 7) / 8) * components)).map fun n =>
    let k := n % components
    let left := n / components % across * 8
    let top := n / components / across * 8
    let pixel (x y : Nat) := pixels.getD (min (top + y) (height - 1) * width + min (left + x) (width - 1)) []
    (k, coefficients (divisors k) fun x y => (pixel x y).getD k 0)

/-- The bits of squares, given the last coarsest coefficient of each component. -/
def scanBits : List (Nat × Array Int) → Array Int → List (List Bool)
  | [], _ => []
  | (k, cs) :: others, last =>
    squareBits (last.getD k 0) cs :: scanBits others (last.setIfInBounds k (cs.getD 0 0))

/-- The stream of a picture. -/
def encode (gray : Bool) (p : Rgba) : Array UInt8 :=
  let components := if gray then 1 else 3
  let described := (Array.range components).flatMap fun k =>
    #[(k + 1).toUInt8, 0x11, if k = 0 then 0 else 1]
  let selected := (Array.range components).flatMap fun k => #[(k + 1).toUInt8, 0]
  let bits := scanBits (squares p.width p.height components (pixelSamples gray p)) #[0, 0, 0]
  #[0xFF, 0xD8]
    ++ segment 0xDB (divisorTable 0 ++ divisorTable 1)
    ++ segment 0xC0 (#[8] ++ twoBytes p.height ++ twoBytes p.width ++ #[components.toUInt8] ++ described)
    ++ segment 0xC4 (codeTable 0x00 4 12 ++ codeTable 0x10 9 255)
    ++ segment 0xDA (#[components.toUInt8] ++ selected ++ #[0, 63, 0])
    ++ pack bits.flatten 0 0 #[] ++ #[0xFF, 0xD9]

end WindowSurvey.Jpeg
