import WindowSurvey.Picture.Rgba
/-!
# Scaling pictures

A scaled sample is a weighted mean of the samples around it. The weights fall off linearly from the
sample's place; when a picture shrinks, the fall is stretched so that every source sample counts.
Columns are scaled first and rows second, and all sums are single precision, taken in order, so the
bytes of the result are determined.

## Main definitions

* `Taps.of` — the weights of one scaled sample
* `Rgba.resample` — a part of a picture, scaled
-/

namespace WindowSurvey

/-- The weights of one scaled sample: the first source sample it uses, and one weight for each from
there on. The weights add up to one. -/
structure Taps where
  first : Nat
  weights : Array Float32

namespace Taps

/-- The whole part of a number that is not negative, and zero for a negative one. -/
def floorNat (x : Float32) : Nat := if x ≤ 0.0 then 0 else x.toUInt64.toNat

/-- The least natural number that is not below a number. -/
def ceilNat (x : Float32) : Nat :=
  let n := floorNat x
  if Float32.ofNat n < x then n + 1 else n

/-- The weight of a sample at a distance, before the weights are made to add up to one. -/
def falloff (distance : Float32) : Float32 :=
  let t := distance.abs
  if t < 1.0 then 1.0 - t else 0.0

/-- The weights of sample `o` when `n` samples become `m`. -/
def of (n m o : Nat) : Taps :=
  let ratio := Float32.ofNat n / Float32.ofNat m
  let spread : Float32 := if ratio < 1.0 then 1.0 else ratio
  let centre := (Float32.ofNat o + 0.5) * ratio
  let left := min (floorNat (centre - spread)) (n - 1)
  let right := min (max (ceilNat (centre + spread)) (left + 1)) n
  let middle := centre - 0.5
  let raw := (Array.range (right - left)).map fun i =>
    falloff ((Float32.ofNat (left + i) - middle) / spread)
  let total := raw.foldl (· + ·) 0.0
  ⟨left, raw.map (· / total)⟩

/-- The weighted mean of the samples, added up in order. -/
def mean (taps : Taps) (sample : Nat → Float32) : Float32 :=
  (taps.weights.foldl (fun (sum, i) w => (sum + sample i * w, i + 1)) ((0.0 : Float32), taps.first)).1

end Taps

/-- The nearest byte; halves go up, and numbers outside the range of bytes go to its ends. -/
def roundByte (v : Float32) : UInt8 :=
  if v ≤ 0.0 then 0
  else if v ≥ 255.0 then 255
  else
    let whole := v.toUInt8
    if v - Float32.ofNat whole.toNat ≥ 0.5 then whole + 1 else whole

namespace Rgba

/-- Scale the part of a picture that begins at `x0`, `y0` and has sides `w` and `h` to the sides `w'`
and `h'`. -/
def resample (p : Rgba) (x0 y0 w h w' h' : Nat) : Rgba :=
  let downTaps := (Array.range h').map fun o => Taps.of h h' o
  let columns : Array Float32 := Array.ofFn fun i : Fin (w * h' * 4) =>
    let x := i / 4 % w
    match downTaps[i / 4 / w]? with
    | some taps => taps.mean fun y => Float32.ofNat (p.channel (x0 + x) (y0 + y) (i % 4)).toNat
    | none => 0.0
  let acrossTaps := (Array.range w').map fun o => Taps.of w w' o
  build w' h' fun x y c =>
    match acrossTaps[x]? with
    | some taps => roundByte (taps.mean fun x => columns.getD ((y * w + x) * 4 + c) 0.0)
    | none => 0

/-- The part of a picture that begins at `x0`, `y0` and has sides `w` and `h`. -/
def crop (p : Rgba) (x0 y0 w h : Nat) : Rgba :=
  build w h fun x y c => p.channel (x0 + x) (y0 + y) c

/-- A picture of zero bytes. -/
def blank (w h : Nat) : Rgba := build w h fun _ _ _ => 0

end Rgba

end WindowSurvey
