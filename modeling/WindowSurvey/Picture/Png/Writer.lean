import WindowSurvey.Picture.Png.Chunk
import WindowSurvey.Picture.Rgba
/-!
# Writing PNG

A colour picture as a PNG stream: signature, header, one chunk of pixel rows in stored (not compressed)
blocks, end mark. Every row carries the filter type that leaves it as it is.

## Main definitions

* `Png.encode?` — the stream of a picture with at least one pixel
-/

namespace WindowSurvey.Png

/-- The greatest content of a stored block. -/
def blockSize : Nat := 65535

/-- Cut a stream into stored blocks; the last one is marked. -/
def storedBlocks (bytes : Array UInt8) : Nat → Nat → Array UInt8 → Array UInt8
  | 0, _, out => out
  | count + 1, start, out =>
    let part := bytes.extract start (start + blockSize)
    let size := UInt16.ofNat part.size
    let inverse := size ^^^ 0xffff
    let head : Array UInt8 := #[if count = 0 then 1 else 0, size.toUInt8, (size >>> 8).toUInt8,
      inverse.toUInt8, (inverse >>> 8).toUInt8]
    storedBlocks bytes count (start + blockSize) (out ++ head ++ part)

/-- The compressed form of a stream that compresses nothing. -/
def stored (bytes : Array UInt8) : Array UInt8 :=
  let count := max 1 ((bytes.size + blockSize - 1) / blockSize)
  storedBlocks bytes count 0 #[0x78, 0x01] ++ bigEndian (adler bytes)

/-- The rows of a picture, each behind a zero for its filter type. -/
def rows (p : Rgba) : Array UInt8 :=
  (List.range p.height).foldl (fun out y =>
    (out.push 0) ++ p.pixels.extract (y * p.width * 4) ((y + 1) * p.width * 4)) #[]

/-- The header: sides, eight bits a channel, colour with opacity, no interlacing. -/
def header (width height : Nat) : Array UInt8 :=
  bigEndian (UInt32.ofNat width) ++ bigEndian (UInt32.ofNat height) ++ #[8, 6, 0, 0, 0]

/-- The stream of a picture, which must have a pixel. -/
def encode? (p : Rgba) : Except String (Array UInt8) :=
  if p.width = 0 then .error "zero width not allowed"
  else if p.height = 0 then .error "zero height not allowed"
  else .ok (signature ++ chunk "IHDR" (header p.width p.height) ++ chunk "IDAT" (stored (rows p))
    ++ chunk "IEND" #[])

end WindowSurvey.Png
