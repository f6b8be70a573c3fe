import WindowSurvey.Frame
/-!
# The frame of a PNG stream

A PNG stream is a signature and a row of chunks, each with a length, a name, a content and a checksum.

## Main definitions

* `Png.crc`, `Png.adler` — the checksums of chunks and of pixel streams
* `Png.chunk` — a chunk with its checksum
* `Png.dimensions?` — the sides that the header of a stream names
-/

namespace WindowSurvey.Png

/-- One step of the checksum that chunks carry: eight bits of one byte. -/
def crcBits : Nat → UInt32 → UInt32
  | 0, c => c
  | n + 1, c => crcBits n (if c &&& 1 == 1 then (0xEDB88320 : UInt32) ^^^ (c >>> 1) else c >>> 1)

/-- The checksum steps of all bytes. -/
def crcTable : Array UInt32 := (Array.range 256).map fun n => crcBits 8 (UInt32.ofNat n)

/-- The checksum of a chunk. -/
def crc (bytes : Array UInt8) : UInt32 :=
  let table := crcTable
  let c := bytes.foldl (fun (c : UInt32) b =>
    table.getD ((c ^^^ b.toUInt32) &&& 0xff).toNat 0 ^^^ (c >>> 8)) 0xffffffff
  c ^^^ 0xffffffff

/-- The checksum of the pixel stream: two sums modulo 65521. -/
def adler (bytes : Array UInt8) : UInt32 :=
  let (a, b) := bytes.foldl (fun ((a, b) : UInt32 × UInt32) v =>
    let a := (a + v.toUInt32) % 65521
    (a, (b + a) % 65521)) (1, 0)
  (b <<< 16) ||| a

/-- A word with its highest byte first. -/
def bigEndian (w : UInt32) : Array UInt8 :=
  #[(w >>> 24).toUInt8, (w >>> 16).toUInt8, (w >>> 8).toUInt8, w.toUInt8]

/-- A chunk: length, name, content, checksum of name and content. -/
def chunk (name : String) (content : Array UInt8) : Array UInt8 :=
  let body := (name.toList.map fun c => c.toNat.toUInt8).toArray ++ content
  bigEndian (UInt32.ofNat content.size) ++ body ++ bigEndian (crc body)

/-- The eight bytes that begin every PNG stream. -/
def signature : Array UInt8 := #[0x89, 0x50, 0x4e, 0x47, 0x0d, 0x0a, 0x1a, 0x0a]

/-- A 32-bit word at a place in a stream, highest byte first. -/
def wordAt (bytes : Array UInt8) (i : Nat) : Nat :=
  (List.range 4).foldl (fun n k => n * 256 + (bytes.getD (i + k) 0).toNat) 0

/-- The sides that a stream's header names. -/
def dimensions? (bytes : Array UInt8) : Option Dimensions :=
  if bytes.extract 0 8 == signature && 24 ≤ bytes.size then
    some ⟨wordAt bytes 16, wordAt bytes 20⟩
  else none

end WindowSurvey.Png
