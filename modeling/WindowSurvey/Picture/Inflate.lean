import WindowSurvey.Picture.PrefixCode
/-!
# Compressed streams

A compressed stream is a row of blocks. A block is stored as it is, or it writes bytes and repetitions of
earlier bytes with two prefix codes, either the usual ones or codes of its own.

## Main definitions

* `Inflate.block?` — one block
* `Inflate.stream?` — the bytes of a stream behind its two leading bytes
-/

namespace WindowSurvey.Inflate

/-- A bit of a stream: the lowest bit of a byte comes first. -/
def bit? (bytes : Array UInt8) (place : Nat) : Option Bool :=
  match bytes[place / 8]? with
  | some b => some (b.toNat.testBit (place % 8))
  | none => none

/-- A number of some bits, lowest first. -/
def number? (bytes : Array UInt8) : Nat → Nat → Option Nat
  | 0, _ => some 0
  | count + 1, place => do
    let bit ← bit? bytes place
    let rest ← number? bytes count (place + 1)
    return 2 * rest + bit.toNat

/-- Lengths of repetitions, by symbol: the least one and how many bits are added to it. -/
def lengthSteps : Array (Nat × Nat) :=
  #[(3, 0), (4, 0), (5, 0), (6, 0), (7, 0), (8, 0), (9, 0), (10, 0), (11, 1), (13, 1), (15, 1), (17, 1),
    (19, 2), (23, 2), (27, 2), (31, 2), (35, 3), (43, 3), (51, 3), (59, 3), (67, 4), (83, 4), (99, 4),
    (115, 4), (131, 5), (163, 5), (195, 5), (227, 5), (258, 0)]

/-- Distances of repetitions, by symbol: the least one and how many bits are added to it. -/
def distanceSteps : Array (Nat × Nat) :=
  #[(1, 0), (2, 0), (3, 0), (4, 0), (5, 1), (7, 1), (9, 2), (13, 2), (17, 3), (25, 3), (33, 4), (49, 4),
    (65, 5), (97, 5), (129, 6), (193, 6), (257, 7), (385, 7), (513, 8), (769, 8), (1025, 9), (1537, 9),
    (2049, 10), (3073, 10), (4097, 11), (6145, 11), (8193, 12), (12289, 12), (16385, 13), (24577, 13)]

/-- Repeat earlier bytes; a repetition may reach into itself. -/
def repeatBytes (distance : Nat) : Nat → Array UInt8 → Array UInt8
  | 0, out => out
  | count + 1, out => repeatBytes distance count (out.push (out.getD (out.size - distance) 0))

/-- A length or a distance, with the place behind it. -/
def stepAt? (bytes : Array UInt8) (steps : Array (Nat × Nat)) (symbol place : Nat) :
    Option (Nat × Nat) := do
  let (least, added) ← steps[symbol]?
  let extra ← number? bytes added place
  return (least + extra, place + added)

/-- The symbol that ends a block. -/
def endSymbol : Nat := 256

/-- Read symbols up to the end of a block. Every symbol takes a bit, so `fuel` may be the number of
bits. -/
def symbols? (bytes : Array UInt8) (literals distances : PrefixCode) :
    Nat → Nat → Array UInt8 → Option (Nat × Array UInt8)
  | 0, _, _ => none
  | fuel + 1, place, out =>
    match literals.read? (bit? bytes) place with
    | none => none
    | some (symbol, place) =>
      if symbol < endSymbol then symbols? bytes literals distances fuel place (out.push symbol.toUInt8)
      else if symbol = endSymbol then some (place, out)
      else
        match stepAt? bytes lengthSteps (symbol - endSymbol - 1) place with
        | none => none
        | some (length, place) =>
          match distances.read? (bit? bytes) place with
          | none => none
          | some (symbol, place) =>
            match stepAt? bytes distanceSteps symbol place with
            | none => none
            | some (distance, place) =>
              if out.size < distance then none
              else symbols? bytes literals distances fuel place (repeatBytes distance length out)

/-- The usual lengths of the words for bytes and repetitions. -/
def usualLiterals : List Nat :=
  List.replicate 144 8 ++ List.replicate 112 9 ++ List.replicate 24 7 ++ List.replicate 8 8

/-- The usual lengths of the words for distances. -/
def usualDistances : List Nat := List.replicate 30 5

/-- The order in which the lengths of the words for lengths are written. -/
def lengthOrder : List Nat := [16, 17, 18, 0, 8, 7, 9, 6, 10, 5, 11, 4, 12, 3, 13, 2, 14, 1, 15]

/-- Read lengths of words, which are themselves written with a code: a length, or a repetition of the last
one or of zero. The lengths so far come last first. -/
def lengths? (bytes : Array UInt8) (code : PrefixCode) (total : Nat) :
    Nat → Nat → List Nat → Option (Nat × List Nat)
  | 0, _, _ => none
  | fuel + 1, place, found =>
    if total ≤ found.length then (if found.length = total then some (place, found.reverse) else none)
    else do
      let (symbol, place) ← code.read? (bit? bytes) place
      if symbol < 16 then lengths? bytes code total fuel place (symbol :: found)
      else if symbol = 16 then
        let last ← found.head?
        let extra ← number? bytes 2 place
        lengths? bytes code total fuel (place + 2) (List.replicate (3 + extra) last ++ found)
      else if symbol = 17 then
        let extra ← number? bytes 3 place
        lengths? bytes code total fuel (place + 3) (List.replicate (3 + extra) 0 ++ found)
      else
        let extra ← number? bytes 7 place
        lengths? bytes code total fuel (place + 7) (List.replicate (11 + extra) 0 ++ found)

/-- The lengths of the words for lengths, put in their own order. -/
def orderedLengths (written : List Nat) : List Nat :=
  (List.range 19).map fun symbol => ((lengthOrder.zip written).lookup symbol).getD 0

/-- The codes that a block brings along. -/
def ownCodes? (bytes : Array UInt8) (place : Nat) : Option (PrefixCode × PrefixCode × Nat) := do
  let literals := 257 + (← number? bytes 5 place)
  let distances := 1 + (← number? bytes 5 (place + 5))
  let count := 4 + (← number? bytes 4 (place + 10))
  let written ← (List.range count).mapM fun i => number? bytes 3 (place + 14 + 3 * i)
  let code ← PrefixCode.ofLengths? (orderedLengths written)
  let total := literals + distances
  let (place, found) ← lengths? bytes code total (total + 1) (place + 14 + 3 * count) []
  return (← PrefixCode.ofLengths? (found.take literals),
    ← PrefixCode.ofLengths? (found.drop literals), place)

/-- One block, with the place behind it. -/
def block? (bytes : Array UInt8) (place : Nat) (out : Array UInt8) : Option (Nat × Array UInt8) := do
  let kind ← number? bytes 2 (place + 1)
  let place := place + 3
  let fuel := 8 * bytes.size + 1
  if kind = 0 then
    let start := (place + 7) / 8
    let size ← number? bytes 16 (8 * start)
    let inverse ← number? bytes 16 (8 * start + 16)
    if size + inverse ≠ 0xffff ∨ bytes.size < start + 4 + size then none
    else return (8 * (start + 4 + size), out ++ bytes.extract (start + 4) (start + 4 + size))
  else if kind = 1 then
    let literals ← PrefixCode.ofLengths? usualLiterals
    let distances ← PrefixCode.ofLengths? usualDistances
    symbols? bytes literals distances fuel place out
  else if kind = 2 then
    let (literals, distances, place) ← ownCodes? bytes place
    symbols? bytes literals distances fuel place out
  else none

/-- Read blocks up to the one that is marked as the last. -/
def blocks? (bytes : Array UInt8) : Nat → Nat → Array UInt8 → Option (Array UInt8)
  | 0, _, _ => none
  | fuel + 1, place, out =>
    match bit? bytes place with
    | none => none
    | some last =>
      match block? bytes place out with
      | none => none
      | some (place, out) => if last then some out else blocks? bytes fuel place out

/-- The bytes of a stream. Its two leading bytes name the method and are a multiple of thirty-one as one
number. -/
def stream? (bytes : Array UInt8) : Option (Array UInt8) := do
  let method ← bytes[0]?
  let flags ← bytes[1]?
  if method.toNat % 16 ≠ 8 ∨ (method.toNat * 256 + flags.toNat) % 31 ≠ 0 ∨ flags.toNat.testBit 5 then
    none
  else blocks? bytes (8 * bytes.size + 1) 16 #[]

end WindowSurvey.Inflate
