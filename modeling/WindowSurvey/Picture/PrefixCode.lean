/-!
# Prefix codes

Compressed pictures write frequent symbols with few bits. A code is a binary tree with a symbol at the end
of every word, so no word begins another one. Codes are given by the lengths of their words: shorter words
come first, and words of one length follow each other in the order of their symbols.

## Main definitions

* `PrefixCode`, `PrefixCode.insert?` — the tree, and a further word
* `PrefixCode.ofWords?`, `PrefixCode.ofLengths?` — the code with given lengths
* `PrefixCode.read?` — the next symbol of a row of bits
-/

namespace WindowSurvey

/-- A code as a tree: the first bit of a word chooses a branch. -/
inductive PrefixCode where
  | empty
  | leaf (symbol : Nat)
  | node (zero one : PrefixCode)
  deriving Repr, Inhabited

namespace PrefixCode

/-- Add a word. There is no code in which one word begins another. -/
def insert? (symbol : Nat) : List Bool → PrefixCode → Option PrefixCode
  | [], empty => some (leaf symbol)
  | [], _ => none
  | false :: bits, empty => (insert? symbol bits empty).map (node · empty)
  | true :: bits, empty => (insert? symbol bits empty).map (node empty)
  | _ :: _, leaf _ => none
  | false :: bits, node zero one => (insert? symbol bits zero).map (node · one)
  | true :: bits, node zero one => (insert? symbol bits one).map (node zero)

/-- The lowest bits of a number, highest first. -/
def bitsOf : Nat → Nat → List Bool
  | 0, _ => []
  | count + 1, n => n.testBit count :: bitsOf count n

/-- Add words in order; each is the one after the last, made longer by zeros as needed. `next` is the first
free word of the given length. -/
def addWords? : List (Nat × Nat) → Nat → Nat → PrefixCode → Option PrefixCode
  | [], _, _, code => some code
  | (symbol, length) :: words, next, reached, code =>
    let next := next * Nat.pow 2 (length - reached)
    if next < Nat.pow 2 length then do
      let code ← insert? symbol (bitsOf length next) code
      addWords? words (next + 1) length code
    else none

/-- The code of symbols with the lengths of their words, which come in ascending order of the lengths. -/
def ofWords? (words : List (Nat × Nat)) : Option PrefixCode := addWords? words 0 0 empty

/-- The code of the symbols from zero on whose words have these lengths; a length of zero marks a symbol
without a word. -/
def ofLengths? (lengths : List Nat) : Option PrefixCode :=
  let used := (lengths.zipIdx.filter fun w => w.1 ≠ 0).map fun w => (w.2, w.1)
  ofWords? (used.mergeSort fun a b => a.2 ≤ b.2)

/-- The symbol whose word begins at a place of a row of bits, and the place behind it. -/
def read? (bit? : Nat → Option Bool) : PrefixCode → Nat → Option (Nat × Nat)
  | empty, _ => none
  | leaf symbol, place => some (symbol, place)
  | node zero one, place =>
    match bit? place with
    | none => none
    | some false => read? bit? zero (place + 1)
    | some true => read? bit? one (place + 1)

end PrefixCode

end WindowSurvey
