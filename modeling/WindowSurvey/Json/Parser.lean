import WindowSurvey.Json.Basic
/-!
# From text to JSON tree

Every text has a tree: where the text stops being JSON, the tree ends in a break that tells whether
more text could have mended it. Only what stands behind a finished tree is reported beside it.

## Main definitions

* `Json.Document`, `Json.parse` — the tree of a text, and whether anything but blanks follows it
-/

namespace WindowSurvey.Json

/-- Blanks between tokens. -/
def isBlank (c : Char) : Bool := c = ' ' || c = '\n' || c = '\t' || c = '\r'

/-- The value of a hexadecimal digit. -/
def hexDigit? (c : Char) : Option Nat :=
  if '0' ≤ c ∧ c ≤ '9' then some (c.toNat - '0'.toNat)
  else if 'a' ≤ c ∧ c ≤ 'f' then some (c.toNat - 'a'.toNat + 10)
  else if 'A' ≤ c ∧ c ≤ 'F' then some (c.toNat - 'A'.toNat + 10)
  else none

/-- The character a one-letter escape stands for. -/
def escape? (c : Char) : Option Char :=
  match c with
  | '"' => some '"'
  | '\\' => some '\\'
  | '/' => some '/'
  | 'b' => some '\x08'
  | 'f' => some '\x0c'
  | 'n' => some '\n'
  | 'r' => some '\r'
  | 't' => some '\t'
  | _ => none

/-- What is known of a string while it is read: the characters so far, last first, the first half of a
surrogate pair that still waits for its second half, and whether a half stayed alone. -/
structure StringState where
  chars : List Char
  pending : Option Nat
  torn : Bool

namespace StringState

/-- The next unit is a plain character: a waiting half stays alone. -/
def plain (s : StringState) (c : Char) : StringState :=
  ⟨c :: s.chars, none, s.torn || s.pending.isSome⟩

/-- The next unit is an escaped 16-bit code. -/
def unit (s : StringState) (code : Nat) : StringState :=
  match s.pending with
  | some high =>
    if 0xDC00 ≤ code ∧ code < 0xE000 then
      ⟨Char.ofNat (0x10000 + (high - 0xD800) * 0x400 + (code - 0xDC00)) :: s.chars, none, s.torn⟩
    else ⟨s.chars, none, true⟩
  | none =>
    if 0xD800 ≤ code ∧ code < 0xDC00 then ⟨s.chars, some code, s.torn⟩
    else if 0xDC00 ≤ code ∧ code < 0xE000 then ⟨s.chars, none, true⟩
    else ⟨Char.ofNat code :: s.chars, none, s.torn⟩

/-- The string at its closing quote, unless a half stayed alone. -/
def close (s : StringState) : Option String :=
  if s.torn || s.pending.isSome then none else some (String.ofList s.chars.reverse)

end StringState

/-- The break at the end of a text inside a string, which a torn pair has broken before. -/
def unclosed (s : StringState) : Fault := if s.torn then .malformed else .endOfText

/-- The break at a code escape with fewer than four characters behind it: only four bytes could have
held digits. -/
def shortEscape (rest : List Char) : Fault :=
  if 4 ≤ (String.ofList rest).utf8ByteSize then .malformed else .endOfText

/-- Read a string behind its opening quote. A break inside the string is the whole answer. -/
def parseString (s : StringState) : List Char → Except Fault (Option String × List Char)
  | [] => .error (unclosed s)
  | '"' :: rest => .ok (s.close, rest)
  | '\\' :: 'u' :: a :: b :: c :: d :: rest =>
    match hexDigit? a, hexDigit? b, hexDigit? c, hexDigit? d with
    | some a, some b, some c, some d =>
      parseString (s.unit (((a * 16 + b) * 16 + c) * 16 + d)) rest
    | _, _, _, _ => .error .malformed
  | '\\' :: c :: rest =>
    if c = 'u' then
      .error (shortEscape rest)
    else match escape? c with
      | some e => parseString (s.plain e) rest
      | none => .error .malformed
  | '\\' :: [] => .error .endOfText
  | c :: rest => if c.toNat < 0x20 then .error .malformed else parseString (s.plain c) rest

/-- Skip blanks. -/
def skipBlanks : List Char → List Char
  | [] => []
  | c :: rest => if isBlank c then skipBlanks rest else c :: rest

/-- What is missing after a mark that must be followed by a digit. -/
def missingDigit : List Char → Fault
  | [] => .endOfText
  | _ :: _ => .malformed

/-- Read the exponent part behind the digits. -/
def parseExponent (negative : Bool) (whole : List Nat) (fraction : Option (List Nat)) :
    List Char → Except Fault (Literal × List Char)
  | [] => .ok (⟨negative, whole, fraction, none⟩, [])
  | c :: rest =>
    if c = 'e' ∨ c = 'E' then
      let (sign, rest) := Literal.takeSign rest
      match Literal.takeDigits rest with
      | ([], tail) => .error (missingDigit tail)
      | (ds, tail) => .ok (⟨negative, whole, fraction, some (sign, ds)⟩, tail)
    else .ok (⟨negative, whole, fraction, none⟩, c :: rest)

/-- Read a number behind its sign: no leading zeros, a digit on both sides of the point. -/
def parseNumber (negative : Bool) (cs : List Char) : Except Fault (Literal × List Char) :=
  match Literal.takeDigits cs with
  | ([], tail) => .error (missingDigit tail)
  | (0 :: _ :: _, _) => .error .malformed
  | (whole, '.' :: rest) =>
    match Literal.takeDigits rest with
    | ([], tail) => .error (missingDigit tail)
    | (ds, tail) => parseExponent negative whole (some ds) tail
  | (whole, tail) => parseExponent negative whole none tail

/-- Read the rest of a word. -/
def parseWord (value : Json) : List Char → List Char → Json × List Char
  | [], cs => (value, cs)
  | _ :: _, [] => (broken .endOfText, [])
  | w :: word, c :: cs => if w = c then parseWord value word cs else (broken .malformed, [])

/-- A number as a leaf. -/
def numberLeaf : Except Fault (Literal × List Char) → Json × List Char
  | .error fault => (broken fault, [])
  | .ok (l, rest) => (number (.ofLiteral l), rest)

mutual

/-- Read one value and return the text behind it. After a break the text behind is empty: every bracket
around the break is then cut as well, but a reader meets the innermost break first. -/
def parseValue : Nat → List Char → Json × List Char
  | 0, _ => (broken .malformed, [])
  | fuel + 1, cs =>
    match skipBlanks cs with
    | [] => (broken .endOfText, [])
    | '{' :: rest => parseMembers fuel true [] rest
    | '[' :: rest => parseItems fuel true [] rest
    | '"' :: rest =>
      match parseString ⟨[], none, false⟩ rest with
      | .ok (s, rest) => (text s, rest)
      | .error fault => (broken fault, [])
    | '-' :: rest => numberLeaf (parseNumber true rest)
    | 'n' :: rest => parseWord null ['u', 'l', 'l'] rest
    | 't' :: rest => parseWord (bool true) ['r', 'u', 'e'] rest
    | 'f' :: rest => parseWord (bool false) ['a', 'l', 's', 'e'] rest
    | c :: rest =>
      if (Literal.digit? c).isSome then numberLeaf (parseNumber false (c :: rest))
      else (broken .malformed, [])

/-- Read list items up to the closing bracket; `items` holds the earlier ones, last first. -/
def parseItems : Nat → Bool → List Json → List Char → Json × List Char
  | 0, _, items, _ => (array items.reverse (some .malformed), [])
  | fuel + 1, first, items, cs =>
    match skipBlanks cs with
    | [] => (array items.reverse (some .endOfText), [])
    | ']' :: rest => (array items.reverse none, rest)
    | c :: rest =>
      if first then
        let (item, tail) := parseValue fuel (c :: rest)
        parseItems fuel false (item :: items) tail
      else if c = ',' then
        match skipBlanks rest with
        | ']' :: _ => (array (broken .malformed :: items).reverse none, [])
        | cs =>
          let (item, tail) := parseValue fuel cs
          parseItems fuel false (item :: items) tail
      else (array items.reverse (some .malformed), [])

/-- Read members up to the closing brace; `members` holds the earlier ones, last first. -/
def parseMembers : Nat → Bool → List (Option String × Json) → List Char → Json × List Char
  | 0, _, members, _ => (object members.reverse (some .malformed), [])
  | fuel + 1, first, members, cs =>
    match skipBlanks cs with
    | [] => (object members.reverse (some .endOfText), [])
    | '}' :: rest => (object members.reverse none, rest)
    | c :: rest =>
      if first then parseMember fuel members (c :: rest)
      else if c = ',' then
        match skipBlanks rest with
        | [] => (object members.reverse (some .endOfText), [])
        | cs => parseMember fuel members cs
      else (object members.reverse (some .malformed), [])

/-- Read one member, which must begin with a quoted name, and go on behind it. -/
def parseMember : Nat → List (Option String × Json) → List Char → Json × List Char
  | 0, members, _ => (object members.reverse (some .malformed), [])
  | fuel + 1, members, cs =>
    match cs with
    | '"' :: rest =>
      match parseString ⟨[], none, false⟩ rest with
      | .error fault => (object members.reverse (some fault), [])
      | .ok (name, rest) =>
        match skipBlanks rest with
        | ':' :: rest =>
          let (value, tail) := parseValue fuel rest
          parseMembers fuel false ((name, value) :: members) tail
        | [] => (object ((name, broken .endOfText) :: members).reverse none, [])
        | _ :: _ => (object ((name, broken .malformed) :: members).reverse none, [])
    | _ => (object members.reverse (some .malformed), [])

end

/-- The tree of a text, and whether something other than blanks follows it. -/
structure Document where
  root : Json
  trailing : Bool
  deriving Inhabited

/-- Every text as a tree. Each step of the reader takes at least one character, so three steps a
character are enough. -/
def parse (s : String) : Document :=
  let cs := s.toList
  let (root, rest) := parseValue (3 * cs.length + 3) cs
  ⟨root, !(skipBlanks rest).isEmpty⟩

end WindowSurvey.Json
