import WindowSurvey.Json.Decoding
/-!
# Run identifiers

A run is told apart by a 128-bit number, written as 32 hexadecimal digits in five groups. Four written
forms are read: the digits alone, the digits in groups, the groups in braces, and the groups behind
`urn:uuid:`. A text of another form is told what is wrong with it.

## Main definitions

* `RunId`, `RunId.text` — the number and its written form
* `RunId.ofText` — read a written form
* `RunId.ofRandom` — a fresh number from random ones
-/

namespace WindowSurvey

/-- The identifier of a run. -/
structure RunId where
  value : BitVec 128
  deriving DecidableEq, Repr, Inhabited

namespace RunId

/-- The lengths of the groups. -/
def groups : List Nat := [8, 4, 4, 4, 12]

/-- The places of the four hyphens, which end the first four groups. -/
def hyphenPlaces : List Nat := [8, 13, 18, 23]

/-! ## Writing -/

/-- A number as that many hexadecimal digits. -/
def hexDigits (count value : Nat) : List Char :=
  let digits := Nat.toDigits 16 value
  List.replicate (count - digits.length) '0' ++ digits

/-- Cut a list into groups of the given lengths. -/
def cut {α : Type} : List Nat → List α → List (List α)
  | [], _ => []
  | n :: ns, xs => xs.take n :: cut ns (xs.drop n)

/-- The digits in groups with hyphens between them. -/
def text (id : RunId) : String :=
  String.ofList (List.intercalate ['-'] (cut groups (hexDigits 32 id.value.toNat)))

/-! ## Reading -/

/-- The number that hexadecimal digits stand for. -/
def ofDigits? : List Char → Nat → Option Nat
  | [], value => some value
  | c :: cs, value => do ofDigits? cs (value * 16 + (← Json.hexDigit? c))

/-- The digits alone. -/
def ofPlain? (cs : List Char) : Option RunId :=
  if cs.length = 32 then (ofDigits? cs 0).map fun n => ⟨BitVec.ofNat 128 n⟩ else none

/-- The digits in groups: hyphens stand in their places and nowhere else. -/
def ofGroups? (cs : List Char) : Option RunId :=
  if cs.length = 36 ∧ hyphenPlaces.all (fun i => cs[i]? = some '-') then
    ofPlain? (cs.filter (· != '-'))
  else none

/-- What may stand around the groups. -/
inductive Wrapping where
  | none
  | braces
  | urn
  deriving DecidableEq, Repr

/-- How many characters stand in front of the groups. -/
def Wrapping.lead : Wrapping → Nat
  | .none => 0
  | .braces => 1
  | .urn => 9

/-- What stands in front of the groups in a uniform resource name. -/
def urnLead : List Char := ['u', 'r', 'n', ':', 'u', 'u', 'i', 'd', ':']

/-- Take off what stands around the groups. -/
def unwrap (cs : List Char) : Wrapping × List Char :=
  if cs.length ≥ 2 ∧ cs.head? = some '\x7b' ∧ cs.getLast? = some '\x7d' then
    (.braces, (cs.drop 1).dropLast)
  else if cs.take 9 = urnLead then (.urn, cs.drop 9)
  else (.none, cs)

/-- The first character that is neither a hexadecimal digit nor a hyphen, and its place in bytes. -/
def strangeChar? : Nat → List Char → Option (Char × Nat)
  | _, [] => none
  | place, c :: cs =>
    if c = '-' ∨ (Json.hexDigit? c).isSome then strangeChar? (place + c.utf8Size) cs
    else some (c, place)

/-- The first group that does not end in its place, with the length it has. -/
def wrongGroup (lengths : List (Nat × Nat)) (index : Nat) : Option (Nat × Nat × Nat) :=
  match lengths with
  | [] => none
  | (wanted, found) :: rest =>
    if wanted = found then wrongGroup rest (index + 1) else some (index, wanted, found)

/-- What is wrong with a text that has none of the forms. -/
def complaint (cs : List Char) : String :=
  let (wrapping, inner) := unwrap cs
  match strangeChar? 0 inner with
  | some (c, place) =>
    "invalid character: expected an optional prefix of `urn:uuid:` followed by [0-9a-fA-F-], found `"
      ++ c.toString ++ "` at " ++ toString (place + wrapping.lead + 1)
  | none =>
    let parts := inner.splitOnP (· = '-')
    if parts.length = 1 ∧ wrapping = .none then
      "invalid length: expected length 32 for simple format, found " ++ toString cs.length
    else if parts.length ≠ 5 then
      "invalid group count: expected 5, found " ++ toString parts.length
    else
      match wrongGroup ((groups.zip (parts.map List.length)).take 4) 0 with
      | some (index, wanted, found) =>
        "invalid group length in group " ++ toString index ++ ": expected " ++ toString wanted
          ++ ", found " ++ toString found
      | none => "invalid group length in group 4: expected 12, found " ++ toString (cs.length - 24)

/-- Read a written form, or tell what is wrong with it. -/
def ofText (s : String) : Except String RunId :=
  let cs := s.toList
  let read := match cs.length with
    | 32 => ofPlain? cs
    | 36 => ofGroups? cs
    | 38 => if (unwrap cs).1 = .braces then ofGroups? (unwrap cs).2 else none
    | 45 => if (unwrap cs).1 = .urn then ofGroups? (unwrap cs).2 else none
    | _ => none
  match read with
  | some id => .ok id
  | none => .error (complaint cs)

/-! ## JSON -/

/-- The identifier as JSON. -/
def toJson (id : RunId) : Json := .ofString id.text

/-- Read an identifier from JSON. -/
def ofJson : Json → Json.Result RunId
  | .text (some s) =>
    match ofText s with
    | .ok id => .ok id
    | .error complaint => .error (.data ("UUID parsing failed: " ++ complaint))
  | value => value.wrongType "a UUID string"

/-! ## Fresh identifiers -/

/-- A fresh identifier from a random number: all bits are taken from it but six, which mark the
identifier as random. -/
def ofRandom (n : Nat) : RunId where
  value :=
    let random := BitVec.ofNat 128 n
    let kept := random &&& ~~~((0xF#128 <<< 76) ||| (0x3#128 <<< 62))
    kept ||| (0x4#128 <<< 76) ||| (0x2#128 <<< 62)

end RunId

end WindowSurvey
