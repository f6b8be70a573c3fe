import WindowSurvey.Decimal.Layout
import WindowSurvey.Json.Basic
/-!
# From JSON tree to text

Texts carry no blanks. A double without a value has no JSON number and is written as a string that
names it.

## Main definitions

* `Json.numberLayout` — how doubles look in JSON
* `Json.render` — the text of a tree
-/

namespace WindowSurvey.Json

/-- Doubles from `1e-5` up to `1e16` are written without exponent and with at least one decimal; the
others carry a signed exponent. -/
def numberLayout : NumberLayout where
  positional := some (-5, 16)
  wholeMark := true
  exponentPlus := "+"

/-- One character of a string. -/
def escapeChar (c : Char) : List Char :=
  match c with
  | '"' => ['\\', '"']
  | '\\' => ['\\', '\\']
  | '\n' => ['\\', 'n']
  | '\r' => ['\\', 'r']
  | '\t' => ['\\', 't']
  | '\x08' => ['\\', 'b']
  | '\x0c' => ['\\', 'f']
  | c =>
    if c.toNat < 0x20 then
      let code := Nat.toDigits 16 c.toNat
      ['\\', 'u'] ++ List.replicate (4 - code.length) '0' ++ code
    else [c]

/-- A string between quotes. -/
def quote (s : String) : String :=
  String.ofList ('"' :: s.toList.flatMap escapeChar ++ ['"'])

/-- The text of a number. -/
def renderNumber : Number → String
  | .integer n => toString n
  | .real x =>
    let word := numberLayout.render x
    if x.isNaN || x.isInf then quote word else word
  | .outOfRange => quote "inf"

mutual

/-- The text of a tree; a break leaves nothing. -/
def render : Json → String
  | null => "null"
  | bool b => if b then "true" else "false"
  | number n => renderNumber n
  | text s => quote (s.getD "")
  | array items _ => "[" ++ renderItems true items ++ "]"
  | object members _ => "\x7b" ++ renderMembers true members ++ "\x7d"
  | broken _ => ""

/-- The items of a list with commas between them. -/
def renderItems (first : Bool) : List Json → String
  | [] => ""
  | item :: items => (if first then "" else ",") ++ render item ++ renderItems false items

/-- The members of an object with commas between them. -/
def renderMembers (first : Bool) : List (Option String × Json) → String
  | [] => ""
  | (name, value) :: members =>
    (if first then "" else ",") ++ quote (name.getD "") ++ ":" ++ render value
      ++ renderMembers false members

end

end WindowSurvey.Json
