import WindowSurvey.Json.Writer
/-!
# JSON texts for readers

Every item of a list and every member of an object has a line of its own, two blanks deeper than the
brackets around it. Empty brackets stay together.

## Main definitions

* `Json.renderIndented` — the text of a tree
-/

namespace WindowSurvey.Json

/-- A new line at a depth. -/
def lineBreak (depth : Nat) : String := "\n" ++ String.ofList (List.replicate (2 * depth) ' ')

mutual

/-- The text of a tree that stands at a depth. -/
def indented (depth : Nat) : Json → String
  | array [] _ => "[]"
  | array items _ => "[" ++ indentedItems (depth + 1) true items ++ lineBreak depth ++ "]"
  | object [] _ => "\x7b\x7d"
  | object members _ =>
    "\x7b" ++ indentedMembers (depth + 1) true members ++ lineBreak depth ++ "\x7d"
  | null => "null"
  | bool b => if b then "true" else "false"
  | number n => renderNumber n
  | text s => quote (s.getD "")
  | broken _ => ""

/-- The items of a list, each on its line. -/
def indentedItems (depth : Nat) (first : Bool) : List Json → String
  | [] => ""
  | item :: items =>
    (if first then "" else ",") ++ lineBreak depth ++ indented depth item
      ++ indentedItems depth false items

/-- The members of an object, each on its line. -/
def indentedMembers (depth : Nat) (first : Bool) : List (Option String × Json) → String
  | [] => ""
  | (name, value) :: members =>
    (if first then "" else ",") ++ lineBreak depth ++ quote (name.getD "") ++ ": "
      ++ indented depth value ++ indentedMembers depth false members

end

/-- The text of a tree on lines of their own. -/
def renderIndented (j : Json) : String := indented 0 j

end WindowSurvey.Json
