import WindowSurvey.Json.Parser
import WindowSurvey.Json.Writer
import WindowSurvey.Text.Debug
/-!
# Reading typed values out of a JSON tree

Readers walk a tree in the order of its text and stop at the first thing that is wrong: a value of the
wrong kind, a value out of range, a name that is repeated or missing, or the place where the text breaks
off. A record is read from an object with its members in any order, or from a list of its fields in
order; members with unknown names are skipped, though a break inside them still counts.

## Main definitions

* `Json.DecodeError` — a break of the text, or a message about its content
* `Json.real`, `Json.natural`, `Json.string`, `Json.items`, `Json.optional`, `Json.variant` — readers
* `Json.Field`, `Json.slots` — the fields of a record
* `Json.decodeText` — a reader applied to a text
-/

namespace WindowSurvey.Json

/-- Why a text does not give a value: it breaks off, or its content is wrong. -/
inductive DecodeError where
  | fault (fault : Fault)
  | data (message : String)
  deriving DecidableEq, Repr

/-- What a reader answers. -/
abbrev Result (α : Type) := Except DecodeError α

mutual

/-- The first break of a tree in the order of its text. -/
def fault? : Json → Option Fault
  | array items cut => (itemsFault? items).or cut
  | object members cut => (membersFault? members).or cut
  | broken fault => some fault
  | _ => none

/-- The first break among list items. -/
def itemsFault? : List Json → Option Fault
  | [] => none
  | item :: items => item.fault?.or (itemsFault? items)

/-- The first break among the values of members. -/
def membersFault? : List (Option String × Json) → Option Fault
  | [] => none
  | (_, value) :: members => value.fault?.or (membersFault? members)

end

/-- Answer a break if there is one. -/
def orFault (fault : Option Fault) : Result Unit :=
  match fault with
  | none => .ok ()
  | some f => .error (.fault f)

/-- How messages name a value that was not expected. Strings and numbers are read for the message, so
one that cannot be read breaks the text instead. -/
def describe : Json → Result String
  | null => .ok "null"
  | bool b => .ok ("boolean `" ++ (if b then "true" else "false") ++ "`")
  | number (.integer n) => .ok ("integer `" ++ toString n ++ "`")
  | number (.real x) => .ok ("floating point `" ++ numberLayout.render x ++ "`")
  | number .outOfRange => .error (.fault .malformed)
  | text (some s) => .ok ("string " ++ debugString s)
  | text none => .error (.fault .malformed)
  | array _ _ => .ok "sequence"
  | object _ _ => .ok "map"
  | broken fault => .error (.fault fault)

/-- A value of the wrong kind. -/
def wrongType {α : Type} (expected : String) (value : Json) : Result α :=
  match value.describe with
  | .ok found => .error (.data ("invalid type: " ++ found ++ ", expected " ++ expected))
  | .error e => .error e

/-- A double; integers count as doubles. -/
def real : Json → Result Float
  | number (.integer n) => .ok (Float.ofInt n)
  | number (.real x) => .ok x
  | value => value.wrongType "f64"

/-- A natural number up to `limit`; a double never counts as one. -/
def natural (kind : String) (limit : Nat) : Json → Result Nat
  | number (.integer n) =>
    if 0 ≤ n ∧ n ≤ limit then .ok n.toNat
    else .error (.data ("invalid value: integer `" ++ toString n ++ "`, expected " ++ kind))
  | value => value.wrongType kind

/-- A natural number of 32 bits. -/
def word32 : Json → Result Nat := natural "u32" (Nat.pow 2 32 - 1)

/-- A count or an index, of 64 bits. -/
def size : Json → Result Nat := natural "usize" (Nat.pow 2 64 - 1)

/-- A string. -/
def string : Json → Result String
  | text (some s) => .ok s
  | value => value.wrongType "a string"

/-- Nothing, which is written `null`. -/
def unit : Json → Result Unit
  | null => .ok ()
  | value => value.wrongType "unit"

/-- A value that may be `null`. -/
def optional {α : Type} (decode : Json → Result α) : Json → Result (Option α)
  | null => .ok none
  | value => (decode value).map some

/-- A list of values of one kind. -/
def items {α : Type} (decode : Json → Result α) : Json → Result (List α)
  | array values cut => do
    let decoded ← values.mapM decode
    orFault cut
    return decoded
  | value => value.wrongType "a sequence"

/-- The names of a choice as messages list them. -/
def choiceNames (names : List String) : String :=
  String.intercalate ", " (names.map fun name => "`" ++ name ++ "`")

/-- Find a name among the choices. -/
def choose {α : Type} (choices : List (String × α)) (name : String) : Result α :=
  match choices.lookup name with
  | some value => .ok value
  | none => .error (.data ("unknown variant `" ++ name ++ "`, expected one of "
      ++ choiceNames (choices.map Prod.fst)))

/-- One of several names, written as a string or as an object whose only member has that name and the
value `null`. Anything else is no such text at all. -/
def variant {α : Type} (choices : List (String × α)) : Json → Result α
  | text (some name) => choose choices name
  | object ((some name, value) :: others) cut => do
    let chosen ← choose choices name
    value.unit
    if others.isEmpty then
      orFault cut
      return chosen
    else .error (.fault .malformed)
  | object [] (some fault) => .error (.fault fault)
  | broken fault => .error (.fault fault)
  | _ => .error (.fault .malformed)

/-- A field of a record: its name, whether its value can be read, and whether it may be missing. -/
structure Field where
  name : String
  check : Json → Result Unit
  mayMiss : Bool

/-- A field that must be there. -/
def Field.required {α : Type} (name : String) (decode : Json → Result α) : Field :=
  ⟨name, fun value => (decode value).map fun _ => (), false⟩

/-- A field that may be missing or `null`. -/
def Field.optional {α : Type} (name : String) (decode : Json → Result α) : Field :=
  ⟨name, fun value => (Json.optional decode value).map fun _ => (), true⟩

/-- Fill the slots of a record from the members of an object, in the order of the text. -/
def fillMembers (fields : List Field) (filled : List (String × Json)) :
    List (Option String × Json) → Result (List (String × Json))
  | [] => .ok filled
  | (none, _) :: _ => .error (.fault .malformed)
  | (some name, value) :: members =>
    match fields.find? fun field => field.name == name with
    | none => do
      orFault value.fault?
      fillMembers fields filled members
    | some field =>
      if (filled.lookup name).isSome then
        .error (.data ("duplicate field `" ++ name ++ "`"))
      else do
        field.check value
        fillMembers fields (filled ++ [(name, value)]) members

/-- The slots in the order of the fields; the first missing one is reported. -/
def collect (filled : List (String × Json)) : List Field → Result (List (Option Json))
  | [] => .ok []
  | field :: fields =>
    match filled.lookup field.name with
    | some value => (collect filled fields).map (some value :: ·)
    | none =>
      if field.mayMiss then (collect filled fields).map (none :: ·)
      else .error (.data ("missing field `" ++ field.name ++ "`"))

/-- Fill the slots of a record from the items of a list. `known` is the place reached and `total` the
number of fields. -/
def fillItems (what : String) (total : Nat) (cut : Option Fault) (known : Nat) :
    List Field → List Json → Result (List (Option Json))
  | [], [] => (orFault cut).map fun _ => []
  | [], _ :: _ => .error (.fault .malformed)
  | field :: fields, [] => do
    orFault cut
    if field.mayMiss then (fillItems what total cut (known + 1) fields []).map (none :: ·)
    else .error (.data ("invalid length " ++ toString known ++ ", expected struct " ++ what
      ++ " with " ++ toString total ++ " elements"))
  | field :: fields, value :: values => do
    field.check value
    (fillItems what total cut (known + 1) fields values).map (some value :: ·)

/-- The values of a record's fields in the order of the fields; every value present has passed its
check. -/
def slots (what : String) (fields : List Field) : Json → Result (List (Option Json))
  | object members cut => do
    let filled ← fillMembers fields [] members
    orFault cut
    collect filled fields
  | array values cut => fillItems what fields.length cut 0 fields values
  | value => value.wrongType ("struct " ++ what)

/-- Read the value in a slot that must be filled. -/
def slot {α : Type} (decode : Json → Result α) : Option Json → Result α
  | some value => decode value
  | none => .error (.fault .malformed)

/-- Read the value in a slot that may be empty. -/
def optionalSlot {α : Type} (decode : Json → Result α) : Option Json → Result (Option α)
  | some value => Json.optional decode value
  | none => .ok none

/-- Read a whole text: the value first, then nothing but blanks. -/
def decodeText {α : Type} (decode : Json → Result α) (s : String) : Result α := do
  let document := parse s
  let value ← decode document.root
  if document.trailing then .error (.fault .malformed) else return value

end WindowSurvey.Json
