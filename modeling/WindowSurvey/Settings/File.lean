import WindowSurvey.Settings.Basic
import WindowSurvey.Yaml.Node
/-!
# Settings files

A settings file is a YAML mapping with a section for each group of settings. What is missing keeps its
default, and names that mean nothing here are skipped; a section without anything behind its colon is an
empty one. A value of the wrong kind, or a name that is given twice, spoils the file.

## Main definitions

* `Settings.ofYaml?` — the settings of a text, not yet validated
* `Settings.load` — the settings of a text that obey all rules
* `Settings.ofBytes` — the same for the bytes of a file
-/

namespace WindowSurvey

namespace Yaml.Document

/-- The text of a scalar. -/
def text? (d : Document) (n : Node) : Option String :=
  match d.resolve n with
  | .scalar text _ _ => some text
  | _ => none

/-- The text of a scalar that may name a number: it is plain, or a literal block with the tag of that
kind of number. -/
def numberText? (d : Document) (kind : String) (n : Node) : Option (List Char) :=
  match d.resolve n with
  | .scalar text .plain _ => some text.toList
  | .scalar text .literal (some tag) =>
    if tag = "tag:yaml.org,2002:" ++ kind then some text.toList else none
  | _ => none

/-- The number that digits of a base spell, if it is not above a limit. -/
def ofDigits? (base limit : Nat) (cs : List Char) : Option Nat := do
  let digits ← cs.mapM Json.hexDigit?
  let n := digits.foldl (fun n d => n * base + d) 0
  if !digits.isEmpty ∧ digits.all (· < base) ∧ n ≤ limit then some n else none

/-- Natural numbers are written in base ten without leading zeros, or behind a mark for their base; a
plus may stand in front. -/
def naturalOfText? (limit : Nat) (cs : List Char) : Option Nat :=
  let unsigned := if cs.head? = some '+' then cs.tail else cs
  match unsigned with
  | '0' :: 'x' :: digits => ofDigits? 16 limit digits
  | '0' :: 'o' :: digits => ofDigits? 8 limit digits
  | '0' :: 'b' :: digits => ofDigits? 2 limit digits
  | '0' :: _ :: _ => none
  | digits => ofDigits? 10 limit digits

/-- A natural number up to a limit. -/
def natural? (limit : Nat) (d : Document) (n : Node) : Option Nat :=
  (d.numberText? "int" n).bind (naturalOfText? limit)

/-- The words for numbers that are not finite, with an optional sign in front of the infinite ones. -/
def specialOfText? (cs : List Char) : Option Float :=
  match String.ofList cs with
  | ".inf" | ".Inf" | ".INF" | "+.inf" | "+.Inf" | "+.INF" => some (1.0 / 0.0)
  | "-.inf" | "-.Inf" | "-.INF" => some (-1.0 / 0.0)
  | ".nan" | ".NaN" | ".NAN" => some (0.0 / 0.0)
  | _ => none

/-- A finite double, which may have one sign, or one of the words. -/
def realOfText? (cs : List Char) : Option Float :=
  match specialOfText? cs with
  | some x => some x
  | none =>
    match cs with
    | '+' :: '+' :: _ => none
    | '+' :: '-' :: _ => none
    | cs => (readDouble? cs).filter (·.isFinite)

/-- A double. Whole numbers count as doubles. -/
def real? (d : Document) (n : Node) : Option Float := (d.numberText? "float" n).bind realOfText?

/-- The members of a mapping. Nothing at all is an empty mapping. -/
def members? (d : Document) (n : Node) : Option (List (Node × Node)) :=
  match d.resolve n with
  | .mapping members => some members
  | .scalar "" .plain _ => some []
  | _ => none

/-- Collect the members with known names, none of which may come twice. Every name must be a scalar. -/
def known? (d : Document) (names : List String) (found : List (String × Node)) :
    List (Node × Node) → Option (List (String × Node))
  | [] => some found
  | (key, value) :: members => do
    let name ← d.text? key
    if !names.contains name then known? d names found members
    else if (found.lookup name).isSome then none
    else known? d names ((name, value) :: found) members

/-- The members of a mapping that have known names. -/
def record? (d : Document) (names : List String) (n : Node) : Option (List (String × Node)) := do
  d.known? names [] (← d.members? n)

end Yaml.Document

namespace Settings

open Yaml (Document Node)

/-- The value of a field, or its default if it is missing. -/
def field {α : Type} (fields : List (String × Node)) (name : String) (default : α)
    (read : Node → Option α) : Option α :=
  match fields.lookup name with
  | some n => read n
  | none => some default

/-- A natural number of 32 bits. -/
def word32? : Document → Node → Option Nat := Document.natural? (Nat.pow 2 32 - 1)

/-- A natural number of 64 bits. -/
def word64? : Document → Node → Option Nat := Document.natural? (Nat.pow 2 64 - 1)

/-- The section on finding windows. -/
def detection? (d : Document) (n : Node) : Option DetectionSettings := do
  let fields ← d.record? ["edge_threshold", "grid_stride", "trace_window", "min_region_size",
    "max_screen_fraction", "large_threshold", "medium_threshold"] n
  let default : DetectionSettings := {}
  return {
    edgeThreshold := ← field fields "edge_threshold" default.edgeThreshold fun n =>
      (d.natural? 255 n).map UInt8.ofNat
    gridStride := ← field fields "grid_stride" default.gridStride (word32? d)
    traceWindow := ← field fields "trace_window" default.traceWindow (word32? d)
    minRegionSize := ← field fields "min_region_size" default.minRegionSize (word32? d)
    maxScreenFraction := ← field fields "max_screen_fraction" default.maxScreenFraction d.real?
    largeThreshold := ← field fields "large_threshold" default.largeThreshold d.real?
    mediumThreshold := ← field fields "medium_threshold" default.mediumThreshold d.real? }

/-- The section on cycling. -/
def cycling? (d : Document) (n : Node) : Option CyclingSettings := do
  let fields ← d.record? ["max_attempts", "settle_delay_ms", "timeout_secs"] n
  let default : CyclingSettings := {}
  return {
    maxAttempts := ← field fields "max_attempts" default.maxAttempts (word32? d)
    settleDelay := ← field fields "settle_delay_ms" default.settleDelay (word64? d)
    timeoutSeconds := ← field fields "timeout_secs" default.timeoutSeconds (word64? d) }

/-- The section on thumbnails. -/
def thumbnail? (d : Document) (n : Node) : Option ThumbnailSettings := do
  let fields ← d.record? ["width", "height"] n
  let default : ThumbnailSettings := {}
  return {
    width := ← field fields "width" default.width (word32? d)
    height := ← field fields "height" default.height (word32? d) }

/-- The section on logging. Any scalar will do for a level, which is taken as it is written. -/
def logging? (d : Document) (n : Node) : Option LoggingSettings := do
  let fields ← d.record? ["level"] n
  let default : LoggingSettings := {}
  return { level := ← field fields "level" default.level d.text? }

/-- The settings of a document. -/
def ofDocument? (d : Document) : Option Settings := do
  let fields ← d.record? ["detection", "cycling", "thumbnail", "logging"] d.root
  return {
    detection := ← field fields "detection" {} (detection? d)
    cycling := ← field fields "cycling" {} (cycling? d)
    thumbnail := ← field fields "thumbnail" {} (thumbnail? d)
    logging := ← field fields "logging" {} (logging? d) }

/-- The settings of a text, not yet validated. A text without a document sets nothing. -/
def ofYaml? (s : String) : Option Settings :=
  match Yaml.document? s with
  | none => none
  | some none => some {}
  | some (some d) => ofDocument? d

/-- The failure of a text that is no settings file. -/
def unreadable : Failure := .config "the settings could not be read"

/-- The settings of a text that obey all rules. -/
def load (s : String) : Except Failure Settings :=
  match ofYaml? s with
  | none => .error unreadable
  | some settings => settings.validate.map fun _ => settings

/-- The settings of the bytes of a file, which must be a text. -/
def ofBytes (bytes : ByteArray) : Except Failure Settings :=
  match String.fromUTF8? bytes with
  | some s => load s
  | none => .error (.io "stream did not contain valid UTF-8")

end Settings

end WindowSurvey
