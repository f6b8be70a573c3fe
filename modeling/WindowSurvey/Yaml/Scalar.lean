import WindowSurvey.Json.Parser
import WindowSurvey.Yaml.Cursor
/-!
# Scalars of a YAML text

A scalar is written plain, between quotes, or as an indented block. Where a scalar goes on over several
lines, a single end of a line is folded to a blank and empty lines are kept; blanks around the end of a
line go. A literal block keeps its lines.

## Main definitions

* `Yaml.Fold` — the text so far, and the gap behind it
* `Yaml.readQuoted`, `Yaml.readPlain`, `Yaml.readBlock` — scalars in their three written forms
-/

namespace WindowSurvey.Yaml

/-! ## Folding -/

/-- What stands between two words: blanks, or ends of lines. An end of a line that was escaped counts as
no first one. Both lists hold the last character first. -/
inductive Gap where
  | blanks (taken : List Char)
  | lines (first : Option Char) (others : List Char)

/-- What a gap becomes in the text, last character first. -/
def Gap.joined : Gap → List Char
  | blanks taken => taken
  | lines none others => others
  | lines (some first) others =>
    if first = '\n' then (if others.isEmpty then [' '] else others) else others ++ [first]

/-- A text while it is read, last character first, and the gap behind it. -/
structure Fold where
  text : List Char := []
  gap : Gap := .blanks []

namespace Fold

/-- The gap becomes part of the text. -/
def close (f : Fold) : Fold := ⟨f.gap.joined ++ f.text, .blanks []⟩

/-- A character behind the gap. -/
def push (f : Fold) (c : Char) : Fold := ⟨c :: f.close.text, .blanks []⟩

/-- A blank. At the beginning of a line it is not kept. -/
def blank (f : Fold) (c : Char) : Fold :=
  match f.gap with
  | .blanks taken => { f with gap := .blanks (c :: taken) }
  | .lines _ _ => f

/-- An end of a line. Blanks before it are not kept. -/
def lineBreak (f : Fold) (c : Char) : Fold :=
  match f.gap with
  | .blanks _ => { f with gap := .lines (some (keptBreak c)) [] }
  | .lines first others => { f with gap := .lines first (keptBreak c :: others) }

/-- An escaped end of a line. -/
def escapedBreak (f : Fold) : Fold := { f.close with gap := .lines none [] }

/-- Whether the gap holds the end of a line. -/
def acrossLines (f : Fold) : Bool :=
  match f.gap with
  | .blanks _ => false
  | .lines _ _ => true

/-- Whether there is a gap. -/
def hasGap (f : Fold) : Bool :=
  match f.gap with
  | .blanks taken => !taken.isEmpty
  | .lines _ _ => true

/-- The text without the gap behind it. -/
def word (f : Fold) : String := String.ofList f.text.reverse

end Fold

/-! ## Quotes -/

/-- The characters that one-letter escapes stand for. -/
def escapes : List (Char × Char) :=
  [('0', '\x00'), ('a', '\x07'), ('b', '\x08'), ('t', '\t'), ('\t', '\t'), ('n', '\n'), ('v', '\x0b'),
    ('f', '\x0c'), ('r', '\r'), ('e', '\x1b'), (' ', ' '), ('"', '"'), ('/', '/'), ('\\', '\\'),
    ('N', '\u0085'), ('_', '\u00a0'), ('L', '\u2028'), ('P', '\u2029')]

/-- The escapes that give the code of a character, with the number of their digits. -/
def codeEscapes : List (Char × Nat) := [('x', 2), ('u', 4), ('U', 8)]

/-- The character with the code that so many hexadecimal digits give. -/
def charOfCode? (digits : Nat) (cs : List Char) : Option Char := do
  let values ← (cs.take digits).mapM Json.hexDigit?
  let code := values.foldl (fun n d => n * 16 + d) 0
  if values.length = digits ∧ code.isValidChar then some (Char.ofNat code) else none

/-- The character an escape behind its backslash stands for, and how many characters it takes. -/
def escape? : List Char → Option (Char × Nat)
  | [] => none
  | c :: rest =>
    match escapes.lookup c, codeEscapes.lookup c with
    | some e, _ => some (e, 1)
    | none, some digits => (charOfCode? digits rest).map (·, digits + 1)
    | none, none => none

/-- Read a quoted scalar behind its opening quote. Between single quotes a quote is written twice;
between double quotes a backslash escapes. Every step takes a character, so `fuel` may be the length of
the text. -/
def readQuoted (single : Bool) : Nat → Fold → Cursor → Option (String × Cursor)
  | 0, _, _ => none
  | fuel + 1, f, cur =>
    match cur.rest with
    | [] => none
    | c :: rest =>
      if cur.atDocumentMark then none
      else if isBlank c then readQuoted single fuel (f.blank c) (cur.skip 1)
      else if isBreak c then readQuoted single fuel (f.lineBreak c) cur.skipBreak
      else if single then
        if c ≠ '\'' then readQuoted single fuel (f.push c) (cur.skip 1)
        else if rest.head? = some '\'' then readQuoted single fuel (f.push c) (cur.skip 2)
        else some (f.close.word, cur.skip 1)
      else if c = '"' then some (f.close.word, cur.skip 1)
      else if c ≠ '\\' then readQuoted single fuel (f.push c) (cur.skip 1)
      else if (rest.head?.map isBreak).getD false then
        readQuoted single fuel f.escapedBreak (cur.skip 1).skipBreak
      else
        match escape? rest with
        | some (e, taken) => readQuoted single fuel (f.push e) (cur.skip (taken + 1))
        | none => none

/-! ## Plain scalars -/

/-- The brackets and the comma, which have a meaning of their own within brackets. -/
def isFlowMark (c : Char) : Bool := c = ',' || c = '[' || c = ']' || c = '\x7b' || c = '\x7d'

/-- Whether a plain scalar that has a gap behind it ends here: the line is not indented, another document
begins, or a comment. -/
def endsAfterGap (inFlow : Bool) (indent : Int) (cur : Cursor) (c : Char) : Bool :=
  (!inFlow && (cur.column : Int) < indent) || cur.atDocumentMark || c = '#'

/-- Read a plain scalar, whose other lines stand at column `indent` at least. -/
def readPlain (inFlow : Bool) (indent : Int) : Nat → Fold → Cursor → Option (Fold × Cursor)
  | 0, _, _ => none
  | fuel + 1, f, cur =>
    match cur.rest with
    | [] => some (f, cur)
    | c :: rest =>
      if isBlank c then
        if f.acrossLines ∧ (cur.column : Int) < indent ∧ c = '\t' then none
        else readPlain inFlow indent fuel (f.blank c) (cur.skip 1)
      else if isBreak c then readPlain inFlow indent fuel (f.lineBreak c) cur.skipBreak
      else if f.hasGap && endsAfterGap inFlow indent cur c then some (f, cur)
      else if inFlow ∧ c = ':' ∧ (rest.head?.map fun d => isFlowMark d || d = '?').getD false then none
      else if (c = ':' && isGap rest.head?) || (inFlow && isFlowMark c) then some (f, cur)
      else readPlain inFlow indent fuel (f.push c) (cur.skip 1)

/-! ## Blocks -/

/-- What happens to the ends of lines at the end of a block. -/
inductive Chomping where
  | strip
  | clip
  | keep

/-- Read the marks behind the sign of a block: the chomping and the extra indentation, in any order. -/
def blockHeader (cur : Cursor) : Option (Chomping × Option Nat × Cursor) :=
  let chomping? (c : Cursor) : Option (Chomping × Cursor) :=
    match c.next? with
    | some '+' => some (.keep, c.skip 1)
    | some '-' => some (.strip, c.skip 1)
    | _ => none
  let digit? (c : Cursor) : Option Nat := c.next?.bind Literal.digit?
  match chomping? cur with
  | some (chomping, cur) =>
    match digit? cur with
    | some 0 => none
    | some n => some (chomping, some n, cur.skip 1)
    | none => some (chomping, none, cur)
  | none =>
    match digit? cur with
    | some 0 => none
    | some n =>
      match chomping? (cur.skip 1) with
      | some (chomping, cur) => some (chomping, some n, cur)
      | none => some (.clip, some n, cur.skip 1)
    | none => some (.clip, none, cur)

/-- Go past blanks and a comment to the next line. -/
def restOfLine (cur : Cursor) : Option Cursor :=
  let cur := cur.skipWhile isBlank
  let cur := if cur.next? = some '#' then cur.skipWhile (!isBreak ·) else cur
  if cur.atLineEnd then some cur.skipBreak else none

/-- Whether a column still belongs to the indentation; while that is unknown, every column does. -/
def withinIndent (indent : Option Nat) (column : Nat) : Bool :=
  match indent with
  | none => true
  | some n => column < n

/-- Go past indentation and empty lines. The answer holds the ends of the empty lines, last first, and
the deepest indentation seen. -/
def emptyLines (indent : Option Nat) : Nat → List Char → Nat → Cursor →
    Option (List Char × Nat × Cursor)
  | 0, _, _, _ => none
  | fuel + 1, breaks, deepest, cur =>
    let blanks := (cur.rest.takeWhile (· = ' ')).length
    let taken := match indent with
      | none => blanks
      | some n => min blanks (n - cur.column)
    let cur := cur.skip taken
    let deepest := max deepest cur.column
    match cur.rest with
    | [] => some (breaks, deepest, cur)
    | c :: _ =>
      if c = '\t' ∧ withinIndent indent cur.column then none
      else if isBreak c then emptyLines indent fuel (keptBreak c :: breaks) deepest cur.skipBreak
      else some (breaks, deepest, cur)

/-- A block while it is read: the text so far, the end of its last line, the ends of the empty lines behind
that, all last first, and whether the last line began with a blank. -/
structure Block where
  text : List Char := []
  lineEnd : List Char := []
  emptyEnds : List Char := []
  beginsBlank : Bool := false

/-- The text up to the next line. In a folded block the end of a line becomes a blank, unless one of the
lines around it begins with a blank. -/
def Block.joined (b : Block) (literal nextBlank : Bool) : List Char :=
  if !literal && b.lineEnd = ['\n'] && !b.beginsBlank && !nextBlank then
    (if b.emptyEnds.isEmpty then [' '] else b.emptyEnds) ++ b.text
  else b.emptyEnds ++ b.lineEnd ++ b.text

/-- The text of a whole block. -/
def Block.finish (b : Block) (chomping : Chomping) : String :=
  let kept := match chomping with
    | .strip => b.text
    | .clip => b.lineEnd ++ b.text
    | .keep => b.emptyEnds ++ b.lineEnd ++ b.text
  String.ofList kept.reverse

/-- Read the lines of a block that are indented as far as its first one. -/
def blockLines (literal : Bool) (indent : Nat) : Nat → Block → Cursor → Option (Block × Cursor)
  | 0, _, _ => none
  | fuel + 1, b, cur =>
    match cur.rest with
    | [] => some (b, cur)
    | c :: _ =>
      if cur.column ≠ indent then some (b, cur)
      else
        let (line, after) := cur.takeWhile (!isBreak ·)
        let lineEnd := match after.next? with
          | some e => [keptBreak e]
          | none => []
        let after := after.skipBreak
        match emptyLines (some indent) (after.rest.length + 1) [] 0 after with
        | none => none
        | some (emptyEnds, _, after) =>
          blockLines literal indent fuel
            ⟨line.reverse ++ b.joined literal (isBlank c), lineEnd, emptyEnds, isBlank c⟩ after

/-- Read a block behind its sign, in a collection that is indented by `outer`. -/
def readBlock (literal : Bool) (outer : Int) (cur : Cursor) : Option (String × Cursor) := do
  let (chomping, extra, cur) ← blockHeader cur
  let cur ← restOfLine cur
  let least := (outer + 1).toNat
  let wanted := extra.map fun n => outer.toNat + n
  let fuel := cur.rest.length + 1
  let (emptyEnds, deepest, cur) ← emptyLines wanted fuel [] 0 cur
  let indent := wanted.getD (max (max deepest least) 1)
  let (b, cur) ← blockLines literal indent fuel { emptyEnds } cur
  return (b.finish chomping, cur)

end WindowSurvey.Yaml
