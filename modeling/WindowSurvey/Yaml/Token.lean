import WindowSurvey.Yaml.Scalar
/-!
# Tokens of a YAML text

Tokens name the brackets of a text, those that are written and those that indentation implies. Whether a
word is a key shows only when a colon follows it, so the tokens that come before a key are marked for its
place and put there at the end.

## Main definitions

* `Yaml.Token`, `Yaml.Style` — tokens, and how a scalar was written
* `Yaml.Lexer` — what is known at a place of the text
* `Yaml.tokens?` — the tokens of a text
-/

namespace WindowSurvey.Yaml

/-- How a scalar was written. -/
inductive Style where
  | plain
  | quoted
  | literal
  | folded
  deriving DecidableEq, Repr, Inhabited

/-- A token. A tag is kept as its handle and what follows it. -/
inductive Token where
  | version (major minor : Nat)
  | handle (name target : String)
  | documentStart
  | documentEnd
  | blockSequenceStart
  | blockMappingStart
  | blockEnd
  | flowSequenceStart
  | flowSequenceEnd
  | flowMappingStart
  | flowMappingEnd
  | blockEntry
  | flowEntry
  | key
  | value
  | alias (name : String)
  | anchor (name : String)
  | tag (handle suffix : String)
  | scalar (text : String) (style : Style)
  deriving DecidableEq, Repr, Inhabited

/-- A place where a key may have begun: the number of its first token, and where it stands. A key at the
indentation of its block is required: nothing else may stand there. -/
structure Candidate where
  place : Nat
  line : Nat
  index : Nat
  column : Nat
  required : Bool

/-- What is known at a place of the text. `marks` holds tokens to put before the token of a number;
`indents` are the columns of the open blocks around the innermost one, whose column is `indent`; there is
a slot for a candidate in every open bracket, the innermost first. -/
structure Lexer where
  cursor : Cursor
  tokens : Array Token := #[]
  marks : List (Nat × List Token) := []
  indent : Int := -1
  indents : List Int := []
  flowDepth : Nat := 0
  keyAllowed : Bool := true
  candidates : List (Option Candidate) := [none]

namespace Lexer

/-- Whether the place is within brackets. -/
def inFlow (l : Lexer) : Bool := 0 < l.flowDepth

/-- Add a token. -/
def emit (l : Lexer) (t : Token) : Lexer := { l with tokens := l.tokens.push t }

/-- Go on to a place in the text. -/
def goTo (l : Lexer) (cursor : Cursor) : Lexer := { l with cursor }

/-- Whether a key may begin at the next token. -/
def allowKey (l : Lexer) (keyAllowed : Bool) : Lexer := { l with keyAllowed }

/-! ## Blocks -/

/-- Open a block at a column that is deeper than that of the innermost one. -/
def openBlock (l : Lexer) (column : Nat) (start : Token) (place : Option Nat) : Lexer :=
  if l.inFlow || (column : Int) ≤ l.indent then l
  else
    let l := { l with indents := l.indent :: l.indents, indent := column }
    match place with
    | none => l.emit start
    | some n => { l with marks := (n, [start]) :: l.marks }

/-- Close the blocks that are deeper than a column. -/
def closeBlocks (l : Lexer) (column : Int) : Lexer :=
  if l.inFlow then l
  else
    let opened := l.indent :: l.indents
    let closed := opened.takeWhile (column < ·)
    let left := opened.drop closed.length
    { l with
      tokens := l.tokens ++ (closed.map fun _ => Token.blockEnd).toArray
      indent := left.headD (-1)
      indents := left.tail }

/-! ## Candidates for keys -/

/-- A key must stand on one line and within this many characters. -/
def keyReach : Nat := 1024

/-- A candidate that is too far away is none any more. One that was required must not be given up. -/
def dropStale (l : Lexer) : Option Lexer := do
  let candidates ← l.candidates.mapM fun
    | none => some none
    | some k =>
      if k.line < l.cursor.line ∨ k.index + keyReach < l.cursor.index then
        (if k.required then none else some none)
      else some (some k)
  return { l with candidates }

/-- Give up the innermost candidate. -/
def dropCandidate (l : Lexer) : Option Lexer :=
  match l.candidates with
  | some k :: others => if k.required then none else some { l with candidates := none :: others }
  | _ => some l

/-- A key may begin here. -/
def saveCandidate (l : Lexer) : Option Lexer :=
  if l.keyAllowed then do
    let l ← l.dropCandidate
    let c := l.cursor
    let required := !l.inFlow && l.indent = (c.column : Int)
    return { l with
      candidates := some ⟨l.tokens.size, c.line, c.index, c.column, required⟩ :: l.candidates.tail }
  else some l

/-! ## Between tokens -/

/-- Go past blanks, comments and ends of lines. In a block, a tab may not stand where a key may. -/
def skipGap : Nat → Lexer → Lexer
  | 0, l => l
  | fuel + 1, l =>
    let tabs := l.inFlow || !l.keyAllowed
    let cur := l.cursor.skipWhile fun c => c = ' ' || (tabs && c = '\t')
    let cur := if cur.next? = some '#' then cur.skipWhile (!isBreak ·) else cur
    match cur.rest with
    | [] => l.goTo cur
    | c :: _ =>
      if isBreak c then skipGap fuel ((l.goTo cur.skipBreak).allowKey (l.keyAllowed || !l.inFlow))
      else l.goTo cur

/-! ## Tokens of one kind -/

/-- A name behind a mark, which something that is no part of a name must follow. -/
def name? (cur : Cursor) : Option (String × Cursor) :=
  let (word, cur) := cur.takeWhile isWord
  let ends := match cur.next? with
    | none => true
    | some c => isBlank c || isBreak c || "?:,]\x7d%@`".toList.contains c
  if word.isEmpty || !ends then none else some (String.ofList word, cur)

/-- Characters of the rest of a tag. The brackets and the comma belong to it between angle brackets and in
directives only. -/
def isTagChar (whole : Bool) (c : Char) : Bool :=
  isWord c || ";/?:@&=+$.!~*'()%".toList.contains c || (whole && (c = ',' || c = '[' || c = ']'))

/-- The bytes that percent signs escape, up to the next plain character. -/
def escapedBytes : List Char → Option (List UInt8 × List Char)
  | '%' :: a :: b :: rest => do
    let high ← Json.hexDigit? a
    let low ← Json.hexDigit? b
    let (bytes, rest) ← escapedBytes rest
    return (UInt8.ofNat (high * 16 + low) :: bytes, rest)
  | '%' :: _ => none
  | rest => some ([], rest)

/-- The text of a tag with its escapes resolved: escaped bytes must spell characters. -/
def unescapeTag : Nat → List Char → Option (List Char)
  | 0, _ => none
  | _, [] => some []
  | fuel + 1, c :: rest =>
    if c = '%' then do
      let (bytes, rest) ← escapedBytes (c :: rest)
      let spelled ← String.fromUTF8? ⟨bytes.toArray⟩
      let others ← unescapeTag fuel rest
      return spelled.toList ++ others
    else (unescapeTag fuel rest).map (c :: ·)

/-- The rest of a tag. -/
def tagRest? (whole : Bool) (cur : Cursor) : Option (List Char × Cursor) :=
  let (word, cur) := cur.takeWhile (isTagChar whole)
  (unescapeTag (word.length + 1) word).map (·, cur)

/-- The handle of a tag, which stands between exclamation marks or is one. -/
def tagHandle (cur : Cursor) : List Char × Cursor :=
  let (word, after) := (cur.skip 1).takeWhile isWord
  if after.next? = some '!' then ('!' :: word ++ ['!'], after.skip 1) else ('!' :: word, after)

/-- A tag. Without a second exclamation mark, what follows the first one is the rest of the tag, and one
alone is a tag by itself. -/
def tag? (cur : Cursor) : Option (Token × Cursor) :=
  if cur.ahead? 1 = some '<' then do
    let (word, after) ← tagRest? true (cur.skip 2)
    if word.isEmpty ∨ after.next? ≠ some '>' then none
    else some (.tag "" (String.ofList word), after.skip 1)
  else
    let (handle, after) := tagHandle cur
    if 1 < handle.length ∧ handle.getLast? = some '!' then do
      let (word, after) ← tagRest? false after
      if word.isEmpty then none else some (.tag (String.ofList handle) (String.ofList word), after)
    else do
      let (word, after) ← tagRest? false (cur.skip 1)
      if word.isEmpty then some (.tag "" "!", after)
      else some (.tag "!" (String.ofList word), after)

/-- A number of a version. -/
def versionPart? (cur : Cursor) : Option (Nat × Cursor) :=
  let (digits, cur) := cur.takeWhile fun c => (Literal.digit? c).isSome
  if digits.isEmpty ∨ 9 < digits.length then none
  else some (Literal.natOfDigits (digits.filterMap Literal.digit?), cur)

/-- A directive: the version of the language, or a handle for tags. -/
def directive? (cur : Cursor) : Option (Token × Cursor) := do
  let (word, cur) := (cur.skip 1).takeWhile isWord
  let cur ← if isGap cur.next? then some (cur.skipWhile isBlank) else none
  if word = ['Y', 'A', 'M', 'L'] then
    let (major, cur) ← versionPart? cur
    let cur ← if cur.next? = some '.' then some (cur.skip 1) else none
    let (minor, cur) ← versionPart? cur
    return (.version major minor, ← restOfLine cur)
  else if word = ['T', 'A', 'G'] then
    let cur ← if cur.next? = some '!' then some cur else none
    let (handle, cur) := tagHandle cur
    let cur ← if handle.getLast? = some '!' ∧ (cur.next?.map isBlank).getD false then
      some (cur.skipWhile isBlank) else none
    let (target, cur) ← tagRest? true cur
    let cur ← if !target.isEmpty ∧ isGap cur.next? then some cur else none
    return (.handle (String.ofList handle) (String.ofList target), ← restOfLine cur)
  else none

/-! ## Steps -/

/-- A mark at the beginning of a line that stands outside all blocks. -/
def betweenDocuments (l : Lexer) : Option Lexer := do
  let l ← (l.closeBlocks (-1)).dropCandidate
  return l.allowKey false

/-- An opening bracket. -/
def openFlow (l : Lexer) (t : Token) : Option Lexer := do
  let l ← l.saveCandidate
  let l := { l with flowDepth := l.flowDepth + 1, candidates := none :: l.candidates }
  return ((l.allowKey true).emit t).goTo (l.cursor.skip 1)

/-- A closing bracket. -/
def closeFlow (l : Lexer) (t : Token) : Option Lexer := do
  let l ← l.dropCandidate
  let l := if l.inFlow then
    { l with flowDepth := l.flowDepth - 1, candidates := l.candidates.tail } else l
  return ((l.allowKey false).emit t).goTo (l.cursor.skip 1)

/-- A mark that begins an entry or a key. In a block it opens one if need be, and it may stand only where
a key may. -/
def beginEntry (l : Lexer) (start mark : Token) (keyBehind : Bool) : Option Lexer := do
  let l ← if l.inFlow then some l
    else if l.keyAllowed then some (l.openBlock l.cursor.column start none)
    else none
  let l ← l.dropCandidate
  return ((l.allowKey keyBehind).emit mark).goTo (l.cursor.skip 1)

/-- A colon. What may have been a key was one. -/
def colon (l : Lexer) : Option Lexer :=
  match l.candidates with
  | some k :: others =>
    let l := { l with marks := (k.place, [Token.key]) :: l.marks, candidates := none :: others }
    let l := l.openBlock k.column .blockMappingStart (some k.place)
    some (((l.allowKey false).emit .value).goTo (l.cursor.skip 1))
  | _ =>
    if l.inFlow then some (((l.allowKey false).emit .value).goTo (l.cursor.skip 1))
    else if l.keyAllowed then
      let l := l.openBlock l.cursor.column .blockMappingStart none
      some (((l.allowKey true).emit .value).goTo (l.cursor.skip 1))
    else none

/-- A token that may be the beginning of a key. -/
def word (l : Lexer) (read : Cursor → Option (Token × Cursor)) : Option Lexer := do
  let l ← l.saveCandidate
  let (t, cursor) ← read l.cursor
  return ((l.allowKey false).emit t).goTo cursor

/-- A plain scalar. A key may begin behind one that goes on over several lines. -/
def plain (l : Lexer) : Option Lexer := do
  let l ← l.saveCandidate
  let (f, cursor) ← readPlain l.inFlow (l.indent + 1) (l.cursor.rest.length + 1) {} l.cursor
  return ((l.allowKey f.acrossLines).emit (.scalar f.word .plain)).goTo cursor

/-- A block scalar. -/
def block (l : Lexer) (literal : Bool) : Option Lexer := do
  let l ← l.dropCandidate
  let (text, cursor) ← readBlock literal l.indent (l.cursor.skip 1)
  return ((l.allowKey true).emit (.scalar text (if literal then .literal else .folded))).goTo cursor

/-- A quoted scalar. -/
def quoted (single : Bool) (cur : Cursor) : Option (Token × Cursor) :=
  (readQuoted single (cur.rest.length + 1) {} (cur.skip 1)).map fun (text, cur) =>
    (.scalar text .quoted, cur)

/-- An alias or an anchor. -/
def named (make : String → Token) (cur : Cursor) : Option (Token × Cursor) :=
  (name? (cur.skip 1)).map fun (name, cur) => (make name, cur)

/-- A tag, which a gap must follow; within brackets a comma will do. -/
def tagged (inFlow : Bool) (cur : Cursor) : Option (Token × Cursor) := do
  let (t, cur) ← tag? cur
  if isGap cur.next? || (inFlow && cur.next? = some ',') then some (t, cur) else none

/-- Characters that cannot begin a plain scalar: blanks, and those with a meaning of their own. -/
def isIndicator (c : Char) : Bool :=
  isBlank c || "-?:,[]\x7b\x7d#&*!|>'\"%@`".toList.contains c

/-- The next token, which begins with the character `c`. -/
def readToken (l : Lexer) (c : Char) : Option Lexer :=
  let cur := l.cursor
  let gap := isGap (cur.ahead? 1)
  if cur.column = 0 && c = '%' then do
    let l ← l.betweenDocuments
    let (t, cursor) ← directive? l.cursor
    return (l.emit t).goTo cursor
  else if cur.atTriple '-' then
    l.betweenDocuments.map fun l => (l.emit .documentStart).goTo (l.cursor.skip 3)
  else if cur.atTriple '.' then
    l.betweenDocuments.map fun l => (l.emit .documentEnd).goTo (l.cursor.skip 3)
  else if c = '[' then l.openFlow .flowSequenceStart
  else if c = '\x7b' then l.openFlow .flowMappingStart
  else if c = ']' then l.closeFlow .flowSequenceEnd
  else if c = '\x7d' then l.closeFlow .flowMappingEnd
  else if c = ',' then
    l.dropCandidate.map fun l => ((l.allowKey true).emit .flowEntry).goTo (l.cursor.skip 1)
  else if c = '-' && gap then l.beginEntry .blockSequenceStart .blockEntry true
  else if c = '?' && (l.inFlow || gap) then l.beginEntry .blockMappingStart .key (!l.inFlow)
  else if c = ':' && (l.inFlow || gap) then l.colon
  else if c = '*' then l.word (named .alias)
  else if c = '&' then l.word (named .anchor)
  else if c = '!' then l.word (tagged l.inFlow)
  else if c = '|' && !l.inFlow then l.block true
  else if c = '>' && !l.inFlow then l.block false
  else if c = '\'' then l.word (quoted true)
  else if c = '"' then l.word (quoted false)
  else if !isIndicator c || (c = '-' && !((cur.ahead? 1).map isBlank).getD false)
      || (!l.inFlow && (c = '?' || c = ':')) then l.plain
  else none

/-- All tokens from a place on. Every step takes a character, so `fuel` may be the length of the text. -/
def readAll : Nat → Lexer → Option Lexer
  | 0, _ => none
  | fuel + 1, l => do
    let l ← (l.skipGap (l.cursor.rest.length + 1)).dropStale
    match l.cursor.rest with
    | [] => (l.closeBlocks (-1)).dropCandidate
    | c :: _ => readAll fuel (← (l.closeBlocks l.cursor.column).readToken c)

/-- The tokens with those put in that were marked for a place. Later marks for one place come first. -/
def spliced (l : Lexer) : List Token :=
  (l.tokens.toList.zipIdx.map fun (t, n) =>
    (l.marks.filter fun m => m.1 = n).flatMap Prod.snd ++ [t]).flatten

end Lexer

/-- The tokens of a text. A mark of the byte order may stand in front of it. -/
def tokens? (s : String) : Option (List Token) :=
  let cs := s.toList
  let cs := if cs.head? = some '\ufeff' then cs.tail else cs
  if cs.all isAllowed then
    (Lexer.readAll (cs.length + 1) { cursor := { rest := cs } }).map Lexer.spliced
  else none

end WindowSurvey.Yaml
