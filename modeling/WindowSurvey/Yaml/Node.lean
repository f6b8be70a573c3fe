import WindowSurvey.Yaml.Token
/-!
# Trees of a YAML text

The tokens of one document as a tree. An alias stays a reference to the node with its anchor, which may
even be one around it, so a tree is always finite.

## Main definitions

* `Yaml.Node`, `Yaml.Document` — trees, and the nodes that aliases refer to
* `Yaml.Document.resolve` — what a node stands for
* `Yaml.document?` — the only document of a text
-/

namespace WindowSurvey.Yaml

/-- A tree. -/
inductive Node where
  | scalar (text : String) (style : Style) (tag : Option String)
  | sequence (items : List Node)
  | mapping (members : List (Node × Node))
  | alias (anchor : Nat)
  deriving Inhabited

/-- A tree with the nodes that have anchors, by number. -/
structure Document where
  root : Node
  anchored : List (Nat × Node)

/-- The node that a node stands for. The node with an anchor is never an alias itself. -/
def Document.resolve (d : Document) : Node → Node
  | .alias anchor => (d.anchored.lookup anchor).getD (.alias anchor)
  | node => node

/-- What is known while tokens are read: those left, the meaning of the handles of tags, the numbers of
anchors by name, and the nodes by number. -/
structure Reading where
  tokens : List Token
  handles : List (String × String) := []
  names : List (String × Nat) := []
  anchored : List (Nat × Node) := []

/-- A reader of tokens, which may find that they are no document. -/
abbrev Reader := StateT Reading Option

namespace Reader

/-- The next token. -/
def peek : Reader (Option Token) := return (← get).tokens.head?

/-- Go past a token. -/
def skip : Reader Unit := modify fun r => { r with tokens := r.tokens.tail }

/-- Whether the next token is one of some. -/
def isAmong (ts : List Token) : Reader Bool :=
  return match ← peek with
    | some t => ts.contains t
    | none => false

/-- Go past the next token if it is this one, and say whether it was. -/
def takes (t : Token) : Reader Bool := do
  if (← peek) = some t then
    skip
    return true
  else return false

/-- An empty scalar, for a node that is not written. -/
def nothing : Node := .scalar "" .plain none

/-! ## Anchors and tags -/

/-- The meaning of a tag. -/
def tagText (handle suffix : String) : Reader String := do
  if handle.isEmpty then return suffix
  let r ← get
  match r.handles.lookup handle with
  | some target => return target ++ suffix
  | none => failure

/-- An anchor if there is one. -/
def anchor? : Reader (Option String) := do
  match ← peek with
  | some (.anchor name) =>
    skip
    return some name
  | _ => return none

/-- A tag if there is one. -/
def tag? : Reader (Option String) := do
  match ← peek with
  | some (.tag handle suffix) =>
    skip
    return some (← tagText handle suffix)
  | _ => return none

/-- An anchor and a tag, in any order. -/
def properties : Reader (Option String × Option String) := do
  match ← anchor? with
  | some name => return (some name, ← tag?)
  | none =>
    match ← tag? with
    | some tag => return (← anchor?, some tag)
    | none => return (none, none)

/-- Give an anchor its number. A name may be used again, and aliases mean the last use. -/
def register (name : String) : Reader Nat := do
  let r ← get
  let number := r.names.length
  set { r with names := (name, number) :: r.names }
  return number

/-- Remember the node of an anchor. -/
def remember (number : Nat) (node : Node) : Reader Unit :=
  modify fun r => { r with anchored := (number, node) :: r.anchored }

/-! ## Nodes -/

mutual

/-- A node. `inBlock` allows blocks, and `bare` a sequence of entries that is not indented. -/
def node : Nat → Bool → Bool → Reader Node
  | 0, _, _ => failure
  | fuel + 1, inBlock, bare => do
    match ← peek with
    | some (.alias name) =>
      skip
      let r ← get
      match r.names.lookup name with
      | some number => return .alias number
      | none => failure
    | _ =>
      match ← properties with
      | (some name, tag) =>
        let number ← register name
        let made ← content fuel inBlock bare true tag
        remember number made
        return made
      | (none, tag) => content fuel inBlock bare tag.isSome tag

/-- A node behind its anchor and tag. With either of them it may be left empty. -/
def content : Nat → Bool → Bool → Bool → Option String → Reader Node
  | 0, _, _, _, _ => failure
  | fuel + 1, inBlock, bare, mayBeEmpty, tag => do
    match ← peek with
    | some (.scalar text style) =>
      skip
      return .scalar text style tag
    | some .flowSequenceStart =>
      skip
      return .sequence (← flowItems fuel true)
    | some .flowMappingStart =>
      skip
      return .mapping (← flowMembers fuel true)
    | some .blockEntry =>
      if bare then return .sequence (← bareItems fuel)
      else if mayBeEmpty then return .scalar "" .plain tag
      else failure
    | some .blockSequenceStart =>
      if inBlock then
        skip
        return .sequence (← blockItems fuel)
      else if mayBeEmpty then return .scalar "" .plain tag
      else failure
    | some .blockMappingStart =>
      if inBlock then
        skip
        return .mapping (← blockMembers fuel)
      else if mayBeEmpty then return .scalar "" .plain tag
      else failure
    | _ => if mayBeEmpty then return .scalar "" .plain tag else failure

/-- A node, or nothing if one of some tokens comes next. -/
def nodeUnless : Nat → List Token → Bool → Bool → Reader Node
  | 0, _, _, _ => failure
  | fuel + 1, ts, inBlock, bare => do
    if ← isAmong ts then return nothing else node fuel inBlock bare

/-- The entries of a block up to its end. -/
def blockItems : Nat → Reader (List Node)
  | 0 => failure
  | fuel + 1 => do
    if ← takes .blockEntry then
      let item ← nodeUnless fuel [.blockEntry, .blockEnd] true false
      return item :: (← blockItems fuel)
    else if ← takes .blockEnd then return []
    else failure

/-- The entries of a sequence that stands at the indentation of the mapping around it. -/
def bareItems : Nat → Reader (List Node)
  | 0 => failure
  | fuel + 1 => do
    if ← takes .blockEntry then
      let item ← nodeUnless fuel [.blockEntry, .key, .value, .blockEnd] true false
      return item :: (← bareItems fuel)
    else return []

/-- The value of a key. -/
def valueUnless : Nat → List Token → Bool → Bool → Reader Node
  | 0, _, _, _ => failure
  | fuel + 1, ts, inBlock, bare => do
    if ← takes .value then nodeUnless fuel ts inBlock bare else return nothing

/-- The members of a block up to its end. -/
def blockMembers : Nat → Reader (List (Node × Node))
  | 0 => failure
  | fuel + 1 => do
    if ← takes .key then
      let key ← nodeUnless fuel [.key, .value, .blockEnd] true true
      let value ← valueUnless fuel [.key, .value, .blockEnd] true true
      return (key, value) :: (← blockMembers fuel)
    else if ← takes .blockEnd then return []
    else failure

/-- The items of a list in brackets. An item may be a single member of a mapping; its key may be empty, and
then uses up the mark behind it. -/
def flowItems : Nat → Bool → Reader (List Node)
  | 0, _ => failure
  | fuel + 1, first => do
    if ← takes .flowSequenceEnd then return []
    if !first then
      if !(← takes .flowEntry) then failure
    if ← takes .flowSequenceEnd then return []
    if ← takes .key then
      let empty ← isAmong [.value, .flowEntry, .flowSequenceEnd]
      let key ← if empty then pure nothing else node fuel false false
      if empty then skip
      let value ← valueUnless fuel [.flowEntry, .flowSequenceEnd] false false
      return .mapping [(key, value)] :: (← flowItems fuel false)
    else
      let item ← node fuel false false
      return item :: (← flowItems fuel false)

/-- The members of a mapping in braces. A key may come without a value. -/
def flowMembers : Nat → Bool → Reader (List (Node × Node))
  | 0, _ => failure
  | fuel + 1, first => do
    if ← takes .flowMappingEnd then return []
    if !first then
      if !(← takes .flowEntry) then failure
    if ← takes .flowMappingEnd then return []
    if ← takes .key then
      let key ← nodeUnless fuel [.value, .flowEntry, .flowMappingEnd] false false
      let value ← valueUnless fuel [.flowEntry, .flowMappingEnd] false false
      return (key, value) :: (← flowMembers fuel false)
    else
      let key ← node fuel false false
      return (key, nothing) :: (← flowMembers fuel false)

end

/-! ## Documents -/

/-- The handles that every document knows. -/
def ownHandles : List (String × String) := [("!", "!"), ("!!", "tag:yaml.org,2002:")]

/-- The directives of a document: at most one version, which must be known, and no handle twice. -/
def directives : Nat → Bool → List (String × String) → Reader (List (String × String))
  | 0, _, handles => return handles
  | fuel + 1, versionSeen, handles => do
    match ← peek with
    | some (.version major minor) =>
      if versionSeen ∨ major ≠ 1 ∨ (minor ≠ 1 ∧ minor ≠ 2) then failure
      else
        skip
        directives fuel true handles
    | some (.handle name target) =>
      if (handles.lookup name).isSome then failure
      else
        skip
        directives fuel versionSeen ((name, target) :: handles)
    | _ => return handles

/-- Whether the next token can only stand between documents. -/
def betweenDocuments : Reader Bool := do
  match ← peek with
  | none => return true
  | some (.version _ _) => return true
  | some (.handle _ _) => return true
  | some .documentStart => return true
  | some .documentEnd => return true
  | _ => return false

/-- The root of the first document. One that begins without a mark has no directives and must not be
empty. -/
def root (fuel : Nat) : Reader Node := do
  let before := (← get).tokens.length
  let handles ← directives fuel false []
  modify fun r => { r with handles := handles ++ ownHandles }
  if ← takes .documentStart then
    if ← betweenDocuments then return nothing else node fuel true false
  else if (← get).tokens.length = before then node fuel true false
  else failure

/-- Go past the marks of the end of a document. -/
def skipEnds : Nat → Reader Unit
  | 0 => return ()
  | fuel + 1 => do if ← takes .documentEnd then skipEnds fuel

/-- The only document. -/
def onlyDocument (fuel : Nat) : Reader Node := do
  let made ← root fuel
  skipEnds fuel
  if (← peek).isNone then return made else failure

end Reader

/-- The only document of a text, which may be none. The answer is absent if the text is not YAML or holds
several documents. Every call takes a token or goes one step down a fixed ladder, so some calls a token
are enough. -/
def document? (s : String) : Option (Option Document) := do
  let tokens ← tokens? s
  if tokens.isEmpty then return none
  let (root, r) ← (Reader.onlyDocument (8 * tokens.length + 8)).run { tokens }
  return some ⟨root, r.anchored⟩

end WindowSurvey.Yaml
