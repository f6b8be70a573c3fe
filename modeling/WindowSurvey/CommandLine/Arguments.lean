import WindowSurvey.Decimal.Literal
/-!
# Command lines

A command line is a row of words. A word names an option with or without its value, is the value of the
option before it, or ends the options. The value of an option is checked as soon as the next option is
known, or at the end, so of two mistakes the one that is met first in this order is reported.

## Main definitions

* `Arguments.Setting`, `Arguments.Switch` — the options, with a value and without
* `Arguments` — what a command line asks for
* `Arguments.Stop` — why nothing can be run for a command line
* `Arguments.ofWords` — read a command line
-/

namespace WindowSurvey

/-- What a command line asks for. -/
structure Arguments where
  config : Option String := none
  frames : Option String := none
  select : Option (List Nat) := none
  navigate : Option Nat := none
  thumbnails : Option String := none
  settle : Option Nat := none
  schema : Bool := false
  deriving DecidableEq, Repr, Inhabited

namespace Arguments

/-! ## Options -/

/-- The options that take a value. -/
inductive Setting where
  | config
  | frames
  | select
  | navigate
  | thumbnails
  | settle
  deriving DecidableEq, Repr, Inhabited

/-- The options that take none. -/
inductive Switch where
  | schema
  | help
  | version
  deriving DecidableEq, Repr, Inhabited

/-- An option. -/
inductive Name where
  | setting (setting : Setting)
  | switch (switch : Switch)
  deriving DecidableEq, Repr, Inhabited

/-- The long name of an option with a value. -/
def Setting.name : Setting → String
  | config => "config"
  | frames => "frames"
  | select => "select"
  | navigate => "navigate"
  | thumbnails => "thumbnails"
  | settle => "settle-ms"

/-- The long name of an option without a value. -/
def Switch.name : Switch → String
  | schema => "schema"
  | help => "help"
  | version => "version"

/-- All options. -/
def names : List Name :=
  [.setting .config, .setting .frames, .setting .select, .setting .navigate, .setting .thumbnails,
    .setting .settle, .switch .schema, .switch .help, .switch .version]

/-- The long name of an option. -/
def Name.long : Name → String
  | setting s => s.name
  | switch s => s.name

/-- The letter that stands for an option. -/
def Name.letter? : Name → Option Char
  | setting .config => some 'c'
  | setting .frames => some 'f'
  | switch .help => some 'h'
  | switch .version => some 'V'
  | _ => none

/-! ## Words -/

/-- What a word of a command line looks like. A value may follow a name after an equals sign, and a letter
also directly. -/
inductive Word where
  | named (name : List Char) (value : Option String)
  | lettered (letter : Char) (value : Option String)
  | terminator
  | plain

/-- The value that follows a name. -/
def attached : List Char → Option String
  | '=' :: value => some (String.ofList value)
  | _ => none

/-- The value that follows a letter. -/
def stuck : List Char → Option String
  | [] => none
  | '=' :: value => some (String.ofList value)
  | value => some (String.ofList value)

/-- What a word looks like. -/
def Word.ofChars : List Char → Word
  | ['-'] => plain
  | ['-', '-'] => terminator
  | '-' :: '-' :: cs => named (cs.takeWhile (· ≠ '=')) (attached (cs.dropWhile (· ≠ '=')))
  | '-' :: c :: cs => lettered c (stuck cs)
  | _ => plain

/-! ## Values -/

/-- Why nothing can be run for a command line: the user wants to read something, or made a mistake. -/
inductive Stop where
  | help
  | version
  | unknown (word : String)
  | valueUnwanted (option : Name)
  | valueMissing (option : Setting)
  | repeated (option : Name)
  | notNumber (option : Setting) (value : String)
  | framesMissing
  deriving DecidableEq, Repr, Inhabited

/-- The digits of a number, possibly behind a plus sign. -/
def unsignedDigits : List Char → List Char
  | '+' :: cs => cs
  | cs => cs

/-- A number of 64 bits, in decimal. -/
def number? (value : String) : Option Nat := do
  let digits ← (unsignedDigits value.toList).mapM Literal.digit?
  let n := Literal.natOfDigits digits
  if digits.isEmpty ∨ Nat.pow 2 64 ≤ n then none else some n

/-- A value that must be a number. -/
def number (option : Setting) (value : String) : Except Stop Nat :=
  match number? value with
  | some n => .ok n
  | none => .error (.notNumber option value)

/-- A value that must be a path. -/
def path (option : Setting) (value : String) : Except Stop String :=
  if value.isEmpty then .error (.valueMissing option) else .ok value

/-- Numbers with commas between them. -/
def numbers (option : Setting) (value : String) : Except Stop (List Nat) :=
  (value.toList.splitOnP (· = ',')).mapM fun item => number option (String.ofList item)

/-- An option that may be given once only. -/
def once {α β : Type} (option : Setting) (old : Option α) (value : Except Stop β) : Except Stop β :=
  if old.isSome then .error (.repeated (.setting option)) else value

/-- Take an option with its value. Picks add up; of the other options each may be given once. -/
def set (a : Arguments) (option : Setting) (value : String) : Except Stop Arguments :=
  match option with
  | .config => do return { a with config := some (← once option a.config (path option value)) }
  | .frames => do return { a with frames := some (← once option a.frames (path option value)) }
  | .select => do return { a with select := some (a.select.getD [] ++ (← numbers option value)) }
  | .navigate => do
    return { a with navigate := some (← once option a.navigate (number option value)) }
  | .thumbnails => do
    return { a with thumbnails := some (← once option a.thumbnails (path option value)) }
  | .settle => do return { a with settle := some (← once option a.settle (number option value)) }

/-- Take an option without a value. -/
def setSwitch (a : Arguments) : Switch → Except Stop Arguments
  | .help => .error .help
  | .version => .error .version
  | .schema =>
    if a.schema then .error (.repeated (.switch .schema)) else .ok { a with schema := true }

/-! ## Command lines -/

/-- What is known after some words: the options that were taken, and the last one if its value is still
to come or to be checked. -/
structure Reading where
  arguments : Arguments := {}
  last : Option (Setting × Option String) := none

/-- Take the last option. -/
def Reading.taken (r : Reading) : Except Stop Arguments :=
  match r.last with
  | none => .ok r.arguments
  | some (option, none) => .error (.valueMissing option)
  | some (option, some value) => r.arguments.set option value

/-- Go on with an option. A value that stands in the same word is checked at once. -/
def Reading.option (r : Reading) (name : Name) (value : Option String) : Except Stop Reading :=
  match name, value with
  | .switch _, some _ => .error (.valueUnwanted name)
  | .switch s, none => do return { arguments := ← (← r.taken).setSwitch s }
  | .setting s, some value => do return { arguments := ← (← r.taken).set s value }
  | .setting s, none => do return { arguments := ← r.taken, last := some (s, none) }

/-- Go on with a word that is no option: it is the value of the option before it. -/
def Reading.value (r : Reading) (word : String) : Except Stop Reading :=
  match r.last with
  | some (option, none) => .ok { r with last := some (option, some word) }
  | _ => .error (.unknown word)

/-- Go on with a letter. What follows the letter of an option without a value would be more letters, but
all such options end the reading. -/
def Reading.letter (r : Reading) (name : Name) (value : Option String) : Except Stop Reading :=
  match name with
  | .switch s => r.option (.switch s) none
  | .setting s => r.option (.setting s) value

/-- Read the words of a command line. Nothing may follow the end of the options. -/
def read : Reading → List String → Except Stop Arguments
  | r, [] => r.taken
  | r, word :: words =>
    match Word.ofChars word.toList with
    | .terminator =>
      match words with
      | [] => r.taken
      | extra :: _ => .error (.unknown extra)
    | .plain => do read (← r.value word) words
    | .named name value =>
      match names.find? fun n => n.long.toList = name with
      | some n => do read (← r.option n value) words
      | none => .error (.unknown word)
    | .lettered letter value =>
      match names.find? fun n => n.letter? = some letter with
      | some n => do read (← r.letter n value) words
      | none => .error (.unknown word)

/-- Read a command line. Frames are needed for everything but the description of reports. -/
def ofWords (words : List String) : Except Stop Arguments := do
  let a ← read {} words
  if a.frames.isNone ∧ a.schema = false then .error .framesMissing else .ok a

end Arguments

end WindowSurvey
