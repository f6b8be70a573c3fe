import WindowSurvey.Failure
/-!
# Files

What the program asks of a file system, over any kind of effects: the real one answers with effects of
the world, a disk in memory with a changed state.

## Main definitions

* `FileFault` — why a file operation fails
* `Files` — the operations
* `Files.within` — the path of an entry of a folder
-/

namespace WindowSurvey

/-- Why a file operation fails. -/
inductive FileFault where
  /-- Nothing is there. -/
  | missing
  /-- A folder was expected. -/
  | notFolder
  /-- A file was expected. -/
  | isFolder
  /-- Something is there already. -/
  | taken
  /-- The user may not do that. -/
  | denied
  /-- Another reason, as the system words it. -/
  | other (text : String)
  deriving DecidableEq, Repr, Inhabited

namespace FileFault

/-- The sentence of the operating system, with its number. -/
def text : FileFault → String
  | missing => "No such file or directory (os error 2)"
  | denied => "Permission denied (os error 13)"
  | taken => "File exists (os error 17)"
  | notFolder => "Not a directory (os error 20)"
  | isFolder => "Is a directory (os error 21)"
  | other text => text

/-- The fault as a failure of the program. -/
def failure (f : FileFault) : Failure := .io f.text

end FileFault

/-- What is asked of a file system. Listing a folder gives the names of the regular files in it, in any
order; making a folder makes those around it too and is content with one that is there. -/
structure Files (m : Type → Type) where
  read : String → m (Except FileFault ByteArray)
  list : String → m (Except FileFault (List String))
  makeFolder : String → m (Except FileFault Unit)
  write : String → ByteArray → m (Except FileFault Unit)

namespace Files

/-- The path of an entry of a folder. A path that begins at the root needs no folder. -/
def within (folder name : String) : String :=
  if name.toList.head? = some '/' then name
  else
    match folder.toList.getLast? with
    | none => name
    | some '/' => folder ++ name
    | some _ => folder ++ "/" ++ name

/-- An operation whose fault is a failure of the program. -/
def orFail {m : Type → Type} [Monad m] {α : Type} (action : m (Except FileFault α))
    (failure : FileFault → Failure := FileFault.failure) : ExceptT Failure m α :=
  ExceptT.mk do return (← action).mapError failure

end Files

end WindowSurvey
