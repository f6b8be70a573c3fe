import WindowSurvey.Files.Basic
/-!
# A disk in memory

Folders and files as plain data, which answer like real ones. Paths are followed from the root, name by
name; a name may also stand for the folder itself or for the one around it.

## Main definitions

* `Disk`, `Disk.follow` — the disk, and the place that a path leads to
* `Disk.files` — the disk as a file system
-/

namespace WindowSurvey

/-- A place on a disk: the names on the way from the root. -/
abbrev Place := List String

/-- A disk. The root is always a folder. -/
structure Disk where
  folders : List Place := []
  contents : List (Place × ByteArray) := []
  deriving Inhabited

namespace Disk

/-- Whether a place is a folder. -/
def isFolder (d : Disk) (p : Place) : Bool := p.isEmpty || d.folders.contains p

/-- The content of the file at a place. -/
def content? (d : Disk) (p : Place) : Option ByteArray := d.contents.lookup p

/-- The names on a path. -/
def names (path : String) : List String := (path.toList.splitOnP (· = '/')).map String.ofList

/-- The place that one more name leads to. -/
def step (p : Place) (name : String) : Place :=
  if name = "" ∨ name = "." then p
  else if name = ".." then p.dropLast
  else p ++ [name]

/-- Why nothing lies inside a place that is no folder. -/
def dead (d : Disk) (p : Place) : FileFault := if (d.content? p).isSome then .notFolder else .missing

/-- The place that names lead to. All but the last must lead to folders. -/
def follow (d : Disk) : Place → List String → Except FileFault Place
  | p, [] => .ok p
  | p, name :: names => if d.isFolder p then d.follow (step p name) names else .error (d.dead p)

/-- Read a file. -/
def read (d : Disk) (path : String) : Except FileFault ByteArray := do
  let p ← d.follow [] (names path)
  match d.content? p with
  | some bytes => .ok bytes
  | none => if d.isFolder p then .error .isFolder else .error .missing

/-- The names of the files in a folder. -/
def list (d : Disk) (path : String) : Except FileFault (List String) := do
  let p ← d.follow [] (names path)
  if d.isFolder p then
    .ok (d.contents.filterMap fun (place, _) =>
      if place.dropLast = p then place.getLast? else none)
  else .error (d.dead p)

/-- Add a folder, if it is not there. -/
def addFolder (d : Disk) (p : Place) : Disk :=
  if d.isFolder p then d else { d with folders := d.folders ++ [p] }

/-- Make all folders on a way. -/
def makeFolders (d : Disk) : Place → List String → Except FileFault Disk
  | p, [] => if (d.content? p).isSome then .error .taken else .ok (d.addFolder p)
  | p, name :: names =>
    if (d.content? p).isSome then .error .notFolder
    else (d.addFolder p).makeFolders (step p name) names

/-- Put a file at a place, instead of the one that is there. -/
def put (d : Disk) (p : Place) (bytes : ByteArray) : Disk :=
  { d with contents := d.contents.filter (fun c => c.1 ≠ p) ++ [(p, bytes)] }

/-- Write a file. -/
def write (d : Disk) (path : String) (bytes : ByteArray) : Except FileFault Disk := do
  let p ← d.follow [] (names path)
  if d.isFolder p then .error .isFolder else .ok (d.put p bytes)

/-- A change of the disk, which keeps it when the change fails. -/
def change (f : Disk → Except FileFault Disk) : StateM Disk (Except FileFault Unit) := fun d =>
  match f d with
  | .ok d => (.ok (), d)
  | .error fault => (.error fault, d)

/-- The disk as a file system. -/
def files : Files (StateM Disk) where
  read path := do return (← get).read path
  list path := do return (← get).list path
  makeFolder path := change fun d => d.makeFolders [] (names path)
  write path bytes := change fun d => d.write path bytes

end Disk

end WindowSurvey
