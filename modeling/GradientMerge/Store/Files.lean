import GradientMerge.IoError
import GradientMerge.Text.Split

/-!
Contract: files and directories, as paths lead to them from a working directory.

Owns:
- the places that paths lead to, and their contents;
- reading, writing, and the creation of directories;
- the longest names and paths.

Does not own: what lies outside of the working directory. The root and the directories around the
working directory are there, and nothing else is known of them.
-/

namespace GradientMerge

/-- What is at a place: a file or a directory. -/
inductive FileNode where
  | file (content : List UInt8)
  | directory
deriving DecidableEq, Repr

/-- Files and directories by their places.

A place is the list of names from the working directory on. Steps out of the working directory come
before all names; the names from the root on stand behind the name of the root. -/
structure Files where
  entries : List (List String × FileNode) := []
deriving DecidableEq, Repr

namespace Files

/-- The place of the root. -/
def root : List String := ["/"]

/-- The step to the directory around another one. -/
def outward : String := ".."

/-- Whether a place is the working directory or a directory around it. -/
def isAround (place : List String) : Bool := place.all fun part => part == outward

/-- What is at a place. The root and the directories around the working directory are there in any
case. -/
def node? (files : Files) (place : List String) : Option FileNode :=
  if isAround place || place == root then some .directory else files.entries.lookup place

/-- Puts something at a place. -/
def put (files : Files) (place : List String) (node : FileNode) : Files :=
  ⟨(place, node) :: files.entries.filter fun entry => entry.1 != place⟩

/-- The longest name in bytes. -/
def nameLimit : Nat := 255

/-- The longest path in bytes. -/
def pathLimit : Nat := 4095

/-- Whether something can have this name. -/
def isName (name : String) : Bool := name.utf8ByteSize ≤ nameLimit

/-- Whether a path can be followed at all: it is not too long and does not hold the character that
ends a path. -/
def isUsable (path : String) : Bool :=
  path.utf8ByteSize ≤ pathLimit && ! path.toList.contains '\x00'

/-- The directory around a place; the root is its own. -/
def around (place : List String) : List String :=
  if place = root then root
  else if isAround place then place ++ [outward]
  else place.dropLast

/-- One step along a path from a place, which must be a directory. -/
def enter? (files : Files) (place : List String) (part : String) : Option (List String) :=
  if files.node? place ≠ some .directory then none
  else if part = "" ∨ part = "." then some place
  else if part = outward then some (around place)
  else if isName part then some (place ++ [part])
  else none

/-- The parts of a path. -/
def parts (path : String) : List String := (pieces '/' path.toList).map String.ofList

/-- The place where a path begins. -/
def origin (path : String) : List String := if path.startsWith "/" then root else []

/-- The place that a path leads to, if all on the way there are directories. There need not be
anything at the place. -/
def locate? (files : Files) (path : String) : Option (List String) :=
  if path.isEmpty || ! isUsable path then none
  else (parts path).foldlM files.enter? (origin path)

/-- The failure of a file operation. -/
def unusable (path : String) : IoError := ⟨.fileUnusable, "cannot use " ++ path⟩

/-- Whether there is something at the end of a path. -/
def isPresent (files : Files) (path : String) : Bool :=
  ((files.locate? path).bind files.node?).isSome

/-- The content of a file. -/
def read (files : Files) (path : String) : Except IoError (List UInt8) :=
  match (files.locate? path).bind files.node? with
  | some (.file content) => .ok content
  | _ => .error (unusable path)

/-- Writes a file, which may be there already, into a directory that must be there. -/
def write (files : Files) (path : String) (content : List UInt8) : Except IoError Files :=
  match files.locate? path with
  | none => .error (unusable path)
  | some place =>
    if files.node? place = some .directory then .error (unusable path)
    else .ok (files.put place (.file content))

/-- Goes along the parts of a path and creates the directories that are missing. What was created
before a failure stays. -/
def makeDirectories : Files → List String → List String → Except IoError Unit × Files
  | files, _, [] => (.ok (), files)
  | files, place, part :: rest =>
    match files.enter? place part with
    | none => (.error (unusable part), files)
    | some next =>
      match files.node? next with
      | some .directory => makeDirectories files next rest
      | some (.file _) => (.error (unusable part), files)
      | none => makeDirectories (files.put next .directory) next rest

/-- Creates the directory at the end of a path, and those on the way to it. -/
def makePath (files : Files) (path : String) : Except IoError Unit × Files :=
  if isUsable path then files.makeDirectories (origin path) (parts path)
  else (.error (unusable path), files)

/-- Whether a part of a path leads nowhere else. -/
def isIdle (part : String) : Bool := part == "" || part == "."

/-- The path to the directory of a path's last part. -/
def parentPath (path : String) : String :=
  let behind := (parts path).reverse.dropWhile isIdle
  "/".intercalate ((behind.drop 1).dropWhile isIdle).reverse

/-- Creates the directories on the way to the last part of a path. If the path to them cannot be
followed, none of them is created. -/
def makeParents (files : Files) (path : String) : Except IoError Unit × Files :=
  let parent := parentPath path
  if isUsable parent then files.makeDirectories (origin path) (parts parent)
  else (.error (unusable parent), files)

/-- Writes a file and creates the directories on the way to it. -/
def store (files : Files) (path : String) (content : List UInt8) :
    Except IoError Unit × Files :=
  match files.makeParents path with
  | (.error cause, files) => (.error cause, files)
  | (.ok (), files) =>
    match files.write path content with
    | .error cause => (.error cause, files)
    | .ok files => (.ok (), files)

@[simp] theorem node?_put_self
    (files : Files)
    {place : List String}
    (known : (isAround place || place == root) = false)
    (node : FileNode) :
    (files.put place node).node? place = some node := by
  simp [node?, put, known]

end Files

end GradientMerge
