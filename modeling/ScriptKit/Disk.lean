import ScriptKit.Path

/-!
# Files

A disk is a tree of directories and files. Paths are followed part by part from the working directory,
which is the top of the tree: every part but the last has to be a directory. What lies above the top is
not known, so nothing is found there.
-/

namespace ScriptKit

/-- What stands at a place of a disk. -/
inductive Entry where
  | directory
  | file (content : Text)
  deriving DecidableEq, Repr, Inhabited

/-- Directories and files by the parts of their paths. A place is listed once, and so are the
directories around it. -/
structure Disk where
  entries : List (List Text × Entry) := []
  deriving Repr, Inhabited

namespace Disk

/-- Why a file could not be opened or read. -/
inductive Fault where
  | missing
  | notDirectory
  | isDirectory
  | tooLong
  | invalid
  deriving DecidableEq, Repr, Inhabited

namespace Fault

/-- What went wrong, in words. -/
def reason : Fault → Text
  | .missing => "no such file or directory"
  | .notDirectory => "not a directory"
  | .isDirectory => "is a directory"
  | .tooLong => "file name too long"
  | .invalid => "invalid argument"

/-- What went wrong with reading a file. A directory can be opened and fails only then. -/
def onRead (path : Text) (fault : Fault) : Text :=
  (if fault = .isDirectory then "read " else "open ") ++ path ++ ": " ++ fault.reason

/-- What went wrong with creating a file. -/
def onCreate (path : Text) (fault : Fault) : Text := "open " ++ path ++ ": " ++ fault.reason

end Fault

/-- What stands at a place; the top is always a directory. -/
def entry? (d : Disk) (place : List Text) : Option Entry :=
  if place.isEmpty then some .directory else d.entries.lookup place

/-- A place of the tree, or somewhere above its top. -/
abbrev Place := Option (List Text)

/-- What stands at a place that may be above the top. -/
def at? (d : Disk) : Place → Option Entry
  | none => some .directory
  | some place => d.entry? place

/-- How many bytes a name may have. -/
def longestName : Nat := 255

/-- How many bytes a path may have. -/
def longestPath : Nat := 4095

/-- Go from a directory to one of its parts. -/
def step (d : Disk) (place : Place) (part : Text) : Except Fault Place :=
  match d.at? place with
  | none => .error .missing
  | some (.file _) => .error .notDirectory
  | some .directory =>
    if part.isEmpty || part = Path.here then .ok place
    else if longestName < part.toBytes.length then .error .tooLong
    else
      match place with
      | none => if part = Path.above then .ok none else .error .missing
      | some place =>
        if part = Path.above then .ok (if place.isEmpty then none else some place.dropLast)
        else .ok (some (place ++ [part]))

/-- Follow a path to a place, which need not exist. No path holds a null character. -/
def follow (d : Disk) (path : Text) : Except Fault Place :=
  if path.contains (.char '\x00') then .error .invalid
  else if path.isEmpty then .error .missing
  else if longestPath < path.toBytes.length then .error .tooLong
  else (Path.parts path).foldlM d.step (if Path.isRooted path then none else some [])

/-- The content of a file. -/
def read (d : Disk) (path : Text) : Except Fault Text := do
  match d.at? (← d.follow path) with
  | some (.file content) => .ok content
  | some .directory => .error .isDirectory
  | none => .error .missing

/-- Why a file cannot be created, if it cannot: the directory around it has to exist, and no directory may
stand in its place. A path with a slash at its end names a directory, whether there is one or not. -/
def createFault? (d : Disk) (path : Text) : Option Fault :=
  let name := Text.dropRightWhile Path.isSlash path
  match d.follow name with
  | .error fault => some (if name.isEmpty && !path.isEmpty then .isDirectory else fault)
  | .ok place =>
    if name.length < path.length || d.at? place = some .directory then some .isDirectory else none

/-! ## Changes -/

/-- Put an entry at a place. -/
def put (d : Disk) (place : List Text) (entry : Entry) : Disk :=
  ⟨(place, entry) :: d.entries.filter fun e => e.1 != place⟩

/-- Make every directory on the way to a place. -/
def makeParents (d : Disk) (place : List Text) : Disk :=
  (List.range place.length).foldl
    (fun d n => if (d.entry? (place.take n)).isSome then d else d.put (place.take n) .directory) d

/-- Put an entry where a path leads, with the directories around it. -/
def add (d : Disk) (path : Text) (entry : Entry) : Disk :=
  let place := Path.cleanParts path
  (d.makeParents place).put place entry

/-- Take away what stands at a path, with everything in it. -/
def remove (d : Disk) (path : Text) : Disk :=
  let place := Path.cleanParts path
  ⟨d.entries.filter fun e => !place.isPrefixOf e.1⟩

end Disk

end ScriptKit
