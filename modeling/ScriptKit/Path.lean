import ScriptKit.Text.Basic

/-!
# Paths

Names of files with slashes between their parts. `Path.clean` is the shortest path that names the same
place: it has no empty part, no `.` part, and `..` parts at its front only.
-/

namespace ScriptKit

namespace Path

/-- Whether a glyph is the slash between two parts. -/
def isSlash (g : Glyph) : Bool := g == .char '/'

/-- The parts of a path. -/
def parts (path : Text) : List Text := Text.splitOn isSlash path

/-- Whether a path starts from the top of all directories. -/
def isRooted : Text → Bool
  | .char '/' :: _ => true
  | _ => false

/-- The part that names the directory itself. -/
def here : Text := "."

/-- The part that names the directory above. -/
def above : Text := ".."

/-- Take one more part onto a clean list of parts, which is kept with its last part first. Nothing is above
the top. -/
def push (rooted : Bool) (done : List Text) (part : Text) : List Text :=
  if part.isEmpty || part = here then done
  else if part = above then
    match done with
    | [] => if rooted then [] else [above]
    | last :: rest => if last = above then above :: last :: rest else rest
  else part :: done

/-- The parts of a path without detours. -/
def cleanParts (path : Text) : List Text := ((parts path).foldl (push (isRooted path)) []).reverse

/-- The shortest path to the same place. -/
def clean (path : Text) : Text :=
  if isRooted path then "/" ++ Text.join "/" (cleanParts path)
  else if (cleanParts path).isEmpty then here
  else Text.join "/" (cleanParts path)

/-- The path of something inside a directory; an empty name of the directory adds nothing. -/
def join (dir : Text) (names : List Text) : Text :=
  if dir.isEmpty then
    if names.all List.isEmpty then [] else clean (Text.join "/" (names.dropWhile List.isEmpty))
  else clean (Text.join "/" (dir :: names))

/-- The directory a path is in. -/
def directory (path : Text) : Text := clean (Text.dropRightWhile (fun g => !isSlash g) path)

/-- The last part of a path from its last dot on; empty if it has no dot. -/
def extension (path : Text) : Text :=
  let name := (path.reverse.takeWhile fun g => !isSlash g).reverse
  match Text.splitOn (· == .char '.') name with
  | [] => []
  | [_] => []
  | _ :: rest => .char '.' :: rest.getLastD []

end Path

end ScriptKit
