import ScriptKit.Json.Read
import ScriptKit.Settings.Discover

/-!
# Finding a policy

Where the settings name no capabilities, a policy is looked for in a file of its own: in the directory of
the project, then in the home directory. The first file that is there decides, and one that cannot be read
or understood is an error. With no file everything is allowed. The search takes the decoder of the files as an
argument; `discover` and `load` use that of this library.

A policy file is a JSON object with the lists `allow` and `deny`. Their names may be in any case, other
fields do not count, and null stands for an empty list or an empty file.
-/

namespace ScriptKit

namespace Policy

namespace Spec

/-- The names in a list, where null keeps the name that stood there before. -/
def readNames : List Text → List Json → Option (List Text)
  | _, [] => some []
  | old, item :: items =>
    match item, readNames old.tail items with
    | .string t, some names => some (t :: names)
    | .null, some names => some (old.headD [] :: names)
    | _, _ => none

/-- The value of a list. -/
def readList (old : List Text) : Json → Option (List Text)
  | .array items => readNames old items
  | .null => some []
  | _ => none

/-- Take in one field. -/
def addField (s : Spec) (field : Text × Json) : Option Spec :=
  if field.1.equalFold "allow" then (readList s.allow field.2).map fun names => { s with allow := names }
  else if field.1.equalFold "deny" then (readList s.deny field.2).map fun names => { s with deny := names }
  else some s

/-- The policy a JSON value describes. -/
def ofJson? : Json → Option Spec
  | .object fields => fields.foldlM addField {}
  | .null => some {}
  | _ => none

/-- The policy in the content of a file. -/
def ofContent? (content : Text) : Option Spec := (Json.read content).bind ofJson?

end Spec

/-- Why there is no policy. -/
inductive Problem where
  /-- The file is there and cannot be read. -/
  | unreadable (path : Text) (fault : Disk.Fault)
  /-- The file is no JSON, or has values of the wrong kind. -/
  | malformed (path : Text)
  /-- The file names capabilities that nobody knows. -/
  | refused (path complaint : Text)
  deriving DecidableEq, Repr, Inhabited

namespace Problem

/-- The file a problem is about. -/
def path : Problem → Text
  | .unreadable path _ => path
  | .malformed path => path
  | .refused path _ => path

/-- What is wrong with the file. -/
def reason : Problem → Text
  | .unreadable path fault => fault.onRead path
  | .malformed _ => Settings.undecodable
  | .refused _ complaint => complaint

/-- What is said about a problem. -/
def message (p : Problem) : Text := "policy " ++ p.path ++ ": " ++ p.reason

end Problem

/-- The files that may hold the policy for a project, in the order in which they are tried. -/
def files (around : Surroundings) (project : Text) : List Text :=
  Path.join project [".slugpolicy.json"] ::
    if around.home.isEmpty then [] else [Path.join around.home [".slug", "policy.json"]]

/-- How a policy file is decoded. -/
abbrev Decoder := Text → Option Spec

/-- The policy in the content of a file. -/
def ofContent (decode : Decoder) (path content : Text) : Except Problem Spec :=
  match decode content with
  | none => .error (.malformed path)
  | some spec =>
    match spec.complaint? with
    | some complaint => .error (.refused path complaint)
    | none => .ok spec

/-- The policy in the first file that is there; none if no file is. -/
def discoverAmong (decode : Decoder) (read : Reader) : List Text → Except Problem (Option Spec)
  | [] => .ok none
  | path :: rest =>
    match read path with
    | .ok content =>
      match ofContent decode path content with
      | .ok spec => .ok (some spec)
      | .error problem => .error problem
    | .error .missing => discoverAmong decode read rest
    | .error fault => .error (.unreadable path fault)

/-- What is written down for a project. -/
def discoverWith (decode : Decoder) (read : Reader) (around : Surroundings) (project : Text) :
    Except Problem (Option Spec) :=
  discoverAmong decode read (files around project)

/-- The policy that is written down; where nothing is, everything is allowed. -/
def ofSpec? : Option Spec → Policy
  | some spec => spec.build
  | none => .allowAll

/-- The policy for a project, together with what is written down of it. -/
def loadWith (decode : Decoder) (read : Reader) (around : Surroundings) (project : Text) :
    Except Problem (Policy × Option Spec) :=
  (discoverWith decode read around project).map fun found => (ofSpec? found, found)

/-- What is written down for a project, read with the decoder of this library. -/
def discover : Reader → Surroundings → Text → Except Problem (Option Spec) := discoverWith Spec.ofContent?

/-- The policy for a project, read with the decoder of this library. -/
def load : Reader → Surroundings → Text → Except Problem (Policy × Option Spec) := loadWith Spec.ofContent?

end Policy

end ScriptKit
