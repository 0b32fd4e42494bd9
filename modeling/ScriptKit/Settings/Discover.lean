import ScriptKit.Disk
import ScriptKit.Settings.OfToml
import ScriptKit.Settings.OfYaml

/-!
# Finding settings

Settings come from a file that is named, or from the first of a few candidates that can be read: three
names in the directory of the project, then the same three in the directory of the user. A file that can be
read decides: if it is malformed or its settings are not acceptable, that is an error, and no later file is
looked at. With no candidate to be found the defaults hold.

Files are seen through a function that reads a path and understood through the decoders of their languages, so the
search depends neither on how files are stored nor on what the languages are. `load` and `discover` use the decoders
of this library.
-/

namespace ScriptKit

/-- How a file is read: its content, or why there is none. -/
abbrev Reader := Text → Except Disk.Fault Text

/-- The places a user has on a machine; an empty text means there is no such place. -/
structure Surroundings where
  /-- The home directory. -/
  home : Text := []
  /-- The directory for settings, if it is not inside the home directory. -/
  configHome : Text := []
  deriving DecidableEq, Repr, Inhabited

namespace Settings

/-- The language of a file of settings. -/
inductive Format where
  | toml
  | yaml
  deriving DecidableEq, Repr, Inhabited

namespace Format

/-- The name of a language. -/
def name : Format → Text
  | .toml => "toml"
  | .yaml => "yaml"

/-- The language a file is written in, by its extension in any case. -/
def ofPath? (path : Text) : Option Format :=
  let extension := (Path.extension path).lower
  if extension = ".toml" then some .toml
  else if extension = ".yaml" || extension = ".yml" then some .yaml
  else none

end Format

/-- The decoders of the languages. Each fills what is written into settings that are given, or fails. -/
structure Decoders where
  toml : Settings → Text → Option Settings
  /-- A text may hold no document of YAML at all. -/
  yaml : Settings → Text → Option (Option Settings)

/-- The decoders of this library. -/
def Decoders.standard : Decoders := ⟨ofToml?, ofYaml?⟩

/-- Decode settings written in a language. What is not written has its default, and so has everything where there is
no document. -/
def Format.decode (decoders : Decoders) : Format → Text → Option Settings
  | .toml, content => decoders.toml {} content
  | .yaml, content => (decoders.yaml {} content).map fun s => s.getD {}

/-- Why there are no settings. -/
inductive Problem where
  /-- The extension of the file means no known language. -/
  | unsupported (extension : Text)
  /-- Files that are there could not be read. -/
  | unreadable (files : List (Text × Disk.Fault))
  /-- A file is malformed, or has a field or a value that does not belong there. -/
  | malformed (path : Text)
  /-- The settings of a file are not acceptable. -/
  | refused (path complaint : Text)
  deriving DecidableEq, Repr, Inhabited

/-- What is said about a file that cannot be decoded. -/
def undecodable : Text := "DECODE"

namespace Problem

/-- What is said about a file that could not be read. -/
def unreadableLine (file : Text × Disk.Fault) : Text :=
  "read config " ++ file.1.quoted ++ ": " ++ file.2.onRead file.1

/-- What is said about a problem. -/
def message : Problem → Text
  | .unsupported extension => "unsupported config format " ++ extension.quoted
  | .unreadable files => Text.join "\n" (files.map unreadableLine)
  | .malformed path => "parse config " ++ path.quoted ++ ": " ++ undecodable
  | .refused path complaint => "config " ++ path.quoted ++ ": " ++ complaint

end Problem

/-- The settings in the content of a file. -/
def ofContent (decoders : Decoders) (path : Text) (format : Format) (content : Text) : Except Problem Settings :=
  match format.decode decoders content with
  | none => .error (.malformed path)
  | some s =>
    match s.complaint? with
    | some complaint => .error (.refused path complaint)
    | none => .ok s

/-- The settings in a file that is named. -/
def loadWith (decoders : Decoders) (read : Reader) (path : Text) : Except Problem Settings :=
  match Format.ofPath? path with
  | none => .error (.unsupported (Path.extension path))
  | some format =>
    match read path with
    | .error fault => .error (.unreadable [(path, fault)])
    | .ok content => ofContent decoders path format content

/-- The settings in a file that is named, read with the decoders of this library. -/
def load : Reader → Text → Except Problem Settings := loadWith .standard

/-! ## Candidates -/

/-- A file that may hold settings. -/
structure Candidate where
  path : Text
  format : Format
  deriving DecidableEq, Repr, Inhabited

/-- The directory of the user's settings; empty if there is none. -/
def userDirectory (around : Surroundings) : Text :=
  if !around.configHome.isEmpty then Path.join around.configHome ["slug"]
  else if !around.home.isEmpty then Path.join around.home [".config", "slug"]
  else []

/-- The candidates in a directory; there are none in no directory. -/
def candidatesIn (dir : Text) : List Candidate :=
  if dir.isEmpty then []
  else
    [⟨Path.join dir ["slug.toml"], .toml⟩, ⟨Path.join dir [".slug.yaml"], .yaml⟩,
     ⟨Path.join dir [".slug.yml"], .yaml⟩]

/-- The candidates for a project, in the order in which they are tried. -/
def candidates (around : Surroundings) (project : Text) : List Candidate :=
  candidatesIn project ++ candidatesIn (userDirectory around)

/-- The settings of the first candidate that can be read, and which one that is. Missing files are passed
over; files that are there and cannot be read are an error if no other file decides. -/
def discoverAmong (decoders : Decoders) (read : Reader) (unreadable : List (Text × Disk.Fault)) :
    List Candidate → Except Problem (Settings × Option Candidate)
  | [] => if unreadable.isEmpty then .ok ({}, none) else .error (.unreadable unreadable)
  | candidate :: rest =>
    match read candidate.path with
    | .ok content =>
      match ofContent decoders candidate.path candidate.format content with
      | .ok s => .ok (s, some candidate)
      | .error problem => .error problem
    | .error .missing => discoverAmong decoders read unreadable rest
    | .error fault => discoverAmong decoders read (unreadable ++ [(candidate.path, fault)]) rest

/-- The settings for a project. -/
def discoverWith (decoders : Decoders) (read : Reader) (around : Surroundings) (project : Text) :
    Except Problem (Settings × Option Candidate) :=
  discoverAmong decoders read [] (candidates around project)

/-- The settings for a project, read with the decoders of this library. -/
def discover : Reader → Surroundings → Text → Except Problem (Settings × Option Candidate) :=
  discoverWith .standard

end Settings

end ScriptKit
