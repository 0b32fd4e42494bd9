import ScriptKit.Policy
import ScriptKit.Text.Case
import ScriptKit.Text.Quoted

/-!
# Settings

What a user can set: how much is logged and in which form, how diagnostics are shown, the seed of the
random numbers, and the capabilities of programs. Whatever is not set has a default or is decided by the
command.
-/

namespace ScriptKit

/-- How important a log line is. -/
inductive Level where
  | debug
  | info
  | warn
  | error
  deriving DecidableEq, Repr, Inhabited

namespace Level

/-- The name of a level in settings. -/
def name : Level → Text
  | .debug => "debug"
  | .info => "info"
  | .warn => "warn"
  | .error => "error"

/-- How a level is shown on a log line. -/
def title : Level → Text
  | .debug => "DEBUG"
  | .info => "INFO"
  | .warn => "WARN"
  | .error => "ERROR"

/-- Every level. -/
def all : List Level := [.debug, .info, .warn, .error]

/-- The level with a given name, in any case. -/
def ofName? (name : Text) : Option Level := all.find? fun l => l.name == name.lower

/-- The level with a given name; any other name means warnings. -/
def ofName (name : Text) : Level := (ofName? name).getD .warn

end Level

/-- What a user has set. -/
structure Settings where
  /-- The name of the least important level that is logged. -/
  level : Text := "warn"
  /-- The name of the form of log lines. -/
  format : Text := "text"
  /-- Whether diagnostics are shown for people. -/
  pretty : Option Bool := none
  /-- Whether diagnostics are in colour. -/
  colour : Option Bool := none
  /-- The seed of the random numbers. -/
  seed : Option Int := none
  /-- The capabilities of programs. -/
  capabilities : Policy.Spec := {}
  deriving DecidableEq, Repr, Inhabited

namespace Settings

/-- The names of the forms of log lines. -/
def formats : List Text := ["text", "json"]

/-- What is wrong with the level. -/
def levelComplaint (s : Settings) : Option Text :=
  if (Level.ofName? s.level).isSome then none
  else some ("log.level " ++ s.level.quoted ++ ": want debug, info, warn or error")

/-- What is wrong with the form of log lines. -/
def formatComplaint (s : Settings) : Option Text :=
  if formats.contains s.format.lower then none
  else some ("log.format " ++ s.format.quoted ++ ": want text or json")

/-- Everything that is wrong with settings. -/
def complaints (s : Settings) : List Text :=
  [s.levelComplaint, s.formatComplaint, s.capabilities.complaint?].filterMap id

/-- What is wrong with settings, one line for each complaint. -/
def complaint? (s : Settings) : Option Text :=
  if s.complaints.isEmpty then none else some (Text.join "\n" s.complaints)

/-- Whether log lines are written as JSON. -/
def logsJson (s : Settings) : Bool := s.format.equalFold "json"

end Settings

end ScriptKit
