import ScriptKit.Command.Verb
import ScriptKit.Diagnostic
import ScriptKit.Policy.Discover
import ScriptKit.Trace.Event

/-!
# Invocations

An invocation is what the arguments of the command line ask for: a command with its flags, or an answer
that needs nothing else, such as a help text or a complaint about the arguments. `Invocation.ofArgs` reads
the arguments, and `Invocation.reads` lists the files that carrying it out may look at.

Every invocation ends in a `Report`: the exit status, what is written to the two outputs and to files,
and what is logged.
-/

namespace ScriptKit

/-! ## Reports -/

/-- A line of the log. -/
structure Log where
  json : Bool
  level : Level
  message : Text
  deriving DecidableEq, Repr, Inhabited

/-- What a file is given. -/
inductive Content where
  | text (t : Text)
  /-- The events of a run, one a line. -/
  | trace (events : List Trace.Event)
  deriving Repr, Inhabited

/-- What an invocation comes to. -/
structure Report where
  exit : Nat := 0
  /-- What is written to the standard output. -/
  out : Text := []
  /-- What is written to the standard error output, the log aside. -/
  err : Text := []
  logs : List Log := []
  /-- The files that are written. -/
  files : List (Text × Content) := []
  deriving Repr, Inhabited

namespace Report

/-- A complaint about the way a command was used. -/
def usage (complaint : Text) : Report := { exit := 1, err := "usage error: " ++ complaint ++ "\n" }

/-- A complaint about the arguments, with a help text. -/
def misuse (complaint opening help : Text) : Report :=
  { exit := 1, out := opening ++ help, err := "error: " ++ complaint ++ "\n" }

/-- Diagnostics in a given style. -/
def diagnostics (style : Diagnostic.Style) (ds : List Diagnostic) : Report :=
  { exit := Diagnostic.exitStatus ds, err := Diagnostic.renderAll style ds ++ "\n" }

/-- A single diagnostic that points nowhere. -/
def failure (style : Diagnostic.Style) (code : Code) (message : Text) : Report :=
  diagnostics style [⟨code, message, none, []⟩]

end Report

/-! ## Arguments -/

/-- What the flags in front of the command say. -/
structure Options where
  /-- The file of settings, or the empty text. -/
  config : Text := []
  pretty : Option Bool := none
  level : Option Text := none
  format : Option Text := none
  seed : Option Int := none
  deriving DecidableEq, Repr, Inhabited

/-- What the arguments ask for. -/
inductive Invocation where
  /-- An answer that needs nothing else. -/
  | answered (report : Report)
  /-- A command, with the flags in front of it and its own. -/
  | act (options : Options) (verb : Verb) (given : Flag.Given)
  deriving Repr, Inhabited

namespace Invocation

/-- The options in the flags in front of the command. -/
def options (g : Flag.Given) : Options where
  config := g.text CommandLine.configFlag
  pretty := g.switch? CommandLine.prettyFlag
  level := g.text? CommandLine.levelFlag
  format := g.text? CommandLine.formatFlag
  seed := g.number? CommandLine.seedFlag

/-- The help text for a topic. -/
def helpOn (topic : Text) : Report :=
  match Verb.ofName? topic with
  | some v => { out := Help.ofVerb v }
  | none => { exit := 3, err := "No help topic for '" ++ topic ++ "'\n" }

/-- Read the arguments of a command. Asking for help comes before everything but a fault. -/
def ofVerb (options : Options) (v : Verb) (args : List Text) : Invocation :=
  let flags := v.flags ++ [CommandLine.helpFlag]
  let g := Flag.read flags (Flag.inFront args)
  match g.bothNames? flags, g.fault with
  | some complaint, _ => .answered (.misuse complaint (complaint ++ "\n\n") (Help.ofVerb v))
  | none, some fault =>
    .answered (.misuse fault.message ("Incorrect Usage: " ++ fault.message ++ "\n\n") (Help.ofVerb v))
  | none, none => if g.isOn CommandLine.helpFlag then .answered { out := Help.ofVerb v } else .act options v g

/-- Read the arguments of the command line. -/
def ofArgs (args : List Text) : Invocation :=
  let g := Flag.read CommandLine.flags args
  match g.bothNames? CommandLine.flags, g.fault with
  | some complaint, _ => .answered (.misuse complaint (complaint ++ "\n") Help.overview)
  | none, some fault =>
    .answered (.misuse fault.message ("Incorrect Usage. " ++ fault.message ++ "\n\n") Help.overview)
  | none, none =>
    if g.isOn CommandLine.helpFlag then .answered { out := Help.overview }
    else if g.isOn CommandLine.versionFlag then
      .answered { out := CommandLine.name ++ " version " ++ CommandLine.version ++ "\n" }
    else
      match g.rest with
      | [] => .answered { out := Help.overview }
      | name :: rest =>
        match Verb.ofName? name with
        | some v => ofVerb (options g) v rest
        | none => .answered (.usage ("unknown command " ++ name.quoted))

/-! ## Files -/

/-- The argument that means the standard input. -/
def standardInput : Text := "-"

/-- The directory of the project a command works on, by its argument. -/
def project (path : Text) : Text :=
  if path.isEmpty || path = standardInput then Path.here else Path.directory path

/-- The argument of a command, as far as the project is concerned. -/
def subject : Verb → Flag.Given → Text
  | .policy, _ => []
  | _, g => g.rest.headD []

/-- The files that carrying out an invocation may read. -/
def reads (around : Surroundings) : Invocation → List Text
  | .answered _ => []
  | .act o v g =>
    let path := subject v g
    (if o.config.isEmpty then (Settings.candidates around (project path)).map (·.path) else [o.config]) ++
      Policy.files around (project path) ++ [path]

/-- Whether carrying out an invocation may read the standard input. -/
def readsInput : Invocation → Bool
  | .answered _ => false
  | .act _ v g => v = .run || g.rest.headD [] = standardInput

end Invocation

end ScriptKit
