import ScriptKit.Command.Flag

/-!
# Commands and their help texts

The command line has a name, a version, flags of its own and a few commands, each with its flags. The help
texts are laid out from that: one for the whole command line and one for each command.
-/

namespace ScriptKit

/-- A command. -/
inductive Verb where
  | run
  | check
  | format
  | tokens
  | tree
  | policy
  | trace
  | help
  deriving DecidableEq, Repr, Inhabited

namespace CommandLine

/-- The name of the program. -/
def name : Text := "slug"

/-- The version of the program. -/
def version : Text := "0.1.0"

/-- What the program is for. -/
def purpose : Text := "run, check and format slug programs"

/-! ## Flags -/

/-- The flag for a file of settings. -/
def configFlag : Flag := { name := "config", kind := .text, purpose := "TOML or YAML configuration file" }

/-- The flag that shows diagnostics for people. -/
def prettyFlag : Flag :=
  { name := "pretty", purpose := "human-readable diagnostics (default: when stderr is a terminal)" }

/-- The flag for the level of the log. -/
def levelFlag : Flag := { name := "log-level", kind := .text, purpose := "debug, info, warn or error" }

/-- The flag for the form of the log. -/
def formatFlag : Flag := { name := "log-format", kind := .text, purpose := "text or json" }

/-- The flag for the seed of random numbers. -/
def seedFlag : Flag := { name := "seed", kind := .number, purpose := "seed for Random (default: 0)" }

/-- The flag that shows help. -/
def helpFlag : Flag := { name := "help", short := some "h", purpose := "show help" }

/-- The flag that shows the version. -/
def versionFlag : Flag := { name := "version", short := some "v", purpose := "print the version" }

/-- The flags in front of the command. -/
def flags : List Flag :=
  [configFlag, prettyFlag, levelFlag, formatFlag, seedFlag, helpFlag, versionFlag]

/-- The flag that prints the global variables after a run. -/
def globalsFlag : Flag :=
  { name := "globals", purpose := "print the global variables as JSON when the run ends" }

/-- The flag for a file that takes the trace of a run. -/
def traceFlag : Flag :=
  { name := "trace", kind := .text, placeholder := "PATH",
    purpose := "write trace events as NDJSON to PATH" }

/-- The flag that rewrites a file in place. -/
def writeFlag : Flag := { name := "write", short := some "w", purpose := "rewrite the file in place" }

/-- The flag that dumps a tree in full. -/
def dumpFlag : Flag := { name := "dump", purpose := "dump every node field" }

/-- The flag that shows a summary for people. -/
def textFlag : Flag := { name := "text", purpose := "print a table instead of JSON" }

end CommandLine

open CommandLine

namespace Verb

/-- Every command, in the order of the help text. -/
def all : List Verb := [.run, .check, .format, .tokens, .tree, .policy, .trace, .help]

/-- The name of a command. -/
def name : Verb → Text
  | .run => "run"
  | .check => "check"
  | .format => "fmt"
  | .tokens => "tokens"
  | .tree => "ast"
  | .policy => "policy"
  | .trace => "trace"
  | .help => "help"

/-- The names a command answers to. -/
def names : Verb → List Text
  | .help => ["help", "h"]
  | v => [v.name]

/-- The command that answers to a name. -/
def ofName? (name : Text) : Option Verb := all.find? fun v => v.names.contains name

/-- What a command does. -/
def purpose : Verb → Text
  | .run => "Execute a program"
  | .check => "Parse and validate a program without running it"
  | .format => "Print a program in canonical form"
  | .tokens => "Print the token stream"
  | .tree => "Print the syntax tree"
  | .policy => "Show which capabilities programs may use"
  | .trace => "Summarise an NDJSON trace file"
  | .help => "Shows a list of commands or help for one command"

/-- What arguments a command takes. -/
def arguments : Verb → Text
  | .policy => "[arguments...]"
  | .help => "[command]"
  | _ => "FILE"

/-- The flags of a command, the one for help aside. -/
def flags : Verb → List Flag
  | .run => [globalsFlag, traceFlag]
  | .format => [writeFlag]
  | .tree => [dumpFlag]
  | .trace => [textFlag]
  | _ => []

/-- The name of a command after the name of the program. The command for help goes without. -/
def fullName : Verb → Text
  | .help => []
  | v => CommandLine.name ++ " " ++ v.name

end Verb

/-! ## Help texts -/

namespace Help

/-- Rows of two columns, the first as wide as its widest entry and two spaces more. -/
def columns (rows : List (Text × Text)) : List Text :=
  let width := (rows.map fun r => r.1.length).foldl max 0
  rows.map fun (first, second) => first ++ Text.repeated (width + 2 - first.length) ' ' ++ second

/-- How a flag is written. -/
def flagHeading (f : Flag) : Text :=
  match f.kind, f.short with
  | .switch, some short => "--" ++ f.name ++ ", -" ++ short
  | .switch, none => "--" ++ f.name
  | _, _ => "--" ++ f.name ++ " " ++ f.placeholder

/-- The lines about some flags. -/
def flagLines (flags : List Flag) : List Text := columns (flags.map fun f => (flagHeading f, f.purpose))

/-- Lines with something in front of each. -/
def listing (indent : Text) (lines : List Text) : Text := lines.flatMap fun l => indent ++ l ++ "\n"

/-- The help text of the command line. -/
def overview : Text :=
  "NAME:\n   " ++ CommandLine.name ++ " - " ++ CommandLine.purpose ++ "\n\nUSAGE:\n   " ++
    CommandLine.name ++ " [global options] command [command options] [arguments...]\n\nVERSION:\n   " ++
    CommandLine.version ++ "\n\nCOMMANDS:\n" ++
    listing "     " (columns (Verb.all.map fun v => (Text.join ", " v.names, v.purpose))) ++
    "\nGLOBAL OPTIONS:\n" ++ listing "   " (flagLines CommandLine.flags)

/-- The part of a help text about the flags of a command. -/
def options (flags : List Flag) : Text :=
  if flags.isEmpty then [] else "\nOPTIONS:\n" ++ listing "   " (flagLines flags) ++ "   \n"

/-- The mention of flags in the usage of a command. -/
def optionsNote (flags : List Flag) : Text := if flags.isEmpty then [] else " [command options]"

/-- The help text of a command. -/
def ofVerb (v : Verb) : Text :=
  "NAME:\n   " ++ v.fullName ++ " - " ++ v.purpose ++ "\n\nUSAGE:\n   " ++ v.fullName ++
    optionsNote v.flags ++ " " ++ v.arguments ++ "\n" ++ options v.flags

end Help

end ScriptKit
