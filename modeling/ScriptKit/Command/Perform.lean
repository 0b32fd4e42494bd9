import ScriptKit.Command.Invocation
import ScriptKit.Session
import ScriptKit.Trace.Summary
import ScriptKit.Tree.Dump
import ScriptKit.Tree.Shape

/-!
# Carrying out invocations

`Invocation.perform` carries out an invocation on a host: the files and the input that are there. It is a
function of those alone; what it would write is in the report.

A command that works on a program first finds its settings and its policy, then reads the program. The
flags in front of the command win over the settings.
-/

namespace ScriptKit

/-- What an invocation meets. -/
structure Host where
  /-- How files are read. -/
  read : Reader := fun _ => .error .missing
  /-- Why a file cannot be written, if it cannot. -/
  writeFault? : Text → Option Disk.Fault := fun _ => none
  around : Surroundings := {}
  /-- The standard input. -/
  input : Text := []
  /-- Whether reading the standard input fails where it ends. -/
  inputFails : Bool := false
  /-- The random numbers for a seed, or for none. -/
  draws : Option Int → Nat → Nat := fun _ _ => 0

/-! ## Setting up -/

/-- What holds for a command once its settings and its policy are known. -/
structure Setup where
  settings : Settings
  style : Diagnostic.Style
  policy : Policy

namespace Setup

/-- Settings with what the flags say in place of them. -/
def override (o : Options) (s : Settings) : Settings :=
  { s with
    level := o.level.getD s.level
    format := o.format.getD s.format
    seed := o.seed <|> s.seed }

/-- The settings of a command, before they are checked. -/
def settings? (host : Host) (o : Options) (project : Text) : Except Settings.Problem Settings :=
  if o.config.isEmpty then (Settings.discover host.read host.around project).map (·.1)
  else Settings.load host.read o.config

/-- How diagnostics are shown. Nobody is taken to look at them unless the settings or the flags say so. -/
def styleOf (o : Options) (s : Settings) : Diagnostic.Style :=
  if (o.pretty <|> s.pretty).getD false then .pretty (s.colour.getD false) else .json

/-- The policy of a command: that of the settings if they name any capability, else that of a policy
file. -/
def policy? (host : Host) (project : Text) (s : Settings) : Except Policy.Problem Policy :=
  if s.capabilities.isEmpty then (Policy.load host.read host.around project).map (·.1)
  else .ok s.capabilities.build

/-- Find settings and policy for a project, or report why there are none. -/
def find (host : Host) (o : Options) (project : Text) : Except Report Setup :=
  match settings? host o project with
  | .error problem => .error (.failure .json .config problem.message)
  | .ok found =>
    let s := override o found
    match s.complaint? with
    | some complaint => .error (.failure .json .config complaint)
    | none =>
      let style := styleOf o s
      match policy? host project s with
      | .error problem => .error (.failure style .config problem.message)
      | .ok policy => .ok ⟨s, style, policy⟩

/-- Log lines for people who look for faults. -/
def logs (s : Setup) (messages : List Text) : List Log :=
  if Level.ofName s.settings.level = .debug then
    messages.map fun m => ⟨s.settings.logsJson, .debug, m⟩
  else []

/-- Whether diagnostics are shown for people. -/
def isPretty (s : Setup) : Bool :=
  match s.style with
  | .pretty _ => true
  | .json => false

/-- The builtins and the policy of programs. -/
def session (s : Setup) : Session := { policy := s.policy }

/-- Report trouble with a file. -/
def ioFailure (s : Setup) (message : Text) : Report := .failure s.style .io message

/-- Report that a program could not be read. -/
def parseFailure (s : Setup) (e : Parse.Error) : Report := .diagnostics s.style [e.diagnostic]

end Setup

/-! ## Programs -/

/-- A program that a command works on. -/
structure Source where
  file : Text
  text : Text
  /-- What is left of the standard input. -/
  input : Text
  deriving Repr, Inhabited

/-- The name of the standard input in diagnostics. -/
def Source.standardName : Text := "<stdin>"

/-- Read the program a command works on. -/
def Source.read (host : Host) (path : Text) : Except Text Source :=
  if path = Invocation.standardInput then
    if host.inputFails then .error "cannot read standard input: read failed"
    else .ok ⟨Source.standardName, host.input, []⟩
  else
    match host.read path with
    | .ok content => .ok ⟨path, content, host.input⟩
    | .error fault => .error ("cannot read file: " ++ fault.onRead path)

namespace Perform

/-! ## Commands -/

/-- What the log says of an event. -/
def eventMessage (_ : Trace.Event) : Text := "trace"

/-- What the log says of a program that was interpreted. -/
def runMessages (o : Run.Outcome) : List Text :=
  let before : List Text := ["parsed program", "capabilities"]
  before ++ o.events.map eventMessage ++ [Text.ofString "interpreted program"]

/-- Report a run that came to an end. -/
def reportRun (s : Setup) (globals : Bool) (o : Run.Outcome) : Report :=
  match o.failure with
  | some failure =>
    { Report.diagnostics s.style [failure.diagnostic] with
      out := o.world.output, logs := s.logs (runMessages o) }
  | none =>
    { out := o.world.output ++ (if globals then o.globals.toJson.write ++ "\n" else [])
      logs := s.logs (runMessages o) }

/-- Run a program. -/
def runProgram (host : Host) (s : Setup) (source : Source) (globals : Bool) : Report × List Trace.Event :=
  let world : World :=
    { input := source.input, inputFails := host.inputFails, draws := host.draws s.settings.seed }
  match s.session.run source.file source.text world unlimited with
  | .error e => ({ s.parseFailure e with logs := s.logs ["parsed program"] }, [])
  | .ok o => (reportRun s globals o, o.events)

/-- Run a program, with a trace if one is asked for. -/
def run (host : Host) (g : Flag.Given) (s : Setup) (source : Source) : Report :=
  let path := g.text CommandLine.traceFlag
  let globals := g.isOn CommandLine.globalsFlag
  if path.isEmpty then (runProgram host s source globals).1
  else
    match host.writeFault? path with
    | some fault => s.ioFailure ("cannot create trace file: " ++ fault.onCreate path)
    | none =>
      let (report, events) := runProgram host s source globals
      { report with files := [(path, .trace events)] }

/-- Check a program. -/
def check (s : Setup) (source : Source) : Report :=
  match s.session.check source.file source.text with
  | [] => { out := if s.isPretty then "No errors found.\n" else "[]\n" }
  | ds => .diagnostics s.style ds

/-- The warning about comments. -/
def commentWarning : Text := "warning: comments are not preserved by the formatter\n"

/-- Write a program in canonical form, to its own file or to the output. A file with comments is left
alone, since they would be lost. -/
def formatProgram (host : Host) (path : Text) (write : Bool) (s : Setup) (source : Source) : Report :=
  match format source.file source.text with
  | .error e => s.parseFailure e
  | .ok formatted =>
    if write then
      if hasComments source.text then
        .usage (path ++ " has comments, which formatting would drop; not rewriting")
      else
        match host.writeFault? path with
        | some fault => s.ioFailure ("error writing file: " ++ fault.onCreate path)
        | none => { files := [(path, .text formatted)] }
    else { out := formatted, err := if hasComments source.text then commentWarning else [] }

/-- The table of the tokens of a program. -/
def tokenTable (tokens : List Token) : Table where
  headings := ["Pos", "Type", "Value"]
  rows := tokens.map fun t =>
    [Text.ofNat t.span.start.line ++ ":" ++ Text.ofNat t.span.start.col, t.kind.title, t.value]

/-- List the tokens of a program. -/
def tokens (s : Setup) (source : Source) : Report :=
  match tokenize source.file source.text with
  | .ok tokens => { out := (tokenTable tokens).render }
  | .error e => .diagnostics s.style [e.diagnostic source.file]

/-- Show the tree of a program. -/
def tree (g : Flag.Given) (s : Setup) (source : Source) : Report :=
  let logs := s.logs ["parsed program"]
  match s.session.parse source.file source.text with
  | .error e => { s.parseFailure e with logs }
  | .ok p => { out := if g.isOn CommandLine.dumpFlag then p.dump else p.shape ++ "\n", logs }

/-- The table of the capabilities a policy allows. -/
def policyTable (policy : Policy) : Table where
  headings := ["Capability", "Allowed"]
  rows := Capability.known.map fun c => [c, if policy.allows c then "true" else "false"]
  wrapAt := some 30

/-- Sum up a trace. -/
def trace (host : Host) (g : Flag.Given) (path : Text) : Report :=
  match host.read path with
  | .error .isDirectory => .failure .json .io (Disk.Fault.isDirectory.onRead path)
  | .error fault => .failure .json .io ("cannot read file: " ++ fault.onRead path)
  | .ok content =>
    match Trace.summarize content with
    | none => .failure .json .io Trace.tooLong
    | some summary =>
      { out := if g.isOn CommandLine.textFlag then summary.toText else summary.toJson.write ++ "\n" }

/-! ## Putting together -/

/-- Do something once settings and policy are known. -/
def withSetup (host : Host) (o : Options) (path : Text) (act : Setup → Report) : Report :=
  match Setup.find host o (Invocation.project path) with
  | .error report => report
  | .ok s =>
    let report := act s
    { report with logs := s.logs ["configured"] ++ report.logs }

/-- Do something with a program. -/
def withSource (host : Host) (o : Options) (path : Text) (act : Setup → Source → Report) : Report :=
  withSetup host o path fun s =>
    match Source.read host path with
    | .error message => s.ioFailure message
    | .ok source => act s source

/-- Carry out a command that works on one file. -/
def onFile (host : Host) (o : Options) (g : Flag.Given) (path : Text) : Verb → Report
  | .run => withSource host o path (run host g)
  | .check => withSource host o path check
  | .format =>
    let write := g.isOn CommandLine.writeFlag
    if write && path = Invocation.standardInput then
      .usage "--write needs a file, not standard input"
    else withSource host o path (formatProgram host path write)
  | .tokens => withSource host o path tokens
  | .tree => withSource host o path (tree g)
  | .trace => trace host g path
  | .policy => withSetup host o [] fun s => { out := (policyTable s.policy).render }
  | .help => { out := Help.overview }

/-- Carry out a command. All but the ones for policies and for help take exactly one file. -/
def command (host : Host) (o : Options) (g : Flag.Given) (v : Verb) : Report :=
  match v, g.rest with
  | .policy, _ => onFile host o g [] .policy
  | .help, [] => { out := Help.overview }
  | .help, topic :: _ => Invocation.helpOn topic
  | v, [path] => onFile host o g path v
  | v, _ => .usage (v.fullName ++ " " ++ v.arguments)

end Perform

/-- Carry out an invocation. -/
def Invocation.perform (host : Host) : Invocation → Report
  | .answered report => report
  | .act o v g => Perform.command host o g v

end ScriptKit
