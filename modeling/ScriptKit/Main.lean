import ScriptKit.Command.Perform

/-!
# The program

The outermost layer: it reads the files and the input an invocation may need, carries the invocation out,
and writes what the report says. Nothing is decided here.

A file that turns out not to be writable is reported by carrying the invocation out once more on a host
that knows of it.
-/

namespace ScriptKit.Main

/-- Bytes as text. -/
def toText (bytes : ByteArray) : Text := Text.ofBytes bytes.toList

/-- A text as bytes. -/
def toBytes (t : Text) : ByteArray := ⟨t.toBytes.toArray⟩

/-- What went wrong with a file. -/
def faultOf : IO.Error → Disk.Fault
  | .noFileOrDirectory .. => .missing
  | .inappropriateType _ code _ => if code = 21 then .isDirectory else .notDirectory
  | .invalidArgument _ code _ => if code = 36 then .tooLong else .invalid
  | _ => .missing

/-- Read a file. -/
def readFile (path : Text) : IO (Except Disk.Fault Text) := do
  try
    return .ok (toText (← IO.FS.readBinFile path.toString))
  catch e => return .error (faultOf e)

/-- Write a file; the answer tells what went wrong. -/
def writeFile (path content : Text) : IO (Option Disk.Fault) := do
  try
    IO.FS.writeBinFile path.toString (toBytes content)
    return none
  catch e => return some (faultOf e)

/-- Read a stream to its end; the answer also tells whether that failed. -/
def readAll (stream : IO.FS.Stream) : IO (ByteArray × Bool) := do
  let mut done := ByteArray.empty
  try
    repeat
      let chunk ← stream.read 65536
      if chunk.isEmpty then break
      done := done ++ chunk
    return (done, false)
  catch _ => return (done, true)

/-- A stream of numbers below 2^63 for a seed: a counter in steps of an odd number, with its bits mixed. -/
def stream (seed : Int) (i : Nat) : Nat :=
  let z := (Int.toNat (seed % 0x10000000000000000)).toUInt64 + (i + 1).toUInt64 * 0x9E3779B97F4A7C15
  let z := (z ^^^ (z >>> 30)) * 0xBF58476D1CE4E5B9
  let z := (z ^^^ (z >>> 27)) * 0x94D049BB133111EB
  ((z ^^^ (z >>> 31)) >>> 1).toNat

/-- The environment variable of a given name, or the empty text. -/
def environment (name : String) : IO Text := do return Text.ofString ((← IO.getEnv name).getD "")

/-- The time on the steady clock of the machine, as a time of the year 1970. -/
def now : IO Text := do
  return Instant.write (Instant.daysBeforeYear 1970 * 86400 * 1000000000 + (← IO.monoNanosNow))

/-- The largest number that is drawn from the machine. -/
def largest : Nat := 0x3FFFFFFFFFFFFFFF

/-- A name for a run. -/
def runName : IO Text := do
  let high ← IO.rand 0 largest
  let low ← IO.rand 0 largest
  return Text.ofHex 16 high ++ Text.ofHex 16 low

/-- The events of a run as lines: it starts at one time, and what happens is known at another. -/
def traceLines (start stop run : Text) (events : List Trace.Event) : Text :=
  events.flatMap fun e => e.line (if e.what = .runStart then start else stop) run

/-- A line of the log. -/
def logLine (time : Text) (l : Log) : Text :=
  if l.json then
    (Json.object [Json.field "time" (.string time), Json.field "level" (.string l.level.title),
      Json.field "msg" (.string l.message)]).write ++ "\n"
  else "time=" ++ time ++ " level=" ++ l.level.title ++ " msg=" ++ l.message.quoted ++ "\n"

/-- Write the files of a report; the answer tells what went wrong first. -/
def writeFiles (start stop run : Text) : List (Text × Content) → IO (Option Disk.Fault)
  | [] => return none
  | (path, content) :: rest => do
    let content :=
      match content with
      | .text t => t
      | .trace events => traceLines start stop run events
    match ← writeFile path content with
    | some fault => return some fault
    | none => writeFiles start stop run rest

/-- The host an invocation meets on this machine. -/
def host (around : Surroundings) (invocation : Invocation) : IO Host := do
  let files ← (invocation.reads around).mapM fun path => return (path, ← readFile path)
  let (input, inputFails) ←
    if invocation.readsInput then readAll (← IO.getStdin) else pure (.empty, false)
  let chance ← IO.rand 0 largest
  return {
    read := fun path => (files.lookup path).getD (.error .missing)
    around
    input := toText input
    inputFails
    draws := fun seed => stream (seed.getD chance) }

/-- Carry out an invocation on this machine. -/
def perform (invocation : Invocation) : IO Report := do
  let start ← now
  let machine ← host ⟨← environment "HOME", ← environment "XDG_CONFIG_HOME"⟩ invocation
  let report := invocation.perform machine
  match ← writeFiles start (← now) (← runName) report.files with
  | none => return report
  | some fault => return invocation.perform { machine with writeFault? := fun _ => some fault }

end ScriptKit.Main

/-- Run the command line. -/
def main (args : List String) : IO UInt32 := do
  let report ← ScriptKit.Main.perform (.ofArgs (args.map ScriptKit.Text.ofString))
  let time ← ScriptKit.Main.now
  let errors ← IO.getStderr
  let output ← IO.getStdout
  output.write (ScriptKit.Main.toBytes report.out)
  errors.write (ScriptKit.Main.toBytes (report.logs.flatMap (ScriptKit.Main.logLine time) ++ report.err))
  output.flush
  errors.flush
  return report.exit.toUInt32
