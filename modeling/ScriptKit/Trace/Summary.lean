import ScriptKit.Decimal
import ScriptKit.Json.Read
import ScriptKit.Table
import ScriptKit.Text.Case
import ScriptKit.Trace.Instant

/-!
# Summaries of traces

A trace file holds one event a line. `Trace.summarize` reads such a file line by line, leaves out what is
no event, and counts: calls of functions and builtins, calls that failed, declarations, the deepest scope
a variable was declared in, and how long the run took.

A line is an event if it is one JSON object whose known fields have the right kinds of values. Names of
fields are compared without regard to case, a field given twice counts the second time, and the data of
an event add up. The value null counts as an event that says nothing.
-/

namespace ScriptKit

namespace Trace

/-! ## Records -/

/-- One event as it is read back from a file. -/
structure Record where
  time : Text := []
  run : Text := []
  event : Text := []
  data : List (Text × Text) := []
  deriving DecidableEq, Repr, Inhabited

namespace Record

/-- The datum with a given key; the empty text if there is none. -/
def datum (r : Record) (key : Text) : Text := (r.data.lookup key).getD []

/-- A text field: null leaves what was there. -/
def readText (old : Text) : Json → Option Text
  | .string t => some t
  | .null => some old
  | _ => none

/-- The value of a datum: null stands for the empty text. -/
def readDatum : Json → Option Text
  | .string t => some t
  | .null => some []
  | _ => none

/-- Data, added to those already there; null takes all of them away. -/
def readData (old : List (Text × Text)) : Json → Option (List (Text × Text))
  | .object fields =>
    fields.foldlM (fun data (key, value) => do return (key, ← readDatum value) :: data) old
  | .null => some []
  | _ => none

/-- The fields of a span that hold whole numbers. -/
def spanNumbers : List Text := ["startLine", "startCol", "endLine", "endCol"]

/-- Whether a value fits a field of a span. -/
def fitsSpanField (name : Text) (value : Json) : Bool :=
  if name.equalFold "file" then (readText [] value).isSome
  else if spanNumbers.any name.equalFold then
    match value with
    | .number numeral => (Text.readSigned Text.bound64 numeral).isSome
    | .null => true
    | _ => false
  else true

/-- Whether a value is a span. -/
def isSpan : Json → Bool
  | .object fields => fields.all fun (name, value) => fitsSpanField name value
  | .null => true
  | _ => false

/-- Take in one field of an event. -/
def addField (r : Record) (field : Text × Json) : Option Record :=
  let (name, value) := field
  if name.equalFold "ts" then (readText r.time value).map fun t => { r with time := t }
  else if name.equalFold "runId" then (readText r.run value).map fun t => { r with run := t }
  else if name.equalFold "event" then (readText r.event value).map fun t => { r with event := t }
  else if name.equalFold "span" then if isSpan value then some r else none
  else if name.equalFold "data" then (readData r.data value).map fun d => { r with data := d }
  else some r

/-- The event a JSON value describes. -/
def ofJson? : Json → Option Record
  | .object fields => fields.foldlM addField {}
  | .null => some {}
  | _ => none

/-- The event on a line of a trace. -/
def ofLine? (line : Text) : Option Record := (Json.read line.trim).bind ofJson?

end Record

/-! ## Counting -/

/-- What a trace amounts to. -/
structure Summary where
  run : Text := []
  events : Nat := 0
  calls : Nat := 0
  failures : Nat := 0
  builtinCalls : Nat := 0
  /-- How often each name was called, in the order in which the names first occur. -/
  callsByName : List (Text × Nat) := []
  declarations : Nat := 0
  maxDepth : Int := 0
  ok : Bool := false
  start : Text := []
  stop : Text := []
  deriving DecidableEq, Repr, Inhabited

namespace Summary

/-- Count one more call of a name. -/
def countCall (name : Text) : List (Text × Nat) → List (Text × Nat)
  | [] => [(name, 1)]
  | (other, n) :: rest => if other = name then (other, n + 1) :: rest else (other, n) :: countCall name rest

/-- How often a name was called. -/
def callsOf (s : Summary) (name : Text) : Nat := (s.callsByName.lookup name).getD 0

/-- The deeper of a depth and one that an event reports; what is no number is passed over. -/
def deeper (depth : Int) (reported : Text) : Int :=
  match Text.readSigned Text.bound64 reported with
  | some d => max depth d
  | none => depth

/-- Count an event by its kind. -/
def count (s : Summary) (r : Record) : Summary :=
  if r.event = "run_start" then { s with start := if s.start.isEmpty then r.time else s.start }
  else if r.event = "run_end" then { s with stop := r.time, ok := r.datum "ok" == "true" }
  else if r.event = "fn_call_start" then
    { s with calls := s.calls + 1, callsByName := countCall (r.datum "fn") s.callsByName }
  else if r.event = "fn_call_end" then
    { s with failures := if r.datum "ok" = "false" then s.failures + 1 else s.failures }
  else if r.event = "builtin_call" then
    { s with builtinCalls := s.builtinCalls + 1, callsByName := countCall (r.datum "fn") s.callsByName }
  else if r.event = "var_declare" then
    { s with declarations := s.declarations + 1, maxDepth := deeper s.maxDepth (r.datum "depth") }
  else s

/-- Take in one event. The run is the first one that has a name. -/
def add (s : Summary) (r : Record) : Summary :=
  count { s with events := s.events + 1, run := if s.run.isEmpty then r.run else s.run } r

/-- The summary of a list of events. -/
def ofRecords (records : List Record) : Summary := records.foldl add {}

/-! ## How long it took -/

/-- The longest time that is told exactly, in nanoseconds. -/
def maxNanos : Int := 0x7FFFFFFFFFFFFFFF

/-- The shortest time that is told exactly, in nanoseconds. -/
def minNanos : Int := -0x8000000000000000

/-- The whole microseconds from the start to the end of the run; none if either is not known. -/
def micros (s : Summary) : Int :=
  match instant? s.start, instant? s.stop with
  | some start, some stop => (max minNanos (min maxNanos (stop - start))).tdiv 1000
  | _, _ => 0

/-- The size of a duration in milliseconds. -/
def millis (micros : Int) : Ratio :=
  let whole := (Ratio.whole micros.natAbs).rounded
  Ratio.rounded ⟨whole.num, whole.den * 1000⟩

/-- A duration in milliseconds, in as few digits as possible. -/
def millisNumeral (micros : Int) : Text :=
  if micros < 0 then "-" ++ (millis micros).shortest else (millis micros).shortest

/-! ## Showing -/

/-- How often each name was called, in increasing order of the names. -/
def sortedCalls (s : Summary) : List (Text × Nat) :=
  s.callsByName.mergeSort fun a b => Text.le a.1 b.1

/-- The field of a time, left out when the time is not known. -/
def timeField (name time : Text) : List (Text × Json) :=
  if time.isEmpty then [] else [Json.field name (.string time)]

/-- A summary as JSON. -/
def toJson (s : Summary) : Json :=
  .object
    ([Json.field "runId" (.string s.run), Json.field "totalEvents" (.nat s.events),
      Json.field "fnCalls" (.nat s.calls), Json.field "fnFailures" (.nat s.failures),
      Json.field "builtinCalls" (.nat s.builtinCalls),
      Json.field "callsByName" (.object (s.sortedCalls.map fun (name, n) => (name, .nat n))),
      Json.field "declarations" (.nat s.declarations), Json.field "maxScopeDepth" (.int s.maxDepth),
      Json.field "ok" (.bool s.ok)] ++
    timeField "startTime" s.start ++ timeField "endTime" s.stop ++
    [Json.field "durationMs" (.number (millisNumeral s.micros))])

/-- The table of calls. -/
def table (s : Summary) : Table where
  headings := ["Function", "Calls"]
  rows := s.sortedCalls.map fun (name, n) => [name, Text.ofNat n]
  footer := some ["total", Text.ofNat (s.calls + s.builtinCalls)]
  wrapAt := some 30

/-- The line that tells how long the run took, if it took any time at all. -/
def durationLine (micros : Int) : Text :=
  if 0 < micros then "Duration: " ++ (millis micros).fixed 3 ++ "ms\n" else []

/-- A summary for people. -/
def toText (s : Summary) : Text :=
  "Run: " ++ s.run ++ " (ok: " ++ (if s.ok then "true" else "false") ++ ")\n" ++
    "Events: " ++ Text.ofNat s.events ++ ", declarations: " ++ Text.ofNat s.declarations ++
    ", max scope depth: " ++ Text.ofInt s.maxDepth ++ "\n" ++ durationLine s.micros ++ s.table.render

end Summary

/-! ## Reading a file -/

/-- The number of bytes from which on a line is too long. -/
def lineLimit : Nat := 65536

/-- What is said about a trace with a line that is too long. -/
def tooLong : Text := "bufio.Scanner: token too long"

/-- The lines of a trace. -/
def lines (t : Text) : List Text := Text.splitOn (· == .char '\n') t

/-- The summary of a trace file; none if a line is too long. -/
def summarize (t : Text) : Option Summary :=
  if (lines t).any fun line => lineLimit ≤ line.toBytes.length then none
  else some (Summary.ofRecords ((lines t).filterMap Record.ofLine?))

end Trace

end ScriptKit
