import ScriptKit.Text.Basic

/-!
# The world of a run

What a program can touch through its builtins: lines to read, a place to write, and a stream of random
numbers. Reading and writing can fail: input may end in a failure instead of an end, and output may
take only a number of writes.
-/

namespace ScriptKit

/-- What a program reads, writes and draws from. -/
structure World where
  /-- What is still to be read. -/
  input : Text := []
  /-- Whether reading fails where the input ends. -/
  inputFails : Bool := false
  /-- What has been written, the last write first. -/
  written : List Text := []
  /-- How many writes will still work; any number if absent. -/
  writesLeft : Option Nat := none
  /-- The random numbers, each below 2^63. -/
  draws : Nat → Nat := fun _ => 0
  /-- How many random numbers have been drawn. -/
  drawn : Nat := 0

namespace World

/-- Everything that has been written. -/
def output (w : World) : Text := w.written.reverse.flatten

/-! ## Lines -/

/-- What reading a line gives. -/
inductive Line where
  | line (t : Text)
  | atEnd
  | failed
  deriving DecidableEq, Repr

/-- Whether a glyph is a line feed. -/
def isLineFeed (g : Glyph) : Bool := g == .char '\n'

/-- Whether a glyph belongs to the end of a line. -/
def isLineEnd (g : Glyph) : Bool := g == .char '\n' || g == .char '\r'

/-- Read up to the next line feed. The line loses the carriage returns and line feeds at its end. A last
line without a line feed counts, unless reading fails there: then it is lost. -/
def readLine (w : World) : Line × World :=
  let line := w.input.takeWhile fun g => !isLineFeed g
  match w.input.dropWhile fun g => !isLineFeed g with
  | _ :: rest => (.line (Text.dropRightWhile isLineEnd line), { w with input := rest })
  | [] =>
    let w' := { w with input := [] }
    if w.inputFails then (.failed, w')
    else if line.isEmpty then (.atEnd, w')
    else (.line (Text.dropRightWhile isLineEnd line), w')

/-- Write a text; the answer tells whether that worked. -/
def write (w : World) (t : Text) : Bool × World :=
  match w.writesLeft with
  | none => (true, { w with written := t :: w.written })
  | some 0 => (false, w)
  | some (n + 1) => (true, { w with written := t :: w.written, writesLeft := some n })

/-! ## Random numbers -/

/-- How often a draw is repeated at most to make it fair. -/
def maxTries : Nat := 100000

/-- Draw numbers until one is at most `limit`, and take its remainder by `range`. -/
def drawWithin (range limit : Nat) : Nat → World → Nat × World
  | 0, w => (w.draws w.drawn % range, { w with drawn := w.drawn + 1 })
  | tries + 1, w =>
    let v := w.draws w.drawn
    let w' := { w with drawn := w.drawn + 1 }
    if v ≤ limit then (v % range, w') else drawWithin range limit tries w'

/-- Random numbers are below this bound. -/
def drawBound : Nat := 0x8000000000000000

/-- Draw a number below `range`. Numbers above the last whole multiple of the range are drawn again, so
that every result is equally likely; a power of two divides evenly and needs no second draw. -/
def drawBelow (range : Nat) (w : World) : Nat × World :=
  let limit := if Nat.pow 2 range.log2 = range then drawBound - 1 else drawBound - 1 - drawBound % range
  drawWithin range limit maxTries w

/-- The stream that repeats a list of numbers for ever. -/
def cycle (numbers : List Nat) (i : Nat) : Nat := (numbers[i % numbers.length]?).getD 0

end World

end ScriptKit
