import ScriptKit.Text.Numeral

/-!
# Instants

Times of day with a date and an offset from universal time, as traces write them:
`2024-02-29T12:34:56.789+01:00`. An instant is counted in nanoseconds from the start of the year 0 of the
Gregorian calendar, so that the time between two instants is a difference.

Reading is a little lenient: the hour may have one digit, the fraction may follow a comma and may have
any number of digits, of which nine count, and an offset may be as large as 24 hours and 60 minutes.
-/

namespace ScriptKit

namespace Instant

/-! ## The calendar -/

/-- Whether a year has a leap day. -/
def isLeap (year : Nat) : Bool := year % 4 == 0 && (year % 100 != 0 || year % 400 == 0)

/-- The lengths of the months of a year. -/
def monthLengths (year : Nat) : List Nat :=
  [31, if isLeap year then 29 else 28, 31, 30, 31, 30, 31, 31, 30, 31, 30, 31]

/-- The days of a month, counted from one; a month outside the year has none. -/
def daysInMonth (year month : Nat) : Nat := ((monthLengths year)[month - 1]?).getD 0

/-- The days before a year. -/
def daysBeforeYear : Nat → Nat
  | 0 => 0
  | y + 1 => 365 * (y + 1) + y / 4 - y / 100 + y / 400 + 1

/-- The days before a date. -/
def daysBefore (year month day : Nat) : Nat :=
  daysBeforeYear year + ((monthLengths year).take (month - 1)).foldr (· + ·) 0 + (day - 1)

/-! ## Reading -/

/-- Read exactly `n` more digits. -/
def takeDigits : Nat → Nat → Text → Option (Nat × Text)
  | 0, acc, t => some (acc, t)
  | _ + 1, _, [] => none
  | n + 1, acc, g :: t =>
    match Text.digitValue? g with
    | some d => takeDigits n (acc * 10 + d) t
    | none => none

/-- Read a number of exactly two digits. -/
def takePair (t : Text) : Option (Nat × Text) := takeDigits 2 0 t

/-- Read a number of one or two digits. -/
def takeShort (t : Text) : Option (Nat × Text) := takePair t <|> takeDigits 1 0 t

/-- Read a fixed character. -/
def takeMark (c : Char) : Text → Option Text
  | .char d :: t => if c = d then some t else none
  | _ => none

/-- Read a fraction of a second, if there is one, in nanoseconds. -/
def takeFraction : Text → Nat × Text
  | .char c :: rest =>
    let digits := rest.takeWhile fun g => (Text.digitValue? g).isSome
    if (c = '.' || c = ',') && !digits.isEmpty then
      let kept := digits.take 9
      (((Text.readNat kept).getD 0) * Nat.pow 10 (9 - kept.length), rest.drop digits.length)
    else (0, .char c :: rest)
  | t => (0, t)

/-- Read the offset from universal time in minutes. -/
def takeOffset : Text → Option (Int × Text)
  | .char 'Z' :: rest => some (0, rest)
  | .char c :: rest => do
    let (hours, rest) ← takePair rest
    let rest ← takeMark ':' rest
    let (minutes, rest) ← takePair rest
    if hours > 24 || minutes > 60 then none
    else if c = '+' then some ((hours * 60 + minutes : Nat), rest)
    else if c = '-' then some (-((hours * 60 + minutes : Nat) : Int), rest)
    else none
  | _ => none

/-- Read the days before a date off the front of a text. -/
def takeDate (t : Text) : Option (Nat × Text) := do
  let (year, t) ← takeDigits 4 0 t
  let t ← takeMark '-' t
  let (month, t) ← takePair t
  let t ← takeMark '-' t
  let (day, t) ← takePair t
  if 1 ≤ month && 1 ≤ day && day ≤ daysInMonth year month then some (daysBefore year month day, t)
  else none

/-- Read the seconds before a time of day off the front of a text. -/
def takeClock (t : Text) : Option (Nat × Text) := do
  let (hour, t) ← takeShort t
  let t ← takeMark ':' t
  let (minute, t) ← takePair t
  let t ← takeMark ':' t
  let (second, t) ← takePair t
  if hour < 24 && minute < 60 && second < 60 then some ((hour * 60 + minute) * 60 + second, t) else none

/-! ## Writing -/

/-- The month and the day of a day of a year, both counted from one, given the months still to come. -/
def monthAndDay (month day : Nat) : List Nat → Nat × Nat
  | [] => (month, day + 1)
  | length :: rest => if day < length then (month, day + 1) else monthAndDay (month + 1) (day - length) rest

/-- The year of a day and its place in the year, no more than `n` years later. -/
def yearAndDay : Nat → Nat → Nat → Nat × Nat
  | 0, year, day => (year, day)
  | n + 1, year, day =>
    let length := if isLeap year then 366 else 365
    if day < length then (year, day) else yearAndDay n (year + 1) (day - length)

/-- A number with zeros in front of it. -/
def padded (width n : Nat) : Text := Text.repeated (width - (Text.ofNat n).length) '0' ++ Text.ofNat n

/-- A date, given the days before it. -/
def writeDate (days : Nat) : Text :=
  let (year, day) := yearAndDay days 0 days
  let (month, day) := monthAndDay 1 day (monthLengths year)
  padded 4 year ++ "-" ++ padded 2 month ++ "-" ++ padded 2 day

/-- A time of day, given the seconds before it. -/
def writeClock (seconds : Nat) : Text :=
  padded 2 (seconds / 3600) ++ ":" ++ padded 2 (seconds / 60 % 60) ++ ":" ++ padded 2 (seconds % 60)

/-- An instant in universal time, with all its nanoseconds. -/
def write (nanos : Nat) : Text :=
  let seconds := nanos / 1000000000
  writeDate (seconds / 86400) ++ "T" ++ writeClock (seconds % 86400) ++ "." ++
    padded 9 (nanos % 1000000000) ++ "Z"

end Instant

/-- The instant a text names, in nanoseconds. -/
def instant? (t : Text) : Option Int := do
  let (days, t) ← Instant.takeDate t
  let t ← Instant.takeMark 'T' t
  let (seconds, t) ← Instant.takeClock t
  let (nanos, t) := Instant.takeFraction t
  let (offset, t) ← Instant.takeOffset t
  if t.isEmpty then some (((days * 86400 + seconds : Nat) - offset * 60) * 1000000000 + nanos) else none

end ScriptKit
