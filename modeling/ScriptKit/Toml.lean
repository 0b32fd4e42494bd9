import ScriptKit.Text.Literal

/-!
# TOML documents

A document is a list of lines: a header opens a table or adds one to an array of tables, and an assignment
gives a key of the open table a value. Keys may be dotted and their parts quoted. `Toml.read` accepts
strings, whole numbers, truth values, arrays and inline tables; a document with any other kind of value is
refused.

A table is opened once, and a key is given a value once. A table that dotted keys have made cannot be opened
later, and keys cannot be added to a table that was opened or to an inline table. `Toml.Seen` keeps track
of that.
-/

namespace ScriptKit

/-- A value of a TOML document. The fields of an inline table are kept with their dotted keys. -/
inductive Toml where
  | string (t : Text)
  | int (n : Int)
  | bool (b : Bool)
  | array (items : List Toml)
  | table (fields : List (List Text × Toml))
  deriving Repr, Inhabited

namespace Toml

/-- A line of a document. -/
inductive Line where
  | header (path : List Text)
  | arrayHeader (path : List Text)
  | assign (path : List Text) (value : Toml)
  deriving Repr, Inhabited

/-! ## Blanks, comments and ends of lines -/

/-- Drop spaces and tabs. -/
def skipBlanks (t : Text) : Text := t.dropWhile fun g => g == .char ' ' || g == .char '\t'

/-- Whether a glyph may stand in a string or a comment: any character but the controls, tabs aside. -/
def isPrintable : Glyph → Bool
  | .char c => c = '\t' || (0x20 ≤ c.toNat && c.toNat ≠ 0x7F)
  | .stray _ => false

/-- Drop a comment, if there is one. -/
def skipComment : Text → Text
  | .char '#' :: rest => rest.dropWhile isPrintable
  | t => t

/-- Go on to the next line; nothing but blanks and a comment may be left on this one. -/
def endLine (t : Text) : Option Text :=
  match skipComment (skipBlanks t) with
  | [] => some []
  | .char '\n' :: rest => some rest
  | .char '\r' :: .char '\n' :: rest => some rest
  | _ => none

/-- Drop blanks, comments and ends of lines, `n` lines at most. -/
def skipLines : Nat → Text → Text
  | 0, t => t
  | n + 1, t =>
    match skipComment (skipBlanks t) with
    | .char '\n' :: rest => skipLines n rest
    | .char '\r' :: .char '\n' :: rest => skipLines n rest
    | rest => rest

/-! ## Strings -/

/-- The character an escape letter stands for. -/
def unescape? (c : Char) : Option Char :=
  match c with
  | 'b' => some '\x08'
  | 't' => some '\t'
  | 'n' => some '\n'
  | 'f' => some '\x0c'
  | 'r' => some '\r'
  | 'e' => some '\x1b'
  | '"' => some '"'
  | '\\' => some '\\'
  | _ => none

/-- Read an escape after its backslash. -/
def readEscape : Text → Option (Glyph × Text)
  | .char 'u' :: rest => Text.takeCodePoint 4 rest
  | .char 'U' :: rest => Text.takeCodePoint 8 rest
  | .char c :: rest => (unescape? c).map fun c => (.char c, rest)
  | _ => none

/-- Read the rest of a string with escapes, after its opening quote; `done` holds what was read, last glyph
first. -/
def readBasic : Nat → Text → Text → Option (Text × Text)
  | 0, _, _ => none
  | _ + 1, _, [] => none
  | n + 1, done, g :: rest =>
    if g = .char '"' then some (done.reverse, rest)
    else if g = .char '\\' then
      match readEscape rest with
      | some (g, rest) => readBasic n (g :: done) rest
      | none => none
    else if isPrintable g then readBasic n (g :: done) rest
    else none

/-- Read the rest of a string without escapes, after its opening quote. -/
def readRaw (t : Text) : Option (Text × Text) :=
  let content := t.takeWhile fun g => isPrintable g && g != .char '\x27'
  match t.drop content.length with
  | .char '\x27' :: rest => some (content, rest)
  | _ => none

/-- Read a quoted string of one line. -/
def readQuoted : Text → Option (Text × Text)
  | .char '"' :: rest => readBasic (rest.length + 1) [] rest
  | .char '\x27' :: rest => readRaw rest
  | _ => none

/-! ### Strings of several lines -/

/-- The quotes around a string of several lines. -/
def fence (quote : Char) : Text := Text.repeated 3 quote

/-- Whether a glyph may stand in a string of several lines. -/
def isPrintableOrEnd (g : Glyph) : Bool := isPrintable g || g == .char '\n' || g == .char '\r'

/-- Split the quotes at the front of a text, three of which end a string, off the rest: one or two more
belong to the string, and there are no more than five. -/
def closeFence (quote : Char) (t : Text) : Option (Text × Text) :=
  let quotes := t.takeWhile (· == .char quote)
  if quotes.length ≤ 5 then some (quotes.drop 3, t.drop quotes.length) else none

/-- Split a string of several lines off the front of a text; `done` holds what was read, last glyph first. The
glyph after a backslash is passed over, and a carriage return stands before a line feed only. -/
def splitFence (quote : Char) : Nat → Text → Text → Option (Text × Text)
  | 0, _, _ => none
  | _ + 1, _, [] => none
  | n + 1, done, g :: rest =>
    if (fence quote).isPrefixOf (g :: rest) then
      (closeFence quote (g :: rest)).map fun (quotes, rest) => (done.reverse ++ quotes, rest)
    else if quote = '"' && g == .char '\\' then
      match rest with
      | [] => none
      | h :: rest => splitFence quote n (h :: g :: done) rest
    else if g == .char '\r' && rest.head? != some (.char '\n') then none
    else splitFence quote n (g :: done) rest

/-- A text without an end of a line at its front. -/
def dropEnd : Text → Text
  | .char '\n' :: rest => rest
  | .char '\r' :: .char '\n' :: rest => rest
  | t => t

/-- Whether nothing but blanks stands before the end of the line. -/
def endsHere : Text → Bool
  | .char ' ' :: rest => endsHere rest
  | .char '\t' :: rest => endsHere rest
  | .char '\r' :: .char '\n' :: _ => true
  | .char '\n' :: _ => true
  | _ => false

/-- A text without the blanks and ends of lines at its front. -/
def dropGap (t : Text) : Text :=
  t.dropWhile fun g => g == .char ' ' || g == .char '\t' || g == .char '\n' || g == .char '\r'

/-- Replace the escapes of a string of several lines. A backslash at the end of a line stands for nothing,
together with the gap after it. -/
def unescapeLines : Nat → Text → Option Text
  | 0, t => if t.isEmpty then some [] else none
  | _ + 1, [] => some []
  | n + 1, g :: rest =>
    if g = .char '\\' then
      if endsHere rest then unescapeLines n (dropGap rest)
      else do
        let (g, rest) ← readEscape rest
        some (g :: (← unescapeLines n rest))
    else if isPrintableOrEnd g then (unescapeLines n rest).map (g :: ·)
    else none

/-- Read the rest of a string of several lines, after its opening quotes. An end of a line right there does
not count. -/
def readFenced (quote : Char) (t : Text) : Option (Text × Text) := do
  let (content, rest) ← splitFence quote (t.length + 1) [] t
  let content := dropEnd content
  if quote = '"' then some (← unescapeLines content.length content, rest)
  else if content.all isPrintableOrEnd then some (content, rest)
  else none

/-- Read a string. -/
def readString (t : Text) : Option (Text × Text) :=
  if (fence '"').isPrefixOf t then readFenced '"' (t.drop 3)
  else if (fence '\x27').isPrefixOf t then readFenced '\x27' (t.drop 3)
  else readQuoted t

/-! ## Keys -/

/-- Whether a glyph may stand in a key without quotes. -/
def isBare : Glyph → Bool
  | .char c => c.isAlphanum || c = '_' || c = '-'
  | .stray _ => false

/-- Read one part of a key. -/
def readPart (t : Text) : Option (Text × Text) :=
  match t.takeWhile isBare with
  | [] => readQuoted t
  | part => some (part, t.drop part.length)

/-- Read a key: parts with dots between them, blanks around each. -/
def readKey : Nat → List Text → Text → Option (List Text × Text)
  | 0, _, _ => none
  | n + 1, done, t =>
    match readPart (skipBlanks t) with
    | none => none
    | some (part, rest) =>
      match skipBlanks rest with
      | .char '.' :: rest => readKey n (part :: done) rest
      | rest => some ((part :: done).reverse, rest)

/-! ## Values -/

/-- Whether a glyph may stand in a value without quotes or brackets. -/
def isWordGlyph : Glyph → Bool
  | .char c => c.isAlphanum || c = '_' || c = '-' || c = '+' || c = '.' || c = ':'
  | .stray _ => false

/-- The value of digits of a base, which has to fit in 64 bits with a sign. Single underscores may stand
between digits. -/
def readDigits (base bound : Nat) (t : Text) : Option Nat :=
  if t.isEmpty || !Text.underscoresFit false t then none
  else
    match Text.literalValueFrom base 0 t with
    | .ok n => if n < bound then some n else none
    | .error _ => none

/-- The value of decimal digits, the first of which is no zero if there are several. -/
def readDecimal (bound : Nat) (t : Text) : Option Nat :=
  if startsWithZero t then none else readDigits 10 bound t
where
  /-- Whether a zero stands before other digits. -/
  startsWithZero : Text → Bool
    | .char '0' :: _ :: _ => true
    | _ => false

/-- A whole number. Decimal numbers may have a sign; marks of other bases are in lower case and stand
without a sign. -/
def readInt : Text → Option Int
  | .char '-' :: rest => (readDecimal (Text.bound64 + 1) rest).map fun n => -(n : Int)
  | .char '+' :: rest => (readDecimal Text.bound64 rest).map fun n => (n : Int)
  | .char '0' :: .char 'x' :: rest => (readDigits 16 Text.bound64 rest).map fun n => (n : Int)
  | .char '0' :: .char 'o' :: rest => (readDigits 8 Text.bound64 rest).map fun n => (n : Int)
  | .char '0' :: .char 'b' :: rest => (readDigits 2 Text.bound64 rest).map fun n => (n : Int)
  | t => (readDecimal Text.bound64 t).map fun n => (n : Int)

/-- The value of a word. -/
def ofWord (word : Text) : Option Toml :=
  if word = "true" then some (.bool true)
  else if word = "false" then some (.bool false)
  else (readInt word).map .int

/-- Read the items of an array up to its end. -/
def readItems (item : Text → Option (Toml × Text)) : Nat → List Toml → Text → Option (Toml × Text)
  | 0, _, _ => none
  | n + 1, done, t =>
    match skipLines t.length t with
    | .char ']' :: rest => some (.array done.reverse, rest)
    | t =>
      match item t with
      | none => none
      | some (value, rest) =>
        match skipLines rest.length rest with
        | .char ',' :: rest => readItems item n (value :: done) rest
        | .char ']' :: rest => some (.array (value :: done).reverse, rest)
        | _ => none

/-- Read a key, an equals sign and a value. -/
def readPair (item : Text → Option (Toml × Text)) (t : Text) : Option ((List Text × Toml) × Text) :=
  match readKey (t.length + 1) [] t with
  | some (key, .char '=' :: rest) => (item (skipBlanks rest)).map fun (value, rest) => ((key, value), rest)
  | _ => none

/-- Read the fields of an inline table up to its end. -/
def readFields (item : Text → Option (Toml × Text)) :
    Nat → List (List Text × Toml) → Text → Option (Toml × Text)
  | 0, _, _ => none
  | n + 1, done, t =>
    match readPair item t with
    | none => none
    | some (field, rest) =>
      match skipBlanks rest with
      | .char ',' :: rest => readFields item n (field :: done) rest
      | .char '\x7d' :: rest => some (.table (field :: done).reverse, rest)
      | _ => none

/-- Read a value, with at most `n` values open at a time. -/
def readValue : Nat → Text → Option (Toml × Text)
  | 0, _ => none
  | n + 1, t =>
    match t with
    | .char '"' :: _ | .char '\x27' :: _ => (readString t).map fun (s, rest) => (.string s, rest)
    | .char '[' :: rest => readItems (readValue n) (rest.length + 1) [] rest
    | .char '\x7b' :: rest =>
      match skipBlanks rest with
      | .char '\x7d' :: rest => some (.table [], rest)
      | rest => readFields (readValue n) (rest.length + 1) [] rest
    | t =>
      let word := t.takeWhile isWordGlyph
      (ofWord word).map fun value => (value, t.drop word.length)

/-! ## Documents -/

/-- Read the header of a table, after its opening bracket, or of an array of tables. -/
def readHeader : Text → Option (Line × Text)
  | .char '[' :: rest =>
    match readKey (rest.length + 1) [] rest with
    | some (path, .char ']' :: .char ']' :: rest) => some (.arrayHeader path, rest)
    | _ => none
  | rest =>
    match readKey (rest.length + 1) [] rest with
    | some (path, .char ']' :: rest) => some (.header path, rest)
    | _ => none

/-- Read a line that is not empty. -/
def readLine : Text → Option (Line × Text)
  | .char '[' :: rest => readHeader rest
  | t => (readPair (readValue (t.length + 1)) t).map fun ((path, value), rest) => (.assign path value, rest)

/-- Read the lines of a document, each of which takes at least one glyph. -/
def readLines : Nat → List Line → Text → Option (List Line)
  | 0, _, _ => none
  | n + 1, done, t =>
    match skipLines t.length t with
    | [] => some done.reverse
    | t => do
      let (line, rest) ← readLine t
      readLines n (line :: done) (← endLine rest)

/-! ## What is defined already -/

/-- What a path leads to. -/
inductive Place where
  | value
  | table
  | tables
  deriving DecidableEq, Repr, Inhabited

/-- What is known of a path: what it leads to, whether its table was opened, and whether a dotted key of the
open table has made it. -/
structure Mark where
  path : List Text
  place : Place := .table
  isOpened : Bool := false
  isFresh : Bool := false
  deriving Repr, Inhabited

/-- The paths a document has defined so far. -/
abbrev Seen := List Mark

namespace Seen

/-- What is known of a path. -/
def mark? (s : Seen) (path : List Text) : Option Mark := s.find? fun m => m.path == path

/-- Close the tables that dotted keys have made inside a table. -/
def close (s : Seen) (table : List Text) : Seen :=
  s.map fun m =>
    if m.isFresh && table.isPrefixOf m.path then { m with isOpened := true, isFresh := false } else m

/-- Note a table on the way to one that is being opened; it must not have a value. -/
def passThrough (s : Seen) (path : List Text) : Option Seen :=
  match s.mark? path with
  | some m => if m.place = .value then none else some s
  | none => some ({ path } :: s)

/-- Note the tables on the way to one that is being opened. -/
def passTo (s : Seen) (path : List Text) : Option Seen :=
  (List.range (path.length - 1)).foldlM (fun s n => s.passThrough (path.take (n + 1))) s

/-- Open a table. -/
def openTable (s : Seen) (path : List Text) : Option Seen := do
  let s ← s.passTo path
  match s.mark? path with
  | none => some ({ path, isOpened := true } :: s)
  | some m =>
    if m.place ≠ .table || m.isOpened then none
    else some ({ m with isOpened := true } :: s.filter fun m => m.path != path)

/-- Add a table to an array of tables. What was defined inside the one before is forgotten. -/
def addTable (s : Seen) (path : List Text) : Option Seen := do
  let s ← s.passTo path
  match s.mark? path with
  | none => some ({ path, place := .tables, isOpened := true } :: s)
  | some m =>
    if m.place = .tables then some (s.filter fun m => m.path == path || !path.isPrefixOf m.path) else none

/-- Note a table on the way to a key; it must not have been opened. -/
def reach (s : Seen) (path : List Text) : Option Seen :=
  match s.mark? path with
  | none => some ({ path, isFresh := true } :: s)
  | some m => if m.place ≠ .table || m.isOpened then none else some s

/-- Give a key of a table a value. -/
def define (s : Seen) (table key : List Text) : Option Seen := do
  let s ← (List.range (key.length - 1)).foldlM (fun s n => s.reach (table ++ key.take (n + 1))) s
  match s.mark? (table ++ key) with
  | some _ => none
  | none => some ({ path := table ++ key, place := .value, isFresh := true } :: s)

end Seen

mutual

/-- Whether no key is given twice in the inline tables of a value. -/
def isSound : Toml → Bool
  | .array items => areSound items
  | .table fields => fieldsAreSound [] fields
  | _ => true

/-- Whether no key is given twice in the inline tables of some values. -/
def areSound : List Toml → Bool
  | [] => true
  | item :: items => item.isSound && areSound items

/-- Whether no key is given twice in the fields of an inline table and in their values. -/
def fieldsAreSound (seen : Seen) : List (List Text × Toml) → Bool
  | [] => true
  | (key, value) :: fields =>
    match seen.define [] key with
    | some seen => value.isSound && fieldsAreSound seen fields
    | none => false

end

/-- Whether a document defines nothing twice. `table` is the open table. -/
def linesAreSound (seen : Seen) (table : List Text) : List Line → Bool
  | [] => true
  | .header path :: lines =>
    match (seen.close table).openTable path with
    | some seen => linesAreSound seen path lines
    | none => false
  | .arrayHeader path :: lines =>
    match (seen.close table).addTable path with
    | some seen => linesAreSound seen path lines
    | none => false
  | .assign key value :: lines =>
    match seen.define table key with
    | some seen => value.isSound && linesAreSound seen table lines
    | none => false

/-- The lines of a document that is well formed and defines nothing twice. -/
def read (t : Text) : Option (List Line) :=
  match readLines (t.length + 1) [] t with
  | some lines => if linesAreSound [] [] lines then some lines else none
  | none => none

end Toml

end ScriptKit
