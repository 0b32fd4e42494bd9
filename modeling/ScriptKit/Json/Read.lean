import ScriptKit.Json.Basic

/-!
# Reading JSON

`Json.read` accepts exactly one JSON value with blanks around it. Strings may hold no raw control
character; an escaped surrogate that has no partner, and a stray byte, read as the replacement
character. Fields are kept in the order of the text, repeated names included.

Arrays and objects may be nested up to `maxDepth`. `readValue` takes as its first argument how many of them
may still be opened, and that is what its recursion is on.
-/

namespace ScriptKit.Json

/-- Drop the blanks JSON allows between its parts. -/
def skipBlanks (t : Text) : Text :=
  t.dropWhile fun g => g == .char ' ' || g == .char '\t' || g == .char '\n' || g == .char '\r'

/-- Take `word` off the front of a text. -/
def dropWord? : Text → Text → Option Text
  | [], t => some t
  | w :: word, g :: t => if w = g then dropWord? word t else none
  | _ :: _, [] => none

/-! ## Strings -/

/-- The value of a digit of base sixteen. -/
def hexValue? : Glyph → Option Nat
  | .char c =>
    if '0' ≤ c && c ≤ '9' then some (c.toNat - '0'.toNat)
    else if 'a' ≤ c && c ≤ 'f' then some (c.toNat - 'a'.toNat + 10)
    else if 'A' ≤ c && c ≤ 'F' then some (c.toNat - 'A'.toNat + 10)
    else none
  | .stray _ => none

/-- The value of four digits of base sixteen at the front of a text, and what follows them. -/
def readHex4 : Text → Option (Nat × Text)
  | a :: b :: c :: d :: rest =>
    match hexValue? a, hexValue? b, hexValue? c, hexValue? d with
    | some a, some b, some c, some d => some (((a * 16 + b) * 16 + c) * 16 + d, rest)
    | _, _, _, _ => none
  | _ => none

/-- The character an escape letter stands for. -/
def unescape? (c : Char) : Option Char :=
  match c with
  | '"' => some '"'
  | '\\' => some '\\'
  | '/' => some '/'
  | 'b' => some (Char.ofNat 8)
  | 'f' => some (Char.ofNat 12)
  | 'n' => some '\n'
  | 'r' => some '\r'
  | 't' => some '\t'
  | _ => none

/-- A code unit as a character: a surrogate stands for no character of its own. -/
def unitChar (n : Nat) : Char := if 0xD800 ≤ n && n ≤ 0xDFFF then '\uFFFD' else Char.ofNat n

/-- The low surrogate written as an escape at the front of a text, and what follows it. -/
def readLowSurrogate : Text → Option (Nat × Text)
  | .char '\\' :: .char 'u' :: rest =>
    match readHex4 rest with
    | some (n, rest) => if 0xDC00 ≤ n && n ≤ 0xDFFF then some (n, rest) else none
    | none => none
  | _ => none

/-- The glyph an escape of four digits stands for, joined with its partner if it is the first half of
a pair, and what follows it. -/
def readUnit (t : Text) : Option (Glyph × Text) :=
  match readHex4 t with
  | none => none
  | some (n, rest) =>
    if 0xD800 ≤ n && n ≤ 0xDBFF then
      match readLowSurrogate rest with
      | some (low, rest) =>
        some (.char (Char.ofNat (0x10000 + (n - 0xD800) * 0x400 + (low - 0xDC00))), rest)
      -- without its second half it stands for no character, and what follows is read by itself
      | none => some (.char (unitChar n), rest)
    else some (.char (unitChar n), rest)

/-- The glyph an escape stands for, read after its backslash, and what follows it. -/
def readEscape : Text → Option (Glyph × Text)
  | .char 'u' :: rest => readUnit rest
  | .char c :: rest => (unescape? c).map fun c => (.char c, rest)
  | _ => none

/-- Read the rest of a string after its opening quote. `read` holds the glyphs so far, last first. -/
def readStringFrom (read : Text) : Nat → Text → Option (Text × Text)
  | 0, _ => none
  | _ + 1, [] => none
  | n + 1, g :: rest =>
    match g with
    | .char '"' => some (read.reverse, rest)
    | .char '\\' =>
      match readEscape rest with
      | some (g, rest) => readStringFrom (g :: read) n rest
      | none => none
    | .char c => if c.toNat < 0x20 then none else readStringFrom (.char c :: read) n rest
    | .stray _ => readStringFrom (.char '\uFFFD' :: read) n rest

/-- Read the rest of a string after its opening quote. -/
def readString (t : Text) : Option (Text × Text) := readStringFrom [] t.length t

/-! ## Numbers -/

/-- Whether a glyph is a decimal digit. -/
def isDigit : Glyph → Bool
  | .char c => '0' ≤ c && c ≤ '9'
  | .stray _ => false

/-- Take one or more digits off the front of a text. -/
def takeDigits (t : Text) : Option (Text × Text) :=
  match t.takeWhile isDigit with
  | [] => none
  | ds => some (ds, t.dropWhile isDigit)

/-- Take the whole part of a number: a lone zero, or digits that begin with another one. -/
def takeWhole : Text → Option (Text × Text)
  | .char '0' :: rest => some ([.char '0'], rest)
  | t => takeDigits t

/-- Take the fraction of a number, if there is one. -/
def takeFraction : Text → Option (Text × Text)
  | .char '.' :: rest => (takeDigits rest).map fun (ds, rest) => (.char '.' :: ds, rest)
  | t => some ([], t)

/-- Take the exponent of a number, if there is one. -/
def takeExponent : Text → Option (Text × Text)
  | .char c :: rest =>
    if c = 'e' || c = 'E' then
      match rest with
      | .char '+' :: rest => (takeDigits rest).map fun (ds, rest) => (.char c :: .char '+' :: ds, rest)
      | .char '-' :: rest => (takeDigits rest).map fun (ds, rest) => (.char c :: .char '-' :: ds, rest)
      | rest => (takeDigits rest).map fun (ds, rest) => (.char c :: ds, rest)
    else some ([], .char c :: rest)
  | t => some ([], t)

/-- Take a number without its sign off the front of a text. -/
def takeUnsigned (t : Text) : Option (Text × Text) := do
  let (whole, t) ← takeWhole t
  let (fraction, t) ← takeFraction t
  let (exponent, t) ← takeExponent t
  return (whole ++ fraction ++ exponent, t)

/-- Take a number off the front of a text. -/
def takeNumber : Text → Option (Text × Text)
  | .char '-' :: rest => (takeUnsigned rest).map fun (ds, rest) => (.char '-' :: ds, rest)
  | t => takeUnsigned t

/-! ## Values -/

/-- Read the items of an array after the first one, or its end. -/
def readItems (item : Text → Option (Json × Text)) : Nat → List Json → Text → Option (Json × Text)
  | 0, _, _ => none
  | n + 1, items, t =>
    match skipBlanks t with
    | .char ']' :: rest => some (.array items.reverse, rest)
    | .char ',' :: rest =>
      match item rest with
      | some (value, rest) => readItems item n (value :: items) rest
      | none => none
    | _ => none

/-- Read a name, a colon and a value. -/
def readField (item : Text → Option (Json × Text)) (t : Text) : Option ((Text × Json) × Text) :=
  match skipBlanks t with
  | .char '"' :: rest =>
    match readString rest with
    | none => none
    | some (name, rest) =>
      match skipBlanks rest with
      | .char ':' :: rest => (item rest).map fun (value, rest) => ((name, value), rest)
      | _ => none
  | _ => none

/-- Read the fields of an object after the first one, or its end. -/
def readFields (item : Text → Option (Json × Text)) :
    Nat → List (Text × Json) → Text → Option (Json × Text)
  | 0, _, _ => none
  | n + 1, fields, t =>
    match skipBlanks t with
    | .char '\x7d' :: rest => some (.object fields.reverse, rest)
    | .char ',' :: rest =>
      match readField item rest with
      | some (field, rest) => readFields item n (field :: fields) rest
      | none => none
    | _ => none

/-- How many arrays and objects may be open at a time. -/
def maxDepth : Nat := 10000

/-- Read one value off the front of a text, where at most `n` arrays and objects are open at a time. -/
def readValue (n : Nat) (t : Text) : Option (Json × Text) :=
  match skipBlanks t, n with
  | [], _ => none
  | .char '"' :: rest, _ => (readString rest).map fun (s, rest) => (.string s, rest)
  | .char '[' :: _, 0 => none
  | .char '[' :: rest, n + 1 =>
    match skipBlanks rest with
    | .char ']' :: rest => some (.array [], rest)
    | rest =>
      match readValue n rest with
      | some (item, rest) => readItems (readValue n) rest.length [item] rest
      | none => none
  | .char '\x7b' :: _, 0 => none
  | .char '\x7b' :: rest, n + 1 =>
    match skipBlanks rest with
    | .char '\x7d' :: rest => some (.object [], rest)
    | rest =>
      match readField (readValue n) rest with
      | some (field, rest) => readFields (readValue n) rest.length [field] rest
      | none => none
  | .char 'n' :: rest, _ => (dropWord? "ull" rest).map fun rest => (.null, rest)
  | .char 't' :: rest, _ => (dropWord? "rue" rest).map fun rest => (.bool true, rest)
  | .char 'f' :: rest, _ => (dropWord? "alse" rest).map fun rest => (.bool false, rest)
  | t, _ => (takeNumber t).map fun (ds, rest) => (.number ds, rest)

/-- Read a text that holds one value and nothing else. -/
def read (t : Text) : Option Json :=
  match readValue maxDepth t with
  | some (value, rest) => if (skipBlanks rest).isEmpty then some value else none
  | none => none

end ScriptKit.Json
