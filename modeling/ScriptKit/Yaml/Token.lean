import ScriptKit.Yaml.Scalar

/-!
# Tokens of YAML

A document is made of marks and scalars. Two kinds of token are not written: the beginning of a block,
which the column of its first thing tells, and its end, which the column of a later thing tells.

Whether a scalar is a key becomes known only at the colon after it. `Scanner` therefore keeps the tokens it
has read in a queue, together with the places where a key may have begun, and puts the marks of a key and of
its block into the queue once it has seen the colon. A key without a mark of its own has to stay on one line
and within a limit.

`Scanner.fetch` reads one more token. `Scanner.peek` gives the next token of the queue, and reads on until
it is certain that nothing comes before that token, and always two tokens further.
-/

namespace ScriptKit.Yaml

/-- A token. -/
inductive Token where
  | streamStart
  | streamEnd
  /-- The version a document claims to follow. -/
  | version (major minor : Nat)
  /-- A short name for the beginning of tags. -/
  | tagHandle (handle stem : Text)
  | documentStart
  | documentEnd
  | blockList
  | blockMap
  | blockEnd
  | listStart
  | listEnd
  | mapStart
  | mapEnd
  /-- The dash before an item of a block. -/
  | dash
  /-- The comma between things in brackets. -/
  | comma
  | key
  | value
  | alias (name : Text)
  | anchor (name : Text)
  | tag (handle suffix : Text)
  | scalar (plain : Bool) (text : Text)
  deriving DecidableEq, Repr, Inhabited

/-! ## Comments and the gaps between tokens -/

/-- How far the scanner looks for a comment. -/
def commentReach : Nat := 512

/-- Skip a comment, and the comments after it with the gaps between them. -/
def skipComments : Nat → Cursor → Cursor
  | 0, c => c
  | n + 1, c =>
    let c := c.skipLine
    let gap := c.rest.takeWhile fun g => isBlank g || g == .char '\n'
    if startsWith '\n' c.rest && gap.length < commentReach && startsWith '#' (c.rest.drop gap.length) then
      skipComments n (c.advance gap.length)
    else c

/-- Skip the comment at the end of a line, if there is one. -/
def skipLineComment (c : Cursor) : Cursor :=
  let blanks := c.rest.takeWhile isBlank
  if blanks.length < commentReach && startsWith '#' (c.rest.drop blanks.length) then c.skipLine else c

/-- Go on to the next token. `allowed` tells whether a key may begin here, which it may, outside brackets, at
the beginning of every line; where it may, no tab is skipped. -/
def skipGap (inFlow : Bool) : Nat → Bool → Cursor → Bool × Cursor
  | 0, allowed, c => (allowed, c)
  | n + 1, allowed, c =>
    let c := c.skipWhile fun g => g == .char ' ' || (g == .char '\t' && (inFlow || !allowed))
    let c := if startsWith '#' c.rest then skipComments (c.rest.length + 1) c else c
    if (c.rest.head?.map isBreak).getD false then skipGap inFlow n (allowed || !inFlow) c.step
    else (allowed, c)

/-! ## The scanner -/

/-- A place where a key may have begun: the number of its first token, where that is, and whether nothing but
a key can stand there. -/
structure PendingKey where
  number : Nat
  needed : Bool
  index : Nat
  line : Nat
  col : Nat
  deriving Repr, Inhabited

/-- How many glyphs a key without a mark of its own may have. -/
def keyReach : Nat := 1024

/-- Whether a key that has begun at a place cannot go on to the cursor. -/
def PendingKey.isStale (k : PendingKey) (c : Cursor) : Bool :=
  k.line < c.line || k.index + keyReach < c.index

/-- The state of reading tokens. -/
structure Scanner where
  cursor : Cursor
  /-- The tokens that were read and not taken yet. -/
  queue : List Token := [.streamStart]
  /-- How many tokens were taken. -/
  taken : Nat := 0
  /-- The columns of the open blocks, innermost first. -/
  indents : List Nat := []
  /-- Where a key may have begun, for each open bracket, innermost first, and last for the block around
  them. -/
  keys : List (Option PendingKey) := [none]
  /-- Whether a key may begin here. -/
  keyAllowed : Bool := true
  deriving Repr, Inhabited

namespace Scanner

/-- Whether a bracket is open. -/
def inFlow (s : Scanner) : Bool := 1 < s.keys.length

/-- The first column inside the innermost block. -/
def least (s : Scanner) : Nat := (s.indents.head?.map (· + 1)).getD 0

/-- The number of the next token to be read. -/
def nextNumber (s : Scanner) : Nat := s.taken + s.queue.length

/-- Put a token at the end of the queue. -/
def add (t : Token) (s : Scanner) : Scanner := { s with queue := s.queue ++ [t] }

/-- Put a token before the one with a given number. -/
def insert (number : Nat) (t : Token) (s : Scanner) : Scanner :=
  { s with queue := s.queue.insertIdx (number - s.taken) t }

/-- Go past `n` glyphs and put a token at the end of the queue. -/
def mark (n : Nat) (t : Token) (s : Scanner) : Scanner := { s with cursor := s.cursor.advance n }.add t

/-- Allow a key here, or do not. -/
def allowKey (allowed : Bool) (s : Scanner) : Scanner := { s with keyAllowed := allowed }

/-! ### Blocks -/

/-- End the blocks that lie to the right of column `col`. -/
def endBlocks (col : Nat) (s : Scanner) : Scanner :=
  if s.inFlow then s
  else
    let ended := s.indents.takeWhile (col < ·)
    { s with indents := s.indents.drop ended.length, queue := s.queue ++ ended.map fun _ => .blockEnd }

/-- End all blocks. -/
def endAllBlocks (s : Scanner) : Scanner :=
  if s.inFlow then s
  else { s with indents := [], queue := s.queue ++ s.indents.map fun _ => .blockEnd }

/-- Begin a block in column `col` unless one is open there, before the token with a given number. -/
def beginBlock (col number : Nat) (t : Token) (s : Scanner) : Scanner :=
  if s.inFlow || s.indents.head?.any (col ≤ ·) then s
  else { s with indents := col :: s.indents }.insert number t

/-! ### Keys -/

/-- Give up the place where a key may have begun; it fails if a key is needed there. -/
def dropKey (s : Scanner) : Option Scanner :=
  match s.keys with
  | some k :: keys => if k.needed then none else some { s with keys := none :: keys }
  | _ => some s

/-- Note that a key may begin here. -/
def noteKey (s : Scanner) : Option Scanner :=
  if s.keyAllowed then do
    let c := s.cursor
    let needed := !s.inFlow && s.indents.head? == some c.col
    let s ← s.dropKey
    some { s with keys := some ⟨s.nextNumber, needed, c.index, c.line, c.col⟩ :: s.keys.tail }
  else some s

/-- The key that may have begun, if it can go on to here; it fails if a key was needed and cannot. -/
def liveKey (s : Scanner) : Option (Option PendingKey) :=
  match s.keys.head?.join with
  | none => some none
  | some k => if k.isStale s.cursor then if k.needed then none else some none else some (some k)

/-! ### Marks -/

/-- Skip the comment on the line of the token that was read last. A dash, the marks of documents and a token
that took the end of its line with it leave the comments after them to the gap before the next token. -/
def endLine (s : Scanner) : Scanner := { s with cursor := skipLineComment s.cursor }

/-- Read the mark of a bracket that opens. -/
def openBracket (t : Token) (s : Scanner) : Option Scanner := do
  let s ← s.noteKey
  some ({ s with keys := none :: s.keys }.allowKey true |>.mark 1 t |>.endLine)

/-- Read the mark of a bracket that closes. -/
def closeBracket (t : Token) (s : Scanner) : Option Scanner := do
  let s ← s.dropKey
  let s := if s.inFlow then { s with keys := s.keys.tail } else s
  some (s.allowKey false |>.mark 1 t |>.endLine)

/-- Read a comma. -/
def readComma (s : Scanner) : Option Scanner := do
  let s ← s.dropKey
  some (s.allowKey true |>.mark 1 .comma |>.endLine)

/-- Read a dash. -/
def readDash (s : Scanner) : Option Scanner := do
  if !s.inFlow && !s.keyAllowed then none
  let s := s.beginBlock s.cursor.col s.nextNumber .blockList
  let s ← s.dropKey
  some (s.allowKey true |>.mark 1 .dash)

/-- Read the mark before a key. -/
def readKeyMark (s : Scanner) : Option Scanner := do
  if !s.inFlow && !s.keyAllowed then none
  let s := s.beginBlock s.cursor.col s.nextNumber .blockMap
  let s ← s.dropKey
  some (s.allowKey (!s.inFlow) |>.mark 1 .key |>.endLine)

/-- Read the colon before a value. If a key may have begun before it, that is a key now. -/
def readValueMark (s : Scanner) : Option Scanner := do
  match ← s.liveKey with
  | some k =>
    let s := s.insert k.number .key
    let s := s.beginBlock k.col k.number .blockMap
    some ({ s with keys := none :: s.keys.tail }.allowKey false |>.mark 1 .value |>.endLine)
  | none =>
    if !s.inFlow && !s.keyAllowed then none
    let s := { s with keys := none :: s.keys.tail }
    let s := s.beginBlock s.cursor.col s.nextNumber .blockMap
    some (s.allowKey (!s.inFlow) |>.mark 1 .value |>.endLine)

/-! ### Anchors and tags -/

/-- Whether a glyph may follow the name of an anchor. -/
def mayFollowName : Text → Bool
  | [] => true
  | g :: _ => isGap g || [.char '?', .char ':', .char ',', .char ']', .char '\x7d', .char '%', .char '@',
      .char '\x60'].contains g

/-- Read an anchor or an alias. -/
def readAnchor (t : Text → Token) (s : Scanner) : Option Scanner := do
  let s ← s.noteKey
  let (name, c) := s.cursor.step.takeName
  if name.isEmpty || !mayFollowName c.rest then none
  else some ({ s with cursor := c }.allowKey false |>.add (t name) |>.endLine)

/-- Whether a glyph may stand in a tag. -/
def isTagPart (g : Glyph) : Bool :=
  isNamePart g || [.char ';', .char '/', .char '?', .char ':', .char '@', .char '&', .char '=', .char '+',
    .char '$', .char ',', .char '.', .char '!', .char '~', .char '*', .char '\x27', .char '(', .char ')',
    .char '[', .char ']', .char '%'].contains g

/-- The bytes of a part of a tag in which a percent sign stands before a byte in base sixteen. -/
def tagBytes : Text → Option (List UInt8)
  | [] => some []
  | .char '%' :: a :: b :: rest => do
    let high ← Text.anyDigitValue? a
    let low ← Text.anyDigitValue? b
    if high < 16 && low < 16 then some (UInt8.ofNat (high * 16 + low) :: (← tagBytes rest)) else none
  | .char '%' :: _ => none
  | g :: rest => do some (g.bytes ++ (← tagBytes rest))

/-- Read the rest of a tag after the text `head`. At least one glyph has to be there. -/
def readTagPart (head : Text) (c : Cursor) : Option (Text × Cursor) := do
  let part := c.rest.takeWhile isTagPart
  if head.isEmpty && part.isEmpty then none
  let text := Text.ofBytes (← tagBytes part)
  if text.all Glyph.isChar then some (head.drop 1 ++ text, c.advance part.length) else none

/-- Read the beginning of a tag: an exclamation mark, a name, and perhaps another such mark. -/
def readHandle (c : Cursor) : Option (Text × Cursor) :=
  if startsWith '!' c.rest then
    let (name, c) := c.step.takeName
    if startsWith '!' c.rest then some ("!" ++ name ++ "!", c.step) else some ("!" ++ name, c)
  else none

/-- Whether the beginning of a tag is a short name. -/
def isHandle (t : Text) : Bool := 1 < t.length && t.getLast? == some (.char '!')

/-- Read a tag: the whole of it in angle brackets, or a short name and the rest. -/
def readTagText (c : Cursor) : Option (Text × Text × Cursor) :=
  if startsWith '<' c.step.rest then do
    let (suffix, c) ← readTagPart [] (c.advance 2)
    if startsWith '>' c.rest then some ([], suffix, c.step) else none
  else do
    let (handle, c) ← readHandle c
    if isHandle handle then
      let (suffix, c) ← readTagPart [] c
      some (handle, suffix, c)
    else
      let (suffix, c) ← readTagPart handle c
      if suffix.isEmpty then some ([], handle, c) else some ("!", suffix, c)

/-- Read a tag. -/
def readTag (s : Scanner) : Option Scanner := do
  let s ← s.noteKey
  let (handle, suffix, c) ← readTagText s.cursor
  if endsWord c.rest then some ({ s with cursor := c }.allowKey false |>.add (.tag handle suffix) |>.endLine)
  else none

/-! ### Scalars -/

/-- Read a quoted scalar. -/
def readQuotedToken (quote : Char) (s : Scanner) : Option Scanner := do
  let s ← s.noteKey
  let (text, c) ← readQuoted quote s.cursor
  some ({ s with cursor := c }.allowKey false |>.add (.scalar false text) |>.endLine)

/-- Read a plain scalar. If a line was ended after it, a key may begin. -/
def readPlainToken (s : Scanner) : Option Scanner := do
  let s ← s.noteKey
  let (text, broken, c) ← readPlain s.inFlow s.least s.cursor
  let s := { s with cursor := c }.allowKey broken |>.add (.scalar true text)
  some (if broken then s else s.endLine)

/-- Read a block of lines. -/
def readBlockToken (literal : Bool) (s : Scanner) : Option Scanner := do
  let s ← s.dropKey
  let (text, c) ← readBlock literal s.indents.head? s.cursor.step
  some ({ s with cursor := c }.allowKey true |>.add (.scalar false text))

/-! ### Directives and the marks of documents -/

/-- Read a number of one or two digits. -/
def readVersionPart (c : Cursor) : Option (Nat × Cursor) :=
  let digits := c.rest.takeWhile fun g => (Text.digitValue? g).isSome
  if digits.length ≤ 2 then (Text.readNat digits).map fun n => (n, c.advance digits.length) else none

/-- Read the version of a directive. -/
def readVersion (c : Cursor) : Option (Token × Cursor) := do
  let (major, c) ← readVersionPart c.skipBlanks
  if startsWith '.' c.rest then
    let (minor, c) ← readVersionPart c.step
    some (.version major minor, c)
  else none

/-- Read the short name of a directive and what it stands for. -/
def readTagHandle (c : Cursor) : Option (Token × Cursor) := do
  let (handle, c) ← readHandle c.skipBlanks
  if handle != "!" && !isHandle handle then none
  if !(c.rest.head?.map isBlank).getD false then none
  let (stem, c) ← readTagPart [] c.skipBlanks
  if endsWord c.rest then some (.tagHandle handle stem, c) else none

/-- Read a directive; nothing but a comment may follow it on its line. -/
def readDirective (s : Scanner) : Option Scanner := do
  let s ← s.endAllBlocks.dropKey
  let (name, c) := s.cursor.step.takeName
  if !endsWord c.rest then none
  let (t, c) ← if name = "YAML" then readVersion c else if name = "TAG" then readTagHandle c else none
  let c := c.skipBlanks
  let c := if startsWith '#' c.rest then c.skipLine else c
  match c.rest with
  | [] => some ({ s with cursor := c }.allowKey false |>.add t)
  | g :: _ => if isBreak g then some ({ s with cursor := c.step }.allowKey false |>.add t) else none

/-- Read a mark between documents. -/
def readBoundary (t : Token) (s : Scanner) : Option Scanner := do
  let s ← s.endAllBlocks.dropKey
  some (s.allowKey false |>.mark 3 t)

/-- Note the end of the text. -/
def endStream (s : Scanner) : Option Scanner := do
  let s ← { s with cursor := s.cursor.nextLine }.endAllBlocks.dropKey
  some (s.allowKey false |>.add .streamEnd)

/-! ## Fetching tokens -/

/-- Whether a glyph is a mark that begins no plain scalar. -/
def isMark : Glyph → Bool
  | .char c => c ∈ ['-', '?', ':', ',', '[', ']', '\x7b', '\x7d', '#', '&', '*', '!', '|', '>', '\x27', '"',
      '%', '@', '\x60']
  | .stray _ => false

/-- Whether a plain scalar may begin with a glyph that is followed by a text. -/
def startsPlain (inFlow : Bool) (g : Glyph) (rest : Text) : Bool :=
  if g == .char '-' then !(rest.head?.map isBlank).getD false
  else if g == .char '?' || g == .char ':' then !inFlow && !endsWord rest
  else !isMark g && !isGap g

/-- Read the token that begins with a character. -/
def readToken (ch : Char) (rest : Text) (s : Scanner) : Option Scanner :=
  match ch with
  | '[' => s.openBracket .listStart
  | '\x7b' => s.openBracket .mapStart
  | ']' => s.closeBracket .listEnd
  | '\x7d' => s.closeBracket .mapEnd
  | ',' => s.readComma
  | '*' => s.readAnchor .alias
  | '&' => s.readAnchor .anchor
  | '!' => s.readTag
  | '\x27' => s.readQuotedToken '\x27'
  | '"' => s.readQuotedToken '"'
  | _ =>
    if ch = '-' && endsWord rest then s.readDash
    else if ch = '?' && (s.inFlow || endsWord rest) then s.readKeyMark
    else if ch = ':' && (s.inFlow || endsWord rest) then s.readValueMark
    else if (ch = '|' || ch = '>') && !s.inFlow then s.readBlockToken (ch = '|')
    else if startsPlain s.inFlow (.char ch) rest then s.readPlainToken
    else none

/-- Go on to the next token and end the blocks that it is outside of. -/
def toNext (s : Scanner) : Scanner :=
  let (allowed, c) := skipGap s.inFlow (s.cursor.rest.length + 1) s.keyAllowed s.cursor
  { s with keyAllowed := allowed, cursor := c }.endBlocks c.col

/-- Read one more token. -/
def fetch (s : Scanner) : Option Scanner :=
  let s := s.toNext
  match s.cursor.rest with
  | [] => s.endStream
  | .stray _ :: _ => none
  | .char ch :: rest =>
    if s.cursor.col = 0 && ch = '%' then s.readDirective
    else if s.cursor.isAt Cursor.opening then s.readBoundary .documentStart
    else if s.cursor.isAt Cursor.closing then s.readBoundary .documentEnd
    else s.readToken ch rest

/-- How many tokens the queue holds at least when one is taken from it. -/
def queueLength : Nat := 3

/-- Whether a token may still be put before the first one of the queue; it fails if a key is needed there
and cannot go on. A place that is out of reach is given up. -/
def isPending (s : Scanner) : Option (Bool × Scanner) :=
  match s.keys.find? fun k => (k.map (·.number)) == some s.taken with
  | some (some k) =>
    if k.isStale s.cursor then
      if k.needed then none
      else
        let keys := s.keys.map fun other => if other.map (·.number) == some k.number then none else other
        some (false, { s with keys })
    else some (true, s)
  | _ => some (false, s)

/-- Read tokens until the first one of the queue is settled. -/
def fill : Nat → Scanner → Option Scanner
  | 0, _ => none
  | n + 1, s =>
    if s.queue.length < queueLength then do fill n (← s.fetch)
    else do
      let (pending, s) ← s.isPending
      if pending then fill n (← s.fetch) else some s

/-- The next token. -/
def peek (s : Scanner) : Option (Token × Scanner) := do
  let s ← s.fill (s.cursor.rest.length + 2 * queueLength)
  some (← s.queue.head?, s)

/-- Take the next token. -/
def take (s : Scanner) : Scanner := { s with queue := s.queue.tail, taken := s.taken + 1 }

end Scanner

end ScriptKit.Yaml
