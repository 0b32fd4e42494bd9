import ScriptKit.Yaml.Cursor

/-!
# The texts of scalars

A scalar may be written plain, in single or double quotes, or as a block of indented lines, and in each
form it may run over several lines. Except in a literal block, a single end of a line stands for a space,
and of several in a row the first is dropped.

`readQuoted`, `readPlain` and `readBlock` read a scalar and leave the cursor after it. A plain scalar takes
with it the gap that follows.
-/

namespace ScriptKit.Yaml

/-! ## Gaps inside a scalar -/

/-- The blanks and ends of lines between two words of a scalar. Blanks count only if no line ends. -/
structure Gap where
  blanks : Text := []
  /-- Whether a line ends in the gap. -/
  broken : Bool := false
  /-- The first end of a line; none if that one was escaped. -/
  first : Text := []
  /-- The further ends of lines. -/
  more : Text := []
  deriving Repr, Inhabited

/-- What a gap stands for between two words. -/
def Gap.text (g : Gap) : Text :=
  if !g.broken then g.blanks
  else if startsWith '\n' g.first then if g.more.isEmpty then " " else g.more
  else g.first ++ g.more

/-- Read the rest of a gap. After the end of a line no tab may stand before column `least`. -/
def readGap (least : Nat) : Nat → Gap → Cursor → Option (Gap × Cursor)
  | 0, gap, c => some (gap, c)
  | n + 1, gap, c =>
    match c.rest with
    | [] => some (gap, c)
    | g :: _ =>
      if isBlank g then
        if !gap.broken then readGap least n { gap with blanks := gap.blanks ++ [g] } c.step
        else if c.col < least && g == .char '\t' then none
        else readGap least n gap c.step
      else if isBreak g then
        if gap.broken then readGap least n { gap with more := gap.more ++ breakText g } c.step
        else readGap least n { broken := true, first := breakText g } c.step
      else some (gap, c)

/-! ## Quoted scalars -/

/-- The character an escape letter stands for. -/
def unescape? (c : Char) : Option Char :=
  match c with
  | '0' => some '\x00'
  | 'a' => some '\x07'
  | 'b' => some '\x08'
  | 't' => some '\t'
  | '\t' => some '\t'
  | 'n' => some '\n'
  | 'v' => some '\x0b'
  | 'f' => some '\x0c'
  | 'r' => some '\r'
  | 'e' => some '\x1b'
  | ' ' => some ' '
  | '"' => some '"'
  | '\x27' => some '\x27'
  | '\\' => some '\\'
  | 'N' => some '\u0085'
  | '_' => some '\u00a0'
  | 'L' => some '\u2028'
  | 'P' => some '\u2029'
  | _ => none

/-- Read an escape after its backslash. -/
def readEscape : Text → Option (Glyph × Text)
  | .char 'x' :: rest => Text.takeCodePoint 2 rest
  | .char 'u' :: rest => Text.takeCodePoint 4 rest
  | .char 'U' :: rest => Text.takeCodePoint 8 rest
  | .char c :: rest => (unescape? c).map fun c => (.char c, rest)
  | _ => none

/-- A stretch of a quoted scalar up to a gap or the closing quote: what was read so far, last glyph first,
and whether the stretch ended with an escaped end of a line. -/
structure Stretch where
  done : Text
  escaped : Bool
  cursor : Cursor
  deriving Repr, Inhabited

/-- Read a stretch of a scalar in single quotes. -/
def readSingle : Nat → Text → Cursor → Stretch
  | 0, done, c => ⟨done, false, c⟩
  | n + 1, done, c =>
    match c.rest with
    | [] => ⟨done, false, c⟩
    | .char '\x27' :: .char '\x27' :: _ => readSingle n (.char '\x27' :: done) (c.advance 2)
    | g :: _ =>
      if isGap g || g == .char '\x27' then ⟨done, false, c⟩ else readSingle n (g :: done) c.step

/-- Read a stretch of a scalar in double quotes. -/
def readDouble : Nat → Text → Cursor → Option Stretch
  | 0, done, c => some ⟨done, false, c⟩
  | n + 1, done, c =>
    match c.rest with
    | [] => some ⟨done, false, c⟩
    | .char '\\' :: rest =>
      if (rest.head?.map isBreak).getD false then some ⟨done, true, c.advance 2⟩
      else
        match readEscape rest with
        | some (g, after) => readDouble n (g :: done) (c.advance (c.rest.length - after.length))
        | none => none
    | g :: _ =>
      if isGap g || g == .char '"' then some ⟨done, false, c⟩ else readDouble n (g :: done) c.step

/-- Read the rest of a quoted scalar, after what was read of it, last glyph first. -/
def readQuotedFrom (quote : Char) : Nat → Text → Cursor → Option (Text × Cursor)
  | 0, _, _ => none
  | n + 1, done, c =>
    if c.atBoundary || c.rest.isEmpty then none
    else do
      let s ← if quote = '"' then readDouble (c.rest.length + 1) done c
        else some (readSingle (c.rest.length + 1) done c)
      if startsWith quote s.cursor.rest then some (s.done.reverse, s.cursor.step)
      else
        let (gap, c) ← readGap 0 (s.cursor.rest.length + 1) { broken := s.escaped } s.cursor
        readQuotedFrom quote n (gap.text.reverse ++ s.done) c

/-- Read a quoted scalar, from its opening quote on. -/
def readQuoted (quote : Char) (c : Cursor) : Option (Text × Cursor) :=
  readQuotedFrom quote (c.rest.length + 1) [] c.step

/-! ## Plain scalars -/

/-- Whether a glyph ends a plain scalar inside brackets. -/
def endsFlowWord : Glyph → Bool
  | .char c => c ∈ [',', '?', '[', ']', '\x7b', '\x7d']
  | .stray _ => false

/-- The word a text begins with: it ends at a gap, at a colon before a gap, and inside brackets at a
mark. -/
def takeWord (inFlow : Bool) : Text → Text
  | [] => []
  | g :: rest =>
    if isGap g || (g == .char ':' && endsWord rest) || (inFlow && endsFlowWord g) then []
    else g :: takeWord inFlow rest

/-- Read the rest of a plain scalar after the words `done` and a gap. Outside brackets its lines begin in
column `least` or after it. The answer tells whether a line was ended after the last word. -/
def readPlainFrom (inFlow : Bool) (least : Nat) :
    Nat → Text → Gap → Cursor → Option (Text × Bool × Cursor)
  | 0, _, _, _ => none
  | n + 1, done, gap, c =>
    if c.atBoundary || startsWith '#' c.rest then some (done, gap.broken, c)
    else
      let word := takeWord inFlow c.rest
      let c := c.advance word.length
      let done := if word.isEmpty then done else done ++ gap.text ++ word
      let gap := if word.isEmpty then gap else {}
      if startsGap c.rest then
        match readGap least (c.rest.length + 1) gap c with
        | none => none
        | some (gap, c) =>
          if !inFlow && c.col < least then some (done, gap.broken, c)
          else readPlainFrom inFlow least n done gap c
      else some (done, gap.broken, c)

/-- Read a plain scalar. -/
def readPlain (inFlow : Bool) (least : Nat) (c : Cursor) : Option (Text × Bool × Cursor) :=
  readPlainFrom inFlow least (c.rest.length + 1) [] {} c

/-! ## Blocks of lines -/

/-- What becomes of the ends of lines after the last line of a block: all are kept, one is, or none. -/
inductive Chomp where
  | keep
  | clip
  | strip
  deriving DecidableEq, Repr, Inhabited

/-- The line a block begins with: whether its lines stay apart, what becomes of its end, and how far it is
indented, or zero if its first line tells. -/
structure BlockHead where
  literal : Bool
  chomp : Chomp := .clip
  increment : Nat := 0
  deriving Repr, Inhabited

/-- Read the sign for the end of a block, if there is one. -/
def readChomp (h : BlockHead) (c : Cursor) : BlockHead × Cursor :=
  match c.rest with
  | .char '+' :: _ => ({ h with chomp := .keep }, c.step)
  | .char '-' :: _ => ({ h with chomp := .strip }, c.step)
  | _ => (h, c)

/-- Read the digit for the indentation of a block, if there is one. It is not zero. -/
def readIncrement (h : BlockHead) (c : Cursor) : Option (BlockHead × Cursor) :=
  match c.rest.head?.bind Text.digitValue? with
  | none => some (h, c)
  | some 0 => none
  | some d => some ({ h with increment := d }, c.step)

/-- Read the first line of a block after its mark: a sign and a digit in either order, then at most a
comment. -/
def readBlockHead (literal : Bool) (c : Cursor) : Option (BlockHead × Cursor) := do
  let h : BlockHead := { literal }
  let signed := startsWith '+' c.rest || startsWith '-' c.rest
  let (h, c) := readChomp h c
  let (h, c) ← readIncrement h c
  let (h, c) := if signed then (h, c) else if h.increment = 0 then (h, c) else readChomp h c
  let c := c.skipBlanks
  let c := if startsWith '#' c.rest then c.skipLine else c
  match c.rest with
  | [] => some (h, c)
  | g :: _ => if isBreak g then some (h, c.step) else none

/-- Skip the indentation of a line of a block, and empty lines before it. The answer is the widest
indentation seen, the ends of the empty lines and the cursor. An indentation of zero is not known yet. -/
def readEmptyLines (indent : Nat) : Nat → Nat → Text → Cursor → Option (Nat × Text × Cursor)
  | 0, _, _, _ => none
  | n + 1, widest, ends, c =>
    let spaces := (c.rest.takeWhile (· == .char ' ')).length
    let c := c.advance (if indent = 0 then spaces else min spaces (indent - c.col))
    let widest := max widest c.col
    if (indent = 0 || c.col < indent) && startsWith '\t' c.rest then none
    else
      match c.rest with
      | [] => some (widest, ends, c)
      | g :: _ =>
        if isBreak g then readEmptyLines indent n widest (ends ++ breakText g) c.step
        else some (widest, ends, c)

/-- What was read of a block: its text, the end of the last line, the ends of the empty lines after that, and
whether the last line began with a blank. -/
structure BlockText where
  text : Text := []
  lastEnd : Text := []
  emptyEnds : Text := []
  startedBlank : Bool := false
  deriving Repr, Inhabited

/-- What stands between the last line of a block and a further one. -/
def BlockText.between (b : BlockText) (literal startsBlank : Bool) : Text :=
  if !literal && !b.startedBlank && !startsBlank && startsWith '\n' b.lastEnd then
    if b.emptyEnds.isEmpty then " " else b.emptyEnds
  else b.lastEnd ++ b.emptyEnds

/-- Read the lines of a block that is indented to column `indent`. -/
def readBlockLines (literal : Bool) (indent : Nat) :
    Nat → BlockText → Cursor → Option (BlockText × Cursor)
  | 0, b, c => some (b, c)
  | n + 1, b, c =>
    if c.col = indent && !c.rest.isEmpty then do
      let line := c.rest.takeWhile fun g => !isBreak g
      let startsBlank := (line.head?.map isBlank).getD false
      let c := c.advance line.length
      let lastEnd := (c.rest.head?.map breakText).getD []
      let (_, emptyEnds, next) ← readEmptyLines indent (c.rest.length + 1) 0 [] c.step
      let text := b.text ++ b.between literal startsBlank ++ line
      readBlockLines literal indent n ⟨text, lastEnd, emptyEnds, startsBlank⟩ next
    else some (b, c)

/-- The whole text of a block. -/
def BlockText.chomped (b : BlockText) : Chomp → Text
  | .strip => b.text
  | .clip => b.text ++ b.lastEnd
  | .keep => b.text ++ b.lastEnd ++ b.emptyEnds

/-- Read a block of lines after its mark. `parent` is the column of the block around it, if there is one. -/
def readBlock (literal : Bool) (parent : Option Nat) (c : Cursor) : Option (Text × Cursor) := do
  let (h, c) ← readBlockHead literal c
  let known := if h.increment = 0 then 0 else parent.getD 0 + h.increment
  let (widest, emptyEnds, c) ← readEmptyLines known (c.rest.length + 1) 0 [] c
  let least := (parent.map (· + 1)).getD 0
  let indent := if known = 0 then max (max widest least) 1 else known
  let (b, c) ← readBlockLines literal indent (c.rest.length + 1) { emptyEnds } c
  some (b.chomped h.chomp, c)

end ScriptKit.Yaml
