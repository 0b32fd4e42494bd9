import ScriptKit.Text.Literal

/-!
# Places in a YAML text

A YAML text is read with a cursor, which knows the line and the column it is in, because columns tell
which block a thing belongs to and a short key has to stay on its line.

Lines end with a line feed, with the next-line character, or with one of the separators of lines and
paragraphs. Other spellings of the end of a line are turned into line feeds before reading begins.
-/

namespace ScriptKit.Yaml

/-! ## Glyphs -/

/-- Whether a glyph is a space or a tab. -/
def isBlank (g : Glyph) : Bool := g == .char ' ' || g == .char '\t'

/-- Whether a glyph ends a line. -/
def isBreak : Glyph → Bool
  | .char c => c = '\n' || c = '\u0085' || c = '\u2028' || c = '\u2029'
  | .stray _ => false

/-- What the end of a line inside a text stands for. A separator stands for itself. -/
def breakText (g : Glyph) : Text := if g = .char '\u0085' then "\n" else [g]

/-- Whether a glyph is blank or ends a line. -/
def isGap (g : Glyph) : Bool := isBlank g || isBreak g

/-- Whether a word cannot go on with a text: it is used up or begins with a gap. -/
def endsWord : Text → Bool
  | [] => true
  | g :: _ => isGap g

/-- Whether a text begins with a gap. -/
def startsGap (t : Text) : Bool := (t.head?.map isGap).getD false

/-- Whether a glyph may stand in the name of an anchor. -/
def isNamePart : Glyph → Bool
  | .char c => c.isAlphanum || c = '_' || c = '-'
  | .stray _ => false

/-- Whether a text begins with a given character. -/
def startsWith (c : Char) (t : Text) : Bool := t.head? == some (.char c)

/-! ## The cursor -/

/-- What is left to read, and where that begins. Lines, columns and the number of glyphs before are counted
from zero. -/
structure Cursor where
  rest : Text
  index : Nat := 0
  line : Nat := 0
  col : Nat := 0
  deriving Repr, Inhabited

namespace Cursor

/-- Go past one glyph. -/
def step (c : Cursor) : Cursor :=
  match c.rest with
  | [] => c
  | g :: rest =>
    if isBreak g then ⟨rest, c.index + 1, c.line + 1, 0⟩ else ⟨rest, c.index + 1, c.line, c.col + 1⟩

/-- Go past `n` glyphs. -/
def advance : Nat → Cursor → Cursor
  | 0, c => c
  | n + 1, c => advance n c.step

/-- Go past the glyphs at the front that have a property. -/
def skipWhile (p : Glyph → Bool) (c : Cursor) : Cursor := c.advance (c.rest.takeWhile p).length

/-- Go past blanks. -/
def skipBlanks (c : Cursor) : Cursor := c.skipWhile isBlank

/-- Go on to the end of the line. -/
def skipLine (c : Cursor) : Cursor := c.skipWhile fun g => !isBreak g

/-- Begin a new line here, unless one begins already. -/
def nextLine (c : Cursor) : Cursor := if c.col = 0 then c else { c with line := c.line + 1, col := 0 }

/-- Whether a mark between documents stands here, alone at the beginning of a line. -/
def isAt (mark : Text) (c : Cursor) : Bool :=
  c.col == 0 && mark.isPrefixOf c.rest && endsWord (c.rest.drop mark.length)

/-- The mark before a document. -/
def opening : Text := "---"

/-- The mark after a document. -/
def closing : Text := "..."

/-- Whether a mark between documents stands here. -/
def atBoundary (c : Cursor) : Bool := c.isAt opening || c.isAt closing

/-- Read a name. -/
def takeName (c : Cursor) : Text × Cursor := (c.rest.takeWhile isNamePart, c.skipWhile isNamePart)

end Cursor

/-! ## Whole texts -/

/-- Whether a glyph may stand in a YAML text. -/
def isAllowed : Glyph → Bool
  | .char c =>
    let n := c.toNat
    n == 0x9 || n == 0xA || n == 0xD || (0x20 ≤ n && n ≤ 0x7E) || n == 0x85 ||
      (0xA0 ≤ n && n ≤ 0xFFFD && n ≠ 0xFEFF) || 0x10000 ≤ n
  | .stray _ => false

/-- A text in which carriage returns, alone or before a line feed, are line feeds. -/
def plainEnds : Text → Text
  | .char '\r' :: .char '\n' :: rest => .char '\n' :: plainEnds rest
  | .char '\r' :: rest => .char '\n' :: plainEnds rest
  | g :: rest => g :: plainEnds rest
  | [] => []

/-- A text without the byte order mark at its front. -/
def unmarked : Text → Text
  | .char '\ufeff' :: rest => rest
  | t => t

/-- The cursor at the beginning of a text, all of whose glyphs have to be allowed ones. -/
def Cursor.start? (t : Text) : Option Cursor :=
  let t := unmarked t
  if t.all isAllowed then some { rest := plainEnds t } else none

end ScriptKit.Yaml
