import ScriptKit.Diagnostic
import ScriptKit.Text.Blank
import ScriptKit.Text.Case
import ScriptKit.Text.Letter
import ScriptKit.Text.Quoted
import ScriptKit.Token

/-!
# Scanning

A `Cursor` stands at a place in a source. `Cursor.next` skips blanks and comments and takes the longest
token that begins there; on a fault it reports the trouble and leaves the cursor where reading stopped,
so that a caller may go on. At the end of the source it keeps answering with the end-of-file token.

A comment runs from two slashes to the next two slashes and holds no other slash.

`scan` reads a whole source: the tokens before the end or the first fault, and how the source ends.
-/

namespace ScriptKit

namespace Token

/-! ## Faults -/

/-- What a source can do wrong below the level of tokens. -/
inductive Fault where
  | openComment
  | lonelySlash
  | openString
  | endAfterSlash
  | unexpected (g : Glyph)
  deriving DecidableEq, Repr, Inhabited

/-- The wording of a fault. -/
def Fault.message : Fault → Text
  | .openComment => "unterminated comment"
  | .lonelySlash => "malformed comment: single '/' inside comment"
  | .openString => "unterminated string literal"
  | .endAfterSlash => "unexpected end of input after '/'"
  | .unexpected g => "unexpected character " ++ Text.quotedGlyph g

/-- A fault and where it was found. -/
structure Error where
  fault : Fault
  pos : Pos
  deriving DecidableEq, Repr, Inhabited

/-- The diagnostic of a fault; it points at one column. -/
def Error.diagnostic (file : Text) (e : Error) : Diagnostic where
  code := .lex
  message := e.fault.message
  span := some (Span.column file e.pos)

end Token

/-- A place in a source. -/
structure Cursor where
  /-- What is still to be read. -/
  rest : Text
  /-- The position of the first glyph of `rest`. -/
  pos : Pos
  /-- Whether the end-of-file token has been returned. -/
  done : Bool := false
  deriving DecidableEq, Repr, Inhabited

namespace Cursor

/-- The cursor at the start of a source. -/
def start (source : Text) : Cursor := ⟨source, .first, false⟩

/-- Move over `lexeme` to `rest`. -/
def move (c : Cursor) (lexeme rest : Text) : Cursor :=
  { c with rest := rest, pos := c.pos.afterText lexeme }

/-! ## Blanks and comments -/

/-- Skip blanks and comments in front of `rest`, which begins at `p`. `opening` is where the comment
being read began. The answer is the fault met, if any, and where skipping stopped. -/
def skipTriviaFrom (opening : Option Pos) (p : Pos) : Text → Option Token.Error × Text × Pos
  | [] =>
    match opening with
    | none => (none, [], p)
    | some start => (some ⟨.openComment, start⟩, [], p)
  | g :: rest =>
    match opening with
    | none =>
      if g.isBlank then skipTriviaFrom none (p.after g) rest
      else if g = .char '/' then
        match rest with
        -- two slashes begin a comment, and the next two end it
        | .char '/' :: rest => skipTriviaFrom (some p) ⟨p.line, p.col + 2⟩ rest
        | _ => (none, g :: rest, p)
      else (none, g :: rest, p)
    | some start =>
      if g = .char '/' then
        match rest with
        | .char '/' :: rest => skipTriviaFrom none ⟨p.line, p.col + 2⟩ rest
        | [] => (some ⟨.openComment, start⟩, [g], p)
        | _ => (some ⟨.lonelySlash, p⟩, g :: rest, p)
      else skipTriviaFrom (some start) (p.after g) rest

/-- Skip blanks and comments. -/
def skipTrivia (c : Cursor) : Option Token.Error × Cursor :=
  let (error, rest, pos) := skipTriviaFrom none c.pos c.rest
  (error, { c with rest := rest, pos := pos })

/-! ## Tokens -/

/-- The kinds that one character makes. -/
def single? (c : Char) : Option Token.Kind :=
  match c with
  | '\x7b' => some .leftBrace
  | '\x7d' => some .rightBrace
  | '(' => some .leftParen
  | ')' => some .rightParen
  | ';' => some .semicolon
  | ',' => some .comma
  | '+' => some .plus
  | '-' => some .minus
  | '*' => some .star
  | _ => none

/-- The kinds that a character makes with an equals sign after it. -/
def withEqual? (c : Char) : Option Token.Kind :=
  match c with
  | '=' => some .equal
  | '!' => some .notEqual
  | '>' => some .greaterEqual
  | '<' => some .lessEqual
  | _ => none

/-- The kinds that those characters make alone; an exclamation mark makes none. -/
def withoutEqual? (c : Char) : Option Token.Kind :=
  match c with
  | '=' => some .assign
  | '>' => some .greater
  | '<' => some .less
  | _ => none

/-- Give the token `value` that covers `lexeme` and move to `rest`. -/
def give (file : Text) (c : Cursor) (kind : Token.Kind) (value lexeme rest : Text) :
    Except Token.Error Token × Cursor :=
  let c' := c.move lexeme rest
  (.ok ⟨kind, value, ⟨file, c.pos, c'.pos⟩⟩, c')

/-- Report a fault at the cursor after moving over `lexeme` to `rest`. -/
def refuse (c : Cursor) (fault : Token.Fault) (lexeme rest : Text) :
    Except Token.Error Token × Cursor :=
  (.error ⟨fault, c.pos⟩, c.move lexeme rest)

/-- The kind and the value of a word that is followed by `rest`. -/
def classify (word rest : Text) : Token.Kind × Text :=
  match Token.Kind.ofWord? word with
  | some kind => (kind, word)
  | none =>
    if word.equalFold "true" || word.equalFold "false" then (.bool, word.lower)
    else if rest.head? = some (.char '(') then (.call, word)
    else (.name, word)

/-- Take a word: a keyword, a truth value or a name. -/
def word (file : Text) (c : Cursor) : Except Token.Error Token × Cursor :=
  let word := c.rest.takeWhile Glyph.isNamePart
  let rest := c.rest.dropWhile Glyph.isNamePart
  let (kind, value) := classify word rest
  c.give file kind value word rest

/-- Take the digits of a number. -/
def number (file : Text) (c : Cursor) : Except Token.Error Token × Cursor :=
  let digits := c.rest.takeWhile Glyph.isNumeralPart
  c.give file .number digits digits (c.rest.dropWhile Glyph.isNumeralPart)

/-- Take a string, whose opening quote is followed by `rest`. Its value is what stands between the
quotes; nothing is escaped. -/
def string (file : Text) (c : Cursor) (rest : Text) : Except Token.Error Token × Cursor :=
  let quote : Glyph := .char '"'
  let value := rest.takeWhile (· != quote)
  match rest.dropWhile (· != quote) with
  | [] => c.refuse .openString (quote :: value) []
  | closing :: rest => c.give file .string value (quote :: value ++ [closing]) rest

/-- Take the token that begins with the character `ch`, which is followed by `rest`. -/
def tokenAt (file : Text) (c : Cursor) (ch : Char) (rest : Text) : Except Token.Error Token × Cursor :=
  let g : Glyph := .char ch
  match single? ch with
  | some kind => c.give file kind [g] [g] rest
  | none =>
    match withEqual? ch with
    | some kind =>
      match rest with
      | .char '=' :: rest => c.give file kind [g, .char '='] [g, .char '='] rest
      | _ =>
        match withoutEqual? ch with
        | some kind => c.give file kind [g] [g] rest
        | none => c.refuse (.unexpected g) [g] rest
    | none =>
      if ch = '/' then
        if rest.isEmpty then c.refuse .endAfterSlash [g] rest else c.give file .slash [g] [g] rest
      else if ch = '"' then c.string file rest
      else if g.isNumeralPart then c.number file
      else if g.isLetter then c.word file
      else c.refuse (.unexpected g) [g] rest

/-- Take the token at the cursor, which stands at no blank and no comment. -/
def token (file : Text) (c : Cursor) : Except Token.Error Token × Cursor :=
  match c.rest with
  | [] => (.ok ⟨.endOfFile, [], ⟨file, c.pos, c.pos⟩⟩, { c with done := true })
  | .stray b :: rest => c.refuse (.unexpected (.stray b)) [.stray b] rest
  | .char ch :: rest => c.tokenAt file ch rest

/-- Take the next token. -/
def next (file : Text) (c : Cursor) : Except Token.Error Token × Cursor :=
  match c.skipTrivia with
  | (some e, c) => (.error e, c)
  | (none, c) => c.token file

end Cursor

/-! ## Whole sources -/

/-- The tokens of a source up to its end or its first fault. -/
structure Scanned where
  /-- The tokens before the end, in order. -/
  tokens : List Token
  /-- The end-of-file token, or the fault that stopped the scan. -/
  ending : Except Token.Error Token

namespace Scanned

/-- Put a token in front. -/
def cons (t : Token) (s : Scanned) : Scanned := { s with tokens := t :: s.tokens }

/-- Take up to `n` tokens from a cursor. -/
def take (file : Text) : Nat → Cursor → Scanned
  | 0, c => ⟨[], .ok ⟨.endOfFile, [], ⟨file, c.pos, c.pos⟩⟩⟩
  | n + 1, c =>
    match c.next file with
    | (.error e, _) => ⟨[], .error e⟩
    | (.ok t, c) => if t.kind = .endOfFile then ⟨[], .ok t⟩ else cons t (take file n c)

end Scanned

/-- Scan a source. A token takes at least one glyph, so there are no more tokens than glyphs. -/
def scan (file source : Text) : Scanned := Scanned.take file (source.length + 1) (.start source)

/-- The tokens of a source with the end-of-file token last, or the first fault. -/
def tokenize (file source : Text) : Except Token.Error (List Token) :=
  let s := scan file source
  match s.ending with
  | .ok eof => .ok (s.tokens ++ [eof])
  | .error e => .error e

end ScriptKit
