import ScriptKit.Token.Scan

/-!
# The lexical grammar

What a source can be cut into, said by rules. Between the tokens stands `Trivia`: blanks and comments, where a
comment is closed and holds no slash. A token is written as its value, apart from strings, which stand in
quotes, and truth values, whose letters may be of either case: `Written rest k v lexeme` says that the token
of the kind `k` and the value `v` can be written as `lexeme` in front of `rest`. It depends on `rest` because
a token goes as far as it can: no glyph of `rest` may continue it.

`Lexed file before source ts` cuts a source into the tokens `ts`, each at its place. Nothing is said here
about how a scanner finds the cut; that the scanner accepts exactly the sources that can be cut, and cuts
them in this way, is shown elsewhere.
-/

namespace ScriptKit

/-! ## Spellings -/

/-- The only way to write a token of a kind, if there is one. -/
def Token.Kind.spelling? : Token.Kind → Option Text
  | .func => some "func"
  | .classWord => some "class"
  | .returnWord => some "return"
  | .newWord => some "new"
  | .if => some "if"
  | .else => some "else"
  | .for => some "for"
  | .while => some "while"
  | .intType => some "int"
  | .stringType => some "string"
  | .boolType => some "bool"
  | .number | .string | .bool | .name | .call | .endOfFile => none
  | .leftBrace => some "\x7b"
  | .rightBrace => some "\x7d"
  | .leftParen => some "("
  | .rightParen => some ")"
  | .semicolon => some ";"
  | .comma => some ","
  | .assign => some "="
  | .equal => some "=="
  | .notEqual => some "!="
  | .greaterEqual => some ">="
  | .lessEqual => some "<="
  | .greater => some ">"
  | .less => some "<"
  | .plus => some "+"
  | .minus => some "-"
  | .star => some "*"
  | .slash => some "/"

/-- The glyph around string literals. -/
def Glyph.quote : Glyph := .char '"'

/-- A letter with letters and digits after it. -/
structure IsWord (v : Text) : Prop where
  letter : ∃ g rest, v = g :: rest ∧ g.isLetter = true
  parts : ∀ g ∈ v, g.isNamePart = true

/-- A text that the scanner reads as a name. -/
structure IsName (v : Text) : Prop extends IsWord v where
  noKeyword : Token.Kind.ofWord? v = none
  noTruth : (v.equalFold "true" || v.equalFold "false") = false

/-! ## Tokens in front of a text -/

/-- A text does not go on with a glyph that satisfies `p`. -/
def Breaks (p : Glyph → Bool) (rest : Text) : Prop := ∀ g, rest.head? = some g → p g = false

/-- The text `lexeme` is a way to write the token of the kind `k` and the value `v` in front of `rest`. -/
inductive Written (rest : Text) : Token.Kind → Text → Text → Prop
  /-- An operator or a bracket. No glyph of `rest` makes it a longer one, and a slash neither opens a comment
  nor ends the source. -/
  | symbol {k : Token.Kind} {v : Text} :
      k.spelling? = some v → Token.Kind.ofWord? v = none →
      (∀ g, rest.head? = some g → ∀ k' : Token.Kind, k'.spelling? ≠ some (v ++ [g])) →
      (k = .slash → rest ≠ [] ∧ rest.head? ≠ some (.char '/')) → Written rest k v v
  | keyword {k : Token.Kind} {v : Text} :
      Token.Kind.ofWord? v = some k → Breaks Glyph.isNamePart rest → Written rest k v v
  | number {v : Text} :
      v ≠ [] → (∀ g ∈ v, g.isNumeralPart = true) → Breaks Glyph.isNumeralPart rest →
      Written rest .number v v
  | string {v : Text} : Glyph.quote ∉ v → Written rest .string v (Glyph.quote :: v ++ [Glyph.quote])
  | truth {word : Text} :
      IsWord word → (word.equalFold "true" || word.equalFold "false") = true →
      Breaks Glyph.isNamePart rest → Written rest .bool word.lower word
  | name {v : Text} :
      IsName v → Breaks Glyph.isNamePart rest → rest.head? ≠ some (.char '(') → Written rest .name v v
  | call {v : Text} : IsName v → rest.head? = some (.char '(') → Written rest .call v v

/-! ## Blanks and comments -/

/-- Blanks and complete comments. -/
inductive Trivia : Text → Prop
  | nil : Trivia []
  | blank {g : Glyph} {t : Text} : g.isBlank = true → Trivia t → Trivia (g :: t)
  | comment {body t : Text} : .char '/' ∉ body → Trivia t →
      Trivia (.char '/' :: .char '/' :: (body ++ .char '/' :: .char '/' :: t))

/-! ## Sources -/

/-- The position behind a text: its line feeds and the glyphs after the last of them, counted from one. -/
def Pos.behind (before : Text) : Pos where
  line := 1 + before.count (.char '\n')
  col := 1 + (before.reverse.takeWhile (· != .char '\n')).length

/-- The text after `before` is cut into tokens, each with trivia in front of it and at its place, and into
trivia at the end. -/
inductive Lexed (file : Text) : Text → Text → List Token → Prop
  | stop {before trivia : Text} : Trivia trivia → Lexed file before trivia []
  | token {before trivia lexeme rest : Text} {t : Token} {ts : List Token} :
      Trivia trivia → Written rest t.kind t.value lexeme →
      t.span = ⟨file, .behind (before ++ trivia), .behind (before ++ trivia ++ lexeme)⟩ →
      Lexed file (before ++ trivia ++ lexeme) rest ts → Lexed file before (trivia ++ lexeme ++ rest) (t :: ts)

end ScriptKit
