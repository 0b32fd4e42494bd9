import ScriptKit.Span

/-!
# Tokens

The words of the language. A token has a kind, the text it stands for and the place where it was found.
-/

namespace ScriptKit

namespace Token

/-- The kinds of tokens, in their listing order. -/
inductive Kind where
  | func
  | classWord
  | returnWord
  | newWord
  | if
  | else
  | for
  | while
  | intType
  | stringType
  | boolType
  | number
  | string
  | bool
  | name
  /-- A name with an opening parenthesis right after it. -/
  | call
  | leftBrace
  | rightBrace
  | leftParen
  | rightParen
  | semicolon
  | comma
  | assign
  | equal
  | notEqual
  | greaterEqual
  | lessEqual
  | greater
  | less
  | plus
  | minus
  | star
  | slash
  | endOfFile
  deriving DecidableEq, Repr, Inhabited

namespace Kind

/-- Every kind, in the listing order. -/
def all : List Kind :=
  [.func, .classWord, .returnWord, .newWord, .if, .else, .for, .while, .intType, .stringType, .boolType,
    .number, .string, .bool, .name, .call, .leftBrace, .rightBrace, .leftParen, .rightParen, .semicolon, .comma,
    .assign, .equal, .notEqual, .greaterEqual, .lessEqual, .greater, .less, .plus, .minus, .star,
    .slash, .endOfFile]

/-- How a kind is called in messages and listings. -/
def title : Kind → Text
  | .func => "func"
  | .classWord => "class"
  | .returnWord => "return"
  | .newWord => "new"
  | .if => "if"
  | .else => "else"
  | .for => "for"
  | .while => "while"
  | .intType => "int"
  | .stringType => "string"
  | .boolType => "bool"
  | .number => "number"
  | .string => "string literal"
  | .bool => "boolean"
  | .name => "identifier"
  | .call => "call"
  | .leftBrace => "'\x7b'"
  | .rightBrace => "'\x7d'"
  | .leftParen => "'('"
  | .rightParen => "')'"
  | .semicolon => "';'"
  | .comma => "','"
  | .assign => "'='"
  | .equal => "'=='"
  | .notEqual => "'!='"
  | .greaterEqual => "'>='"
  | .lessEqual => "'<='"
  | .greater => "'>'"
  | .less => "'<'"
  | .plus => "'+'"
  | .minus => "'-'"
  | .star => "'*'"
  | .slash => "'/'"
  | .endOfFile => "end of file"

/-- The words that are tokens of their own. -/
def keywords : List (Text × Kind) :=
  [("func", .func), ("class", .classWord), ("return", .returnWord), ("new", .newWord), ("if", .if),
    ("else", .else), ("for", .for), ("while", .while), ("int", .intType), ("string", .stringType),
    ("bool", .boolType)]

/-- The kind of a keyword. -/
def ofWord? (word : Text) : Option Kind := keywords.lookup word

/-- Whether a kind opens a declaration. -/
def isType : Kind → Bool
  | .intType | .stringType | .boolType => true
  | _ => false

/-- Whether a kind is one of the six comparison operators. -/
def isComparison : Kind → Bool
  | .equal | .notEqual | .greaterEqual | .lessEqual | .greater | .less => true
  | _ => false

end Kind

end Token

/-- A word of the language and where it was found. -/
structure Token where
  kind : Token.Kind
  value : Text
  span : Span
  deriving DecidableEq, Repr, Inhabited

end ScriptKit
