import ScriptKit.Text.Numeral
import ScriptKit.Token.Scan
import ScriptKit.Tree.Basic

/-!
# Parsing

`parse` reads a program in one pass over its tokens and stops at the first fault. A call is resolved
when it is read: it calls the function of that name if such a function has been read to its closing
brace, and a builtin otherwise. If the names of the builtins are given, other names are faults.

The grammar of expressions is

    expression := term (('+' | '-') term)*
    term       := factor (('*' | '/') factor)* [comparison factor]
    factor     := ('+' | '-') factor | number | string | truth value | '(' expression ')' | call | name

where a comparison ends its term. A token that begins no statement is passed over as a statement of its
own, and a comma after an argument or a parameter may be left out.

A fault in the scanner is raised by the step that takes the token before it, so the parser never stands
at a token that could not be read. Each recursion and each loop is bounded by the number of tokens left.
-/

namespace ScriptKit

namespace Parse

/-! ## Faults -/

/-- What a program can do wrong. -/
inductive Fault where
  | scanning (fault : Token.Fault)
  | expected (kind : Token.Kind) (got : Token)
  | functionName (got : Token)
  | functionExists (name : Text)
  | parameter (got : Token)
  | parameterValue
  | numberRange (numeral : Text)
  | forHeader (got : Token)
  | forCondition (kind : Text)
  | unknownFunction (name : Text)
  deriving DecidableEq, Repr, Inhabited

/-- A fault and the place it concerns. -/
structure Error where
  fault : Fault
  span : Span
  deriving DecidableEq, Repr, Inhabited

/-- How a token is called in a message. -/
def describe (t : Token) : Text :=
  match t.kind with
  | .endOfFile => "end of file"
  | .string => t.value.quoted
  | _ => "'" ++ t.value ++ "'"

/-- The code of a fault. -/
def Fault.code : Fault → Code
  | .scanning _ => .lex
  | .forCondition _ => .type
  | _ => .parse

/-- The wording of a fault. -/
def Fault.message : Fault → Text
  | .scanning fault => fault.message
  | .expected kind got => "expected " ++ kind.title ++ ", got " ++ describe got
  | .functionName got => "expected function name followed by '(', got " ++ describe got
  | .functionExists name => "function " ++ name ++ " is already declared"
  | .parameter got => "expected parameter declaration, got " ++ describe got
  | .parameterValue => "parameters cannot have initial values"
  | .numberRange numeral => "integer literal " ++ numeral ++ " is out of range"
  | .forHeader got => "expected declaration or assignment in for header, got " ++ describe got
  | .forCondition kind => "for condition must be a comparison, got " ++ kind
  | .unknownFunction name => "function " ++ name ++ " does not exist"

/-- The diagnostic of a fault. -/
def Error.diagnostic (e : Error) : Diagnostic where
  code := e.fault.code
  message := e.fault.message
  span := some e.span

/-! ## The parser's view of the tokens -/

/-- What stays the same while a program is read. -/
structure Context where
  file : Text
  /-- How the tokens end: with the end-of-file token, or with a fault. -/
  ending : Except Token.Error Token
  /-- The names calls may use besides those of functions; any name if absent. -/
  builtins : Option (List Text)

/-- What changes while a program is read. -/
structure State where
  /-- The tokens still to be taken, the current one first. -/
  tokens : List Token
  /-- Where the token taken last ends. -/
  prev : Pos
  /-- The functions read to their closing brace, with their numbers, the last one first. -/
  functions : List (Text × Nat)
  /-- How many functions have begun. -/
  begun : Nat

end Parse

/-- A parser reads something from the tokens, or fails. -/
abbrev Parser := ReaderT Parse.Context (StateT Parse.State (Except Parse.Error))

namespace Parser

open Parse

/-- Fail with a fault at a span. -/
def fail {α : Type} (fault : Fault) (span : Span) : Parser α := throw ⟨fault, span⟩

/-- A scanner's fault as the parser reports it. -/
def scanError (file : Text) (e : Token.Error) : Error := ⟨.scanning e.fault, Span.column file e.pos⟩

/-- The token that stands for the end of the tokens. -/
def endToken (ctx : Context) : Token :=
  match ctx.ending with
  | .ok t => t
  | .error e => ⟨.endOfFile, [], Span.column ctx.file e.pos⟩

/-- The current token. -/
def current : Parser Token := do
  let ctx ← read
  return ((← get).tokens.head?).getD (endToken ctx)

/-- The kind of the current token. -/
def peek : Parser Token.Kind := do return (← current).kind

/-- The number of tokens left before the end. -/
def remaining : Parser Nat := do return (← get).tokens.length

/-- Fail if the tokens that are left, `rest`, end at once with a fault. -/
def guardEnding (rest : List Token) : Parser Unit := do
  let ctx ← read
  match rest, ctx.ending with
  | [], .error e => throw (scanError ctx.file e)
  | _, _ => return ()

/-- Take the current token. At the end of the file the current token stays. -/
def advance : Parser Token := do
  let t ← current
  let rest := (← get).tokens.tail
  guardEnding rest
  modify fun s => { s with tokens := rest, prev := t.span.stop }
  return t

/-- Take the current token, which must be of a given kind. -/
def expect (kind : Token.Kind) : Parser Token := do
  let t ← current
  if t.kind = kind then advance else fail (.expected kind t) t.span

/-- The span from the start of a token to the end of the token taken last. -/
def spanFrom (start : Token) : Parser Span := do return start.span.upTo (← get).prev

/-- Take the current token if it is a comma. -/
def optionalComma : Parser Unit := do
  if (← peek) = .comma then discard advance

/-- Read items until the current token is one of those `stop` names, at most `n` of them. -/
def itemsUntil {α : Type} (stop : Token.Kind → Bool) (item : Parser α) : Nat → List α → Parser (List α)
  | 0, items => return items.reverse
  | n + 1, items => do
    if stop (← peek) then return items.reverse
    else itemsUntil stop item n ((← item) :: items)

/-- Read items until the current token is one of those `stop` names. An item takes at least one token. -/
def manyUntil {α : Type} (stop : Token.Kind → Bool) (item : Parser α) : Parser (List α) := do
  itemsUntil stop item ((← remaining) + 1) []

/-! ## Expressions -/

/-- Read the factors after `left` that are multiplied or divided, and a comparison that ends the term. -/
def termFrom (factor : Parser Node) : Nat → Node → Parser Node
  | 0, left => return left
  | n + 1, left => do
    let kind ← peek
    if kind = .star ∨ kind = .slash then
      let op ← advance
      let right ← factor
      termFrom factor n (.arith (left.span.through right.span) left (.ofSymbol op.value) right)
    else if kind.isComparison then
      let op ← advance
      let right ← factor
      return .compare (left.span.through right.span) left (.ofSymbol op.value) right
    else return left

/-- Read a term. -/
def term (factor : Parser Node) : Parser Node := do
  let left ← factor
  termFrom factor (← remaining) left

/-- Read the terms after `left` that are added or subtracted. -/
def expressionFrom (factor : Parser Node) : Nat → Node → Parser Node
  | 0, left => return left
  | n + 1, left => do
    let kind ← peek
    if kind = .plus ∨ kind = .minus then
      let op ← advance
      let right ← term factor
      expressionFrom factor n (.arith (left.span.through right.span) left (.ofSymbol op.value) right)
    else return left

/-- Read an expression. -/
def expression (factor : Parser Node) : Parser Node := do
  let left ← term factor
  expressionFrom factor (← remaining) left

/-- The callee of a call by name. -/
def resolve (name : Token) : Parser Callee := do
  match (← get).functions.lookup name.value, (← read).builtins with
  -- a function of the program comes before a builtin of the same name
  | some number, _ => return .function number
  | none, none => return .builtin
  | none, some known =>
    if name.value ∈ known then return .builtin else fail (.unknownFunction name.value) name.span

/-- Read a call: a name and its arguments. -/
def call (factor : Parser Node) : Parser Node := do
  let name ← advance
  discard (expect .leftParen)
  let args ← manyUntil (· = .rightParen) (do
    let arg ← expression factor
    optionalComma
    return arg)
  discard advance
  let span ← spanFrom name
  -- the name is looked up last, behind the arguments
  return .call span name.value (← resolve name) args

/-- Read a name as the use of a variable. -/
def nameUse : Parser Node := do
  let name ← expect .name
  return .use name.span name.value

/-- Read a number. -/
def numeral : Parser Node := do
  let t ← advance
  match t.value.readInt32 with
  | some value => return .number t.span value
  | none => fail (.numberRange t.value) t.span

/-- Read a factor nested in at most `n` others. -/
def factor : Nat → Parser Node
  | 0 => nameUse
  | n + 1 => do
    let t ← current
    match t.kind with
    | .plus | .minus =>
      discard advance
      let operand ← factor n
      return .sign (t.span.through operand.span) (.ofSymbol t.value) operand
    | .number => numeral
    | .string =>
      discard advance
      return .str t.span t.value
    | .bool =>
      discard advance
      return .bool t.span (t.value == "true")
    | .leftParen =>
      discard advance
      let inner ← expression (factor n)
      discard (expect .rightParen)
      return inner
    | .call => call (factor n)
    | _ => nameUse

/-- Read an expression at the current token. -/
def anyExpression : Parser Node := do expression (factor (← remaining))

/-- Read a term at the current token. -/
def anyTerm : Parser Node := do term (factor (← remaining))

/-- Read a call at the current token. -/
def anyCall : Parser Node := do call (factor (← remaining))

/-! ## Statements -/

/-- The type a keyword declares. -/
def typeOf : Token.Kind → VarType
  | .stringType => .string
  | .boolType => .bool
  | _ => .int

/-- Read a declaration, with or without an initial value. -/
def declaration : Parser Node := do
  let type ← advance
  let name ← expect .name
  if (← peek) = .assign then
    discard advance
    let value ← anyExpression
    return .declareAs (← spanFrom type) name.value (typeOf type.kind) value
  else return .declare (← spanFrom type) name.value (typeOf type.kind)

/-- Read an assignment. -/
def assignment : Parser Node := do
  let name ← expect .name
  discard (expect .assign)
  let value ← anyExpression
  return .assign (← spanFrom name) name.value value

/-- Where a statement stands: the start of the block around it and how deep that block is nested. -/
structure Place where
  opening : Pos
  depth : Nat

/-- The place of everything at the top of a program. -/
def Place.top : Place := ⟨.first, 0⟩

/-- Read a braced statement list. -/
def block (statement : Place → Parser Node) (place : Place) : Parser (Braces × List Node) := do
  let opening ← expect .leftBrace
  let body ← manyUntil (fun k => k = .rightBrace ∨ k = .endOfFile)
    (statement ⟨opening.span.start, place.depth + 1⟩)
  discard (expect .rightBrace)
  return (⟨← spanFrom opening, some place.opening, place.depth + 1⟩, body)

/-- Read a parameter and the comma after it. -/
def parameter : Parser Param := do
  let t ← current
  if t.kind.isType then
    match ← declaration with
    | .declare span name type =>
      optionalComma
      return ⟨span, name, type⟩
    | other => fail .parameterValue other.span
  else fail (.parameter t) t.span

/-- Read a function. Its name can be called from what follows its closing brace. -/
def function (statement : Place → Parser Node) (place : Place) : Parser Function := do
  let start ← advance
  let name ← current
  if name.kind = .call then
    discard advance
    -- the number is taken before the body is read, and the name entered after it
    let number := (← get).begun
    if ((← get).functions.lookup name.value).isSome then
      fail (.functionExists name.value) name.span
    modify fun s => { s with begun := number + 1 }
    discard (expect .leftParen)
    let params ← manyUntil (· = .rightParen) parameter
    discard advance
    let (braces, body) ← block statement place
    modify fun s => { s with functions := (name.value, number) :: s.functions }
    return ⟨← spanFrom start, name.value, params, braces, body⟩
  else fail (.functionName name) name.span

/-- Read the condition in the parentheses of a header. -/
def condition : Parser Node := do
  discard (expect .leftParen)
  let cond ← anyExpression
  discard (expect .rightParen)
  return cond

/-- Read a conditional. -/
def conditional (statement : Place → Parser Node) (place : Place) : Parser Node := do
  let start ← advance
  let cond ← condition
  let (yesBraces, yes) ← block statement place
  if (← peek) = .else then
    discard advance
    let (noBraces, no) ← block statement place
    return .choose (← spanFrom start) cond yesBraces yes noBraces no
  else return .when (← spanFrom start) cond yesBraces yes

/-- Read a loop that runs while a condition holds. -/
def whileLoop (statement : Place → Parser Node) (place : Place) : Parser Node := do
  let start ← advance
  let cond ← condition
  let (braces, body) ← block statement place
  return .whileLoop (← spanFrom start) cond braces body

/-- Read what a counting loop begins with. -/
def loopStart : Parser Node := do
  let t ← current
  if t.kind.isType then declaration
  else if t.kind = .name then assignment
  else fail (.forHeader t) t.span

/-- Read the condition of a counting loop, which must be a comparison. -/
def loopCondition : Parser Node := do
  let cond ← anyTerm
  if cond.isComparison then return cond else fail (.forCondition cond.kind) cond.span

/-- Read a counting loop. -/
def forLoop (statement : Place → Parser Node) (place : Place) : Parser Node := do
  let start ← advance
  discard (expect .leftParen)
  let init ← loopStart
  discard (expect .semicolon)
  let cond ← loopCondition
  discard (expect .semicolon)
  let step ← assignment
  discard (expect .rightParen)
  let (braces, body) ← block statement place
  return .forLoop (← spanFrom start) init cond step braces body

/-- Pass over the current token. -/
def passOver : Parser Node := do
  let t ← advance
  return .skip t.span t.value

/-- Read a statement with at most `n` blocks in one another. -/
def statement : Nat → Place → Parser Node
  | 0, _ => passOver
  | n + 1, place => do
    match ← peek with
    | .func => return (← function (statement n) place).node
    | .intType | .stringType | .boolType => declaration
    | .name => assignment
    | .call => anyCall
    | .if => conditional (statement n) place
    | .while => whileLoop (statement n) place
    | .for => forLoop (statement n) place
    | _ => passOver

/-! ## Programs -/

/-- Read declarations as long as there are any, at most `n`. -/
def globalsFrom : Nat → List Node → Parser (List Node)
  | 0, globals => return globals.reverse
  | n + 1, globals => do
    if (← peek).isType then globalsFrom n ((← declaration) :: globals) else return globals.reverse

/-- Read functions as long as there are any, at most `n`. -/
def functionsFrom : Nat → List Function → Parser (List Function)
  | 0, functions => return functions.reverse
  | n + 1, functions => do
    if (← peek) = .func then
      let f ← function (statement (← remaining)) .top
      functionsFrom n (f :: functions)
    else return functions.reverse

/-- Read a program: declarations, then functions, then the end of the file. -/
def program : Parser Program := do
  guardEnding (← get).tokens
  let globals ← globalsFrom (← remaining) []
  let functions ← functionsFrom (← remaining) []
  let eof ← expect .endOfFile
  return ⟨⟨(← read).file, .first, eof.span.stop⟩, globals, functions⟩

end Parser

/-- Parse scanned tokens. -/
def parseScanned (file : Text) (builtins : Option (List Text)) (s : Scanned) :
    Except Parse.Error Program :=
  match Parser.program ⟨file, s.ending, builtins⟩ ⟨s.tokens, .first, [], 0⟩ with
  | .ok (p, _) => .ok p
  | .error e => .error e

/-- Parse a source. If the names of the builtins are given, a call of anything else is a fault. -/
def parse (file source : Text) (builtins : Option (List Text) := none) : Except Parse.Error Program :=
  parseScanned file builtins (scan file source)

end ScriptKit
