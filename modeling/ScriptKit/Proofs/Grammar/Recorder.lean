import ScriptKit.Proofs.Grammar.Steps

/-!
# The parser that records its faults

`parse` stops at the first fault. Here the parser is described as one that goes on: it pulls its tokens from a cursor,
one ahead, and records its faults. A fault of the scanner does not stop it. It then goes on with a token that stands
for the end of the file, takes no more tokens and records no more faults. Only a parser that refuses a token gives up,
and so does every parser that has called it.

`Plan` is what a parser has to do, with factors and statements as instructions of their own (`Plan.factorBody`,
`Plan.statementBody`), since these lead back to themselves, and with loops that are repeated without a bound. `Runs`
says how a plan comes to an end from a `Desk`: with a result, or with none if it has given up. A plan that goes on
for ever comes to no end.

**Theorem (`Runs.unique`).** A plan comes to one end at most.

**Theorem (`Runs.settled`).** What has been recorded once stays as it is.

**Theorem (`Runs.recorded`).** A plan gives up only with one fault recorded.
-/

namespace ScriptKit.Recorder

open Parse ScriptKit.Parser

variable {α β : Type}

/-! ## Desks -/

/-- Where a recording parser stands. -/
structure Desk where
  /-- Where the token after the current one is scanned. -/
  cursor : Cursor
  current : Token
  /-- Where the token taken last ends. -/
  prev : Pos
  /-- The functions read to their closing brace, with their numbers, the last one first. -/
  functions : List (Text × Nat)
  /-- How many functions have begun. -/
  begun : Nat
  /-- The faults recorded so far. -/
  faults : List Error

namespace Desk

/-- The desk before the first token. The end of the file stands for it. -/
def start (file source : Text) : Desk :=
  ⟨.start source, ⟨.endOfFile, [], ⟨file, .first, .first⟩⟩, .first, [], 0, []⟩

/-- Record a fault, unless one has been recorded. -/
def record (d : Desk) (e : Error) : Desk := if d.faults.isEmpty then { d with faults := d.faults ++ [e] } else d

/-- Take the current token, unless a fault has been recorded. If the next token cannot be scanned, this is recorded,
and the end of the file stands for it. -/
def advance (file : Text) (d : Desk) : Desk :=
  if d.faults.isEmpty then
    match d.cursor.next file with
    | (.ok t, c) => { d with cursor := c, current := t, prev := d.current.span.stop }
    | (.error e, c) =>
      { d with
        cursor := c
        current := ⟨.endOfFile, [], d.current.span⟩
        prev := d.current.span.stop
        faults := d.faults ++ [scanError file e] }
  else d

/-- Note that the function of a number has begun. -/
def begin (d : Desk) (number : Nat) : Desk := { d with begun := number + 1 }

/-- Note that the function of a name and a number has been read. -/
def register (d : Desk) (name : Text) (number : Nat) : Desk := { d with functions := (name, number) :: d.functions }

end Desk

/-! ## Plans -/

/-- What a recording parser has to do. -/
inductive Plan : Type → Type 1
  /-- Look at the desk. -/
  | see {α : Type} (f : Desk → α) : Plan α
  | begin (number : Nat) : Plan Unit
  | register (name : Text) (number : Nat) : Plan Unit
  | advance : Plan Token
  /-- Record a fault and give up. -/
  | refuse {α : Type} (fault : Fault) (span : Span) : Plan α
  | bind {α β : Type} (x : Plan α) (f : α → Plan β) : Plan β
  /-- Repeat a turn, which says with what to go on or with what to stop. -/
  | loop {α β : Type} (turn : α → Plan (α ⊕ β)) (a : α) : Plan β
  | factor : Plan Node
  | statement (place : Parser.Place) : Plan Node

namespace Plan

instance : Monad Plan where
  pure a := .see fun _ => a
  bind := .bind

/-- The current token. -/
def current : Plan Token := .see Desk.current

/-- The kind of the current token. -/
def peek : Plan Token.Kind := .see fun d => d.current.kind

/-- Take the current token, which must be of a given kind. -/
def expect (kind : Token.Kind) : Plan Token := do
  let t ← current
  if t.kind = kind then advance else refuse (.expected kind t) t.span

/-- The span from the start of a token to the end of the token taken last. -/
def spanFrom (start : Token) : Plan Span := .see fun d => start.span.upTo d.prev

/-- Take the current token if it is a comma. -/
def optionalComma : Plan Unit := do
  if (← peek) = .comma then discard advance

/-- A turn of reading items, the latest first. -/
def itemsTurn (stop : Token.Kind → Bool) (item : Plan α) (items : List α) : Plan (List α ⊕ List α) := do
  if stop (← peek) then return .inr items.reverse
  else return .inl ((← item) :: items)

/-- Read items until the current token is one of those `stop` names. -/
def manyUntil (stop : Token.Kind → Bool) (item : Plan α) : Plan (List α) := .loop (itemsTurn stop item) []

/-! ### Expressions -/

/-- A turn of reading the factors after `left`. -/
def termTurn (left : Node) : Plan (Node ⊕ Node) := do
  let kind ← peek
  if kind = .star ∨ kind = .slash then
    let op ← advance
    let right ← factor
    return .inl (.arith (left.span.through right.span) left (.ofSymbol op.value) right)
  else if kind.isComparison then
    let op ← advance
    let right ← factor
    return .inr (.compare (left.span.through right.span) left (.ofSymbol op.value) right)
  else return .inr left

/-- Read a term. -/
def term : Plan Node := do
  let left ← factor
  .loop termTurn left

/-- A turn of reading the terms after `left`. -/
def expressionTurn (left : Node) : Plan (Node ⊕ Node) := do
  let kind ← peek
  if kind = .plus ∨ kind = .minus then
    let op ← advance
    let right ← term
    return .inl (.arith (left.span.through right.span) left (.ofSymbol op.value) right)
  else return .inr left

/-- Read an expression. -/
def expression : Plan Node := do
  let left ← term
  .loop expressionTurn left

/-- The callee of a call by name. -/
def resolve (builtins : Option (List Text)) (name : Token) : Plan Callee := do
  match (← see Desk.functions).lookup name.value, builtins with
  | some number, _ => return .function number
  | none, none => return .builtin
  | none, some known =>
    if known.contains name.value then return .builtin else refuse (.unknownFunction name.value) name.span

/-- Read an argument and the comma after it. -/
def argument : Plan Node := do
  let arg ← expression
  optionalComma
  return arg

/-- Read a call: a name and its arguments. -/
def call (builtins : Option (List Text)) : Plan Node := do
  let name ← advance
  discard (expect .leftParen)
  let args ← manyUntil (· = .rightParen) argument
  discard advance
  let span ← spanFrom name
  return .call span name.value (← resolve builtins name) args

/-- Read a name as the use of a variable. -/
def nameUse : Plan Node := do
  let name ← expect .name
  return .use name.span name.value

/-- Read a number. -/
def numeral : Plan Node := do
  let t ← advance
  match t.value.readInt32 with
  | some value => return .number t.span value
  | none => refuse (.numberRange t.value) t.span

/-- What has to be done to read a factor. -/
def factorBody (builtins : Option (List Text)) : Plan Node := do
  let t ← current
  match t.kind with
  | .plus | .minus =>
    discard advance
    let operand ← factor
    return .sign (t.span.through operand.span) (.ofSymbol t.value) operand
  | .number => numeral
  | .string =>
    discard advance
    return .str t.span t.value
  | .bool =>
    discard advance
    return .bool t.span (t.value == "true")
  | .leftParen =>
    discard advance
    let inner ← expression
    discard (expect .rightParen)
    return inner
  | .call => call builtins
  | _ => nameUse

/-! ### Statements -/

/-- Read a declaration, with or without an initial value. -/
def declaration : Plan Node := do
  let type ← advance
  let name ← expect .name
  if (← peek) = .assign then
    discard advance
    let value ← expression
    return .declareAs (← spanFrom type) name.value (typeOf type.kind) value
  else return .declare (← spanFrom type) name.value (typeOf type.kind)

/-- Read an assignment. -/
def assignment : Plan Node := do
  let name ← expect .name
  discard (expect .assign)
  let value ← expression
  return .assign (← spanFrom name) name.value value

/-- Read a braced statement list. -/
def block (place : Parser.Place) : Plan (Braces × List Node) := do
  let opening ← expect .leftBrace
  let body ← manyUntil (fun k => k = .rightBrace ∨ k = .endOfFile)
    (statement ⟨opening.span.start, place.depth + 1⟩)
  discard (expect .rightBrace)
  return (⟨← spanFrom opening, some place.opening, place.depth + 1⟩, body)

/-- Read a parameter and the comma after it. -/
def parameter : Plan Param := do
  let t ← current
  if t.kind.isType then
    match ← declaration with
    | .declare span name type =>
      optionalComma
      return ⟨span, name, type⟩
    | other => refuse .parameterValue other.span
  else refuse (.parameter t) t.span

/-- Read a function. Its name can be called from what follows its closing brace. -/
def function (place : Parser.Place) : Plan Function := do
  let start ← advance
  let name ← current
  if name.kind = .call then
    discard advance
    let number ← see Desk.begun
    if ((← see Desk.functions).lookup name.value).isSome then
      refuse (.functionExists name.value) name.span
    begin number
    discard (expect .leftParen)
    let params ← manyUntil (· = .rightParen) parameter
    discard advance
    let (braces, body) ← block place
    register name.value number
    return ⟨← spanFrom start, name.value, params, braces, body⟩
  else refuse (.functionName name) name.span

/-- Read the condition in the parentheses of a header. -/
def condition : Plan Node := do
  discard (expect .leftParen)
  let cond ← expression
  discard (expect .rightParen)
  return cond

/-- Read a conditional. -/
def conditional (place : Parser.Place) : Plan Node := do
  let start ← advance
  let cond ← condition
  let (yesBraces, yes) ← block place
  if (← peek) = .else then
    discard advance
    let (noBraces, no) ← block place
    return .choose (← spanFrom start) cond yesBraces yes noBraces no
  else return .when (← spanFrom start) cond yesBraces yes

/-- Read a loop that runs while a condition holds. -/
def whileLoop (place : Parser.Place) : Plan Node := do
  let start ← advance
  let cond ← condition
  let (braces, body) ← block place
  return .whileLoop (← spanFrom start) cond braces body

/-- Read what a counting loop begins with. -/
def loopStart : Plan Node := do
  let t ← current
  if t.kind.isType then declaration
  else if t.kind = .name then assignment
  else refuse (.forHeader t) t.span

/-- Read the condition of a counting loop, which must be a comparison. -/
def loopCondition : Plan Node := do
  let cond ← term
  if cond.isComparison then return cond else refuse (.forCondition cond.kind) cond.span

/-- Read a counting loop. -/
def forLoop (place : Parser.Place) : Plan Node := do
  let start ← advance
  discard (expect .leftParen)
  let init ← loopStart
  discard (expect .semicolon)
  let cond ← loopCondition
  discard (expect .semicolon)
  let step ← assignment
  discard (expect .rightParen)
  let (braces, body) ← block place
  return .forLoop (← spanFrom start) init cond step braces body

/-- Pass over the current token. -/
def passOver : Plan Node := do
  let t ← advance
  return .skip t.span t.value

/-- What has to be done to read a statement. -/
def statementBody (builtins : Option (List Text)) (place : Parser.Place) : Plan Node := do
  match ← peek with
  | .func => return (← function place).node
  | .intType | .stringType | .boolType => declaration
  | .name => assignment
  | .call => call builtins
  | .if => conditional place
  | .while => whileLoop place
  | .for => forLoop place
  | _ => passOver

/-! ### Programs -/

/-- A turn of reading declarations, the latest first. -/
def globalsTurn (globals : List Node) : Plan (List Node ⊕ List Node) := do
  if (← peek).isType then return .inl ((← declaration) :: globals) else return .inr globals.reverse

/-- A turn of reading functions, the latest first. -/
def functionsTurn (functions : List Function) : Plan (List Function ⊕ List Function) := do
  if (← peek) = .func then return .inl ((← function .top) :: functions) else return .inr functions.reverse

/-- Take the end of the file. The token after it is given. -/
def fileEnd : Plan Token := do
  discard (expect .endOfFile)
  current

/-- Read a program: declarations, then functions, then the end of the file. -/
def program (file : Text) : Plan Program := do
  let globals ← .loop globalsTurn []
  let functions ← .loop functionsTurn []
  let eof ← fileEnd
  return ⟨⟨file, .first, eof.span.stop⟩, globals, functions⟩

/-- Scan the first token and read a program. -/
def start (file : Text) : Plan Program := do
  discard advance
  program file

end Plan

/-- What is handed out in the end: the program, unless a fault has been recorded. -/
def verdict (o : Option Program) (d : Desk) : Option Program × List Diagnostic :=
  if d.faults.isEmpty then (o, []) else (none, d.faults.map Error.diagnostic)

/-! ## Runs -/

section Runs

variable (file : Text) (builtins : Option (List Text))

/-- A plan leads from a desk to a result and another desk, or gives up there. -/
inductive Runs : {α : Type} → Plan α → Desk → Option α → Desk → Prop
  | see {α : Type} {f : Desk → α} {d : Desk} : Runs (.see f) d (some (f d)) d
  | begin {number : Nat} {d : Desk} : Runs (.begin number) d (some ()) (d.begin number)
  | register {name : Text} {number : Nat} {d : Desk} :
      Runs (.register name number) d (some ()) (d.register name number)
  | advance {d : Desk} : Runs .advance d (some d.current) (d.advance file)
  | refuse {α : Type} {fault : Fault} {span : Span} {d : Desk} :
      Runs (.refuse fault span : Plan α) d none (d.record ⟨fault, span⟩)
  | bindSome {α β : Type} {x : Plan α} {f : α → Plan β} {a : α} {o : Option β} {d d₁ d' : Desk} :
      Runs x d (some a) d₁ → Runs (f a) d₁ o d' → Runs (.bind x f) d o d'
  | bindNone {α β : Type} {x : Plan α} {f : α → Plan β} {d d' : Desk} :
      Runs x d none d' → Runs (.bind x f) d none d'
  | loopAgain {α β : Type} {turn : α → Plan (α ⊕ β)} {a a' : α} {o : Option β} {d d₁ d' : Desk} :
      Runs (turn a) d (some (.inl a')) d₁ → Runs (.loop turn a') d₁ o d' → Runs (.loop turn a) d o d'
  | loopDone {α β : Type} {turn : α → Plan (α ⊕ β)} {a : α} {b : β} {d d' : Desk} :
      Runs (turn a) d (some (.inr b)) d' → Runs (.loop turn a) d (some b) d'
  | loopNone {α β : Type} {turn : α → Plan (α ⊕ β)} {a : α} {d d' : Desk} :
      Runs (turn a) d none d' → Runs (.loop turn a) d none d'
  | factor {o : Option Node} {d d' : Desk} : Runs (Plan.factorBody builtins) d o d' → Runs .factor d o d'
  | statement {place : Parser.Place} {o : Option Node} {d d' : Desk} :
      Runs (Plan.statementBody builtins place) d o d' → Runs (.statement place) d o d'

/-- How a plan can come to an end, by its form. -/
def Plan.Ends : {α : Type} → Plan α → Desk → Option α → Desk → Prop
  | _, .see f, d, o, d' => o = some (f d) ∧ d' = d
  | _, .begin number, d, o, d' => o = some () ∧ d' = d.begin number
  | _, .register name number, d, o, d' => o = some () ∧ d' = d.register name number
  | _, .advance, d, o, d' => o = some d.current ∧ d' = d.advance file
  | _, .refuse fault span, d, o, d' => o = none ∧ d' = d.record ⟨fault, span⟩
  | _, .bind x f, d, o, d' =>
    (∃ a d₁, Runs file builtins x d (some a) d₁ ∧ Runs file builtins (f a) d₁ o d') ∨
      Runs file builtins x d none d' ∧ o = none
  | _, .loop turn a, d, o, d' =>
    (∃ a' d₁, Runs file builtins (turn a) d (some (.inl a')) d₁ ∧ Runs file builtins (.loop turn a') d₁ o d') ∨
      (∃ b, Runs file builtins (turn a) d (some (.inr b)) d' ∧ o = some b) ∨
      Runs file builtins (turn a) d none d' ∧ o = none
  | _, .factor, d, o, d' => Runs file builtins (Plan.factorBody builtins) d o d'
  | _, .statement place, d, o, d' => Runs file builtins (Plan.statementBody builtins place) d o d'

end Runs

namespace Runs

variable {file : Text} {builtins : Option (List Text)} {c : Plan α} {d d' d'' : Desk} {o o' : Option α}

theorem ends (h : Runs file builtins c d o d') : c.Ends file builtins d o d' := by
  cases h with
  | see => exact ⟨rfl, rfl⟩
  | begin => exact ⟨rfl, rfl⟩
  | register => exact ⟨rfl, rfl⟩
  | advance => exact ⟨rfl, rfl⟩
  | refuse => exact ⟨rfl, rfl⟩
  | bindSome hx hf => exact Or.inl ⟨_, _, hx, hf⟩
  | bindNone hx => exact Or.inr ⟨hx, rfl⟩
  | loopAgain hturn hloop => exact Or.inl ⟨_, _, hturn, hloop⟩
  | loopDone hturn => exact Or.inr (Or.inl ⟨_, hturn, rfl⟩)
  | loopNone hturn => exact Or.inr (Or.inr ⟨hturn, rfl⟩)
  | factor h => exact h
  | statement h => exact h

/-- A plan comes to one end only. -/
theorem unique (h : Runs file builtins c d o d') (h' : Runs file builtins c d o' d'') : o' = o ∧ d'' = d' := by
  -- As for the machine, `h'.ends` lists the ways in which the other run can end, and the part the two share
  -- excludes all but one.
  induction h generalizing d'' with
  | see => exact h'.ends
  | begin => exact h'.ends
  | register => exact h'.ends
  | advance => exact h'.ends
  | refuse => exact h'.ends
  | bindSome _ _ ih ih' =>
    rcases h'.ends with ⟨a, d₁, hx, hf⟩ | ⟨hx, -⟩
    · obtain ⟨hsome, rfl⟩ := ih hx
      cases hsome
      exact ih' hf
    · cases (ih hx).1
  | bindNone _ ih =>
    rcases h'.ends with ⟨a, d₁, hx, -⟩ | ⟨hx, rfl⟩
    · cases (ih hx).1
    · exact ⟨rfl, (ih hx).2⟩
  | loopAgain _ _ ih ih' =>
    rcases h'.ends with ⟨a, d₁, hturn, hloop⟩ | ⟨b, hturn, -⟩ | ⟨hturn, -⟩
    · obtain ⟨hsome, rfl⟩ := ih hturn
      cases hsome
      exact ih' hloop
    · cases (ih hturn).1
    · cases (ih hturn).1
  | loopDone _ ih =>
    rcases h'.ends with ⟨a, d₁, hturn, -⟩ | ⟨b, hturn, rfl⟩ | ⟨hturn, -⟩
    · cases (ih hturn).1
    · obtain ⟨hsome, rfl⟩ := ih hturn
      cases hsome
      exact ⟨rfl, rfl⟩
    · cases (ih hturn).1
  | loopNone _ ih =>
    rcases h'.ends with ⟨a, d₁, hturn, -⟩ | ⟨b, hturn, -⟩ | ⟨hturn, rfl⟩
    · cases (ih hturn).1
    · cases (ih hturn).1
    · exact ⟨rfl, (ih hturn).2⟩
  | factor _ ih => exact ih h'.ends
  | statement _ ih => exact ih h'.ends

/-! ### Faults -/

theorem record_settled {e : Error} (h : d.faults ≠ []) : d.record e = d := by
  simp [Desk.record, h]

theorem advance_settled (h : d.faults ≠ []) : d.advance file = d := by
  simp [Desk.advance, h]

/-- What has been recorded once stays as it is. -/
theorem settled (h : Runs file builtins c d o d') (hd : d.faults ≠ []) : d'.faults = d.faults := by
  induction h with
  | see => rfl
  | begin => rfl
  | register => rfl
  | advance => rw [advance_settled hd]
  | refuse => rw [record_settled hd]
  | bindSome _ _ ih ih' =>
    have hfirst := ih hd
    exact (ih' (hfirst ▸ hd)).trans hfirst
  | bindNone _ ih => exact ih hd
  | loopAgain _ _ ih ih' =>
    have hfirst := ih hd
    exact (ih' (hfirst ▸ hd)).trans hfirst
  | loopDone _ ih => exact ih hd
  | loopNone _ ih => exact ih hd
  | factor _ ih => exact ih hd
  | statement _ ih => exact ih hd

/-- At most one fault is recorded, and a plan gives up only once there is one. -/
theorem recorded (h : Runs file builtins c d o d') (hd : d.faults.length ≤ 1) :
    d'.faults.length ≤ 1 ∧ (o = none → d'.faults.length = 1) := by
  induction h with
  | see => exact ⟨hd, fun h => by cases h⟩
  | begin => exact ⟨hd, fun h => by cases h⟩
  | register => exact ⟨hd, fun h => by cases h⟩
  | @advance d =>
    refine ⟨?_, fun h => by cases h⟩
    unfold Desk.advance
    split
    · next hnone =>
      have hnil := List.isEmpty_iff.1 hnone
      split
      · exact hd
      · simp [hnil]
    · exact hd
  | @refuse _ fault span d =>
    by_cases hnil : d.faults = []
    · simp [Desk.record, hnil]
    · rw [record_settled hnil]
      have hpos := List.length_pos_iff.2 hnil
      exact ⟨hd, fun _ => by omega⟩
  | bindSome _ _ ih ih' => exact ih' (ih hd).1
  | bindNone _ ih => exact ⟨(ih hd).1, fun _ => (ih hd).2 rfl⟩
  | loopAgain _ _ ih ih' => exact ih' (ih hd).1
  | loopDone _ ih => exact ⟨(ih hd).1, fun h => by cases h⟩
  | loopNone _ ih => exact ⟨(ih hd).1, fun _ => (ih hd).2 rfl⟩
  | factor _ ih => exact ih hd
  | statement _ ih => exact ih hd

end Runs

/-! ## What is come to on the way -/

section Reaches

variable (file : Text) (builtins : Option (List Text))

/-- A plan comes on its way from a desk to another plan at another desk. -/
inductive Reaches {β : Type} (c' : Plan β) (d' : Desk) : {α : Type} → Plan α → Desk → Prop
  | here : Reaches c' d' c' d'
  | first {α γ : Type} {x : Plan α} {f : α → Plan γ} {d : Desk} : Reaches c' d' x d → Reaches c' d' (.bind x f) d
  | next {α γ : Type} {x : Plan α} {f : α → Plan γ} {a : α} {d d₁ : Desk} :
      Runs file builtins x d (some a) d₁ → Reaches c' d' (f a) d₁ → Reaches c' d' (.bind x f) d
  | turn {α γ : Type} {turn : α → Plan (α ⊕ γ)} {a : α} {d : Desk} :
      Reaches c' d' (turn a) d → Reaches c' d' (.loop turn a) d
  | again {α γ : Type} {turn : α → Plan (α ⊕ γ)} {a a' : α} {d d₁ : Desk} :
      Runs file builtins (turn a) d (some (.inl a')) d₁ → Reaches c' d' (.loop turn a') d₁ →
      Reaches c' d' (.loop turn a) d
  | factor {d : Desk} : Reaches c' d' (Plan.factorBody builtins) d → Reaches c' d' .factor d
  | statement {place : Parser.Place} {d : Desk} :
      Reaches c' d' (Plan.statementBody builtins place) d → Reaches c' d' (.statement place) d

end Reaches

/-- At most one fault is recorded on the way. -/
theorem Reaches.recorded {file : Text} {builtins : Option (List Text)} {c : Plan α} {c' : Plan β} {d d' : Desk}
    (h : Reaches file builtins c' d' c d) (hd : d.faults.length ≤ 1) : d'.faults.length ≤ 1 := by
  induction h with
  | here => exact hd
  | first _ ih => exact ih hd
  | next hx _ ih => exact ih (hx.recorded hd).1
  | turn _ ih => exact ih hd
  | again hturn _ ih => exact ih (hturn.recorded hd).1
  | factor _ ih => exact ih hd
  | statement _ ih => exact ih hd

/-- What a plan on the way has recorded is what there is in the end. -/
theorem Reaches.settled {file : Text} {builtins : Option (List Text)} {c : Plan α} {c' : Plan β} {o : Option α}
    {o' : Option β} {d d' e e' : Desk} (h : Reaches file builtins c' d' c d) (hrun : Runs file builtins c d o e)
    (hrun' : Runs file builtins c' d' o' e') (hfaults : e'.faults ≠ []) : e.faults = e'.faults := by
  induction h generalizing e with
  | here => rw [(hrun.unique hrun').2]
  | first _ ih =>
    rcases hrun.ends with ⟨a, d₁, hx, hf⟩ | ⟨hx, -⟩
    · have hfirst := ih hx
      exact (hf.settled (hfirst ▸ hfaults)).trans hfirst
    · exact ih hx
  | next hx _ ih =>
    rcases hrun.ends with ⟨a, d₁, hx', hf⟩ | ⟨hx', -⟩
    · obtain ⟨hsome, rfl⟩ := hx.unique hx'
      cases hsome
      exact ih hf
    · cases (hx.unique hx').1
  | turn _ ih =>
    rcases hrun.ends with ⟨a', d₁, hturn, hloop⟩ | ⟨b, hturn, -⟩ | ⟨hturn, -⟩
    · have hfirst := ih hturn
      exact (hloop.settled (hfirst ▸ hfaults)).trans hfirst
    · exact ih hturn
    · exact ih hturn
  | again hturn _ ih =>
    rcases hrun.ends with ⟨a', d₁, hturn', hloop⟩ | ⟨b, hturn', -⟩ | ⟨hturn', -⟩
    · obtain ⟨hsome, rfl⟩ := hturn.unique hturn'
      cases hsome
      exact ih hloop
    · cases (hturn.unique hturn').1
    · cases (hturn.unique hturn').1
  | factor _ ih => exact ih hrun.ends
  | statement _ ih => exact ih hrun.ends

end ScriptKit.Recorder
