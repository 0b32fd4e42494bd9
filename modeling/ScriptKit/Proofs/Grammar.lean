import ScriptKit.Tree.Parse

/-!
# The grammar of programs

What the tokens of a program can be read as, said by rules. `Reads known φ s s'` holds if the tokens
between the states `s` and `s'` of a parser form the phrase `φ`: an expression, a statement, a list of
statements, and so on, each with the tree it is read as. A rule looks one token ahead where the
parser does, so that a phrase ends in one place only. Nothing is said here about how a parser finds
its way or how long it may take; `Reads` is shown elsewhere to hold of exactly what the parser accepts.

The rules speak of places in the same words as the parser: a node of several tokens runs from the start
of its first token to the end of the token taken last.
-/

namespace ScriptKit.Parse

/-! ## Taking tokens -/

namespace State

/-- The kind of the current token; where no token is left it is the end of the file. -/
def kind (s : State) : Token.Kind := (s.tokens.head?.map Token.kind).getD .endOfFile

/-- The state after the current token `t` is taken. -/
def after (s : State) (t : Token) : State := { s with tokens := s.tokens.tail, prev := t.span.stop }

/-- The state after a comma, if the current token is one. -/
def pastComma (s : State) : State :=
  match s.tokens.head? with
  | some t => if t.kind = .comma then s.after t else s
  | none => s

/-- The state after another function has begun. -/
def begin (s : State) : State := { s with begun := s.begun + 1 }

/-- The state after the function of a name and a number has been read. -/
def register (s : State) (name : Text) (number : Nat) : State :=
  { s with functions := (name, number) :: s.functions }

@[simp, grind =] theorem tokens_begin (s : State) : s.begin.tokens = s.tokens := rfl

@[simp, grind =] theorem tokens_register (s : State) (name : Text) (number : Nat) :
    (s.register name number).tokens = s.tokens := rfl

end State

/-- Taking the token `t`, which is of the kind `k`, leads from `s` to `s'`. -/
structure Takes (k : Token.Kind) (t : Token) (s s' : State) : Prop where
  head : s.tokens.head? = some t
  kind : t.kind = k
  next : s' = s.after t

/-! ## Calls -/

/-- The callee of a call by name where `functions` have been read. -/
def calleeOf (functions : List (Text × Nat)) (name : Text) : Callee :=
  match functions.lookup name with
  | some number => .function number
  | none => .builtin

/-- Whether a name may be called: it names a function, or a builtin that is known. -/
def Callable (known : Option (List Text)) (functions : List (Text × Nat)) (name : Text) : Prop :=
  functions.lookup name = none → ∀ names, known = some names → name ∈ names

/-! ## Phrases -/

/-- Whether a kind of token begins a statement; any other token is a statement of its own. -/
def opensStatement : Token.Kind → Bool
  | .func | .intType | .stringType | .boolType | .name | .call | .if | .while | .for => true
  | _ => false

/-- What a stretch of tokens is read as. A rest continues the tree `left` that was read before it. -/
inductive Phrase where
  | factor (n : Node)
  | termRest (left n : Node)
  | term (n : Node)
  | exprRest (left n : Node)
  | expr (n : Node)
  | args (ns : List Node)
  | call (n : Node)
  | declaration (n : Node)
  | assignment (n : Node)
  | params (ps : List Param)
  | condition (n : Node)
  | loopStart (n : Node)
  | block (place : Parser.Place) (braces : Braces) (ns : List Node)
  | function (place : Parser.Place) (f : Function)
  | stmt (place : Parser.Place) (n : Node)
  | stmts (place : Parser.Place) (ns : List Node)
  | globals (ns : List Node)
  | functions (fs : List Function)

/-- The tokens between two states form a phrase. -/
inductive Reads (known : Option (List Text)) : Phrase → State → State → Prop
  | sign {k : Token.Kind} {t : Token} {n : Node} {s s₁ s' : State} :
      Takes k t s s₁ → k = .plus ∨ k = .minus → Reads known (.factor n) s₁ s' →
      Reads known (.factor (.sign (t.span.through n.span) (.ofSymbol t.value) n)) s s'
  | number {t : Token} {v : Int32} {s s' : State} :
      Takes .number t s s' → t.value.readInt32 = some v →
      Reads known (.factor (.number t.span v)) s s'
  | str {t : Token} {s s' : State} :
      Takes .string t s s' → Reads known (.factor (.str t.span t.value)) s s'
  | bool {t : Token} {s s' : State} :
      Takes .bool t s s' → Reads known (.factor (.bool t.span (t.value == "true"))) s s'
  | paren {t t' : Token} {n : Node} {s s₁ s₂ s' : State} :
      Takes .leftParen t s s₁ → Reads known (.expr n) s₁ s₂ → Takes .rightParen t' s₂ s' →
      Reads known (.factor n) s s'
  | called {n : Node} {s s' : State} : Reads known (.call n) s s' → Reads known (.factor n) s s'
  | use {t : Token} {s s' : State} :
      Takes .name t s s' → Reads known (.factor (.use t.span t.value)) s s'
  | termStop {left : Node} {s : State} :
      s.kind ≠ .star → s.kind ≠ .slash → s.kind.isComparison = false →
      Reads known (.termRest left left) s s
  | times {k : Token.Kind} {t : Token} {left right n : Node} {s s₁ s₂ s' : State} :
      Takes k t s s₁ → k = .star ∨ k = .slash → Reads known (.factor right) s₁ s₂ →
      Reads known
        (.termRest (.arith (left.span.through right.span) left (.ofSymbol t.value) right) n) s₂ s' →
      Reads known (.termRest left n) s s'
  | compare {k : Token.Kind} {t : Token} {left right : Node} {s s₁ s' : State} :
      Takes k t s s₁ → k.isComparison = true → Reads known (.factor right) s₁ s' →
      Reads known
        (.termRest left (.compare (left.span.through right.span) left (.ofSymbol t.value) right)) s s'
  | term {left n : Node} {s s₁ s' : State} :
      Reads known (.factor left) s s₁ → Reads known (.termRest left n) s₁ s' →
      Reads known (.term n) s s'
  | exprStop {left : Node} {s : State} :
      s.kind ≠ .plus → s.kind ≠ .minus → Reads known (.exprRest left left) s s
  | plus {k : Token.Kind} {t : Token} {left right n : Node} {s s₁ s₂ s' : State} :
      Takes k t s s₁ → k = .plus ∨ k = .minus → Reads known (.term right) s₁ s₂ →
      Reads known
        (.exprRest (.arith (left.span.through right.span) left (.ofSymbol t.value) right) n) s₂ s' →
      Reads known (.exprRest left n) s s'
  | expr {left n : Node} {s s₁ s' : State} :
      Reads known (.term left) s s₁ → Reads known (.exprRest left n) s₁ s' →
      Reads known (.expr n) s s'
  | argsNil {s : State} : s.kind = .rightParen → Reads known (.args []) s s
  | argsCons {n : Node} {ns : List Node} {s s₁ s' : State} :
      s.kind ≠ .rightParen → Reads known (.expr n) s s₁ → Reads known (.args ns) s₁.pastComma s' →
      Reads known (.args (n :: ns)) s s'
  | call {t l r : Token} {args : List Node} {s s₁ s₂ s₃ s' : State} :
      Takes .call t s s₁ → Takes .leftParen l s₁ s₂ → Reads known (.args args) s₂ s₃ →
      Takes .rightParen r s₃ s' → Callable known s'.functions t.value →
      Reads known
        (.call (.call (t.span.upTo r.span.stop) t.value (calleeOf s'.functions t.value) args)) s s'
  | declare {k : Token.Kind} {t name : Token} {s s₁ s' : State} :
      Takes k t s s₁ → k.isType = true → Takes .name name s₁ s' → s'.kind ≠ .assign →
      Reads known
        (.declaration (.declare (t.span.upTo name.span.stop) name.value (Parser.typeOf k))) s s'
  | declareAs {k : Token.Kind} {t name eq : Token} {value : Node} {s s₁ s₂ s₃ s' : State} :
      Takes k t s s₁ → k.isType = true → Takes .name name s₁ s₂ → Takes .assign eq s₂ s₃ →
      Reads known (.expr value) s₃ s' →
      Reads known
        (.declaration (.declareAs (t.span.upTo s'.prev) name.value (Parser.typeOf k) value)) s s'
  | assign {name eq : Token} {value : Node} {s s₁ s₂ s' : State} :
      Takes .name name s s₁ → Takes .assign eq s₁ s₂ → Reads known (.expr value) s₂ s' →
      Reads known (.assignment (.assign (name.span.upTo s'.prev) name.value value)) s s'
  | paramsNil {s : State} : s.kind = .rightParen → Reads known (.params []) s s
  | paramsCons {span : Span} {name : Text} {type : VarType} {ps : List Param} {s s₁ s' : State} :
      Reads known (.declaration (.declare span name type)) s s₁ →
      Reads known (.params ps) s₁.pastComma s' →
      Reads known (.params (⟨span, name, type⟩ :: ps)) s s'
  | condition {l r : Token} {n : Node} {s s₁ s₂ s' : State} :
      Takes .leftParen l s s₁ → Reads known (.expr n) s₁ s₂ → Takes .rightParen r s₂ s' →
      Reads known (.condition n) s s'
  | startDeclaration {n : Node} {s s' : State} :
      Reads known (.declaration n) s s' → Reads known (.loopStart n) s s'
  | startAssignment {n : Node} {s s' : State} :
      Reads known (.assignment n) s s' → Reads known (.loopStart n) s s'
  | block {place : Parser.Place} {l r : Token} {ns : List Node} {s s₁ s₂ s' : State} :
      Takes .leftBrace l s s₁ → Reads known (.stmts ⟨l.span.start, place.depth + 1⟩ ns) s₁ s₂ →
      Takes .rightBrace r s₂ s' →
      Reads known
        (.block place ⟨l.span.upTo r.span.stop, some place.opening, place.depth + 1⟩ ns) s s'
  | function {place : Parser.Place} {t name l r : Token} {ps : List Param} {braces : Braces}
      {body : List Node} {s s₁ s₂ s₃ s₄ s₅ s' : State} :
      Takes .func t s s₁ → Takes .call name s₁ s₂ → s.functions.lookup name.value = none →
      Takes .leftParen l s₂.begin s₃ → Reads known (.params ps) s₃ s₄ →
      Takes .rightParen r s₄ s₅ → Reads known (.block place braces body) s₅ s' →
      Reads known (.function place ⟨t.span.upTo s'.prev, name.value, ps, braces, body⟩) s
        (s'.register name.value s.begun)
  | stmtFunction {place : Parser.Place} {f : Function} {s s' : State} :
      Reads known (.function place f) s s' → Reads known (.stmt place f.node) s s'
  | stmtDeclaration {place : Parser.Place} {n : Node} {s s' : State} :
      Reads known (.declaration n) s s' → Reads known (.stmt place n) s s'
  | stmtAssignment {place : Parser.Place} {n : Node} {s s' : State} :
      Reads known (.assignment n) s s' → Reads known (.stmt place n) s s'
  | stmtCall {place : Parser.Place} {n : Node} {s s' : State} :
      Reads known (.call n) s s' → Reads known (.stmt place n) s s'
  | when {place : Parser.Place} {t : Token} {cond : Node} {braces : Braces} {yes : List Node}
      {s s₁ s₂ s' : State} :
      Takes .if t s s₁ → Reads known (.condition cond) s₁ s₂ →
      Reads known (.block place braces yes) s₂ s' → s'.kind ≠ .else →
      Reads known (.stmt place (.when (t.span.upTo s'.prev) cond braces yes)) s s'
  | choose {place : Parser.Place} {t e : Token} {cond : Node} {braces braces' : Braces}
      {yes no : List Node} {s s₁ s₂ s₃ s₄ s' : State} :
      Takes .if t s s₁ → Reads known (.condition cond) s₁ s₂ →
      Reads known (.block place braces yes) s₂ s₃ → Takes .else e s₃ s₄ →
      Reads known (.block place braces' no) s₄ s' →
      Reads known (.stmt place (.choose (t.span.upTo s'.prev) cond braces yes braces' no)) s s'
  | whileLoop {place : Parser.Place} {t : Token} {cond : Node} {braces : Braces} {body : List Node}
      {s s₁ s₂ s' : State} :
      Takes .while t s s₁ → Reads known (.condition cond) s₁ s₂ →
      Reads known (.block place braces body) s₂ s' →
      Reads known (.stmt place (.whileLoop (t.span.upTo s'.prev) cond braces body)) s s'
  | forLoop {place : Parser.Place} {t l c c' r : Token} {init cond step : Node} {braces : Braces}
      {body : List Node} {s s₁ s₂ s₃ s₄ s₅ s₆ s₇ s₈ s' : State} :
      Takes .for t s s₁ → Takes .leftParen l s₁ s₂ → Reads known (.loopStart init) s₂ s₃ →
      Takes .semicolon c s₃ s₄ → Reads known (.term cond) s₄ s₅ → cond.isComparison = true →
      Takes .semicolon c' s₅ s₆ → Reads known (.assignment step) s₆ s₇ →
      Takes .rightParen r s₇ s₈ → Reads known (.block place braces body) s₈ s' →
      Reads known (.stmt place (.forLoop (t.span.upTo s'.prev) init cond step braces body)) s s'
  | skip {place : Parser.Place} {k : Token.Kind} {t : Token} {s s' : State} :
      Takes k t s s' → opensStatement k = false → k ≠ .endOfFile →
      Reads known (.stmt place (.skip t.span t.value)) s s'
  | stmtsNil {place : Parser.Place} {s : State} :
      s.kind = .rightBrace → Reads known (.stmts place []) s s
  | stmtsCons {place : Parser.Place} {n : Node} {ns : List Node} {s s₁ s' : State} :
      s.kind ≠ .rightBrace → s.kind ≠ .endOfFile → Reads known (.stmt place n) s s₁ →
      Reads known (.stmts place ns) s₁ s' → Reads known (.stmts place (n :: ns)) s s'
  | globalsNil {s : State} : s.kind.isType = false → Reads known (.globals []) s s
  | globalsCons {n : Node} {ns : List Node} {s s₁ s' : State} :
      Reads known (.declaration n) s s₁ → Reads known (.globals ns) s₁ s' →
      Reads known (.globals (n :: ns)) s s'
  | functionsNil {s : State} : s.kind ≠ .func → Reads known (.functions []) s s
  | functionsCons {f : Function} {fs : List Function} {s s₁ s' : State} :
      Reads known (.function .top f) s s₁ → Reads known (.functions fs) s₁ s' →
      Reads known (.functions (f :: fs)) s s'

/-! ## Progress -/

/-- The least number of tokens a phrase takes. -/
def Phrase.least : Phrase → Nat
  | .termRest .. | .exprRest .. | .args _ | .params _ | .stmts .. | .globals _ | .functions _ => 0
  | .factor _ | .term _ | .expr _ | .call _ | .declaration _ | .assignment _ | .condition _
  | .loopStart _ | .block .. | .function .. | .stmt .. => 1

theorem State.tokens_after (s : State) (t : Token) : (s.after t).tokens = s.tokens.tail := rfl

/-- Passing over a comma takes it, if there is one. -/
theorem State.pastComma_eq (s : State) :
    s.pastComma = s ∨ ∃ t, Takes .comma t s s.pastComma := by
  unfold pastComma
  cases h : s.tokens.head? with
  | none => exact Or.inl rfl
  | some t =>
    by_cases hk : t.kind = .comma
    · exact Or.inr ⟨t, h, hk, by simp [hk]⟩
    · exact Or.inl (by simp [hk])

theorem Takes.tokens {k : Token.Kind} {t : Token} {s s' : State} (h : Takes k t s s') :
    s.tokens = t :: s'.tokens := by
  obtain ⟨head, -, rfl⟩ := h
  rw [State.tokens_after]
  cases h : s.tokens with
  | nil => simp [h] at head
  | cons t' ts => simpa [h] using head

@[grind →] theorem Takes.length {k : Token.Kind} {t : Token} {s s' : State} (h : Takes k t s s') :
    s.tokens.length = s'.tokens.length + 1 := by
  rw [h.tokens, List.length_cons]

theorem State.length_pastComma (s : State) : s.pastComma.tokens.length ≤ s.tokens.length := by
  rcases s.pastComma_eq with h | ⟨t, h⟩
  · exact Nat.le_of_eq (congrArg (fun s => s.tokens.length) h)
  · have := h.length
    omega

/-- A phrase takes its tokens from the front, and at least as many as it must. -/
theorem Reads.length_le {known : Option (List Text)} {φ : Phrase} {s s' : State}
    (h : Reads known φ s s') : s'.tokens.length + φ.least ≤ s.tokens.length := by
  induction h <;> grind -ring -linarith [Phrase.least, State.length_pastComma]

end ScriptKit.Parse
