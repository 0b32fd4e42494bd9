import ScriptKit.Proofs.Token.Exact
import ScriptKit.Proofs.Tree.Formed

/-!
# Trees as rows of words

A tree can be written as a row of words in more than one way: an expression may stand in parentheses, and a
comma may follow a parameter or an argument. Apart from that each node contributes its own words, in the
order of the source. `Linear.Expr n ws` says that the words `ws` are a way to write the expression `n`, and
`Linear.Stmt n ws` says it of a statement.

The parser takes its tokens one by one, with a single token of lookahead, and passes over what begins no
statement. None of this loses a token or adds one: between two states of the parser stand exactly the words
of what is read there (`Reads.linear`, by induction on the grammar), and so the tokens of a source that is
parsed are a way to write its tree.

**Theorem (`linear_of_parse`).** If a source is parsed, its tokens are a way to write the program.
-/

namespace ScriptKit

open Word

/-- A token without its place. -/
def Token.word (t : Token) : Word := (t.kind, t.value)

/-! ## Ways to write a tree -/

namespace Linear

mutual

/-- The words `ws` are a way to write an expression. -/
inductive Expr : Node → List Word → Prop
  | number {span : Span} {v : Int32} {digits : Text} {n : Nat} :
      digits.readNat = some n → v.toInt = n → Expr (.number span v) [(.number, digits)]
  | str {span : Span} {text : Text} : Expr (.str span text) [(.string, text)]
  | bool {span : Span} {b : Bool} {word : Text} :
      (b = true ↔ word = "true") → Expr (.bool span b) [(.bool, word)]
  | use {span : Span} {name : Text} : Expr (.use span name) [(.name, name)]
  | call {span : Span} {name : Text} {callee : Callee} {args : List Node} {ws : List Word} :
      Args args ws → Expr (.call span name callee args) ((.call, name) :: wrapped true ws)
  | sign {span : Span} {op : Sign} {n : Node} {ws : List Word} :
      Expr n ws → Expr (.sign span op n) (op.word :: ws)
  | arith {span : Span} {op : Arith} {left right : Node} {ls rs : List Word} :
      Expr left ls → Expr right rs → Expr (.arith span left op right) (ls ++ op.word :: rs)
  | compare {span : Span} {op : Relation} {left right : Node} {ls rs : List Word} :
      Expr left ls → Expr right rs → Expr (.compare span left op right) (ls ++ op.word :: rs)
  | paren {n : Node} {ws : List Word} : Expr n ws → Expr n (wrapped true ws)

/-- The words `ws` are a way to write arguments. A comma may follow each. -/
inductive Args : List Node → List Word → Prop
  | nil : Args [] []
  | cons {n : Node} {ns : List Node} {ws rest : List Word} :
      Expr n ws → Args ns rest → Args (n :: ns) (ws ++ rest)
  | consComma {n : Node} {ns : List Node} {ws rest : List Word} :
      Expr n ws → Args ns rest → Args (n :: ns) (ws ++ of .comma :: rest)

end

/-- The words `ws` are a way to write parameters. A comma may follow each. -/
inductive Params : List Param → List Word → Prop
  | nil : Params [] []
  | cons {p : Param} {ps : List Param} {rest : List Word} :
      Params ps rest → Params (p :: ps) (p.type.word :: (.name, p.name) :: rest)
  | consComma {p : Param} {ps : List Param} {rest : List Word} :
      Params ps rest → Params (p :: ps) (p.type.word :: (.name, p.name) :: of .comma :: rest)

mutual

/-- The words `ws` are a way to write a statement. -/
inductive Stmt : Node → List Word → Prop
  | declare {span : Span} {name : Text} {type : VarType} :
      Stmt (.declare span name type) [type.word, (.name, name)]
  | declareAs {span : Span} {name : Text} {type : VarType} {value : Node} {ws : List Word} :
      Expr value ws → Stmt (.declareAs span name type value) (type.word :: (.name, name) :: of .assign :: ws)
  | assign {span : Span} {name : Text} {value : Node} {ws : List Word} :
      Expr value ws → Stmt (.assign span name value) ((.name, name) :: of .assign :: ws)
  | call {span : Span} {name : Text} {callee : Callee} {args : List Node} {ws : List Word} :
      Args args ws → Stmt (.call span name callee args) ((.call, name) :: wrapped true ws)
  | function {span : Span} {name : Text} {params : List Param} {braces : Braces} {body : List Node}
      {ps ws : List Word} : Params params ps → Body body ws →
      Stmt (.function span name params braces body)
        (of .func :: (.call, name) :: (wrapped true ps ++ inBraces ws))
  | when {span : Span} {cond : Node} {braces : Braces} {yes : List Node} {cs ws : List Word} :
      Expr cond cs → Body yes ws →
      Stmt (.when span cond braces yes) (of .if :: (wrapped true cs ++ inBraces ws))
  | choose {span : Span} {cond : Node} {braces braces' : Braces} {yes no : List Node}
      {cs ws ws' : List Word} : Expr cond cs → Body yes ws → Body no ws' →
      Stmt (.choose span cond braces yes braces' no)
        (of .if :: (wrapped true cs ++ inBraces ws ++ of .else :: inBraces ws'))
  | whileLoop {span : Span} {cond : Node} {braces : Braces} {body : List Node} {cs ws : List Word} :
      Expr cond cs → Body body ws →
      Stmt (.whileLoop span cond braces body) (of .while :: (wrapped true cs ++ inBraces ws))
  | forLoop {span : Span} {init cond step : Node} {braces : Braces} {body : List Node}
      {is cs ss ws : List Word} : Stmt init is → Expr cond cs → Stmt step ss → Body body ws →
      Stmt (.forLoop span init cond step braces body)
        (of .for :: (wrapped true (is ++ of .semicolon :: cs ++ of .semicolon :: ss) ++ inBraces ws))
  /-- What was passed over is one word that begins no statement and ends none. -/
  | skip {span : Span} {k : Token.Kind} {text : Text} :
      Parse.opensStatement k = false → k ≠ .rightBrace → k ≠ .endOfFile →
      Stmt (.skip span text) [(k, text)]

/-- The words `ws` are a way to write statements one after the other. -/
inductive Body : List Node → List Word → Prop
  | nil : Body [] []
  | cons {n : Node} {ns : List Node} {ws rest : List Word} :
      Stmt n ws → Body ns rest → Body (n :: ns) (ws ++ rest)

end

end Linear

/-- The words `ws` are a way to write a program: its declarations, its functions and the end of the file. -/
def Program.Linear (p : Program) (ws : List Word) : Prop :=
  ∃ gs fs, Linear.Body p.globals gs ∧ Linear.Body (p.functions.map Function.node) fs ∧
    ws = gs ++ fs ++ [(.endOfFile, [])]

/-! ## The words of operators and types -/

section Operators

variable {source v : Text} {k : Token.Kind}

theorem Spelled.eq_of (h : Spelled source k v) (hk : k.spelling? ≠ none) : (k, v) = of k := by
  obtain ⟨w, hw⟩ := Option.ne_none_iff_exists'.1 hk
  rw [of, hw, h.fixed w hw]
  rfl

theorem Spelled.sign_word (h : Spelled source k v) (hk : k = .plus ∨ k = .minus) :
    (k, v) = (Sign.ofSymbol v).word := by
  rcases hk with rfl | rfl
  all_goals
    rw [h.fixed _ rfl]
    rfl

theorem Spelled.arith_word (h : Spelled source k v)
    (hk : (k = .star ∨ k = .slash) ∨ (k = .plus ∨ k = .minus)) : (k, v) = (Arith.ofSymbol v).word := by
  rcases hk with (rfl | rfl) | (rfl | rfl)
  all_goals
    rw [h.fixed _ rfl]
    rfl

theorem Spelled.relation_word (h : Spelled source k v) (hk : k.isComparison = true) :
    (k, v) = (Relation.ofSymbol v).word := by
  cases k <;> simp only [Token.Kind.isComparison, Bool.false_eq_true] at hk
  all_goals
    rw [h.fixed _ rfl]
    rfl

theorem Spelled.type_word (h : Spelled source k v) (hk : k.isType = true) :
    (k, v) = (Parser.typeOf k).word := by
  cases k <;> simp only [Token.Kind.isType, Bool.false_eq_true] at hk
  all_goals
    rw [h.fixed _ rfl]
    rfl

end Operators

namespace Parse

/-! ## Words between states -/

/-- The words of the tokens that are left. -/
def State.words (s : State) : List Word := s.tokens.map Token.word

/-- Between two states stand some words with a property. -/
def Between (s s' : State) (P : List Word → Prop) : Prop := ∃ ws, s.words = ws ++ s'.words ∧ P ws

section Between

variable {source : Text} {k : Token.Kind} {t : Token} {s s₁ s' : State} {P Q : List Word → Prop}

theorem Between.refl (h : P []) : Between s s P := ⟨[], rfl, h⟩

theorem Between.imp (h : Between s s' P) (hPQ : ∀ ws, P ws → Q ws) : Between s s' Q := by
  obtain ⟨ws, hws, hP⟩ := h
  exact ⟨ws, hws, hPQ ws hP⟩

/-- Words that stand one after the other. -/
theorem Between.append (h : Between s s₁ P) (h' : Between s₁ s' Q) :
    Between s s' fun ws => ∃ a b, P a ∧ Q b ∧ ws = a ++ b := by
  obtain ⟨ws, hws, hP⟩ := h
  obtain ⟨ws', hws', hQ⟩ := h'
  exact ⟨ws ++ ws', by rw [hws, hws', List.append_assoc], ws, ws', hP, hQ, rfl⟩

theorem Takes.words (h : Takes k t s s') : s.words = (k, t.value) :: s'.words := by
  rw [State.words, h.tokens, List.map_cons, Token.word, h.kind]
  rfl

theorem Takes.alone (h : Takes k t s s') : Between s s' (· = [(k, t.value)]) :=
  ⟨[(k, t.value)], h.words, rfl⟩

/-- A word in front of others. -/
theorem Takes.before (h : Takes k t s s₁) (h' : Between s₁ s' P) :
    Between s s' fun ws => ∃ a, P a ∧ ws = (k, t.value) :: a := by
  obtain ⟨ws, hws, hP⟩ := h'
  exact ⟨(k, t.value) :: ws, by rw [h.words, hws, List.cons_append], ws, hP, rfl⟩

/-- A word whose spelling is fixed, in front of others. -/
theorem Takes.before_fixed (h : Takes k t s s₁) (hs : s.IsSpelled source) (hk : k.spelling? ≠ none)
    (h' : Between s₁ s' P) : Between s s' fun ws => ∃ a, P a ∧ ws = of k :: a := by
  rw [← (h.spelled hs).eq_of hk]
  exact h.before h'

/-- Words between two words whose spellings are fixed. -/
theorem Between.enclosed {k' : Token.Kind} {t' : Token} {s₂ : State} (h : Between s₁ s₂ P)
    (ht : Takes k t s s₁) (ht' : Takes k' t' s₂ s') (hs : s.IsSpelled source) (hs₂ : s₂.IsSpelled source)
    (hk : k.spelling? ≠ none) (hk' : k'.spelling? ≠ none) :
    Between s s' fun ws => ∃ a, P a ∧ ws = of k :: a ++ [of k'] := by
  refine (ht.before_fixed hs hk (h.append ht'.alone)).imp ?_
  rintro _ ⟨_, ⟨ws, _, hP, rfl, rfl⟩, rfl⟩
  rw [(ht'.spelled hs₂).eq_of hk']
  exact ⟨ws, hP, rfl⟩

theorem Between.inParens {l r : Token} {s₂ : State} (h : Between s₁ s₂ P) (hl : Takes .leftParen l s s₁)
    (hr : Takes .rightParen r s₂ s') (hs : s.IsSpelled source) (hs₂ : s₂.IsSpelled source) :
    Between s s' fun ws => ∃ a, P a ∧ ws = wrapped true a :=
  h.enclosed hl hr hs hs₂ (by decide) (by decide)

/-- What follows an optional comma. -/
theorem Between.pastComma (h : Between s.pastComma s' P) (hs : s.IsSpelled source) :
    Between s s' fun ws => P ws ∨ ∃ rest, P rest ∧ ws = of .comma :: rest := by
  rcases s.pastComma_eq with heq | ⟨t, ht⟩
  · rw [heq] at h
    exact h.imp fun ws hP => Or.inl hP
  · exact (ht.before_fixed hs (by decide) h).imp fun ws hP => Or.inr hP

end Between

/-! ## What is read -/

/-- Between two states stands a way to write what is read there. A statement list never goes on with the brace
that ends it. -/
def Phrase.Linear (s s' : State) : Phrase → Prop
  | .factor n | .term n | .expr n => Between s s' (Linear.Expr n)
  | .termRest left n | .exprRest left n =>
    Between s s' fun ws => ∀ ls, Linear.Expr left ls → Linear.Expr n (ls ++ ws)
  | .args ns => Between s s' (Linear.Args ns)
  | .call n => Between s s' fun ws => Linear.Expr n ws ∧ Linear.Stmt n ws
  | .declaration n | .assignment n | .loopStart n => Between s s' (Linear.Stmt n)
  | .params ps => Between s s' (Linear.Params ps)
  | .condition n => Between s s' fun ws => ∃ cs, Linear.Expr n cs ∧ ws = wrapped true cs
  | .block _ _ ns => Between s s' fun ws => ∃ bs, Linear.Body ns bs ∧ ws = inBraces bs
  | .function _ f => Between s s' (Linear.Stmt f.node)
  | .stmt _ n => s.kind ≠ .rightBrace → Between s s' (Linear.Stmt n)
  | .stmts _ ns | .globals ns => Between s s' (Linear.Body ns)
  | .functions fs => Between s s' (Linear.Body (fs.map Function.node))

/-- An operator and its right operand, and what goes on after them. -/
theorem Takes.operation {k : Token.Kind} {t : Token} {s s₁ s₂ s' : State} {left right op n : Node}
    (ht : Takes k t s s₁) (hright : Between s₁ s₂ (Linear.Expr right))
    (hrest : Between s₂ s' fun ws => ∀ ls, Linear.Expr op ls → Linear.Expr n (ls ++ ws))
    (hop : ∀ ls rs, Linear.Expr left ls → Linear.Expr right rs →
      Linear.Expr op (ls ++ (k, t.value) :: rs)) :
    Between s s' fun ws => ∀ ls, Linear.Expr left ls → Linear.Expr n (ls ++ ws) := by
  refine (ht.before (hright.append hrest)).imp ?_
  rintro _ ⟨_, ⟨rs, ws, hr, hn, rfl⟩, rfl⟩ ls hl
  have hall := hn _ (hop ls rs hl hr)
  rwa [List.append_assoc, List.cons_append] at hall

/-- A node and the nodes after it, which a comma may precede. -/
theorem Between.list {s s₁ s' : State} {source : Text} {P Q R : List Word → Prop} (h : Between s s₁ P)
    (h' : Between s₁.pastComma s' Q) (hs₁ : s₁.IsSpelled source)
    (hcons : ∀ ws rest, P ws → Q rest → R (ws ++ rest))
    (hcomma : ∀ ws rest, P ws → Q rest → R (ws ++ of .comma :: rest)) : Between s s' R := by
  refine (h.append (h'.pastComma hs₁)).imp ?_
  rintro _ ⟨ws, _, hP, hQ | ⟨rest, hQ, rfl⟩, rfl⟩
  · exact hcons ws _ hP hQ
  · exact hcomma ws rest hP hQ

/-- Between two states stand exactly the words of what is read there. -/
theorem Reads.linear {known : Option (List Text)} {source : Text} {φ : Phrase} {s s' : State}
    (h : Reads known φ s s') (hs : s.IsSpelled source) : φ.Linear s s' := by
  -- The words of a phrase are those of its parts in the order they were read. The hypothesis `hs` is carried
  -- from token to token: only a token of the source has the word of its kind.
  induction h with
  | sign ht hk _ ih =>
    refine (ht.before (ih (ht.isSpelled hs))).imp ?_
    rintro _ ⟨ws, hn, rfl⟩
    rw [(ht.spelled hs).sign_word hk]
    exact .sign hn
  | number ht hv =>
    obtain ⟨n, hn, hvalue⟩ := Text.readNat_of_readInt32 ((ht.spelled hs).digits rfl) hv
    exact ht.alone.imp fun ws hws => hws ▸ .number hn hvalue
  | str ht => exact ht.alone.imp fun ws hws => hws ▸ .str
  | bool ht => exact ht.alone.imp fun ws hws => hws ▸ .bool beq_iff_eq
  | paren hl hn hr ih =>
    have hs₁ := hl.isSpelled hs
    refine ((ih hs₁).inParens hl hr hs (hn.isSpelled hs₁)).imp ?_
    rintro _ ⟨ws, hn, rfl⟩
    exact .paren hn
  -- a call is read as an expression and as a statement at once; a factor is the first of the two
  | called _ ih => exact (ih hs).imp fun ws hn => hn.1
  | use ht => exact ht.alone.imp fun ws hws => hws ▸ .use
  -- a rest takes the words of its left operand to those of the whole, and adds none where it stops
  | termStop => exact .refl fun ls hl => by rwa [List.append_nil]
  | times ht hk hright _ ih ih' =>
    have hs₁ := ht.isSpelled hs
    refine ht.operation (ih hs₁) (ih' (hright.isSpelled hs₁)) fun ls rs hl hr => ?_
    rw [(ht.spelled hs).arith_word (Or.inl hk)]
    exact .arith hl hr
  | compare ht hk _ ih =>
    refine ht.operation (ih (ht.isSpelled hs)) (.refl fun ls hn => by rwa [List.append_nil])
      fun ls rs hl hr => ?_
    rw [(ht.spelled hs).relation_word hk]
    exact .compare hl hr
  | term hleft _ ih ih' | expr hleft _ ih ih' =>
    refine ((ih hs).append (ih' (hleft.isSpelled hs))).imp ?_
    rintro _ ⟨ls, ws, hl, hn, rfl⟩
    exact hn ls hl
  | exprStop => exact .refl fun ls hl => by rwa [List.append_nil]
  | plus ht hk hright _ ih ih' =>
    have hs₁ := ht.isSpelled hs
    refine ht.operation (ih hs₁) (ih' (hright.isSpelled hs₁)) fun ls rs hl hr => ?_
    rw [(ht.spelled hs).arith_word (Or.inr hk)]
    exact .arith hl hr
  | argsNil => exact .refl .nil
  -- a comma behind an argument is passed if there is one, so both words of the list are given
  | argsCons _ hn _ ih ih' =>
    have hs₁ := hn.isSpelled hs
    exact (ih hs).list (ih' (State.isSpelled_pastComma hs₁)) hs₁ (fun _ _ => .cons) fun _ _ => .consComma
  | call ht hl hargs hr _ ih =>
    have hs₁ := ht.isSpelled hs
    have hs₂ := hl.isSpelled hs₁
    refine (ht.before ((ih hs₂).inParens hl hr hs₁ (hargs.isSpelled hs₂))).imp ?_
    rintro _ ⟨_, ⟨ws, hargs, rfl⟩, rfl⟩
    exact ⟨.call hargs, .call hargs⟩
  | declare ht hk hname _ =>
    refine (ht.before hname.alone).imp ?_
    rintro _ ⟨_, rfl, rfl⟩
    rw [(ht.spelled hs).type_word hk]
    exact .declare
  | declareAs ht hk hname heq _ ih =>
    have hs₁ := ht.isSpelled hs
    have hs₂ := hname.isSpelled hs₁
    have hvalue := heq.before_fixed hs₂ (by decide) (ih (heq.isSpelled hs₂))
    refine (ht.before (hname.before hvalue)).imp ?_
    rintro _ ⟨_, ⟨_, ⟨ws, hn, rfl⟩, rfl⟩, rfl⟩
    rw [(ht.spelled hs).type_word hk]
    exact .declareAs hn
  | assign hname heq _ ih =>
    have hs₁ := hname.isSpelled hs
    refine (hname.before (heq.before_fixed hs₁ (by decide) (ih (heq.isSpelled hs₁)))).imp ?_
    rintro _ ⟨_, ⟨ws, hn, rfl⟩, rfl⟩
    exact .assign hn
  | paramsNil => exact .refl .nil
  | @paramsCons span name type ps s s₁ s' hdecl _ ih ih' =>
    have hs₁ := hdecl.isSpelled hs
    refine (ih hs).list (ih' (State.isSpelled_pastComma hs₁)) hs₁ ?_ ?_
    all_goals
      rintro _ rest ⟨⟩ hps
    · exact .cons (p := ⟨span, name, type⟩) hps
    · exact .consComma (p := ⟨span, name, type⟩) hps
  | condition hl hn hr ih =>
    have hs₁ := hl.isSpelled hs
    exact (ih hs₁).inParens hl hr hs (hn.isSpelled hs₁)
  | startDeclaration _ ih => exact ih hs
  | startAssignment _ ih => exact ih hs
  | block hl hns hr ih =>
    have hs₁ := hl.isSpelled hs
    exact (ih hs₁).enclosed hl hr hs (hns.isSpelled hs₁) (by decide) (by decide)
  | function ht hname _ hl hps hr _ ih ih' =>
    have hs₁ := ht.isSpelled hs
    have hs₂ := hname.isSpelled hs₁
    have hs₃ := hl.isSpelled hs₂
    have hs₄ := hps.isSpelled hs₃
    have hrest := ((ih hs₃).inParens hl hr hs₂ hs₄).append (ih' (hr.isSpelled hs₄))
    refine (ht.before_fixed hs (by decide) (hname.before hrest)).imp ?_
    rintro _ ⟨_, ⟨_, ⟨_, _, ⟨ps, hps, rfl⟩, ⟨ws, hbody, rfl⟩, rfl⟩, rfl⟩, rfl⟩
    exact .function hps hbody
  -- that no closing brace stands here is asked for a skipped token only, the last case of a statement
  | stmtFunction _ ih => exact fun _ => ih hs
  | stmtDeclaration _ ih => exact fun _ => ih hs
  | stmtAssignment _ ih => exact fun _ => ih hs
  | stmtCall _ ih => exact fun _ => (ih hs).imp fun ws hn => hn.2
  | when ht hcond _ _ ih ih' =>
    intro _
    have hs₁ := ht.isSpelled hs
    refine (ht.before_fixed hs (by decide) ((ih hs₁).append (ih' (hcond.isSpelled hs₁)))).imp ?_
    rintro _ ⟨_, ⟨_, _, ⟨cs, hn, rfl⟩, ⟨ws, hyes, rfl⟩, rfl⟩, rfl⟩
    exact .when hn hyes
  | choose ht hcond hyes he _ ih ih' ih'' =>
    intro _
    have hs₁ := ht.isSpelled hs
    have hs₂ := hcond.isSpelled hs₁
    have hs₃ := hyes.isSpelled hs₂
    have hno := he.before_fixed hs₃ (by decide) (ih'' (he.isSpelled hs₃))
    refine (ht.before_fixed hs (by decide) (((ih hs₁).append (ih' hs₂)).append hno)).imp ?_
    rintro _ ⟨_, ⟨_, _, ⟨_, _, ⟨cs, hn, rfl⟩, ⟨ws, hyes, rfl⟩, rfl⟩, ⟨_, ⟨ws', hno, rfl⟩, rfl⟩, rfl⟩, rfl⟩
    exact .choose hn hyes hno
  | whileLoop ht hcond _ ih ih' =>
    intro _
    have hs₁ := ht.isSpelled hs
    refine (ht.before_fixed hs (by decide) ((ih hs₁).append (ih' (hcond.isSpelled hs₁)))).imp ?_
    rintro _ ⟨_, ⟨_, _, ⟨cs, hn, rfl⟩, ⟨ws, hbody, rfl⟩, rfl⟩, rfl⟩
    exact .whileLoop hn hbody
  | forLoop ht hl hinit hc hcond _ hc' hstep hr _ ih ih' ih'' ihbody =>
    intro _
    have hs₁ := ht.isSpelled hs
    have hs₂ := hl.isSpelled hs₁
    have hs₃ := hinit.isSpelled hs₂
    have hs₄ := hc.isSpelled hs₃
    have hs₅ := hcond.isSpelled hs₄
    have hs₆ := hc'.isSpelled hs₅
    have hs₇ := hstep.isSpelled hs₆
    -- the second and the third part of the header come with the semicolon before them
    have hcond' := hc.before_fixed hs₃ (by decide) (ih' hs₄)
    have hstep' := hc'.before_fixed hs₅ (by decide) (ih'' hs₆)
    have hheader := (((ih hs₂).append hcond').append hstep').inParens hl hr hs₁ hs₇
    refine (ht.before_fixed hs (by decide) (hheader.append (ihbody (hr.isSpelled hs₇)))).imp ?_
    rintro _ ⟨_, ⟨_, _, ⟨_, ⟨_, _, ⟨is, _, hi, ⟨cs, hn, rfl⟩, rfl⟩, ⟨ss, hst, rfl⟩, rfl⟩, rfl⟩,
      ⟨ws, hbody, rfl⟩, rfl⟩, rfl⟩
    exact .forLoop hi hn hst hbody
  | skip ht hk hend =>
    intro hbrace
    have hne := fun he => hbrace ((Parser.Takes.kind_eq ht).trans he)
    exact ht.alone.imp fun ws hws => hws ▸ .skip hk hne hend
  | stmtsNil | globalsNil | functionsNil => exact .refl .nil
  | stmtsCons hbrace _ hn _ ih ih' =>
    refine ((ih hs hbrace).append (ih' (hn.isSpelled hs))).imp ?_
    rintro _ ⟨ws, rest, hn, hns, rfl⟩
    exact .cons hn hns
  | globalsCons hn _ ih ih' | functionsCons hn _ ih ih' =>
    refine ((ih hs).append (ih' (hn.isSpelled hs))).imp ?_
    rintro _ ⟨ws, rest, hn, hns, rfl⟩
    exact .cons hn hns

end Parse

/-! ## Parsed programs -/

open Parse

/-- The tokens of a source that is parsed are a way to write the program. -/
theorem linear_of_parse {file source : Text} {builtins : Option (List Text)} {p : Program}
    (h : parse file source builtins = .ok p) :
    ∃ tokens, tokenize file source = .ok tokens ∧ p.Linear (tokens.map fun t => (t.kind, t.value)) := by
  obtain ⟨s₁, s₂, eof, hglobals, hfunctions, hnil, hending⟩ := reads_all_of_parse h
  obtain ⟨-, rfl⟩ := scan_end hending
  have hs := Scanned.isSpelled_state file source
  obtain ⟨gs, hgs, hlinear⟩ := hglobals.linear hs
  obtain ⟨fs, hfs, hlinear'⟩ := hfunctions.linear (hglobals.isSpelled hs)
  have hwords : (scan file source).tokens.map Token.word = gs ++ fs := by
    have hnone : s₂.words = [] := by rw [State.words, hnil, List.map_nil]
    rw [hfs, hnone, List.append_nil] at hgs
    exact hgs
  refine ⟨(scan file source).tokens ++ [endOfFile file source], ?_, gs, fs, hlinear, hlinear', ?_⟩
  · simp only [tokenize, hending]
  · rw [List.map_append, ← hwords]
    rfl

/-- A program with parentheses, commas and a token that is passed over. -/
def looseText : Text := "func F(int a,) \x7b \x7d func Main() \x7b ; F((1),) \x7d"

/-- The tokens of a program are a way to write it. -/
theorem linear_of_parse_loose :
    ∃ p tokens, parse "a" looseText = .ok p ∧ tokenize "a" looseText = .ok tokens ∧
      p.Linear (tokens.map fun t => (t.kind, t.value)) := by
  have hok : (parse "a" looseText).toBool = true := by decide +kernel
  cases hparse : parse "a" looseText with
  | error e => rw [hparse] at hok; cases hok
  | ok p =>
    obtain ⟨tokens, htokens⟩ := linear_of_parse hparse
    exact ⟨p, tokens, rfl, htokens⟩

end ScriptKit
