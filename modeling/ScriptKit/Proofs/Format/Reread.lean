import ScriptKit.Proofs.Format.Words

/-!
# Canonical words are read as the tree they come from

The words of the canonical form of a tree are read by the grammar as a tree of the same core. For
expressions this is where parentheses matter: additions associate to the left at the level of
expressions, products at the level of terms, a comparison ends its term, and every other operand is a
factor. `Canonical` says how an expression is read at each of these levels, and each operator carries it
from its operands to its result.
-/

namespace ScriptKit

open Parse Word

/-! ## What ends a phrase -/

/-- Whether a kind of token does not go on with a term. -/
def Token.Kind.endsTerm (k : Token.Kind) : Bool := !(k == .star || k == .slash || k.isComparison)

/-- Whether a kind of token does not go on with an expression. -/
def Token.Kind.endsExpr (k : Token.Kind) : Bool := k.endsTerm && !(k == .plus || k == .minus)

/-- Whether a kind of token does not go on with a statement. -/
def Token.Kind.endsStmt (k : Token.Kind) : Bool := k.endsExpr && !(k == .assign || k == .else)

/-- The words that follow do not go on with a term. -/
def StopsTerm (ws : List Word) : Prop := (headKind ws).endsTerm = true

/-- The words that follow do not go on with an expression. -/
def StopsExpr (ws : List Word) : Prop := (headKind ws).endsExpr = true

theorem StopsTerm.ne {ws : List Word} (h : StopsTerm ws) :
    headKind ws ≠ .star ∧ headKind ws ≠ .slash ∧ (headKind ws).isComparison = false := by
  simpa [StopsTerm, Token.Kind.endsTerm, not_or, and_assoc] using h

theorem StopsExpr.stopsTerm {ws : List Word} (h : StopsExpr ws) : StopsTerm ws := by
  simp only [StopsExpr, Token.Kind.endsExpr, Bool.and_eq_true] at h
  exact h.1

theorem StopsExpr.ne {ws : List Word} (h : StopsExpr ws) :
    headKind ws ≠ .plus ∧ headKind ws ≠ .minus := by
  simp only [StopsExpr, Token.Kind.endsExpr, Bool.and_eq_true] at h
  simpa [not_or] using h.2

/-! ## Levels of expressions -/

section Levels

variable {table : List (Text × Nat)}

/-- The words `ws`, where they are followed by words that satisfy `Stop`, are read as `n`. -/
def ReadsAs (table : List (Text × Nat)) (phrase : Node → Phrase) (n : Node) (ws : List Word)
    (Stop : List Word → Prop) : Prop :=
  ∀ begun rest s, s.At table begun (ws ++ rest) → Stop rest →
    ∃ n' s', Reads none (phrase n') s s' ∧ n'.bare = n.bare ∧ s'.At table begun rest

/-- The words `ws` are read as the left part `n` of a chain, which may go on. A chain starts with a phrase
read by `first` and goes on with the phrases of `link`. -/
def BeginsAs (table : List (Text × Nat)) (first : Node → Phrase) (link : Node → Node → Phrase) (n : Node)
    (ws : List Word) (Stop : List Word → Prop) : Prop :=
  ∀ begun rest s, s.At table begun (ws ++ rest) → Stop rest →
    ∃ head s₁ left s₂, Reads none (first head) s s₁ ∧ left.bare = n.bare ∧ s₂.At table begun rest ∧
      ∀ m s₃, Reads none (link left m) s₂ s₃ → Reads none (link head m) s₁ s₃

/-- How an expression is read as a factor, as the left part of a product or a comparison, as a term, and as
the left part of a sum. -/
structure Canonical (table : List (Text × Nat)) (n : Node) : Prop where
  factor : ReadsAs table .factor n (wrapped n.isOperation n.exprWords) fun _ => True
  termLeft : BeginsAs table .factor .termRest n
    (wrapped (n.isComparison || n.isAdditive) n.exprWords) fun _ => True
  term : ReadsAs table .term n (wrapped n.isAdditive n.exprWords) StopsTerm
  exprLeft : BeginsAs table .term .exprRest n n.exprWords StopsTerm

variable {n left right : Node}

/-- A factor can begin a chain of factors. -/
theorem BeginsAs.of_factor {ws : List Word} (h : ReadsAs table .factor n ws fun _ => True) :
    BeginsAs table .factor .termRest n ws fun _ => True := by
  intro begun rest s hs _
  obtain ⟨n', s', hn, hbare, hs'⟩ := h begun rest s hs trivial
  exact ⟨n', s', n', s', hn, hbare, hs', fun _ _ h => h⟩

/-- A term can begin a chain of terms. -/
theorem BeginsAs.of_term {ws : List Word} (h : ReadsAs table .term n ws StopsTerm) :
    BeginsAs table .term .exprRest n ws StopsTerm := by
  intro begun rest s hs hstop
  obtain ⟨n', s', hn, hbare, hs'⟩ := h begun rest s hs hstop
  exact ⟨n', s', n', s', hn, hbare, hs', fun _ _ h => h⟩

/-- A chain of factors is a term where it stops. -/
theorem ReadsAs.of_termLeft {ws : List Word} (h : BeginsAs table .factor .termRest n ws fun _ => True) :
    ReadsAs table .term n ws StopsTerm := by
  intro begun rest s hs hstop
  obtain ⟨head, s₁, left, s₂, hhead, hbare, hs₂, hlink⟩ := h begun rest s hs trivial
  obtain ⟨hstar, hslash, hcmp⟩ := hstop.ne
  rw [← hs₂.kind] at hstar hslash hcmp
  exact ⟨left, s₂, Reads.term hhead (hlink left s₂ (Reads.termStop hstar hslash hcmp)), hbare, hs₂⟩

/-- A chain of terms is an expression where it stops. -/
theorem ReadsAs.of_exprLeft {ws : List Word} (h : BeginsAs table .term .exprRest n ws StopsTerm) :
    ReadsAs table .expr n ws StopsExpr := by
  intro begun rest s hs hstop
  obtain ⟨head, s₁, left, s₂, hhead, hbare, hs₂, hlink⟩ := h begun rest s hs hstop.stopsTerm
  obtain ⟨hplus, hminus⟩ := hstop.ne
  rw [← hs₂.kind] at hplus hminus
  exact ⟨left, s₂, Reads.expr hhead (hlink left s₂ (Reads.exprStop hplus hminus)), hbare, hs₂⟩

/-- An expression in parentheses is a factor. -/
theorem ReadsAs.paren {ws : List Word} (h : ReadsAs table .expr n ws StopsExpr) :
    ReadsAs table .factor n (wrapped true ws) fun _ => True := by
  intro begun rest s hs _
  rw [wrapped_true, List.cons_append, List.cons_append, List.append_assoc] at hs
  obtain ⟨t, s₁, ht, -, hs₁⟩ := hs.takes
  obtain ⟨n', s₂, hn, hbare, hs₂⟩ := h begun _ s₁ hs₁ rfl
  obtain ⟨t', s', ht', -, hs'⟩ := hs₂.takes
  exact ⟨n', s', Reads.paren ht hn ht', hbare, hs'⟩

theorem Canonical.expr (h : Canonical table n) : ReadsAs table .expr n n.exprWords StopsExpr :=
  ReadsAs.of_exprLeft h.exprLeft

/-- What is read as a factor without parentheses is read so at every level. -/
theorem Canonical.of_factor (hop : n.isOperation = false)
    (h : ReadsAs table .factor n n.exprWords fun _ => True) : Canonical table n := by
  have hcmp : n.isComparison = false := by cases n <;> first | rfl | cases hop
  have hadd : n.isAdditive = false := by cases n <;> first | rfl | cases hop
  have hleft := BeginsAs.of_factor h
  have hterm := ReadsAs.of_termLeft hleft
  constructor
  · rwa [hop, wrapped_false]
  · rwa [hcmp, hadd, Bool.or_self, wrapped_false]
  · rwa [hadd, wrapped_false]
  · exact BeginsAs.of_term hterm

/-! ## Operators -/

theorem Arith.ofSymbol_word {op : Arith} (h : ∀ symbol, op ≠ .other symbol) :
    Arith.ofSymbol op.word.2 = op := by
  cases op with
  | other symbol => exact absurd rfl (h symbol)
  | _ => rfl

theorem Relation.ofSymbol_word {op : Relation} (h : ∀ symbol, op ≠ .other symbol) :
    Relation.ofSymbol op.word.2 = op := by
  cases op with
  | other symbol => exact absurd rfl (h symbol)
  | _ => rfl

theorem Sign.ofSymbol_word {op : Sign} (h : ∀ symbol, op ≠ .other symbol) :
    Sign.ofSymbol op.word.2 = op := by
  cases op with
  | other symbol => exact absurd rfl (h symbol)
  | _ => rfl

/-- A product goes on with the chain of factors its left operand begins. -/
theorem canonical_product {span : Span} {op : Arith} (hop : ∀ symbol, op ≠ .other symbol)
    (hmul : op.isAdditive = false) (hl : Canonical table left) (hr : Canonical table right) :
    Canonical table (.arith span left op right) := by
  have hkind : op.word.1 = .star ∨ op.word.1 = .slash := by
    cases op with
    | add | sub => cases hmul
    | mul => exact Or.inl rfl
    | div => exact Or.inr rfl
    | other symbol => exact absurd rfl (hop symbol)
  have hleft : BeginsAs table .factor .termRest (.arith span left op right)
      (Node.arith span left op right).exprWords fun _ => True := by
    intro begun rest s hs _
    simp only [Node.exprWords, hmul, Bool.false_eq_true, if_false, List.append_assoc,
      List.cons_append] at hs
    obtain ⟨head, s₁, left', s₂, hhead, hbare, hs₂, hlink⟩ := hl.termLeft begun _ s hs trivial
    obtain ⟨t, s₃, ht, hvalue, hs₃⟩ := hs₂.takes
    obtain ⟨right', s₄, hright, hbare', hs₄⟩ := hr.factor begun rest s₃ hs₃ trivial
    refine ⟨head, s₁, _, s₄, hhead, ?_, hs₄, fun m s₅ hm => hlink m s₅ (Reads.times ht hkind hright hm)⟩
    rw [Node.bare, Node.bare, hbare, hbare', hvalue, Arith.ofSymbol_word hop]
  have hterm := ReadsAs.of_termLeft hleft
  have hexpr := BeginsAs.of_term hterm
  have hadd : (Node.arith span left op right).isAdditive = false := hmul
  constructor
  · exact (ReadsAs.of_exprLeft hexpr).paren
  · rwa [hadd, Bool.or_false]
  · rwa [hadd, wrapped_false]
  · exact hexpr

/-- A comparison ends the term its left operand begins. -/
theorem canonical_compare {span : Span} {op : Relation} (hop : ∀ symbol, op ≠ .other symbol)
    (hl : Canonical table left) (hr : Canonical table right) :
    Canonical table (.compare span left op right) := by
  have hkind : op.word.1.isComparison = true := by
    cases op with
    | other symbol => exact absurd rfl (hop symbol)
    | _ => rfl
  have hterm : ReadsAs table .term (.compare span left op right)
      (Node.compare span left op right).exprWords StopsTerm := by
    intro begun rest s hs _
    simp only [Node.exprWords, List.append_assoc, List.cons_append] at hs
    obtain ⟨head, s₁, left', s₂, hhead, hbare, hs₂, hlink⟩ := hl.termLeft begun _ s hs trivial
    obtain ⟨t, s₃, ht, hvalue, hs₃⟩ := hs₂.takes
    obtain ⟨right', s₄, hright, hbare', hs₄⟩ := hr.factor begun rest s₃ hs₃ trivial
    refine ⟨_, s₄, Reads.term hhead (hlink _ s₄ (Reads.compare ht hkind hright)), ?_, hs₄⟩
    rw [Node.bare, Node.bare, hbare, hbare', hvalue, Relation.ofSymbol_word hop]
  have hexpr := BeginsAs.of_term hterm
  have hparen := (ReadsAs.of_exprLeft hexpr).paren
  exact ⟨hparen, BeginsAs.of_factor hparen, hterm, hexpr⟩

/-- A sum goes on with the chain of terms its left operand begins. -/
theorem canonical_sum {span : Span} {op : Arith} (hadd : op.isAdditive = true)
    (hl : Canonical table left) (hr : Canonical table right) :
    Canonical table (.arith span left op right) := by
  have hop : ∀ symbol, op ≠ .other symbol := by
    rintro symbol rfl
    cases hadd
  have hkind : op.word.1 = .plus ∨ op.word.1 = .minus := by
    cases op with
    | add => exact Or.inl rfl
    | sub => exact Or.inr rfl
    | _ => cases hadd
  have hstop : ∀ ws : List Word, StopsTerm (op.word :: ws) := by
    intro ws
    cases op with
    | add | sub => rfl
    | _ => cases hadd
  have hexpr : BeginsAs table .term .exprRest (.arith span left op right)
      (Node.arith span left op right).exprWords StopsTerm := by
    intro begun rest s hs hrest
    simp only [Node.exprWords, hadd, if_true, List.append_assoc, List.cons_append] at hs
    obtain ⟨head, s₁, left', s₂, hhead, hbare, hs₂, hlink⟩ := hl.exprLeft begun _ s hs (hstop _)
    obtain ⟨t, s₃, ht, hvalue, hs₃⟩ := hs₂.takes
    obtain ⟨right', s₄, hright, hbare', hs₄⟩ := hr.term begun rest s₃ hs₃ hrest
    refine ⟨head, s₁, _, s₄, hhead, ?_, hs₄, fun m s₅ hm => hlink m s₅ (Reads.plus ht hkind hright hm)⟩
    rw [Node.bare, Node.bare, hbare, hbare', hvalue, Arith.ofSymbol_word hop]
  have hparen := (ReadsAs.of_exprLeft hexpr).paren
  have hleft := BeginsAs.of_factor hparen
  have hadd' : (Node.arith span left op right).isAdditive = true := hadd
  constructor
  · exact hparen
  · rwa [hadd', Bool.or_true]
  · rw [hadd']
    exact ReadsAs.of_termLeft hleft
  · exact hexpr

theorem canonical_sign {span : Span} {op : Sign} (hop : ∀ symbol, op ≠ .other symbol)
    (hn : Canonical table n) : Canonical table (.sign span op n) := by
  have hkind : op.word.1 = .plus ∨ op.word.1 = .minus := by
    cases op with
    | plus => exact Or.inl rfl
    | minus => exact Or.inr rfl
    | other symbol => exact absurd rfl (hop symbol)
  refine Canonical.of_factor rfl fun begun rest s hs _ => ?_
  simp only [Node.exprWords, List.cons_append] at hs
  obtain ⟨t, s₁, ht, hvalue, hs₁⟩ := hs.takes
  obtain ⟨n', s₂, hn', hbare, hs₂⟩ := hn.factor begun rest s₁ hs₁ trivial
  refine ⟨_, s₂, Reads.sign ht hkind hn', ?_, hs₂⟩
  rw [Node.bare, Node.bare, hbare, hvalue, Sign.ofSymbol_word hop]

/-! ## Factors -/

/-- No expression begins with a closing parenthesis. -/
theorem Parse.Reads.kind_of_expr {known : Option (List Text)} {s s' : State}
    (h : Reads known (.expr n) s s') : s.kind ≠ .rightParen := by
  cases h with
  | expr h _ =>
    cases h with
    | term h _ =>
      cases h with
      | sign ht hk => rw [Parser.Takes.kind_eq ht]; rcases hk with rfl | rfl <;> decide
      | number ht => rw [Parser.Takes.kind_eq ht]; decide
      | str ht => rw [Parser.Takes.kind_eq ht]; decide
      | bool ht => rw [Parser.Takes.kind_eq ht]; decide
      | paren ht => rw [Parser.Takes.kind_eq ht]; decide
      | called h => rw [h.kind_of_call]; decide
      | use ht => rw [Parser.Takes.kind_eq ht]; decide

/-- Arguments with commas between them are read one after the other. -/
theorem reads_args {args : List Node} (h : ∀ a ∈ args, Canonical table a) {begun : Nat}
    {rest : List Word} {s : State}
    (hs : s.At table begun (commas (Node.argWords args) ++ of .rightParen :: rest)) :
    ∃ args' s', Reads none (.args args') s s' ∧ Node.bareAll args' = Node.bareAll args ∧
      s'.At table begun (of .rightParen :: rest) := by
  induction args generalizing s with
  | nil => exact ⟨[], s, Reads.argsNil hs.kind, rfl, hs⟩
  | cons a args ih =>
    obtain ⟨ha, hargs⟩ := List.forall_mem_cons.1 h
    cases args with
    | nil =>
      obtain ⟨a', s₁, hreads, hbare, hs₁⟩ := ha.expr begun _ s hs rfl
      obtain ⟨args', s', hreads', hbare', hs'⟩ := ih hargs (hs₁.pastComma_of_ne (by simp))
      exact ⟨a' :: args', s', Reads.argsCons hreads.kind_of_expr hreads hreads',
        by rw [Node.bareAll, Node.bareAll, hbare, hbare'], hs'⟩
    | cons b args =>
      simp only [Node.argWords, commas, List.append_assoc, List.cons_append] at hs ih
      obtain ⟨a', s₁, hreads, hbare, hs₁⟩ := ha.expr begun _ s hs rfl
      obtain ⟨args', s', hreads', hbare', hs'⟩ := ih hargs hs₁.pastComma
      exact ⟨a' :: args', s', Reads.argsCons hreads.kind_of_expr hreads hreads',
        by rw [Node.bareAll, Node.bareAll, hbare, hbare'], hs'⟩

/-- A call is read back if its arguments are. -/
theorem reads_call {span : Span} {name : Text} {args : List Node} (h : ∀ a ∈ args, Canonical table a)
    {begun : Nat} {rest : List Word} {s : State}
    (hs : s.At table begun ((Node.call span name (calleeOf table name) args).exprWords ++ rest)) :
    ∃ n' s', Reads none (.call n') s s' ∧
      n'.bare = (Node.call span name (calleeOf table name) args).bare ∧ s'.At table begun rest := by
  simp only [Node.exprWords, List.cons_append, List.append_assoc, List.nil_append] at hs
  obtain ⟨t, s₁, ht, hvalue, hs₁⟩ := hs.takes
  obtain ⟨l, s₂, hl, -, hs₂⟩ := hs₁.takes
  obtain ⟨args', s₃, hargs, hbare, hs₃⟩ := reads_args h hs₂
  obtain ⟨r, s', hr, -, hs'⟩ := hs₃.takes
  have hname : Callable none s'.functions t.value := fun _ _ hnone => by cases hnone
  refine ⟨_, s', Reads.call ht hl hargs hr hname, ?_, hs'⟩
  rw [Node.bare, Node.bare, hbare, hvalue, hs'.functions]

theorem canonical_call {span : Span} {name : Text} {args : List Node}
    (h : ∀ a ∈ args, Canonical table a) :
    Canonical table (.call span name (calleeOf table name) args) := by
  refine Canonical.of_factor rfl fun begun rest s hs _ => ?_
  obtain ⟨n', s', hn', hbare, hs'⟩ := reads_call h hs
  exact ⟨n', s', Reads.called hn', hbare, hs'⟩

/-- Every well-formed expression whose calls are resolved by the table is read back. -/
theorem canonical_of_isExpr {S : Text → Prop}
    (h : IsExpr S (fun name callee => callee = calleeOf table name) n) : Canonical table n := by
  induction h with
  | @number span v _ =>
    refine Canonical.of_factor rfl fun begun rest s hs _ => ?_
    obtain ⟨t, s', ht, hvalue, hs'⟩ := hs.takes
    exact ⟨_, s', Reads.number ht (by rw [hvalue]; exact Text.readInt32_ofInt v), rfl, hs'⟩
  | str =>
    refine Canonical.of_factor rfl fun begun rest s hs _ => ?_
    obtain ⟨t, s', ht, rfl, hs'⟩ := hs.takes
    exact ⟨_, s', Reads.str ht, rfl, hs'⟩
  | @bool span b =>
    refine Canonical.of_factor rfl fun begun rest s hs _ => ?_
    obtain ⟨t, s', ht, hvalue, hs'⟩ := hs.takes
    refine ⟨_, s', Reads.bool ht, ?_, hs'⟩
    rw [hvalue]
    cases b <;> rfl
  | use =>
    refine Canonical.of_factor rfl fun begun rest s hs _ => ?_
    obtain ⟨t, s', ht, rfl, hs'⟩ := hs.takes
    exact ⟨_, s', Reads.use ht, rfl, hs'⟩
  | call _ hcallee _ ih =>
    rw [hcallee]
    exact canonical_call ih
  | sign hop _ ih => exact canonical_sign hop ih
  | @arith span left right op hop _ _ ihl ihr =>
    cases hadd : op.isAdditive with
    | true => exact canonical_sum hadd ihl ihr
    | false => exact canonical_product hop hadd ihl ihr
  | compare hop _ _ ihl ihr => exact canonical_compare hop ihl ihr

end Levels

/-! ## Statements -/

section Statements

/-- The words of a phrase other than an expression. -/
def Parse.Phrase.words : Phrase → List Word
  | .declaration n | .assignment n | .loopStart n | .stmt _ n => n.stmtWords
  | .condition n => of .leftParen :: (n.exprWords ++ [of .rightParen])
  | .block _ _ ns => inBraces (Node.bodyWords ns)
  | .function _ f => f.node.stmtWords
  | .stmts _ ns => Node.bodyWords ns
  | .globals ns => ns.flatMap Node.stmtWords
  | .functions fs => fs.flatMap fun f => f.node.stmtWords
  | _ => []

/-- What has to follow a phrase for it to end where it does. -/
def Parse.Phrase.EndsBefore (rest : List Word) : Phrase → Prop
  | .declaration _ | .assignment _ | .loopStart _ | .stmt .. => (headKind rest).endsStmt = true
  | .stmts .. => headKind rest = .rightBrace
  | .globals _ => headKind rest = .func ∨ headKind rest = .endOfFile
  | .functions _ => headKind rest = .endOfFile
  | _ => True

/-- From a state at the words of a phrase a phrase of the same core is read, with nothing in it that was
passed over, up to a state where `rest` follows. -/
def Parse.Phrase.Reread (table : List (Text × Nat)) (begun : Nat) (rest : List Word) (t : State) :
    Phrase → Prop
  | .declaration n => ∃ n' t', Reads none (.declaration n') t t' ∧ n'.bare = n.bare ∧
      t'.At table begun rest
  | .assignment n => ∃ n' t', Reads none (.assignment n') t t' ∧ n'.bare = n.bare ∧
      t'.At table begun rest
  | .loopStart n => ∃ n' t', Reads none (.loopStart n') t t' ∧ n'.bare = n.bare ∧
      t'.At table begun rest
  | .condition n => ∃ n' t', Reads none (.condition n') t t' ∧ n'.bare = n.bare ∧
      t'.At table begun rest
  | .block _ _ ns => ∀ place, ∃ braces ns' t', Reads none (.block place braces ns') t t' ∧
      Node.coreAll ns' = Node.coreAll ns ∧ Node.dropSkips ns' = ns' ∧ t'.At table begun rest
  | .function _ f => ∀ place, ∃ f' t', Reads none (.function place f') t t' ∧ f'.core = f.core ∧
      f'.withoutSkips = f' ∧ t'.At table begun rest
  | .stmt _ n => n.isSkip = false → ∀ place, ∃ n' t', Reads none (.stmt place n') t t' ∧
      n'.core = n.core ∧ n'.withoutSkips = n' ∧ n'.isSkip = false ∧ t'.At table begun rest
  | .stmts _ ns => ∀ place, ∃ ns' t', Reads none (.stmts place ns') t t' ∧
      Node.coreAll ns' = Node.coreAll ns ∧ Node.dropSkips ns' = ns' ∧ t'.At table begun rest
  | .globals ns => ∃ ns' t', Reads none (.globals ns') t t' ∧ ns'.map Node.bare = ns.map Node.bare ∧
      t'.At table begun rest
  | .functions fs => ∃ fs' t', Reads none (.functions fs') t t' ∧
      fs'.map Function.core = fs.map Function.core ∧ fs'.map Function.withoutSkips = fs' ∧
      t'.At table begun rest
  | _ => True

/-- A phrase without functions resolves its calls by one table. -/
theorem Parse.Reads.resolved {known : Option (List Text)} {source : Text} {φ : Phrase} {s s' : State}
    (h : Reads known φ s s') (hs : s.IsSpelled source) (hφ : φ.declared = []) :
    Established (fun _ => True) (fun name callee => callee = calleeOf s.functions name)
      (· = s.functions) φ s s' := by
  refine h.established (fun _ _ _ => trivial) ?_ hs rfl ?_
  · rintro table name rfl
    rfl
  · rw [hφ]
    exact registers_nil

theorem Parse.Reads.canonical {known : Option (List Text)} {source : Text} {n : Node} {s s' : State}
    (h : Reads known (.expr n) s s') (hs : s.IsSpelled source) :
    Canonical s.functions n ∧ s'.functions = s.functions ∧ s'.begun = s.begun := by
  obtain ⟨hn, htable, hb⟩ := h.resolved hs rfl
  exact ⟨canonical_of_isExpr hn, htable, hb⟩

/-- A statement begins with a word that opens a statement. -/
theorem opensStatement_headKind {S : Text → Prop} {C : Text → Callee → Prop} {n : Node}
    (h : IsStmt S C n) (hn : n.isSkip = false) (ws : List Word) :
    opensStatement (headKind (n.stmtWords ++ ws)) = true := by
  have htype : ∀ type : VarType, opensStatement type.word.1 = true := by
    intro type
    cases type <;> rfl
  cases h with
  | declare | declareAs => exact htype _
  | skip => cases hn
  | _ => rfl

theorem endsStmt_of_opensStatement {k : Token.Kind} (h : opensStatement k = true) :
    k.endsStmt = true := by
  cases k <;> first | rfl | cases h

/-- What follows a statement in a body does not go on with it. -/
theorem endsStmt_bodyWords {S : Text → Prop} {C : Text → Callee → Prop} {ns : List Node}
    (h : ∀ n ∈ ns, IsStmt S C n) {rest : List Word} (hrest : headKind rest = .rightBrace) :
    (headKind (Node.bodyWords ns ++ rest)).endsStmt = true := by
  induction ns with
  | nil =>
    rw [Node.bodyWords, List.nil_append, hrest]
    rfl
  | cons n ns ih =>
    obtain ⟨hn, hns⟩ := List.forall_mem_cons.1 h
    rw [Node.bodyWords_cons]
    split
    · exact ih hns
    · rw [List.append_assoc]
      exact endsStmt_of_opensStatement (opensStatement_headKind hn (by simpa using ‹¬n.isSkip = true›) _)

theorem stopsExpr_of_endsStmt {ws : List Word} (h : (headKind ws).endsStmt = true) : StopsExpr ws := by
  simp only [Token.Kind.endsStmt, Bool.and_eq_true] at h
  exact h.1

theorem ne_of_endsStmt {k : Token.Kind} (h : k.endsStmt = true) : k ≠ .assign ∧ k ≠ .else := by
  constructor <;> rintro rfl <;> cases h

theorem word_typeOf {k : Token.Kind} (h : k.isType = true) : (Parser.typeOf k).word.1 = k := by
  cases k <;> first | rfl | cases h

theorem Parse.Reads.isSkip_declaration {known : Option (List Text)} {n : Node} {s s' : State}
    (h : Reads known (.declaration n) s s') : n.withoutSkips = n ∧ n.isSkip = false := by
  cases h <;> exact ⟨rfl, rfl⟩

theorem Parse.Reads.isSkip_assignment {known : Option (List Text)} {n : Node} {s s' : State}
    (h : Reads known (.assignment n) s s') : n.withoutSkips = n ∧ n.isSkip = false := by
  cases h
  exact ⟨rfl, rfl⟩

theorem Parse.Reads.isSkip_call {known : Option (List Text)} {n : Node} {s s' : State}
    (h : Reads known (.call n) s s') : n.withoutSkips = n ∧ n.isSkip = false := by
  cases h
  exact ⟨rfl, rfl⟩

variable {known : Option (List Text)} {source : Text} {table : List (Text × Nat)} {begun : Nat}
  {table' : List (Text × Nat)} {begun' : Nat} {rest : List Word} {t : State}

theorem reread_declare {k : Token.Kind} {span : Span} {name : Text} (hk : k.isType = true)
    (hrest : (headKind rest).endsStmt = true)
    (ht : t.At table begun ((Node.declare span name (Parser.typeOf k)).stmtWords ++ rest)) :
    (Phrase.declaration (.declare span name (Parser.typeOf k))).Reread table begun rest t := by
  obtain ⟨type, t₁, htype, -, ht₁⟩ := ht.takes
  obtain ⟨name', t', hname, rfl, ht'⟩ := ht₁.takes
  rw [word_typeOf hk] at htype
  refine ⟨_, t', Reads.declare htype hk hname ?_, rfl, ht'⟩
  rw [ht'.kind]
  exact (ne_of_endsStmt hrest).1

theorem reread_declareAs {k : Token.Kind} {span : Span} {name : Text} {value : Node}
    (hk : k.isType = true) (hvalue : Canonical table value) (hrest : (headKind rest).endsStmt = true)
    (ht : t.At table begun ((Node.declareAs span name (Parser.typeOf k) value).stmtWords ++ rest)) :
    (Phrase.declaration (.declareAs span name (Parser.typeOf k) value)).Reread table begun rest t := by
  obtain ⟨type, t₁, htype, -, ht₁⟩ := ht.takes
  obtain ⟨name', t₂, hname, rfl, ht₂⟩ := ht₁.takes
  obtain ⟨eq, t₃, heq, -, ht₃⟩ := ht₂.takes
  obtain ⟨value', t', hvalue', hbare, ht'⟩ := hvalue.expr begun rest t₃ ht₃ (stopsExpr_of_endsStmt hrest)
  rw [word_typeOf hk] at htype
  refine ⟨_, t', Reads.declareAs htype hk hname heq hvalue', ?_, ht'⟩
  rw [Node.bare, Node.bare, hbare]

theorem reread_assign {span : Span} {name : Text} {value : Node} (hvalue : Canonical table value)
    (hrest : (headKind rest).endsStmt = true)
    (ht : t.At table begun ((Node.assign span name value).stmtWords ++ rest)) :
    (Phrase.assignment (.assign span name value)).Reread table begun rest t := by
  obtain ⟨name', t₁, hname, rfl, ht₁⟩ := ht.takes
  obtain ⟨eq, t₂, heq, -, ht₂⟩ := ht₁.takes
  obtain ⟨value', t', hvalue', hbare, ht'⟩ := hvalue.expr begun rest t₂ ht₂ (stopsExpr_of_endsStmt hrest)
  refine ⟨_, t', Reads.assign hname heq hvalue', ?_, ht'⟩
  rw [Node.bare, Node.bare, hbare]

theorem reread_condition {n : Node} (hn : Canonical table n)
    (ht : t.At table begun ((Phrase.condition n).words ++ rest)) :
    (Phrase.condition n).Reread table begun rest t := by
  unfold Phrase.words at ht
  simp only [List.cons_append, List.append_assoc] at ht
  obtain ⟨l, t₁, hl, -, ht₁⟩ := ht.takes
  obtain ⟨n', t₂, hn', hbare, ht₂⟩ := hn.expr begun _ t₁ ht₁ rfl
  obtain ⟨r, t', hr, -, ht'⟩ := ht₂.takes
  exact ⟨n', t', Reads.condition hl hn' hr, hbare, ht'⟩

theorem reread_params {ps : List Param} (h : ∀ p ∈ ps, IsVariable p.name p.type)
    (ht : t.At table begun (commas (ps.map Node.paramWords) ++ of .rightParen :: rest)) :
    ∃ ps' t', Reads none (.params ps') t t' ∧ ps'.map Param.bare = ps.map Param.bare ∧
      t'.At table begun (of .rightParen :: rest) := by
  induction ps generalizing t with
  | nil => exact ⟨[], t, Reads.paramsNil ht.kind, rfl, ht⟩
  | cons p ps ih =>
    obtain ⟨hp, hps⟩ := List.forall_mem_cons.1 h
    obtain ⟨k, hk, htype⟩ : ∃ k : Token.Kind, k.isType = true ∧ p.type = Parser.typeOf k := by
      have hknown := hp.type
      cases htype : p.type with
      | int => exact ⟨.intType, rfl, rfl⟩
      | string => exact ⟨.stringType, rfl, rfl⟩
      | bool => exact ⟨.boolType, rfl, rfl⟩
      | unknown => exact absurd htype hknown
    have hparam : ∀ {ws : List Word}, (headKind ws).endsStmt = true →
        t.At table begun (Node.paramWords p ++ ws) →
        ∃ span t₁, Reads none (.declaration (.declare span p.name p.type)) t t₁ ∧
          t₁.At table begun ws := by
      intro ws hws ht
      obtain ⟨span, name, type⟩ := p
      subst htype
      have hdeclare : t.At table begun ((Node.declare span name (Parser.typeOf k)).stmtWords ++ ws) := ht
      obtain ⟨n', t₁, hn', hbare, ht₁⟩ := reread_declare hk hws hdeclare
      cases hn' with
      | declare htype hk' hname hne =>
        simp only [Node.bare, Node.declare.injEq, true_and] at hbare
        exact ⟨_, t₁, by rw [← hbare.1, ← hbare.2]; exact Reads.declare htype hk' hname hne, ht₁⟩
      | declareAs => cases hbare
    -- a comma is printed behind every parameter but the last
    cases ps with
    | nil =>
      obtain ⟨span, t₁, hreads, ht₁⟩ := hparam rfl ht
      obtain ⟨ps', t', hreads', hbare, ht'⟩ := ih hps (ht₁.pastComma_of_ne (by simp))
      exact ⟨_, t', Reads.paramsCons hreads hreads', by rw [List.map_cons, List.map_cons, hbare]; rfl, ht'⟩
    | cons q ps =>
      simp only [List.map_cons, commas, List.append_assoc, List.cons_append] at ht ih
      obtain ⟨span, t₁, hreads, ht₁⟩ := hparam rfl ht
      obtain ⟨ps', t', hreads', hbare, ht'⟩ := ih hps ht₁.pastComma
      exact ⟨_, t', Reads.paramsCons hreads hreads',
        by rw [List.map_cons, hbare]; rfl, ht'⟩

/-! ## One case for each phrase with parts

What was read from `s` to `s'` is read again where its words stand, if the same holds of its parts. The states that
were passed while reading say which table resolves a call and how many calls were begun. -/

/-- What was read from one state to another is read again wherever its words stand in the place of the first. -/
def Parse.Phrase.Rereads (φ : Phrase) (s s' : State) : Prop :=
  ∀ rest t, φ.EndsBefore rest → t.At s.functions s.begun (φ.words ++ rest) →
    φ.Reread s'.functions s'.begun rest t

variable {k : Token.Kind} {w : Word} {ws : List Word} {tok l c c' r e : Token} {span : Span} {place : Parser.Place}
  {cond init step n : Node} {braces braces' : Braces} {body yes no ns : List Node}
  {s s₁ s₂ s₃ s₄ s₅ s₆ s₇ s₈ s' : State}

/-- A word is taken in step with a token. -/
theorem Parse.State.At.follow (ht : t.At s.functions s.begun (w :: ws)) (h : Takes k tok s s₁) :
    ∃ tok' t₁, Takes w.1 tok' t t₁ ∧ tok'.value = w.2 ∧ t₁.At s₁.functions s₁.begun ws := by
  rw [h.functions, h.begun]
  exact ht.takes

theorem rereads_block (hl : Takes .leftBrace l s s₁) (hns : (Phrase.stmts place ns).Rereads s₁ s₂)
    (hr : Takes .rightBrace r s₂ s') : (Phrase.block place braces ns).Rereads s s' := by
  intro rest t _ ht place
  unfold Phrase.words at ht
  simp only [inBraces, List.cons_append, List.append_assoc] at ht
  obtain ⟨l', t₁, hl', -, ht₁⟩ := ht.follow hl
  obtain ⟨ns', t₂, hns', hcore, hwhole, ht₂⟩ := hns _ t₁ (by exact rfl) ht₁ ⟨l'.span.start, place.depth + 1⟩
  obtain ⟨r', t', hr', -, ht'⟩ := ht₂.follow hr
  exact ⟨_, ns', t', Reads.block hl' hns' hr', hcore, hwhole, ht'⟩

/-- The calls of the parameters and of the body are counted from the beginning of the function. -/
theorem rereads_function {name : Token} {ps : List Param} (htok : Takes .func tok s s₁)
    (hname : Takes .call name s₁ s₂) (hnew : s.functions.lookup name.value = none)
    (hl : Takes .leftParen l s₂.begin s₃) (hps : ∀ p ∈ ps, IsVariable p.name p.type)
    (htable : s₄.functions = s₃.functions) (hbegun : s₄.begun = s₃.begun) (hr : Takes .rightParen r s₄ s₅)
    (hbody : (Phrase.block place braces body).Rereads s₅ s') :
    (Phrase.function place ⟨span, name.value, ps, braces, body⟩).Rereads s (s'.register name.value s.begun) := by
  intro rest t _ ht place
  unfold Phrase.words at ht
  simp only [Function.node, Node.stmtWords, List.cons_append, List.append_assoc] at ht
  obtain ⟨tok', t₁, htok', -, ht₁⟩ := ht.follow htok
  obtain ⟨name', t₂, hname', hvalue, ht₂⟩ := ht₁.follow hname
  have hbegin : t₂.begin.At s₂.begin.functions s₂.begin.begun _ := ht₂.begin
  obtain ⟨l', t₃, hl', -, ht₃⟩ := hbegin.follow hl
  obtain ⟨ps', t₄, hps', hbare, ht₄⟩ := reread_params hps ht₃
  rw [← htable, ← hbegun] at ht₄
  obtain ⟨r', t₅, hr', -, ht₅⟩ := ht₄.follow hr
  obtain ⟨braces', body', t', hbody', hcore, hwhole, ht'⟩ := hbody rest t₅ trivial ht₅ place
  have hnew' : t.functions.lookup name'.value = none := by rw [ht.functions, hvalue]; exact hnew
  refine ⟨_, _, Reads.function htok' hname' hnew' hl' hps' hr' hbody', ?_, ?_, ?_⟩
  · simp only [Function.core, hvalue, hbare, hcore]
  · simp only [Function.withoutSkips, hwhole]
  · rw [hvalue, ht.begun]
    exact ht'.register name.value s.begun

/-- A keyword and the condition after it. -/
theorem reread_header (htok : Takes k tok s s₁) (hcond : (Phrase.condition cond).Rereads s₁ s₂)
    (ht : t.At s.functions s.begun (w :: of .leftParen :: (cond.exprWords ++ of .rightParen :: ws))) :
    ∃ tok' t₁ cond' t₂, Takes w.1 tok' t t₁ ∧ Reads none (.condition cond') t₁ t₂ ∧ cond'.bare = cond.bare ∧
      t₂.At s₂.functions s₂.begun ws := by
  obtain ⟨tok', t₁, htok', -, ht₁⟩ := ht.follow htok
  obtain ⟨cond', t₂, hcond', hbare, ht₂⟩ := hcond ws t₁ trivial (by unfold Phrase.words; simpa using ht₁)
  exact ⟨tok', t₁, cond', t₂, htok', hcond', hbare, ht₂⟩

theorem rereads_when (htok : Takes .if tok s s₁) (hcond : (Phrase.condition cond).Rereads s₁ s₂)
    (hyes : (Phrase.block place braces yes).Rereads s₂ s') :
    (Phrase.stmt place (.when span cond braces yes)).Rereads s s' := by
  intro rest t hrest ht _ place
  unfold Phrase.words at ht
  simp only [Node.stmtWords, List.cons_append, List.append_assoc] at ht
  obtain ⟨tok', t₁, cond', t₂, htok', hcond', hbare, ht₂⟩ := reread_header htok hcond ht
  obtain ⟨braces', yes', t', hyes', hcore, hwhole, ht'⟩ := hyes rest t₂ trivial ht₂ place
  have helse : t'.kind ≠ .else := by rw [ht'.kind]; exact (ne_of_endsStmt hrest).2
  refine ⟨_, t', Reads.when htok' hcond' hyes' helse, ?_, ?_, rfl, ht'⟩
  · rw [Node.core_when, Node.core_when, hbare, hcore]
  · rw [Node.withoutSkips, hwhole]

theorem rereads_choose (htok : Takes .if tok s s₁) (hcond : (Phrase.condition cond).Rereads s₁ s₂)
    (hyes : (Phrase.block place braces yes).Rereads s₂ s₃) (he : Takes .else e s₃ s₄)
    (hno : (Phrase.block place braces' no).Rereads s₄ s') :
    (Phrase.stmt place (.choose span cond braces yes braces' no)).Rereads s s' := by
  intro rest t _ ht _ place
  unfold Phrase.words at ht
  simp only [Node.stmtWords, List.cons_append, List.append_assoc] at ht
  obtain ⟨tok', t₁, cond', t₂, htok', hcond', hbare, ht₂⟩ := reread_header htok hcond ht
  obtain ⟨braces₁, yes', t₃, hyes', hcore, hwhole, ht₃⟩ := hyes _ t₂ trivial ht₂ place
  obtain ⟨e', t₄, he', -, ht₄⟩ := ht₃.follow he
  obtain ⟨braces₂, no', t', hno', hcore', hwhole', ht'⟩ := hno rest t₄ trivial ht₄ place
  refine ⟨_, t', Reads.choose htok' hcond' hyes' he' hno', ?_, ?_, rfl, ht'⟩
  · rw [Node.core_choose, Node.core_choose, hbare, hcore, hcore']
  · rw [Node.withoutSkips, hwhole, hwhole']

theorem rereads_whileLoop (htok : Takes .while tok s s₁) (hcond : (Phrase.condition cond).Rereads s₁ s₂)
    (hbody : (Phrase.block place braces body).Rereads s₂ s') :
    (Phrase.stmt place (.whileLoop span cond braces body)).Rereads s s' := by
  intro rest t _ ht _ place
  unfold Phrase.words at ht
  simp only [Node.stmtWords, List.cons_append, List.append_assoc] at ht
  obtain ⟨tok', t₁, cond', t₂, htok', hcond', hbare, ht₂⟩ := reread_header htok hcond ht
  obtain ⟨braces', body', t', hbody', hcore, hwhole, ht'⟩ := hbody rest t₂ trivial ht₂ place
  refine ⟨_, t', Reads.whileLoop htok' hcond' hbody', ?_, ?_, rfl, ht'⟩
  · rw [Node.core_whileLoop, Node.core_whileLoop, hbare, hcore]
  · rw [Node.withoutSkips, hwhole]

/-- The condition of a counting loop is a comparison that stands without parentheses, so it is a term. -/
theorem rereads_forLoop (htok : Takes .for tok s s₁) (hl : Takes .leftParen l s₁ s₂)
    (hinit : (Phrase.loopStart init).Rereads s₂ s₃) (hc : Takes .semicolon c s₃ s₄)
    (hcond : Canonical s₄.functions cond) (hcmp : cond.isComparison = true)
    (htable : s₅.functions = s₄.functions) (hbegun : s₅.begun = s₄.begun) (hc' : Takes .semicolon c' s₅ s₆)
    (hstep : (Phrase.assignment step).Rereads s₆ s₇) (hr : Takes .rightParen r s₇ s₈)
    (hbody : (Phrase.block place braces body).Rereads s₈ s') :
    (Phrase.stmt place (.forLoop span init cond step braces body)).Rereads s s' := by
  intro rest t _ ht _ place
  have hadd : cond.isAdditive = false := by cases cond <;> first | rfl | cases hcmp
  have hterm := hcond.term
  rw [hadd, wrapped_false] at hterm
  unfold Phrase.words at ht
  simp only [Node.stmtWords, List.cons_append, List.append_assoc] at ht
  obtain ⟨tok', t₁, htok', -, ht₁⟩ := ht.follow htok
  obtain ⟨l', t₂, hl', -, ht₂⟩ := ht₁.follow hl
  obtain ⟨init', t₃, hinit', hbare, ht₃⟩ := hinit _ t₂ (by exact rfl) ht₂
  obtain ⟨c₁, t₄, hc₁, -, ht₄⟩ := ht₃.follow hc
  obtain ⟨cond', t₅, hcond', hbare', ht₅⟩ := hterm _ _ t₄ ht₄ rfl
  have hcmp' : cond'.isComparison = true := by
    rw [← Node.isComparison_bare, hbare', Node.isComparison_bare, hcmp]
  rw [← htable, ← hbegun] at ht₅
  obtain ⟨c₂, t₆, hc₂, -, ht₆⟩ := ht₅.follow hc'
  obtain ⟨step', t₇, hstep', hbare'', ht₇⟩ := hstep _ t₆ (by exact rfl) ht₆
  obtain ⟨r', t₈, hr', -, ht₈⟩ := ht₇.follow hr
  obtain ⟨braces', body', t', hbody', hcore, hwhole, ht'⟩ := hbody rest t₈ trivial ht₈ place
  refine ⟨_, t', Reads.forLoop htok' hl' hinit' hc₁ hcond' hcmp' hc₂ hstep' hr' hbody', ?_, ?_, rfl, ht'⟩
  · rw [Node.core_forLoop, Node.core_forLoop, hbare, hbare', hbare'', hcore]
  · rw [Node.withoutSkips, hwhole]

/-- What was passed over has no words, and nothing stands in its place. -/
theorem rereads_stmtsCons_skip (hskip : n.isSkip = true) (htable : s₁.functions = s.functions)
    (hbegun : s₁.begun = s.begun) (hns : (Phrase.stmts place ns).Rereads s₁ s') :
    (Phrase.stmts place (n :: ns)).Rereads s s' := by
  intro rest t hrest ht place
  replace ht : t.At s.functions s.begun (Node.bodyWords (n :: ns) ++ rest) := ht
  rw [Node.bodyWords_cons, hskip, if_pos rfl, ← htable, ← hbegun] at ht
  rw [Node.coreAll_cons_skip hskip]
  exact hns rest t hrest ht place

theorem rereads_stmtsCons {S : Text → Prop} {C : Text → Callee → Prop} (hskip : n.isSkip = false)
    (hstmt : IsStmt S C n) (hstmts : ∀ n ∈ ns, IsStmt S C n) (hn : (Phrase.stmt place n).Rereads s s₁)
    (hns : (Phrase.stmts place ns).Rereads s₁ s') : (Phrase.stmts place (n :: ns)).Rereads s s' := by
  intro rest t hrest ht place
  replace ht : t.At s.functions s.begun (Node.bodyWords (n :: ns) ++ rest) := ht
  rw [Node.bodyWords_cons, hskip, if_neg Bool.false_ne_true, List.append_assoc] at ht
  have hopens := opensStatement_headKind hstmt hskip (Node.bodyWords ns ++ rest)
  rw [← ht.kind] at hopens
  obtain ⟨n', t₁, hn', hcore, hwhole, hskip', ht₁⟩ := hn _ t (endsStmt_bodyWords hstmts hrest) ht hskip place
  obtain ⟨ns', t', hns', hcores, hwholes, ht'⟩ := hns rest t₁ hrest ht₁ place
  refine ⟨n' :: ns', t', Reads.stmtsCons ?_ ?_ hn' hns', ?_, ?_, ht'⟩
  · intro hk
    rw [hk] at hopens
    cases hopens
  · intro hk
    rw [hk] at hopens
    cases hopens
  · rw [Node.coreAll_cons_stmt hskip', Node.coreAll_cons_stmt hskip, hcore, hcores]
  · rw [Node.dropSkips, hskip', if_neg Bool.false_ne_true, hwhole, hwholes]

/-- What follows a global declaration does not go on with it. -/
theorem endsStmt_globalWords {S : Text → Prop} {C : Text → Callee → Prop}
    (h : ∀ n ∈ ns, IsStmt S C n ∧ n.isSkip = false)
    (hrest : headKind rest = .func ∨ headKind rest = .endOfFile) :
    (headKind (ns.flatMap Node.stmtWords ++ rest)).endsStmt = true := by
  cases ns with
  | nil =>
    rw [List.flatMap_nil, List.nil_append]
    rcases hrest with h | h <;> rw [h] <;> rfl
  | cons m ns =>
    obtain ⟨hm, hskip⟩ := h m (List.mem_cons_self ..)
    rw [List.flatMap_cons, List.append_assoc]
    exact endsStmt_of_opensStatement (opensStatement_headKind hm hskip _)

theorem rereads_globalsCons {S : Text → Prop} {C : Text → Callee → Prop}
    (hformed : ∀ n ∈ ns, IsStmt S C n ∧ n.isSkip = false) (hn : (Phrase.declaration n).Rereads s s₁)
    (hns : (Phrase.globals ns).Rereads s₁ s') : (Phrase.globals (n :: ns)).Rereads s s' := by
  intro rest t hrest ht
  replace ht : t.At s.functions s.begun ((n :: ns).flatMap Node.stmtWords ++ rest) := ht
  rw [List.flatMap_cons, List.append_assoc] at ht
  obtain ⟨n', t₁, hn', hbare, ht₁⟩ := hn _ t (endsStmt_globalWords hformed hrest) ht
  obtain ⟨ns', t', hns', hbares, ht'⟩ := hns rest t₁ hrest ht₁
  exact ⟨n' :: ns', t', Reads.globalsCons hn' hns', by rw [List.map_cons, List.map_cons, hbare, hbares], ht'⟩

theorem rereads_functionsCons {f : Function} {fs : List Function} (hf : (Phrase.function .top f).Rereads s s₁)
    (hfs : (Phrase.functions fs).Rereads s₁ s') : (Phrase.functions (f :: fs)).Rereads s s' := by
  intro rest t hrest ht
  replace ht : t.At s.functions s.begun ((f :: fs).flatMap (fun f => f.node.stmtWords) ++ rest) := ht
  rw [List.flatMap_cons, List.append_assoc] at ht
  obtain ⟨f', t₁, hf', hcore, hwhole, ht₁⟩ := hf _ t trivial ht .top
  obtain ⟨fs', t', hfs', hcores, hwholes, ht'⟩ := hfs rest t₁ hrest ht₁
  exact ⟨f' :: fs', t', Reads.functionsCons hf' hfs', by rw [List.map_cons, List.map_cons, hcore, hcores],
    by rw [List.map_cons, hwhole, hwholes], ht'⟩

/-- A statement that is a function is read again as one. -/
theorem rereads_stmtFunction {f : Function} (hf : (Phrase.function place f).Rereads s s') :
    (Phrase.stmt place f.node).Rereads s s' := by
  intro rest t _ ht _ place
  obtain ⟨f', t', hf', hcore, hwhole, ht'⟩ := hf rest t trivial ht place
  refine ⟨f'.node, t', Reads.stmtFunction hf', ?_, ?_, rfl, ht'⟩
  · rw [← Function.node_core, hcore, Function.node_core]
  · rw [← Function.node_withoutSkips, hwhole]

theorem rereads_stmtDeclaration (hwhole : n.withoutSkips = n) (hn : (Phrase.declaration n).Rereads s s') :
    (Phrase.stmt place n).Rereads s s' := by
  intro rest t hrest ht _ place
  obtain ⟨n', t', hn', hbare, ht'⟩ := hn rest t hrest ht
  obtain ⟨hwhole', hskip⟩ := hn'.isSkip_declaration
  refine ⟨n', t', Reads.stmtDeclaration hn', ?_, hwhole', hskip, ht'⟩
  rw [Node.core, Node.core, hwhole, hwhole', hbare]

theorem rereads_stmtAssignment (hwhole : n.withoutSkips = n) (hn : (Phrase.assignment n).Rereads s s') :
    (Phrase.stmt place n).Rereads s s' := by
  intro rest t hrest ht _ place
  obtain ⟨n', t', hn', hbare, ht'⟩ := hn rest t hrest ht
  obtain ⟨hwhole', hskip⟩ := hn'.isSkip_assignment
  refine ⟨n', t', Reads.stmtAssignment hn', ?_, hwhole', hskip, ht'⟩
  rw [Node.core, Node.core, hwhole, hwhole', hbare]

/-- A call that is a statement is resolved by the table after it, which is the one before it. -/
theorem rereads_stmtCall (hn : Reads known (.call n) s s') (hs : s.IsSpelled source) :
    (Phrase.stmt place n).Rereads s s' := by
  intro rest t _ ht _ place
  obtain ⟨⟨hexpr, -⟩, hfun, hb⟩ := hn.resolved hs rfl
  cases hn with
  | call _ _ _ _ _ =>
    rw [hfun] at hexpr ht ⊢
    cases hexpr with
    | call _ _ hargs =>
      obtain ⟨n', t', hn', hbare, ht'⟩ := reads_call (fun a ha => canonical_of_isExpr (hargs a ha)) ht
      obtain ⟨hwhole, hskip⟩ := hn'.isSkip_call
      refine ⟨n', t', Reads.stmtCall hn', ?_, hwhole, hskip, hb.symm ▸ ht'⟩
      rw [Node.core, Node.core, hwhole, hbare]
      rfl

/-- What was read is well-formed, whatever is asked of names and of calls. -/
theorem Parse.Reads.shaped {φ : Phrase} (h : Reads known φ s s') (hs : s.IsSpelled source) :
    φ.Formed (fun _ => True) fun _ _ => True :=
  (h.established (I := fun _ => True) (fun _ _ _ => trivial) (fun _ _ _ => trivial) hs trivial
    fun _ _ _ _ _ => trivial).formed

/-- From the words of what was read, the same is read again. -/
theorem Parse.Reads.rereads {φ : Phrase} (h : Reads known φ s s') (hs : s.IsSpelled source) : φ.Rereads s s' := by
  -- The second reading goes in step with the first, which says of each state what its table resolves.
  induction h with
  | declare htype hk hname _ =>
    intro rest t hrest ht
    rw [hname.functions, htype.functions, hname.begun, htype.begun]
    exact reread_declare hk hrest ht
  | declareAs htype hk hname heq hvalue _ =>
    intro rest t hrest ht
    obtain ⟨hcanonical, hfun, hb⟩ := hvalue.canonical (heq.isSpelled (hname.isSpelled (htype.isSpelled hs)))
    rw [heq.functions, hname.functions, htype.functions] at hfun hcanonical
    rw [hfun, hb, heq.begun, hname.begun, htype.begun]
    exact reread_declareAs hk hcanonical hrest ht
  | assign hname heq hvalue _ =>
    intro rest t hrest ht
    obtain ⟨hcanonical, hfun, hb⟩ := hvalue.canonical (heq.isSpelled (hname.isSpelled hs))
    rw [heq.functions, hname.functions] at hfun hcanonical
    rw [hfun, hb, heq.begun, hname.begun]
    exact reread_assign hcanonical hrest ht
  | condition hl hn hr _ =>
    intro rest t _ ht
    obtain ⟨hcanonical, hfun, hb⟩ := hn.canonical (hl.isSpelled hs)
    rw [hl.functions] at hfun hcanonical
    rw [hr.functions, hr.begun, hfun, hb, hl.begun]
    exact reread_condition hcanonical ht
  | startDeclaration _ ih =>
    intro rest t hrest ht
    obtain ⟨n', t', hn', hbare, ht'⟩ := ih hs rest t hrest ht
    exact ⟨n', t', Reads.startDeclaration hn', hbare, ht'⟩
  | startAssignment _ ih =>
    intro rest t hrest ht
    obtain ⟨n', t', hn', hbare, ht'⟩ := ih hs rest t hrest ht
    exact ⟨n', t', Reads.startAssignment hn', hbare, ht'⟩
  | block hl _ hr ih => exact rereads_block hl (ih (hl.isSpelled hs)) hr
  | @function _ _ _ _ _ _ _ _ _ _ s₂ _ _ _ _ htok hname hnew hl hps hr _ _ ih =>
    have hs₃ := hl.isSpelled (s := s₂.begin) (hname.isSpelled (htok.isSpelled hs))
    obtain ⟨hparams, htable, hbegun⟩ := hps.resolved hs₃ rfl
    exact rereads_function htok hname hnew hl hparams htable hbegun hr (ih (hr.isSpelled (hps.isSpelled hs₃)))
  | stmtFunction _ ih => exact rereads_stmtFunction (ih hs)
  | stmtDeclaration hn ih => exact rereads_stmtDeclaration hn.isSkip_declaration.1 (ih hs)
  | stmtAssignment hn ih => exact rereads_stmtAssignment hn.isSkip_assignment.1 (ih hs)
  | stmtCall hn _ => exact rereads_stmtCall hn hs
  | skip => exact fun _ _ _ _ hskip => by cases hskip
  | when htok hcond _ _ ih ih' =>
    have hs₁ := htok.isSpelled hs
    exact rereads_when htok (ih hs₁) (ih' (hcond.isSpelled hs₁))
  | choose htok hcond hyes he _ ih ih' ih'' =>
    have hs₁ := htok.isSpelled hs
    have hs₂ := hcond.isSpelled hs₁
    exact rereads_choose htok (ih hs₁) (ih' hs₂) he (ih'' (he.isSpelled (hyes.isSpelled hs₂)))
  | whileLoop htok hcond _ ih ih' =>
    have hs₁ := htok.isSpelled hs
    exact rereads_whileLoop htok (ih hs₁) (ih' (hcond.isSpelled hs₁))
  | forLoop htok hl hinit hc hcond hcmp hc' hstep hr _ ihinit _ ihstep ihbody =>
    have hs₂ := hl.isSpelled (htok.isSpelled hs)
    have hs₄ := hc.isSpelled (hinit.isSpelled hs₂)
    have hs₆ := hc'.isSpelled (hcond.isSpelled hs₄)
    obtain ⟨hexpr, htable, hbegun⟩ := hcond.resolved hs₄ rfl
    exact rereads_forLoop htok hl (ihinit hs₂) hc (canonical_of_isExpr hexpr) hcmp htable hbegun hc' (ihstep hs₆) hr
      (ihbody (hr.isSpelled (hstep.isSpelled hs₆)))
  | stmtsNil =>
    intro rest t hrest ht place
    rw [Phrase.words, Node.bodyWords, List.nil_append] at ht
    exact ⟨[], t, Reads.stmtsNil (ht.kind.trans hrest), rfl, rfl, ht⟩
  | @stmtsCons _ n _ _ _ _ _ _ hn hns ih ih' =>
    have hs₁ := hn.isSpelled hs
    -- a skipped token is not printed: the second reading goes on without it, from the same table
    cases hskip : n.isSkip with
    | true =>
      have hdeclared : n.functions = [] := by
        cases n <;> first | exact functions_skip _ _ | cases hskip
      obtain ⟨-, htable, hbegun⟩ := hn.resolved hs hdeclared
      rw [Phrase.declared, hdeclared] at hbegun
      exact rereads_stmtsCons_skip hskip htable hbegun (ih' hs₁)
    | false => exact rereads_stmtsCons hskip (hn.shaped hs) (hns.shaped hs₁) (ih hs) (ih' hs₁)
  | globalsNil =>
    intro rest t hrest ht
    rw [Phrase.words, List.flatMap_nil, List.nil_append] at ht
    refine ⟨[], t, Reads.globalsNil ?_, rfl, ht⟩
    rw [ht.kind]
    rcases hrest with h | h <;> rw [h] <;> rfl
  | @globalsCons _ ns _ _ _ hn hns ih ih' =>
    have hs₁ := hn.isSpelled hs
    have hformed : ∀ m ∈ ns, IsStmt (fun _ => True) (fun _ _ => True) m ∧ m.isSkip = false := by
      intro m hm
      obtain ⟨hm', hdecl⟩ := hns.shaped hs₁ m hm
      exact ⟨hm', by cases m <;> first | rfl | cases hdecl⟩
    exact rereads_globalsCons hformed (ih hs) (ih' hs₁)
  | functionsNil =>
    intro rest t hrest ht
    rw [Phrase.words, List.flatMap_nil, List.nil_append] at ht
    refine ⟨[], t, Reads.functionsNil ?_, rfl, rfl, ht⟩
    rw [ht.kind, hrest]
    decide
  | functionsCons hf _ ih ih' => exact rereads_functionsCons (ih hs) (ih' (hf.isSpelled hs))
  -- of the phrases inside an expression nothing is asked: an expression is read again as a whole
  | sign | number | str | bool | paren | called | use | termStop | times | compare | term | exprStop
  | plus | expr | argsNil | argsCons | call | paramsNil | paramsCons => exact fun _ _ _ _ => trivial

end Statements

end ScriptKit
