import ScriptKit.Proofs.Format.Reread
import ScriptKit.Proofs.Grammar.Rules
import ScriptKit.Proofs.Tree.Formed

/-!
# The grammar of expressions

The documented grammar of expressions is

    expression := term (('+' | '-') term)*
    term       := factor (('*' | '/') factor)* [comparison factor]
    factor     := ('+' | '-') factor | number | string | truth value | '(' expression ')'
                | call '(' [expression (',' expression)*] ')' | name

`Derives` says what its rules derive, with the tree of each phrase: the operators of a repetition associate to the
left, and a comparison ends its term. The rules look at no token beyond their phrase. The parser decides by the
token ahead, and it comes to the same if the phrase is followed by a token that cannot go on with it: the levels of
`Reads` at which each form of phrase is read (`Form.Read`) are those at which the printer's words are read back.

The parser meets the end of the tokens only if it takes the last of them. As long as tokens are left it does not
matter how they end (`Unhurried`).

**Theorem (`expression_complete`).** Every derivable expression is parsed to its tree, and it has one tree.
-/

namespace ScriptKit

open Parse Word

/-! ## Derivations -/

/-- The forms of phrases: the symbols of the grammar, with `product` for the factors of a term that are multiplied
and divided, and `arguments` for one or more expressions with commas between them. -/
inductive Form where
  | expression (n : Node)
  | term (n : Node)
  | product (n : Node)
  | factor (n : Node)
  | arguments (ns : List Node)

/-- The words `ws` are derived from a symbol of the grammar, with the tree of the form. -/
inductive Derives (table : List (Text × Nat)) : Form → List Word → Prop
  | expression {n : Node} {ws : List Word} : Derives table (.term n) ws → Derives table (.expression n) ws
  | sum {span : Span} {k : Token.Kind} {value : Text} {left right : Node} {ls rs : List Word} :
      Derives table (.expression left) ls → k = .plus ∨ k = .minus → Derives table (.term right) rs →
      Derives table (.expression (.arith span left (.ofSymbol value) right)) (ls ++ (k, value) :: rs)
  | term {n : Node} {ws : List Word} : Derives table (.product n) ws → Derives table (.term n) ws
  | compare {span : Span} {k : Token.Kind} {value : Text} {left right : Node} {ls rs : List Word} :
      Derives table (.product left) ls → k.isComparison = true → Derives table (.factor right) rs →
      Derives table (.term (.compare span left (.ofSymbol value) right)) (ls ++ (k, value) :: rs)
  | product {n : Node} {ws : List Word} : Derives table (.factor n) ws → Derives table (.product n) ws
  | times {span : Span} {k : Token.Kind} {value : Text} {left right : Node} {ls rs : List Word} :
      Derives table (.product left) ls → k = .star ∨ k = .slash → Derives table (.factor right) rs →
      Derives table (.product (.arith span left (.ofSymbol value) right)) (ls ++ (k, value) :: rs)
  | sign {span : Span} {k : Token.Kind} {value : Text} {n : Node} {ws : List Word} :
      k = .plus ∨ k = .minus → Derives table (.factor n) ws →
      Derives table (.factor (.sign span (.ofSymbol value) n)) ((k, value) :: ws)
  | number {span : Span} {value : Text} {v : Int32} :
      value.readInt32 = some v → Derives table (.factor (.number span v)) [(.number, value)]
  | str {span : Span} {value : Text} : Derives table (.factor (.str span value)) [(.string, value)]
  | bool {span : Span} {value : Text} : Derives table (.factor (.bool span (value == "true"))) [(.bool, value)]
  | paren {l r : Text} {n : Node} {ws : List Word} : Derives table (.expression n) ws →
      Derives table (.factor n) ((.leftParen, l) :: (ws ++ [(.rightParen, r)]))
  | callEmpty {span : Span} {name l r : Text} :
      Derives table (.factor (.call span name (calleeOf table name) []))
        [(.call, name), (.leftParen, l), (.rightParen, r)]
  | call {span : Span} {name l r : Text} {ns : List Node} {ws : List Word} : Derives table (.arguments ns) ws →
      Derives table (.factor (.call span name (calleeOf table name) ns))
        ((.call, name) :: (.leftParen, l) :: (ws ++ [(.rightParen, r)]))
  | use {span : Span} {value : Text} : Derives table (.factor (.use span value)) [(.name, value)]
  | argument {n : Node} {ws : List Word} : Derives table (.expression n) ws → Derives table (.arguments [n]) ws
  | arguments {comma : Text} {n : Node} {ns : List Node} {ws rest : List Word} :
      Derives table (.expression n) ws → Derives table (.arguments ns) rest →
      Derives table (.arguments (n :: ns)) (ws ++ (.comma, comma) :: rest)

/-! ## How they are read -/

section Read

variable {table : List (Text × Nat)}

/-- The words `ws` are read as arguments where a closing parenthesis follows. -/
def ArgsRead (table : List (Text × Nat)) (ns : List Node) (ws : List Word) : Prop :=
  ∀ begun rest s, s.At table begun (ws ++ rest) → headKind rest = .rightParen →
    ∃ ns' s', Reads none (.args ns') s s' ∧ Node.bareAll ns' = Node.bareAll ns ∧ s'.At table begun rest

/-- The level of `Reads` at which a form of phrase is read. -/
def Form.Read (table : List (Text × Nat)) (ws : List Word) : Form → Prop
  | .expression n => BeginsAs table .term .exprRest n ws StopsTerm
  | .term n => ReadsAs table .term n ws StopsTerm
  | .product n => BeginsAs table .factor .termRest n ws fun _ => True
  | .factor n => ReadsAs table .factor n ws fun _ => True
  | .arguments ns => ArgsRead table ns ws

variable {span : Span} {k : Token.Kind} {value l r : Text} {left right n : Node} {ns : List Node}
  {ls rs ws rest : List Word}

theorem read_sum (hl : BeginsAs table .term .exprRest left ls StopsTerm) (hk : k = .plus ∨ k = .minus)
    (hr : ReadsAs table .term right rs StopsTerm) :
    BeginsAs table .term .exprRest (.arith span left (.ofSymbol value) right) (ls ++ (k, value) :: rs) StopsTerm := by
  intro begun rest s hs hrest
  rw [List.append_assoc, List.cons_append] at hs
  have hstop : StopsTerm ((k, value) :: (rs ++ rest)) := by rcases hk with rfl | rfl <;> rfl
  obtain ⟨head, s₁, left', s₂, hhead, hbare, hs₂, hlink⟩ := hl begun _ s hs hstop
  obtain ⟨t, s₃, ht, hvalue, hs₃⟩ := hs₂.takes
  obtain ⟨right', s₄, hright, hbare', hs₄⟩ := hr begun rest s₃ hs₃ hrest
  refine ⟨head, s₁, _, s₄, hhead, ?_, hs₄, fun m s₅ hm => hlink m s₅ (Reads.plus ht hk hright hm)⟩
  rw [Node.bare, Node.bare, hbare, hbare', hvalue]

theorem read_times (hl : BeginsAs table .factor .termRest left ls fun _ => True) (hk : k = .star ∨ k = .slash)
    (hr : ReadsAs table .factor right rs fun _ => True) :
    BeginsAs table .factor .termRest (.arith span left (.ofSymbol value) right) (ls ++ (k, value) :: rs)
      fun _ => True := by
  intro begun rest s hs _
  rw [List.append_assoc, List.cons_append] at hs
  obtain ⟨head, s₁, left', s₂, hhead, hbare, hs₂, hlink⟩ := hl begun _ s hs trivial
  obtain ⟨t, s₃, ht, hvalue, hs₃⟩ := hs₂.takes
  obtain ⟨right', s₄, hright, hbare', hs₄⟩ := hr begun rest s₃ hs₃ trivial
  refine ⟨head, s₁, _, s₄, hhead, ?_, hs₄, fun m s₅ hm => hlink m s₅ (Reads.times ht hk hright hm)⟩
  rw [Node.bare, Node.bare, hbare, hbare', hvalue]

/-- A comparison ends its term, whatever follows. -/
theorem read_compare (hl : BeginsAs table .factor .termRest left ls fun _ => True) (hk : k.isComparison = true)
    (hr : ReadsAs table .factor right rs fun _ => True) :
    ReadsAs table .term (.compare span left (.ofSymbol value) right) (ls ++ (k, value) :: rs) StopsTerm := by
  intro begun rest s hs _
  rw [List.append_assoc, List.cons_append] at hs
  obtain ⟨head, s₁, left', s₂, hhead, hbare, hs₂, hlink⟩ := hl begun _ s hs trivial
  obtain ⟨t, s₃, ht, hvalue, hs₃⟩ := hs₂.takes
  obtain ⟨right', s₄, hright, hbare', hs₄⟩ := hr begun rest s₃ hs₃ trivial
  refine ⟨_, s₄, Reads.term hhead (hlink _ s₄ (Reads.compare ht hk hright)), ?_, hs₄⟩
  rw [Node.bare, Node.bare, hbare, hbare', hvalue]

theorem read_sign (hk : k = .plus ∨ k = .minus) (hn : ReadsAs table .factor n ws fun _ => True) :
    ReadsAs table .factor (.sign span (.ofSymbol value) n) ((k, value) :: ws) fun _ => True := by
  intro begun rest s hs _
  obtain ⟨t, s₁, ht, hvalue, hs₁⟩ := hs.takes
  obtain ⟨n', s', hn', hbare, hs'⟩ := hn begun rest s₁ hs₁ trivial
  refine ⟨_, s', Reads.sign ht hk hn', ?_, hs'⟩
  rw [Node.bare, Node.bare, hbare, hvalue]

theorem read_paren (hn : ReadsAs table .expr n ws StopsExpr) :
    ReadsAs table .factor n ((.leftParen, l) :: (ws ++ [(.rightParen, r)])) fun _ => True := by
  intro begun rest s hs _
  rw [List.cons_append, List.append_assoc] at hs
  obtain ⟨t, s₁, ht, -, hs₁⟩ := hs.takes
  obtain ⟨n', s₂, hn', hbare, hs₂⟩ := hn begun _ s₁ hs₁ rfl
  obtain ⟨t', s', ht', -, hs'⟩ := hs₂.takes
  exact ⟨n', s', Reads.paren ht hn' ht', hbare, hs'⟩

theorem read_call (hargs : ArgsRead table ns ws) :
    ReadsAs table .factor (.call span value (calleeOf table value) ns)
      ((.call, value) :: (.leftParen, l) :: (ws ++ [(.rightParen, r)])) fun _ => True := by
  intro begun rest s hs _
  rw [List.cons_append, List.cons_append, List.append_assoc] at hs
  obtain ⟨t, s₁, ht, hvalue, hs₁⟩ := hs.takes
  obtain ⟨o, s₂, ho, -, hs₂⟩ := hs₁.takes
  obtain ⟨ns', s₃, hns, hbare, hs₃⟩ := hargs begun _ s₂ hs₂ rfl
  obtain ⟨c, s', hc, -, hs'⟩ := hs₃.takes
  have hname : Callable none s'.functions t.value := fun _ _ hnone => by cases hnone
  refine ⟨_, s', Reads.called (Reads.call ht ho hns hc hname), ?_, hs'⟩
  rw [Node.bare, Node.bare, hbare, hvalue, hs'.functions]

theorem read_argument (hn : ReadsAs table .expr n ws StopsExpr) : ArgsRead table [n] ws := by
  intro begun rest s hs hclose
  obtain ⟨n', s₁, hn', hbare, hs₁⟩ := hn begun rest s hs (by rw [StopsExpr, hclose]; rfl)
  have hs' := hs₁.pastComma_of_ne (by rw [hclose]; decide)
  have hnil : Reads none (.args []) s₁.pastComma s₁.pastComma := Reads.argsNil (hs'.kind.trans hclose)
  refine ⟨[n'], _, Reads.argsCons hn'.kind_of_expr hn' hnil, ?_, hs'⟩
  simp only [Node.bareAll, hbare]

theorem read_arguments {comma : Text} (hn : ReadsAs table .expr n ws StopsExpr) (hns : ArgsRead table ns rs) :
    ArgsRead table (n :: ns) (ws ++ (.comma, comma) :: rs) := by
  intro begun rest s hs hclose
  rw [List.append_assoc, List.cons_append] at hs
  obtain ⟨n', s₁, hn', hbare, hs₁⟩ := hn begun _ s hs rfl
  obtain ⟨ns', s', hns', hbare', hs'⟩ := hns begun rest s₁.pastComma hs₁.pastComma hclose
  refine ⟨n' :: ns', s', Reads.argsCons hn'.kind_of_expr hn' hns', ?_, hs'⟩
  rw [Node.bareAll, Node.bareAll, hbare, hbare']

/-- What the grammar derives is read at the level of its form. -/
theorem Derives.read {φ : Form} (h : Derives table φ ws) : φ.Read table ws := by
  -- A derivation extends to the left, while the parser reads on to the right: a left operand is read as one
  -- that may be continued.
  induction h with
  | expression _ ih => exact BeginsAs.of_term ih
  | sum _ hk _ ihl ihr => exact read_sum ihl hk ihr
  | term _ ih => exact ReadsAs.of_termLeft ih
  | compare _ hk _ ihl ihr => exact read_compare ihl hk ihr
  | product _ ih => exact BeginsAs.of_factor ih
  | times _ hk _ ihl ihr => exact read_times ihl hk ihr
  | sign hk _ ih => exact read_sign hk ih
  | number hv =>
    intro begun rest s hs _
    obtain ⟨t, s', ht, hvalue, hs'⟩ := hs.takes
    exact ⟨_, s', Reads.number ht (hvalue ▸ hv), rfl, hs'⟩
  | str =>
    intro begun rest s hs _
    obtain ⟨t, s', ht, rfl, hs'⟩ := hs.takes
    exact ⟨_, s', Reads.str ht, rfl, hs'⟩
  | bool =>
    intro begun rest s hs _
    obtain ⟨t, s', ht, rfl, hs'⟩ := hs.takes
    exact ⟨_, s', Reads.bool ht, rfl, hs'⟩
  | paren _ ih => exact read_paren (ReadsAs.of_exprLeft ih)
  | callEmpty =>
    have hnil : ArgsRead table [] [] := fun begun rest s hs hclose =>
      ⟨[], s, Reads.argsNil (hs.kind.trans hclose), rfl, hs⟩
    exact read_call hnil
  | call _ ih => exact read_call ih
  | use =>
    intro begun rest s hs _
    obtain ⟨t, s', ht, rfl, hs'⟩ := hs.takes
    exact ⟨_, s', Reads.use ht, rfl, hs'⟩
  | argument _ ih => exact read_argument (ReadsAs.of_exprLeft ih)
  | arguments _ _ ih ih' => exact read_arguments (ReadsAs.of_exprLeft ih) ih'

end Read

/-! ## Tokens that are left -/

namespace Parser

/-- As long as tokens are left, what is read does not depend on how they end, and nothing is put back. -/
structure Unhurried (ctx : Context) (ending : Except Token.Error Token) {α : Type} (Q : α → Prop) (x : Parser α) :
    Prop where
  result : ∀ s a s', x { ctx with ending := ending } s = .ok (a, s') → Q a
  onward : ∀ s a s', x { ctx with ending := ending } s = .ok (a, s') → s'.tokens.length ≤ s.tokens.length
  same : ∀ s a s', x { ctx with ending := ending } s = .ok (a, s') → s'.tokens ≠ [] → x ctx s = .ok (a, s')

variable {ctx : Context} {ending : Except Token.Error Token} {α β : Type} {Q : α → Prop} {R : β → Prop}
  {x : Parser α} {f : α → Parser β}

theorem Unhurried.bind (hx : Unhurried ctx ending Q x) (hf : ∀ a, Q a → Unhurried ctx ending R (f a)) :
    Unhurried ctx ending R (x >>= f) := by
  refine ⟨fun s b s' h => ?_, fun s b s' h => ?_, fun s b s' h hne => ?_⟩
  all_goals
    obtain ⟨a, s₁, ha, hb⟩ := bind_ok.1 h
    have hfa := hf a (hx.result s a s₁ ha)
  · exact hfa.result s₁ b s' hb
  · exact Nat.le_trans (hfa.onward s₁ b s' hb) (hx.onward s a s₁ ha)
  · have hmore : s₁.tokens ≠ [] := by
      have hless := hfa.onward s₁ b s' hb
      exact List.ne_nil_of_length_pos (Nat.lt_of_lt_of_le (List.length_pos_iff.2 hne) hless)
    exact bind_ok.2 ⟨a, s₁, hx.same s a s₁ ha hmore, hfa.same s₁ b s' hb hne⟩

/-- A step that takes no token and does not look at the end. -/
theorem Unhurried.of_still (hresult : ∀ s a s', x { ctx with ending := ending } s = .ok (a, s') → Q a)
    (htokens : ∀ s a s', x { ctx with ending := ending } s = .ok (a, s') → s'.tokens = s.tokens)
    (hsame : ∀ s a s', x { ctx with ending := ending } s = .ok (a, s') → x ctx s = .ok (a, s')) :
    Unhurried ctx ending Q x :=
  ⟨hresult, fun s a s' h => Nat.le_of_eq (congrArg List.length (htokens s a s' h)), fun s a s' h _ => hsame s a s' h⟩

theorem unhurried_current : Unhurried ctx ending (fun _ => True) current := by
  refine ⟨fun _ _ _ _ => trivial, fun s t s' h => ?_, fun s t s' h hne => ?_⟩
  all_goals obtain ⟨rfl, rfl⟩ := current_ok.1 h
  · exact Nat.le_refl _
  · obtain ⟨t, ts, htokens⟩ := List.exists_cons_of_ne_nil hne
    rw [current_ok, htokens]
    exact ⟨rfl, rfl⟩

theorem unhurried_advance : Unhurried ctx ending (fun _ => True) advance := by
  refine ⟨fun _ _ _ _ => trivial, fun s t s' h => ?_, fun s t s' h hne => ?_⟩
  all_goals obtain ⟨rfl, rfl⟩ := advance_ok h
  · simp [State.after]
  · obtain ⟨tokens, prev, functions, begun⟩ := s
    cases tokens with
    | nil => exact absurd rfl hne
    | cons t rest =>
      cases rest with
      | nil => exact absurd rfl hne
      | cons u rest => rfl

theorem unhurried_rules : Rules (fun _ => True) (Unhurried ctx ending) where
  pure ha := by
    refine .of_still (fun s a s' h => ?_) (fun s a s' h => ?_) fun s a s' h => ?_
    all_goals cases h
    · exact ha
    · rfl
    · rfl
  bind := .bind
  fail _ _ := .of_still (fun _ _ _ h => by cases h) (fun _ _ _ h => by cases h) fun _ _ _ h => by cases h
  get := by
    refine .of_still (fun _ _ _ _ => trivial) (fun s a s' h => ?_) fun s a s' h => ?_
    all_goals cases h
    · rfl
    · rfl
  modify hf := by
    refine .of_still (fun _ _ _ _ => trivial) (fun s a s' h => ?_) fun s a s' h => ?_
    all_goals cases h
    · exact hf s
    · rfl
  current := unhurried_current
  advance := unhurried_advance
  resolve _ := by
    refine .of_still (fun _ _ _ _ => trivial) (fun s a s' h => ?_) fun s a s' h => ?_
    all_goals obtain ⟨rfl, hcallable, rfl⟩ := resolve_ok h
    · rfl
    · exact resolve_run hcallable

/-- What is read as an expression is parsed where tokens are left or the file ends. -/
theorem anyExpression_of_reads {n : Node} {s s' : State} (hn : Reads ctx.builtins (.expr n) s s')
    (hend : s'.tokens = [] → ctx.Complete) : anyExpression ctx s = .ok (n, s') := by
  by_cases hnil : s'.tokens = []
  · exact anyExpression_run (hn.parsed (hend hnil))
  · let eof : Token := ⟨.endOfFile, [], default⟩
    have hcomplete : Context.Complete { ctx with ending := .ok eof } := ⟨eof, rfl, rfl⟩
    have hparsed : (Phrase.expr n).Parsed { ctx with ending := .ok eof } s s' := Reads.parsed hcomplete hn
    exact unhurried_rules.anyExpression.same s n s' (anyExpression_run hparsed) hnil

end Parser

/-! ## The parser and the grammar -/

open ScriptKit.Parser

/-- The words of tokens. -/
def wordsOf (ts : List Token) : List Word := ts.map fun t => (t.kind, t.value)

/-- A derivable expression is read up to a word that cannot go on with it. -/
theorem Derives.reads {table : List (Text × Nat)} {e : Node} {ts rest : List Token} {s : State}
    (h : Derives table (.expression e) (wordsOf ts)) (htokens : s.tokens = ts ++ rest) (htable : s.functions = table)
    (hstop : StopsExpr (wordsOf rest)) :
    ∃ n s', Reads none (.expr n) s s' ∧ n.bare = e.bare ∧ s'.tokens = rest := by
  have hs : s.At table s.begun (wordsOf ts ++ wordsOf rest) :=
    ⟨by rw [htokens, List.map_append]; rfl, htable, rfl⟩
  obtain ⟨n, s', hn, hbare, hs'⟩ := ReadsAs.of_exprLeft h.read s.begun _ s hs hstop
  refine ⟨n, s', hn, hbare, ?_⟩
  have hlength : s'.tokens.length = rest.length := by simpa [wordsOf] using congrArg List.length hs'.words
  have hsuffix : s'.tokens <:+ ts ++ rest := htokens ▸ hn.suffix
  exact (List.suffix_of_suffix_length_le hsuffix (List.suffix_append ts rest) (Nat.le_of_eq hlength)).eq_of_length
    hlength

/-- An expression has one tree. -/
theorem Derives.unique {table : List (Text × Nat)} {e e' : Node} {ts : List Token}
    (h : Derives table (.expression e) (wordsOf ts)) (h' : Derives table (.expression e') (wordsOf ts)) :
    e'.bare = e.bare := by
  let s : State := ⟨ts, .first, table, 0⟩
  let eof : Token := ⟨.endOfFile, [], default⟩
  have hcomplete : Context.Complete ⟨[], .ok eof, none⟩ := ⟨eof, rfl, rfl⟩
  have hparsed : ∀ {e}, Derives table (.expression e) (wordsOf ts) →
      ∃ n s', anyExpression ⟨[], .ok eof, none⟩ s = .ok (n, s') ∧ n.bare = e.bare := by
    intro e h
    obtain ⟨n, s', hn, hbare, -⟩ := h.reads (s := s) (List.append_nil ts).symm rfl rfl
    exact ⟨n, s', anyExpression_run (hn.parsed hcomplete), hbare⟩
  obtain ⟨n, s₁, hn, hbare⟩ := hparsed h
  obtain ⟨n', s₂, hn', hbare'⟩ := hparsed h'
  obtain ⟨rfl, -⟩ := Prod.mk.inj (Except.ok.inj (hn.symm.trans hn'))
  exact hbare'.symm.trans hbare

/-- Tokens that the grammar derives from an expression, where none that follow can go on with it, are what the
parser takes, and it reads them as their tree up to its spans. There is no other tree. -/
theorem expression_complete (ctx : Context) (s : State) (ts rest : List Token) (e : Node)
    (hbuiltins : ctx.builtins = none) (hderives : Derives s.functions (.expression e) (wordsOf ts))
    (htokens : s.tokens = ts ++ rest)
    (hnext : ∀ t ∈ rest.head?, t.kind ∉ [.plus, .minus, .star, .slash] ∧ t.kind.isComparison = false)
    (hend : rest = [] → ctx.Complete) :
    (∃ n s', anyExpression ctx s = .ok (n, s') ∧ s'.tokens = rest ∧ n.bare = e.bare) ∧
      ∀ e', Derives s.functions (.expression e') (wordsOf ts) → e'.bare = e.bare := by
  have hstop : StopsExpr (wordsOf rest) := by
    cases rest with
    | nil => rfl
    | cons t rest =>
      obtain ⟨hkind, hcmp⟩ := hnext t rfl
      simp only [List.mem_cons, List.not_mem_nil, or_false, not_or] at hkind
      simp [StopsExpr, wordsOf, Token.Kind.endsExpr, Token.Kind.endsTerm, hkind, hcmp]
  obtain ⟨n, s', hn, hbare, hrest⟩ := hderives.reads htokens rfl hstop
  refine ⟨⟨n, s', ?_, hrest, hbare⟩, fun e' h' => hderives.unique h'⟩
  exact anyExpression_of_reads (hbuiltins ▸ hn) fun hnil => hend (hrest.symm.trans hnil)

/-- The tokens of a comparison that something is added to. -/
def comparisonPlus : List Token :=
  [⟨.name, "a", default⟩, ⟨.less, "<", default⟩, ⟨.name, "b", default⟩, ⟨.plus, "+", default⟩,
    ⟨.number, "1", default⟩]

/-- A comparison ends its term, so that a sum has it as its left operand, and this is the only way to read it. The
tokens behind it may end in a fault. -/
theorem expression_complete_comparison :
    (∃ n s', anyExpression ⟨"f", .error ⟨.openString, .first⟩, none⟩
        ⟨comparisonPlus ++ [⟨.semicolon, ";", default⟩], .first, [], 0⟩ = .ok (n, s') ∧
      s'.tokens = [⟨.semicolon, ";", default⟩] ∧
      n.bare = .arith default (.compare default (.use default "a") .lt (.use default "b")) .add (.number default 1)) ∧
    ∀ e, Derives [] (.expression e) (wordsOf comparisonPlus) →
      e.bare = .arith default (.compare default (.use default "a") .lt (.use default "b")) .add (.number default 1) := by
  have hcompare : Derives [] (.expression (.compare default (.use default "a") (.ofSymbol "<") (.use default "b")))
      (wordsOf [⟨.name, "a", default⟩] ++ (.less, ("<" : Text)) :: wordsOf [⟨.name, "b", default⟩]) :=
    .expression (.compare (.product .use) rfl .use)
  have hsum : Derives [] (.expression (.arith default
      (.compare default (.use default "a") (.ofSymbol "<") (.use default "b")) (.ofSymbol "+") (.number default 1)))
      (wordsOf comparisonPlus) := .sum hcompare (Or.inl rfl) (.term (.product (.number (by decide))))
  have hresult := expression_complete ⟨"f", .error ⟨.openString, .first⟩, none⟩
    ⟨comparisonPlus ++ [⟨.semicolon, ";", default⟩], .first, [], 0⟩ comparisonPlus [⟨.semicolon, ";", default⟩] _
    rfl hsum rfl (by decide) (fun h => by cases h)
  exact hresult

end ScriptKit
