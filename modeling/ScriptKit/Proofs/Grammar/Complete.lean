import ScriptKit.Proofs.Grammar.Sound

/-!
# The grammar is parsed

Every phrase of the grammar is read by the parser, to the same tree and up to the same state, provided
the tokens end without a fault. The counters that bound the parser are large enough as soon as they
are not smaller than the number of tokens left.

`Phrase.Parsed` says for each kind of phrase which part of the parser reads it. `Reads.parsed` then is one
induction over the rules.
-/

namespace ScriptKit.Parse

open ScriptKit.Parser

/-! ## How a phrase begins -/

theorem Reads.kind_of_call {known : Option (List Text)} {n : Node} {s s' : State}
    (h : Reads known (.call n) s s') : s.kind = .call := by
  cases h with
  | call ht => exact Takes.kind_eq ht

theorem Reads.kind_of_declaration {known : Option (List Text)} {n : Node} {s s' : State}
    (h : Reads known (.declaration n) s s') : s.kind.isType = true := by
  cases h with
  | declare ht hk => rwa [Takes.kind_eq ht]
  | declareAs ht hk => rwa [Takes.kind_eq ht]

theorem Reads.kind_of_assignment {known : Option (List Text)} {n : Node} {s s' : State}
    (h : Reads known (.assignment n) s s') : s.kind = .name := by
  cases h with
  | assign ht => exact Takes.kind_eq ht

theorem Reads.kind_of_function {known : Option (List Text)} {place : Place} {f : Function}
    {s s' : State} (h : Reads known (.function place f) s s') : s.kind = .func := by
  cases h with
  | function ht => exact Takes.kind_eq ht

/-! ## Which part of the parser reads a phrase -/

/-- The reader of one argument of a call. -/
def argument (factor : Parser Node) : Parser Node := do
  let arg ← expression factor
  optionalComma
  return arg

/-- The part of the parser that reads a phrase succeeds between two states. -/
def Phrase.Parsed (ctx : Context) (s s' : State) : Phrase → Prop
  | .factor n => ∀ m, s.tokens.length ≤ m → Parser.factor m ctx s = .ok (n, s')
  | .termRest left n => ∀ m j, s.tokens.length ≤ m → s.tokens.length ≤ j →
      termFrom (Parser.factor m) j left ctx s = .ok (n, s')
  | .term n => ∀ m, s.tokens.length ≤ m → Parser.term (Parser.factor m) ctx s = .ok (n, s')
  | .exprRest left n => ∀ m j, s.tokens.length ≤ m → s.tokens.length ≤ j →
      expressionFrom (Parser.factor m) j left ctx s = .ok (n, s')
  | .expr n => ∀ m, s.tokens.length ≤ m → expression (Parser.factor m) ctx s = .ok (n, s')
  | .args ns => ∀ m j acc, s.tokens.length ≤ m → s.tokens.length < j →
      itemsUntil (· = .rightParen) (argument (Parser.factor m)) j acc ctx s =
        .ok (acc.reverse ++ ns, s')
  | .call n => ∀ m, s.tokens.length ≤ m + 1 → Parser.call (Parser.factor m) ctx s = .ok (n, s')
  | .declaration n => Parser.declaration ctx s = .ok (n, s')
  | .assignment n => Parser.assignment ctx s = .ok (n, s')
  | .params ps => ∀ j acc, s.tokens.length < j →
      itemsUntil (· = .rightParen) parameter j acc ctx s = .ok (acc.reverse ++ ps, s')
  | .condition n => Parser.condition ctx s = .ok (n, s')
  | .loopStart n => Parser.loopStart ctx s = .ok (n, s')
  | .block place braces ns => ∀ m, s.tokens.length ≤ m + 1 →
      Parser.block (statement m) place ctx s = .ok ((braces, ns), s')
  | .function place f => ∀ m, s.tokens.length ≤ m + 1 →
      Parser.function (statement m) place ctx s = .ok (f, s')
  | .stmt place n => ∀ m, s.tokens.length ≤ m → statement m place ctx s = .ok (n, s')
  | .stmts place ns => ∀ m j acc, s.tokens.length ≤ m → s.tokens.length < j →
      itemsUntil (fun k => k = .rightBrace ∨ k = .endOfFile) (statement m place) j acc ctx s =
        .ok (acc.reverse ++ ns, s')
  | .globals ns => ∀ j acc, s.tokens.length ≤ j →
      globalsFrom j acc ctx s = .ok (acc.reverse ++ ns, s')
  | .functions fs => ∀ j acc, s.tokens.length ≤ j →
      functionsFrom j acc ctx s = .ok (acc.reverse ++ fs, s')

/-! ## Factors -/

section Factors

variable {ctx : Context} {s s₁ s₂ s' : State} {k : Token.Kind} {t : Token} {n : Node}

/-- A counter that is not smaller than the number of tokens left is not zero where a token is taken. -/
theorem Takes.exists_succ {m : Nat} (ht : Takes k t s s₁) (hm : s.tokens.length ≤ m) :
    ∃ m', m = m' + 1 ∧ s₁.tokens.length ≤ m' := by
  have hlen := ht.length
  exact ⟨m - 1, by omega, by omega⟩

/-- A sign in front of a factor. -/
theorem parsed_sign (hctx : ctx.Complete) (ht : Takes k t s s₁) (hk : k = .plus ∨ k = .minus)
    (hn : (Phrase.factor n).Parsed ctx s₁ s') :
    (Phrase.factor (.sign (t.span.through n.span) (.ofSymbol t.value) n)).Parsed ctx s s' := by
  intro m hm
  obtain ⟨m, rfl, hm₁⟩ := ht.exists_succ hm
  simp only [factor, bind_ok, current_ok, ht.head, Option.getD_some]
  refine ⟨t, s, ⟨rfl, rfl⟩, ?_⟩
  rw [ht.kind]
  rcases hk with rfl | rfl
  all_goals
    simp only [bind_ok, discard_ok, pure_ok]
    exact ⟨⟨⟩, s₁, ⟨t, advance_of_takes hctx ht⟩, n, s', hn m hm₁, rfl, rfl⟩

theorem parsed_number {v : Int32} (hctx : ctx.Complete) (ht : Takes .number t s s')
    (hv : t.value.readInt32 = some v) : (Phrase.factor (.number t.span v)).Parsed ctx s s' := by
  intro m hm
  obtain ⟨m, rfl, -⟩ := ht.exists_succ hm
  simp only [factor, bind_ok, current_ok, ht.head, Option.getD_some]
  refine ⟨t, s, ⟨rfl, rfl⟩, ?_⟩
  rw [ht.kind]
  simp only [numeral, bind_ok]
  exact ⟨t, s', advance_of_takes hctx ht, by simp [hv]⟩

theorem parsed_str (hctx : ctx.Complete) (ht : Takes .string t s s') :
    (Phrase.factor (.str t.span t.value)).Parsed ctx s s' := by
  intro m hm
  obtain ⟨m, rfl, -⟩ := ht.exists_succ hm
  simp only [factor, bind_ok, current_ok, ht.head, Option.getD_some]
  refine ⟨t, s, ⟨rfl, rfl⟩, ?_⟩
  rw [ht.kind]
  simp only [bind_ok, discard_ok, pure_ok]
  exact ⟨⟨⟩, s', ⟨t, advance_of_takes hctx ht⟩, trivial, rfl⟩

theorem parsed_bool (hctx : ctx.Complete) (ht : Takes .bool t s s') :
    (Phrase.factor (.bool t.span (t.value == "true"))).Parsed ctx s s' := by
  intro m hm
  obtain ⟨m, rfl, -⟩ := ht.exists_succ hm
  simp only [factor, bind_ok, current_ok, ht.head, Option.getD_some]
  refine ⟨t, s, ⟨rfl, rfl⟩, ?_⟩
  rw [ht.kind]
  simp only [bind_ok, discard_ok, pure_ok]
  exact ⟨⟨⟩, s', ⟨t, advance_of_takes hctx ht⟩, trivial, rfl⟩

theorem parsed_paren {t' : Token} (hctx : ctx.Complete) (ht : Takes .leftParen t s s₁)
    (hn : (Phrase.expr n).Parsed ctx s₁ s₂) (ht' : Takes .rightParen t' s₂ s') :
    (Phrase.factor n).Parsed ctx s s' := by
  intro m hm
  obtain ⟨m, rfl, hm₁⟩ := ht.exists_succ hm
  simp only [factor, bind_ok, current_ok, ht.head, Option.getD_some]
  refine ⟨t, s, ⟨rfl, rfl⟩, ?_⟩
  rw [ht.kind]
  simp only [bind_ok, discard_ok, pure_ok]
  exact ⟨⟨⟩, s₁, ⟨t, advance_of_takes hctx ht⟩, n, s₂, hn m hm₁, ⟨⟩, s',
    ⟨t', expect_of_takes hctx ht'⟩, rfl, rfl⟩

theorem parsed_called (hk : s.kind = .call) (hn : (Phrase.call n).Parsed ctx s s') :
    (Phrase.factor n).Parsed ctx s s' := by
  intro m hm
  obtain ⟨t, hhead, hkind⟩ := current_of_kind hk (by decide)
  have ht : Takes .call t s (s.after t) := ⟨hhead, hkind, rfl⟩
  obtain ⟨m, rfl, -⟩ := ht.exists_succ hm
  simp only [factor, bind_ok, current_ok, ht.head, Option.getD_some]
  refine ⟨t, s, ⟨rfl, rfl⟩, ?_⟩
  rw [ht.kind]
  exact hn m hm

theorem parsed_use (hctx : ctx.Complete) (ht : Takes .name t s s') :
    (Phrase.factor (.use t.span t.value)).Parsed ctx s s' := by
  intro m hm
  obtain ⟨m, rfl, -⟩ := ht.exists_succ hm
  simp only [factor, bind_ok, current_ok, ht.head, Option.getD_some]
  refine ⟨t, s, ⟨rfl, rfl⟩, ?_⟩
  rw [ht.kind]
  simp only [nameUse, bind_ok, pure_ok]
  exact ⟨t, s', expect_of_takes hctx ht, rfl, rfl⟩

end Factors

/-! ## Terms, expressions and calls -/

section Expressions

variable {ctx : Context} {s s₁ s₂ s₃ s' : State} {k : Token.Kind} {t : Token} {left right n : Node}

/-- A term ends where no operator of its own follows. -/
theorem parsed_termStop (hctx : ctx.Complete) (hstar : s.kind ≠ .star) (hslash : s.kind ≠ .slash)
    (hcmp : s.kind.isComparison = false) : (Phrase.termRest left left).Parsed ctx s s := by
  intro m j _ _
  cases j with
  | zero => exact pure_ok.2 ⟨rfl, rfl⟩
  | succ j =>
    simp only [termFrom, bind_ok, peek_ok hctx.ended]
    exact ⟨_, _, ⟨rfl, rfl⟩, by simp [hstar, hslash, hcmp]⟩

/-- A product goes on after its right factor. -/
theorem parsed_times (hctx : ctx.Complete) (ht : Takes k t s s₁) (hk : k = .star ∨ k = .slash)
    (hlen : s₂.tokens.length ≤ s₁.tokens.length) (hright : (Phrase.factor right).Parsed ctx s₁ s₂)
    (hn : (Phrase.termRest (.arith (left.span.through right.span) left (.ofSymbol t.value) right)
      n).Parsed ctx s₂ s') : (Phrase.termRest left n).Parsed ctx s s' := by
  intro m j hm hj
  have hlen₁ := ht.length
  obtain ⟨j, rfl, hj⟩ := ht.exists_succ hj
  simp only [termFrom, bind_ok, peek_ok hctx.ended]
  refine ⟨k, s, ⟨(Takes.kind_eq ht).symm, rfl⟩, ?_⟩
  rw [if_pos hk]
  simp only [bind_ok]
  exact ⟨t, s₁, advance_of_takes hctx ht, right, s₂, hright m (by omega),
    hn m j (by omega) (by omega)⟩

/-- A comparison is the last operator of its term. -/
theorem parsed_compare (hctx : ctx.Complete) (ht : Takes k t s s₁) (hk : k.isComparison = true)
    (hright : (Phrase.factor right).Parsed ctx s₁ s') :
    (Phrase.termRest left
      (.compare (left.span.through right.span) left (.ofSymbol t.value) right)).Parsed ctx s s' := by
  intro m j hm hj
  have hlen₁ := ht.length
  obtain ⟨j, rfl, hj⟩ := ht.exists_succ hj
  simp only [termFrom, bind_ok, peek_ok hctx.ended]
  refine ⟨k, s, ⟨(Takes.kind_eq ht).symm, rfl⟩, ?_⟩
  have hne : ¬(k = .star ∨ k = .slash) := by
    rintro (rfl | rfl) <;> simp [Token.Kind.isComparison] at hk
  rw [if_neg hne, if_pos hk]
  simp only [bind_ok, pure_ok]
  exact ⟨t, s₁, advance_of_takes hctx ht, right, s', hright m (by omega), rfl, rfl⟩

theorem parsed_term (hlen : s₁.tokens.length ≤ s.tokens.length)
    (hleft : (Phrase.factor left).Parsed ctx s s₁)
    (hn : (Phrase.termRest left n).Parsed ctx s₁ s') : (Phrase.term n).Parsed ctx s s' := by
  intro m hm
  simp only [term, bind_ok, remaining_ok]
  exact ⟨left, s₁, hleft m hm, _, _, ⟨rfl, rfl⟩, hn m _ (by omega) (Nat.le_refl _)⟩

theorem parsed_exprStop (hctx : ctx.Complete) (hplus : s.kind ≠ .plus) (hminus : s.kind ≠ .minus) :
    (Phrase.exprRest left left).Parsed ctx s s := by
  intro m j _ _
  cases j with
  | zero => exact pure_ok.2 ⟨rfl, rfl⟩
  | succ j =>
    simp only [expressionFrom, bind_ok, peek_ok hctx.ended]
    exact ⟨_, _, ⟨rfl, rfl⟩, by simp [hplus, hminus]⟩

theorem parsed_plus (hctx : ctx.Complete) (ht : Takes k t s s₁) (hk : k = .plus ∨ k = .minus)
    (hlen : s₂.tokens.length ≤ s₁.tokens.length) (hright : (Phrase.term right).Parsed ctx s₁ s₂)
    (hn : (Phrase.exprRest (.arith (left.span.through right.span) left (.ofSymbol t.value) right)
      n).Parsed ctx s₂ s') : (Phrase.exprRest left n).Parsed ctx s s' := by
  intro m j hm hj
  have hlen₁ := ht.length
  obtain ⟨j, rfl, hj⟩ := ht.exists_succ hj
  simp only [expressionFrom, bind_ok, peek_ok hctx.ended]
  refine ⟨k, s, ⟨(Takes.kind_eq ht).symm, rfl⟩, ?_⟩
  rw [if_pos hk]
  simp only [bind_ok]
  exact ⟨t, s₁, advance_of_takes hctx ht, right, s₂, hright m (by omega),
    hn m j (by omega) (by omega)⟩

theorem parsed_expr (hlen : s₁.tokens.length ≤ s.tokens.length)
    (hleft : (Phrase.term left).Parsed ctx s s₁)
    (hn : (Phrase.exprRest left n).Parsed ctx s₁ s') : (Phrase.expr n).Parsed ctx s s' := by
  intro m hm
  simp only [expression, bind_ok, remaining_ok]
  exact ⟨left, s₁, hleft m hm, _, _, ⟨rfl, rfl⟩, hn m _ (by omega) (Nat.le_refl _)⟩

/-- A loop over items ends where its stopping token stands. -/
theorem itemsUntil_stop {α : Type} {stop : Token.Kind → Bool} {item : Parser α} {j : Nat}
    {acc : List α} (hctx : ctx.Complete) (hj : s.tokens.length < j) (hstop : stop s.kind = true) :
    itemsUntil stop item j acc ctx s = .ok (acc.reverse ++ [], s) := by
  obtain ⟨j, rfl⟩ : ∃ j', j = j' + 1 := ⟨j - 1, by omega⟩
  simp only [itemsUntil, bind_ok, peek_ok hctx.ended]
  exact ⟨_, _, ⟨rfl, rfl⟩, by simp [hstop]⟩

/-- A loop over items goes on with the next item where it does not stop. -/
theorem itemsUntil_next {α : Type} {stop : Token.Kind → Bool} {item : Parser α} {j : Nat}
    {acc as : List α} {a : α} (hctx : ctx.Complete) (hstop : stop s.kind = false)
    (ha : item ctx s = .ok (a, s₁))
    (has : itemsUntil stop item j (a :: acc) ctx s₁ = .ok ((a :: acc).reverse ++ as, s')) :
    itemsUntil stop item (j + 1) acc ctx s = .ok (acc.reverse ++ a :: as, s') := by
  simp only [itemsUntil, bind_ok, peek_ok hctx.ended]
  refine ⟨_, _, ⟨rfl, rfl⟩, ?_⟩
  rw [hstop, if_neg Bool.false_ne_true]
  simp only [bind_ok]
  exact ⟨a, s₁, ha, by simpa using has⟩

theorem parsed_argsCons {ns : List Node} (hctx : ctx.Complete) (hk : s.kind ≠ .rightParen)
    (hlen : s₁.tokens.length + 1 ≤ s.tokens.length) (hn : (Phrase.expr n).Parsed ctx s s₁)
    (hns : (Phrase.args ns).Parsed ctx s₁.pastComma s') :
    (Phrase.args (n :: ns)).Parsed ctx s s' := by
  intro m j acc hm hj
  have hcomma := State.length_pastComma s₁
  obtain ⟨j, rfl⟩ : ∃ j', j = j' + 1 := ⟨j - 1, by omega⟩
  refine itemsUntil_next hctx (decide_eq_false hk) ?_ (hns m j (n :: acc) (by omega) (by omega))
  simp only [argument, bind_ok, pure_ok]
  exact ⟨n, s₁, hn m hm, ⟨⟩, _, optionalComma_run hctx s₁, rfl, rfl⟩

theorem resolve_run {name : Token} (h : Callable ctx.builtins s.functions name.value) :
    resolve name ctx s = .ok (calleeOf s.functions name.value, s) := by
  simp only [resolve, bind_ok, get_ok, read_ok]
  refine ⟨_, _, ⟨rfl, rfl⟩, _, _, ⟨rfl, rfl⟩, ?_⟩
  unfold calleeOf
  cases hfun : s.functions.lookup name.value with
  | some number => exact pure_ok.2 ⟨rfl, rfl⟩
  | none =>
    cases hknown : ctx.builtins with
    | none => exact pure_ok.2 ⟨rfl, rfl⟩
    | some names => simp [h hfun names hknown]

/-- The arguments of a call are read up to the closing parenthesis, and its name is resolved then. -/
theorem parsed_call {l r : Token} {args : List Node} (hctx : ctx.Complete) (ht : Takes .call t s s₁)
    (hl : Takes .leftParen l s₁ s₂) (hargs : (Phrase.args args).Parsed ctx s₂ s₃)
    (hr : Takes .rightParen r s₃ s') (hname : Callable ctx.builtins s'.functions t.value) :
    (Phrase.call (.call (t.span.upTo r.span.stop) t.value (calleeOf s'.functions t.value)
      args)).Parsed ctx s s' := by
  intro m hm
  have hlen := ht.length
  have hlen₁ := hl.length
  have hprev : s'.prev = r.span.stop := by rw [hr.next]; rfl
  have hmany := hargs m (s₂.tokens.length + 1) [] (by omega) (Nat.lt_succ_self _)
  simp only [Parser.call, manyUntil, bind_ok, discard_ok, remaining_ok, spanFrom_ok, pure_ok]
  exact ⟨t, s₁, advance_of_takes hctx ht, ⟨⟩, s₂, ⟨l, expect_of_takes hctx hl⟩, args, s₃,
    ⟨_, _, ⟨rfl, rfl⟩, hmany⟩, ⟨⟩, s', ⟨r, advance_of_takes hctx hr⟩, _, s', ⟨rfl, rfl⟩, _, s',
    resolve_run hname, by rw [hprev], rfl⟩

theorem anyExpression_run (hn : (Phrase.expr n).Parsed ctx s s') :
    anyExpression ctx s = .ok (n, s') := by
  simp only [anyExpression, bind_ok, remaining_ok]
  exact ⟨_, _, ⟨rfl, rfl⟩, hn _ (Nat.le_refl _)⟩

end Expressions

/-! ## Statements -/

section Statements

variable {ctx : Context} {s s₁ s₂ s₃ s₄ s₅ s₆ s' : State} {k : Token.Kind} {t l r : Token} {n : Node}
  {place : Place}

theorem parsed_declare {name : Token} (hctx : ctx.Complete) (ht : Takes k t s s₁)
    (hname : Takes .name name s₁ s') (hne : s'.kind ≠ .assign) :
    (Phrase.declaration (.declare (t.span.upTo name.span.stop) name.value (typeOf k))).Parsed
      ctx s s' := by
  have hprev : s'.prev = name.span.stop := by rw [hname.next]; rfl
  show declaration ctx s = .ok (_, s')
  simp only [declaration, bind_ok, peek_ok hctx.ended]
  refine ⟨t, s₁, advance_of_takes hctx ht, name, s', expect_of_takes hctx hname, _, _, ⟨rfl, rfl⟩, ?_⟩
  rw [if_neg hne]
  simp only [bind_ok, spanFrom_ok, pure_ok]
  exact ⟨_, _, ⟨rfl, rfl⟩, by rw [hprev, ht.kind], rfl⟩

theorem parsed_declareAs {name eq : Token} {value : Node} (hctx : ctx.Complete)
    (ht : Takes k t s s₁) (hname : Takes .name name s₁ s₂) (heq : Takes .assign eq s₂ s₃)
    (hvalue : (Phrase.expr value).Parsed ctx s₃ s') :
    (Phrase.declaration (.declareAs (t.span.upTo s'.prev) name.value (typeOf k) value)).Parsed
      ctx s s' := by
  show declaration ctx s = .ok (_, s')
  simp only [declaration, bind_ok, peek_ok hctx.ended]
  refine ⟨t, s₁, advance_of_takes hctx ht, name, s₂, expect_of_takes hctx hname, _, _, ⟨rfl, rfl⟩, ?_⟩
  rw [if_pos (Takes.kind_eq heq)]
  simp only [bind_ok, discard_ok, spanFrom_ok, pure_ok]
  exact ⟨⟨⟩, s₃, ⟨eq, advance_of_takes hctx heq⟩, value, s', anyExpression_run hvalue, _, _,
    ⟨rfl, rfl⟩, by rw [ht.kind], rfl⟩

theorem parsed_assign {name eq : Token} {value : Node} (hctx : ctx.Complete)
    (hname : Takes .name name s s₁) (heq : Takes .assign eq s₁ s₂)
    (hvalue : (Phrase.expr value).Parsed ctx s₂ s') :
    (Phrase.assignment (.assign (name.span.upTo s'.prev) name.value value)).Parsed ctx s s' := by
  show assignment ctx s = .ok (_, s')
  simp only [assignment, bind_ok, discard_ok, spanFrom_ok, pure_ok]
  exact ⟨name, s₁, expect_of_takes hctx hname, ⟨⟩, s₂, ⟨eq, expect_of_takes hctx heq⟩, value, s',
    anyExpression_run hvalue, _, _, ⟨rfl, rfl⟩, rfl, rfl⟩

theorem parsed_paramsCons {span : Span} {name : Text} {type : VarType} {ps : List Param}
    (hctx : ctx.Complete) (hk : s.kind.isType = true) (hlen : s₁.tokens.length + 1 ≤ s.tokens.length)
    (hdecl : (Phrase.declaration (.declare span name type)).Parsed ctx s s₁)
    (hps : (Phrase.params ps).Parsed ctx s₁.pastComma s') :
    (Phrase.params (⟨span, name, type⟩ :: ps)).Parsed ctx s s' := by
  intro j acc hj
  have hcomma := State.length_pastComma s₁
  obtain ⟨j, rfl⟩ : ∃ j', j = j' + 1 := ⟨j - 1, by omega⟩
  refine itemsUntil_next hctx (decide_eq_false ?_) ?_ (hps j _ (by omega))
  · intro he
    simp [he, Token.Kind.isType] at hk
  · simp only [parameter, bind_ok, current_ok]
    refine ⟨_, _, ⟨rfl, rfl⟩, ?_⟩
    rw [kind_current hctx.ended, if_pos hk]
    simp only [bind_ok]
    refine ⟨_, s₁, hdecl, ?_⟩
    simp only [bind_ok, pure_ok]
    exact ⟨⟨⟩, _, optionalComma_run hctx s₁, trivial, rfl⟩

theorem parsed_condition (hctx : ctx.Complete) (hl : Takes .leftParen l s s₁)
    (hn : (Phrase.expr n).Parsed ctx s₁ s₂) (hr : Takes .rightParen r s₂ s') :
    (Phrase.condition n).Parsed ctx s s' := by
  show condition ctx s = .ok (_, s')
  simp only [condition, bind_ok, discard_ok, pure_ok]
  exact ⟨⟨⟩, s₁, ⟨l, expect_of_takes hctx hl⟩, n, s₂, anyExpression_run hn, ⟨⟩, s',
    ⟨r, expect_of_takes hctx hr⟩, rfl, rfl⟩

theorem parsed_startDeclaration (hctx : ctx.Complete) (hk : s.kind.isType = true)
    (hn : (Phrase.declaration n).Parsed ctx s s') : (Phrase.loopStart n).Parsed ctx s s' := by
  show loopStart ctx s = .ok (_, s')
  simp only [loopStart, bind_ok, current_ok]
  refine ⟨_, _, ⟨rfl, rfl⟩, ?_⟩
  rw [kind_current hctx.ended, if_pos hk]
  exact hn

theorem parsed_startAssignment (hctx : ctx.Complete) (hk : s.kind = .name)
    (hn : (Phrase.assignment n).Parsed ctx s s') : (Phrase.loopStart n).Parsed ctx s s' := by
  show loopStart ctx s = .ok (_, s')
  simp only [loopStart, bind_ok, current_ok]
  refine ⟨_, _, ⟨rfl, rfl⟩, ?_⟩
  rw [kind_current hctx.ended, if_neg (by simp [hk, Token.Kind.isType]), if_pos hk]
  exact hn

/-- The statements of a block are read one level deeper. -/
theorem parsed_block {ns : List Node} (hctx : ctx.Complete) (hl : Takes .leftBrace l s s₁)
    (hns : (Phrase.stmts ⟨l.span.start, place.depth + 1⟩ ns).Parsed ctx s₁ s₂)
    (hr : Takes .rightBrace r s₂ s') :
    (Phrase.block place ⟨l.span.upTo r.span.stop, some place.opening, place.depth + 1⟩ ns).Parsed
      ctx s s' := by
  intro m hm
  have hlen := hl.length
  have hprev : s'.prev = r.span.stop := by rw [hr.next]; rfl
  have hmany := hns m (s₁.tokens.length + 1) [] (by omega) (Nat.lt_succ_self _)
  simp only [block, manyUntil, bind_ok, discard_ok, remaining_ok, spanFrom_ok, pure_ok]
  exact ⟨l, s₁, expect_of_takes hctx hl, ns, s₂, ⟨_, _, ⟨rfl, rfl⟩, hmany⟩, ⟨⟩, s',
    ⟨r, expect_of_takes hctx hr⟩, _, _, ⟨rfl, rfl⟩, by rw [hprev], rfl⟩

/-- The name of a function is free when the function begins and taken when it ends. -/
theorem parsed_function {name : Token} {ps : List Param} {braces : Braces} {body : List Node}
    (hctx : ctx.Complete) (ht : Takes .func t s s₁) (hname : Takes .call name s₁ s₂)
    (hnew : s.functions.lookup name.value = none) (hl : Takes .leftParen l s₂.begin s₃)
    (hlen : s₄.tokens.length ≤ s₃.tokens.length) (hps : (Phrase.params ps).Parsed ctx s₃ s₄)
    (hr : Takes .rightParen r s₄ s₅)
    (hbody : (Phrase.block place braces body).Parsed ctx s₅ s') :
    (Phrase.function place ⟨t.span.upTo s'.prev, name.value, ps, braces, body⟩).Parsed ctx s
      (s'.register name.value s.begun) := by
  intro m hm
  have hlen₁ := ht.length
  have hlen₂ := hname.length
  have hlen₃ := hl.length
  have hlen₄ := hr.length
  have hfun : s₂.functions = s.functions := by rw [hname.next, ht.next]; rfl
  have hbegun : s₂.begun = s.begun := by rw [hname.next, ht.next]; rfl
  simp only [function, bind_ok, current_ok]
  refine ⟨t, s₁, advance_of_takes hctx ht, name, s₁, ⟨by simp [hname.head], rfl⟩, ?_⟩
  rw [if_pos hname.kind]
  simp only [bind_ok, discard_ok, get_ok]
  refine ⟨⟨⟩, s₂, ⟨name, advance_of_takes hctx hname⟩, s₂, s₂, ⟨rfl, rfl⟩, s₂, s₂, ⟨rfl, rfl⟩, ?_⟩
  rw [hfun, hnew, if_neg (by simp)]
  simp only [manyUntil, bind_ok, discard_ok, modify_ok, remaining_ok, spanFrom_ok, pure_ok]
  have hmany := hps (s₃.tokens.length + 1) [] (Nat.lt_succ_self _)
  rw [State.tokens_begin] at hlen₃
  exact ⟨⟨⟩, s₂.begin, rfl, ⟨⟩, s₃, ⟨l, expect_of_takes hctx hl⟩, ps, s₄, ⟨_, _, ⟨rfl, rfl⟩, hmany⟩, ⟨⟩, s₅,
    ⟨r, advance_of_takes hctx hr⟩, (braces, body), s', hbody m (by omega), ⟨⟩,
    s'.register name.value s.begun, by rw [hbegun]; rfl, _, _, ⟨rfl, rfl⟩, rfl, rfl⟩

/-- The first token of a statement decides which rule it is read by. -/
theorem statement_run {m : Nat} (hctx : ctx.Complete) (hk : s.kind = k) (hne : k ≠ .endOfFile)
    (hm : s.tokens.length ≤ m)
    (h : ∀ m', s.tokens.length ≤ m' + 1 → (match k with
      | .func => (do return (← function (statement m') place).node : Parser Node)
      | .intType | .stringType | .boolType => declaration
      | .name => assignment
      | .call => anyCall
      | .if => conditional (statement m') place
      | .while => Parser.whileLoop (statement m') place
      | .for => Parser.forLoop (statement m') place
      | _ => passOver) ctx s = .ok (n, s')) :
    statement m place ctx s = .ok (n, s') := by
  obtain ⟨t, hhead, hkind⟩ := current_of_kind hk hne
  have ht : Takes k t s (s.after t) := ⟨hhead, hkind, rfl⟩
  obtain ⟨m, rfl, -⟩ := ht.exists_succ hm
  simp only [statement, bind_ok, peek_ok hctx.ended]
  exact ⟨k, s, ⟨hk.symm, rfl⟩, h m hm⟩

theorem parsed_stmtFunction {f : Function} (hctx : ctx.Complete) (hk : s.kind = .func)
    (hf : (Phrase.function place f).Parsed ctx s s') :
    (Phrase.stmt place f.node).Parsed ctx s s' := by
  intro m hm
  refine statement_run hctx hk (by decide) hm fun m' hm' => ?_
  simp only [bind_ok, pure_ok]
  exact ⟨f, s', hf m' hm', rfl, rfl⟩

theorem parsed_stmtDeclaration (hctx : ctx.Complete) (hk : s.kind.isType = true)
    (hn : (Phrase.declaration n).Parsed ctx s s') : (Phrase.stmt place n).Parsed ctx s s' := by
  intro m hm
  cases hkind : s.kind <;> rw [hkind] at hk <;> simp only [Token.Kind.isType, Bool.false_eq_true] at hk
  all_goals exact statement_run hctx hkind (by decide) hm fun _ _ => hn

theorem parsed_stmtAssignment (hctx : ctx.Complete) (hk : s.kind = .name)
    (hn : (Phrase.assignment n).Parsed ctx s s') : (Phrase.stmt place n).Parsed ctx s s' := by
  intro m hm
  exact statement_run hctx hk (by decide) hm fun _ _ => hn

theorem parsed_stmtCall (hctx : ctx.Complete) (hk : s.kind = .call)
    (hn : (Phrase.call n).Parsed ctx s s') : (Phrase.stmt place n).Parsed ctx s s' := by
  intro m hm
  refine statement_run hctx hk (by decide) hm fun _ _ => ?_
  simp only [anyCall, bind_ok, remaining_ok]
  exact ⟨_, _, ⟨rfl, rfl⟩, hn _ (Nat.le_succ _)⟩

theorem parsed_when {cond : Node} {braces : Braces} {yes : List Node} (hctx : ctx.Complete)
    (ht : Takes .if t s s₁) (hlen : s₂.tokens.length ≤ s₁.tokens.length)
    (hcond : (Phrase.condition cond).Parsed ctx s₁ s₂)
    (hyes : (Phrase.block place braces yes).Parsed ctx s₂ s') (helse : s'.kind ≠ .else) :
    (Phrase.stmt place (.when (t.span.upTo s'.prev) cond braces yes)).Parsed ctx s s' := by
  intro m hm
  have hlen₁ := ht.length
  refine statement_run hctx (Takes.kind_eq ht) (by decide) hm fun m' hm' => ?_
  simp only [conditional, bind_ok, peek_ok hctx.ended]
  refine ⟨t, s₁, advance_of_takes hctx ht, cond, s₂, hcond, (braces, yes), s', hyes m' (by omega), _, _,
    ⟨rfl, rfl⟩, ?_⟩
  rw [if_neg helse]
  simp only [bind_ok, spanFrom_ok, pure_ok]
  exact ⟨_, _, ⟨rfl, rfl⟩, rfl, rfl⟩

theorem parsed_choose {e : Token} {cond : Node} {braces braces' : Braces} {yes no : List Node}
    (hctx : ctx.Complete) (ht : Takes .if t s s₁) (hlen : s₂.tokens.length ≤ s₁.tokens.length)
    (hcond : (Phrase.condition cond).Parsed ctx s₁ s₂) (hlen' : s₃.tokens.length ≤ s₂.tokens.length)
    (hyes : (Phrase.block place braces yes).Parsed ctx s₂ s₃) (he : Takes .else e s₃ s₄)
    (hno : (Phrase.block place braces' no).Parsed ctx s₄ s') :
    (Phrase.stmt place (.choose (t.span.upTo s'.prev) cond braces yes braces' no)).Parsed
      ctx s s' := by
  intro m hm
  have hlen₁ := ht.length
  have hlen₂ := he.length
  refine statement_run hctx (Takes.kind_eq ht) (by decide) hm fun m' hm' => ?_
  simp only [conditional, bind_ok, peek_ok hctx.ended]
  refine ⟨t, s₁, advance_of_takes hctx ht, cond, s₂, hcond, (braces, yes), s₃, hyes m' (by omega), _, _,
    ⟨rfl, rfl⟩, ?_⟩
  rw [if_pos (Takes.kind_eq he)]
  simp only [bind_ok, discard_ok, spanFrom_ok, pure_ok]
  exact ⟨⟨⟩, s₄, ⟨e, advance_of_takes hctx he⟩, (braces', no), s', hno m' (by omega), _, _, ⟨rfl, rfl⟩,
    rfl, rfl⟩

theorem parsed_whileLoop {cond : Node} {braces : Braces} {body : List Node} (hctx : ctx.Complete)
    (ht : Takes .while t s s₁) (hlen : s₂.tokens.length ≤ s₁.tokens.length)
    (hcond : (Phrase.condition cond).Parsed ctx s₁ s₂)
    (hbody : (Phrase.block place braces body).Parsed ctx s₂ s') :
    (Phrase.stmt place (.whileLoop (t.span.upTo s'.prev) cond braces body)).Parsed ctx s s' := by
  intro m hm
  have hlen₁ := ht.length
  refine statement_run hctx (Takes.kind_eq ht) (by decide) hm fun m' hm' => ?_
  simp only [Parser.whileLoop, bind_ok, spanFrom_ok, pure_ok]
  exact ⟨t, s₁, advance_of_takes hctx ht, cond, s₂, hcond, (braces, body), s', hbody m' (by omega), _, _,
    ⟨rfl, rfl⟩, rfl, rfl⟩

/-- The four parts of the head of a loop come one after the other, and the block after them. -/
theorem parsed_forLoop {c c' : Token} {init cond step : Node} {braces : Braces} {body : List Node}
    {s₇ s₈ : State} (hctx : ctx.Complete) (ht : Takes .for t s s₁) (hl : Takes .leftParen l s₁ s₂)
    (hinit : (Phrase.loopStart init).Parsed ctx s₂ s₃) (hc : Takes .semicolon c s₃ s₄)
    (hcond : (Phrase.term cond).Parsed ctx s₄ s₅) (hcmp : cond.isComparison = true)
    (hc' : Takes .semicolon c' s₅ s₆) (hstep : (Phrase.assignment step).Parsed ctx s₆ s₇)
    (hr : Takes .rightParen r s₇ s₈) (hlen : s₈.tokens.length ≤ s₁.tokens.length)
    (hbody : (Phrase.block place braces body).Parsed ctx s₈ s') :
    (Phrase.stmt place (.forLoop (t.span.upTo s'.prev) init cond step braces body)).Parsed
      ctx s s' := by
  intro m hm
  have hlen₁ := ht.length
  refine statement_run hctx (Takes.kind_eq ht) (by decide) hm fun m' hm' => ?_
  have hterm : loopCondition ctx s₄ = .ok (cond, s₅) := by
    simp only [loopCondition, anyTerm, bind_ok, remaining_ok]
    refine ⟨cond, s₅, ⟨_, _, ⟨rfl, rfl⟩, hcond _ (Nat.le_refl _)⟩, ?_⟩
    rw [if_pos hcmp]
    exact pure_ok.2 ⟨rfl, rfl⟩
  simp only [Parser.forLoop, bind_ok, discard_ok, spanFrom_ok, pure_ok]
  exact ⟨t, s₁, advance_of_takes hctx ht, ⟨⟩, s₂, ⟨l, expect_of_takes hctx hl⟩, init, s₃, hinit, ⟨⟩, s₄,
    ⟨c, expect_of_takes hctx hc⟩, cond, s₅, hterm, ⟨⟩, s₆, ⟨c', expect_of_takes hctx hc'⟩, step, s₇,
    hstep, ⟨⟩, s₈, ⟨r, expect_of_takes hctx hr⟩, (braces, body), s', hbody m' (by omega), _, _,
    ⟨rfl, rfl⟩, rfl, rfl⟩

theorem parsed_skip (hctx : ctx.Complete) (ht : Takes k t s s') (hk : opensStatement k = false)
    (hne : k ≠ .endOfFile) : (Phrase.stmt place (.skip t.span t.value)).Parsed ctx s s' := by
  intro m hm
  have hpass : passOver ctx s = .ok (.skip t.span t.value, s') := by
    simp only [passOver, bind_ok, pure_ok]
    exact ⟨t, s', advance_of_takes hctx ht, rfl, rfl⟩
  refine statement_run hctx (Takes.kind_eq ht) hne hm fun _ _ => ?_
  cases k <;> first | exact hpass | cases hk

/-- A list of statements goes on up to the brace that closes it. -/
theorem parsed_stmtsCons {ns : List Node} (hctx : ctx.Complete) (hk : s.kind ≠ .rightBrace)
    (hne : s.kind ≠ .endOfFile) (hlen : s₁.tokens.length + 1 ≤ s.tokens.length)
    (hn : (Phrase.stmt place n).Parsed ctx s s₁) (hns : (Phrase.stmts place ns).Parsed ctx s₁ s') :
    (Phrase.stmts place (n :: ns)).Parsed ctx s s' := by
  intro m j acc hm hj
  obtain ⟨j, rfl⟩ : ∃ j', j = j' + 1 := ⟨j - 1, by omega⟩
  exact itemsUntil_next hctx (by simp [hk, hne]) (hn m hm)
    (hns m j (n :: acc) (by omega) (by omega))

end Statements

/-! ## Programs -/

section Programs

variable {ctx : Context} {s s₁ s' : State}

theorem parsed_globalsNil (hctx : ctx.Complete) (hk : s.kind.isType = false) :
    (Phrase.globals []).Parsed ctx s s := by
  intro j acc _
  cases j with
  | zero => exact pure_ok.2 ⟨by simp, rfl⟩
  | succ j =>
    simp only [globalsFrom, bind_ok, peek_ok hctx.ended]
    refine ⟨_, _, ⟨rfl, rfl⟩, ?_⟩
    rw [hk, if_neg (by simp)]
    exact pure_ok.2 ⟨by simp, rfl⟩

theorem parsed_globalsCons {n : Node} {ns : List Node} (hctx : ctx.Complete)
    (hk : s.kind.isType = true) (hlen : s₁.tokens.length + 1 ≤ s.tokens.length)
    (hn : (Phrase.declaration n).Parsed ctx s s₁) (hns : (Phrase.globals ns).Parsed ctx s₁ s') :
    (Phrase.globals (n :: ns)).Parsed ctx s s' := by
  intro j acc hj
  obtain ⟨j, rfl⟩ : ∃ j', j = j' + 1 := ⟨j - 1, by omega⟩
  simp only [globalsFrom, bind_ok, peek_ok hctx.ended]
  refine ⟨_, _, ⟨rfl, rfl⟩, ?_⟩
  rw [if_pos hk]
  simp only [bind_ok]
  exact ⟨n, s₁, hn, by simpa using hns j (n :: acc) (by omega)⟩

theorem parsed_functionsNil (hctx : ctx.Complete) (hk : s.kind ≠ .func) :
    (Phrase.functions []).Parsed ctx s s := by
  intro j acc _
  cases j with
  | zero => exact pure_ok.2 ⟨by simp, rfl⟩
  | succ j =>
    simp only [functionsFrom, bind_ok, peek_ok hctx.ended]
    refine ⟨_, _, ⟨rfl, rfl⟩, ?_⟩
    rw [if_neg hk]
    exact pure_ok.2 ⟨by simp, rfl⟩

theorem parsed_functionsCons {f : Function} {fs : List Function} (hctx : ctx.Complete)
    (hk : s.kind = .func) (hlen : s₁.tokens.length + 1 ≤ s.tokens.length)
    (hf : (Phrase.function .top f).Parsed ctx s s₁) (hfs : (Phrase.functions fs).Parsed ctx s₁ s') :
    (Phrase.functions (f :: fs)).Parsed ctx s s' := by
  intro j acc hj
  obtain ⟨j, rfl⟩ : ∃ j', j = j' + 1 := ⟨j - 1, by omega⟩
  simp only [functionsFrom, bind_ok, peek_ok hctx.ended]
  refine ⟨_, _, ⟨rfl, rfl⟩, ?_⟩
  rw [if_pos hk]
  simp only [bind_ok, remaining_ok]
  exact ⟨_, _, ⟨rfl, rfl⟩, f, s₁, hf _ (Nat.le_succ _), by simpa using hfs j (f :: acc) (by omega)⟩

end Programs

/-- The parser reads every phrase of the grammar. -/
theorem Reads.parsed {ctx : Context} {φ : Phrase} {s s' : State} (hctx : ctx.Complete)
    (h : Reads ctx.builtins φ s s') : φ.Parsed ctx s s' := by
  -- The parser may take as many steps as there are tokens left. What a part reads, counted by `length_le`,
  -- leaves enough of them for the part behind it.
  induction h with
  | sign ht hk _ ih => exact parsed_sign hctx ht hk ih
  | number ht hv => exact parsed_number hctx ht hv
  | str ht => exact parsed_str hctx ht
  | bool ht => exact parsed_bool hctx ht
  | paren ht _ ht' ih => exact parsed_paren hctx ht ih ht'
  | called hn ih => exact parsed_called hn.kind_of_call ih
  | use ht => exact parsed_use hctx ht
  | termStop h₁ h₂ h₃ => exact parsed_termStop hctx h₁ h₂ h₃
  | times ht hk hright _ ih ih' =>
    have hlen := hright.length_le
    simp only [Phrase.least] at hlen
    exact parsed_times hctx ht hk (by omega) ih ih'
  | compare ht hk _ ih => exact parsed_compare hctx ht hk ih
  | term hleft _ ih ih' =>
    have hlen := hleft.length_le
    simp only [Phrase.least] at hlen
    exact parsed_term (by omega) ih ih'
  | exprStop h₁ h₂ => exact parsed_exprStop hctx h₁ h₂
  | plus ht hk hright _ ih ih' =>
    have hlen := hright.length_le
    simp only [Phrase.least] at hlen
    exact parsed_plus hctx ht hk (by omega) ih ih'
  | expr hleft _ ih ih' =>
    have hlen := hleft.length_le
    simp only [Phrase.least] at hlen
    exact parsed_expr (by omega) ih ih'
  | argsNil hk => exact fun _ _ _ _ hj => itemsUntil_stop hctx hj (decide_eq_true hk)
  | argsCons hk hn _ ih ih' => exact parsed_argsCons hctx hk hn.length_le ih ih'
  | call ht hl _ hr hname ih => exact parsed_call hctx ht hl ih hr hname
  | declare ht _ hname hne => exact parsed_declare hctx ht hname hne
  | declareAs ht _ hname heq _ ih => exact parsed_declareAs hctx ht hname heq ih
  | assign hname heq _ ih => exact parsed_assign hctx hname heq ih
  | paramsNil hk => exact fun _ _ hj => itemsUntil_stop hctx hj (decide_eq_true hk)
  | paramsCons hdecl _ ih ih' =>
    exact parsed_paramsCons hctx hdecl.kind_of_declaration hdecl.length_le ih ih'
  | condition hl _ hr ih => exact parsed_condition hctx hl ih hr
  | startDeclaration hn ih => exact parsed_startDeclaration hctx hn.kind_of_declaration ih
  | startAssignment hn ih => exact parsed_startAssignment hctx hn.kind_of_assignment ih
  | block hl _ hr ih => exact parsed_block hctx hl ih hr
  | function ht hname hnew hl hps hr _ ih ih' =>
    exact parsed_function hctx ht hname hnew hl hps.length_le ih hr ih'
  | stmtFunction hf ih => exact parsed_stmtFunction hctx hf.kind_of_function ih
  | stmtDeclaration hn ih => exact parsed_stmtDeclaration hctx hn.kind_of_declaration ih
  | stmtAssignment hn ih => exact parsed_stmtAssignment hctx hn.kind_of_assignment ih
  | stmtCall hn ih => exact parsed_stmtCall hctx hn.kind_of_call ih
  | when ht hcond _ helse ih ih' =>
    have hlen := hcond.length_le
    simp only [Phrase.least] at hlen
    exact parsed_when hctx ht (by omega) ih ih' helse
  | choose ht hcond hyes he _ ih ih' ih'' =>
    have hlen := hcond.length_le
    have hlen' := hyes.length_le
    simp only [Phrase.least] at hlen hlen'
    exact parsed_choose hctx ht (by omega) ih (by omega) ih' he ih''
  | whileLoop ht hcond _ ih ih' =>
    have hlen := hcond.length_le
    simp only [Phrase.least] at hlen
    exact parsed_whileLoop hctx ht (by omega) ih ih'
  | forLoop ht hl hinit hc hcond hcmp hc' hstep hr _ ih ih' ih'' ih''' =>
    have hlen : _ ≤ _ := hinit.length_le
    have hlen' := hcond.length_le
    have hlen'' := hstep.length_le
    have := hl.length
    have := hc.length
    have := hc'.length
    have := hr.length
    simp only [Phrase.least] at hlen hlen' hlen''
    exact parsed_forLoop hctx ht hl ih hc ih' hcmp hc' ih'' hr (by omega) ih'''
  | skip ht hk hne => exact parsed_skip hctx ht hk hne
  | stmtsNil hk => exact fun _ _ _ _ hj => itemsUntil_stop hctx hj (by simp [hk])
  | stmtsCons hk hne hn _ ih ih' => exact parsed_stmtsCons hctx hk hne hn.length_le ih ih'
  | globalsNil hk => exact parsed_globalsNil hctx hk
  | globalsCons hn _ ih ih' =>
    exact parsed_globalsCons hctx hn.kind_of_declaration hn.length_le ih ih'
  | functionsNil hk => exact parsed_functionsNil hctx hk
  | functionsCons hf _ ih ih' => exact parsed_functionsCons hctx hf.kind_of_function hf.length_le ih ih'

/-- The parser reads declarations and functions that take all the tokens as a program. -/
theorem program_of_reads {ctx : Context} {eof : Token} {gs : List Node} {fs : List Function}
    {s s₁ s₂ : State} (hok : ctx.ending = .ok eof) (heof : eof.kind = .endOfFile)
    (hgs : Reads ctx.builtins (.globals gs) s s₁) (hfs : Reads ctx.builtins (.functions fs) s₁ s₂)
    (hend : s₂.tokens = []) :
    ∃ s', program ctx s = .ok (⟨⟨ctx.file, .first, eof.span.stop⟩, gs, fs⟩, s') := by
  have hctx : ctx.Complete := ⟨eof, hok, heof⟩
  have hgs := hgs.parsed hctx s.tokens.length [] (Nat.le_refl _)
  have hfs := hfs.parsed hctx s₁.tokens.length [] (Nat.le_refl _)
  have htoken : endToken ctx = eof := by simp [endToken, hok]
  have hadvance : advance ctx s₂ = .ok (eof, s₂.after eof) := by
    simp only [advance, bind_ok, current_ok, get_ok, modify_ok, pure_ok]
    exact ⟨_, _, ⟨rfl, rfl⟩, _, _, ⟨rfl, rfl⟩, ⟨⟩, s₂, guardEnding_run hok _ s₂, ⟨⟩, _, rfl,
      by simp [hend, htoken, State.after]⟩
  have hexpect : expect .endOfFile ctx s₂ = .ok (eof, s₂.after eof) := by
    simp only [expect, bind_ok, current_ok]
    refine ⟨_, _, ⟨rfl, rfl⟩, ?_⟩
    rw [hend, List.head?_nil, Option.getD_none, htoken, if_pos heof]
    exact hadvance
  simp only [program, bind_ok, get_ok, remaining_ok, read_ok, pure_ok]
  exact ⟨s₂.after eof, s, s, ⟨rfl, rfl⟩, ⟨⟩, s, guardEnding_run hok _ s, _, _, ⟨rfl, rfl⟩, gs, s₁, hgs, _, _, ⟨rfl, rfl⟩,
    fs, s₂, hfs, eof, _, hexpect, _, _, ⟨rfl, rfl⟩, rfl, rfl⟩

end ScriptKit.Parse
