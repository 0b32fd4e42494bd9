import ScriptKit.Proofs.Grammar.Steps

/-!
# The parser follows the grammar

Whatever the parser accepts is a phrase of the grammar: if a part of the parser succeeds between two
states, then `Reads` holds of its result between the same states.

The parts of the parser are bounded by counters. A loop that is allowed one turn for each token left,
and whose turns take a token each, never runs out of turns; that is what `itemsUntil_ok` and the
hypotheses `s.tokens.length ≤ n` below are about.
-/

namespace ScriptKit.Parser

open Parse

variable {ctx : Context}

/-! ## Lists of items -/

/-- What holds of the items a loop has read, if it holds of no items where the loop stops and is kept by
each turn. A turn takes at least one token. -/
theorem itemsUntil_ok {α : Type} {stop : Token.Kind → Bool} {item : Parser α}
    {Q : List α → State → State → Prop} {bound : Nat} (hctx : ctx.Ended)
    (hnil : ∀ s, stop s.kind = true → Q [] s s)
    (hcons : ∀ a as s s₁ s', s.tokens.length ≤ bound → stop s.kind = false →
      item ctx s = .ok (a, s₁) → Q as s₁ s' → Q (a :: as) s s')
    (hless : ∀ a s s₁, s.tokens.length ≤ bound → stop s.kind = false → item ctx s = .ok (a, s₁) →
      s₁.tokens.length < s.tokens.length)
    (n : Nat) {acc as : List α} {s s' : State} (hn : s.tokens.length < n)
    (hbound : s.tokens.length ≤ bound) (h : itemsUntil stop item n acc ctx s = .ok (as, s')) :
    ∃ new, as = acc.reverse ++ new ∧ Q new s s' := by
  induction n generalizing acc s with
  | zero => omega
  | succ n ih =>
    simp only [itemsUntil, bind_ok, peek_ok hctx] at h
    obtain ⟨_, _, ⟨rfl, rfl⟩, h⟩ := h
    split at h
    · next hstop =>
      obtain ⟨rfl, rfl⟩ := pure_ok.1 h
      exact ⟨[], by simp, hnil _ hstop⟩
    · next hstop =>
      simp only [bind_ok] at h
      obtain ⟨a, s₁, ha, h⟩ := h
      have hstop := Bool.not_eq_true _ ▸ hstop
      have hlt := hless a _ s₁ hbound hstop ha
      obtain ⟨new, rfl, hQ⟩ := ih (by omega) (by omega) h
      exact ⟨a :: new, by simp, hcons a new _ s₁ s' hbound hstop ha hQ⟩

theorem manyUntil_ok {α : Type} {stop : Token.Kind → Bool} {item : Parser α}
    {Q : List α → State → State → Prop} {bound : Nat} (hctx : ctx.Ended)
    (hnil : ∀ s, stop s.kind = true → Q [] s s)
    (hcons : ∀ a as s s₁ s', s.tokens.length ≤ bound → stop s.kind = false →
      item ctx s = .ok (a, s₁) → Q as s₁ s' → Q (a :: as) s s')
    (hless : ∀ a s s₁, s.tokens.length ≤ bound → stop s.kind = false → item ctx s = .ok (a, s₁) →
      s₁.tokens.length < s.tokens.length)
    {as : List α} {s s' : State} (hbound : s.tokens.length ≤ bound)
    (h : manyUntil stop item ctx s = .ok (as, s')) : Q as s s' := by
  simp only [manyUntil, bind_ok, remaining_ok] at h
  obtain ⟨_, _, ⟨rfl, rfl⟩, h⟩ := h
  obtain ⟨new, rfl, hQ⟩ := itemsUntil_ok hctx hnil hcons hless _ (Nat.lt_succ_self _) hbound h
  simpa using hQ

/-! ## Expressions -/

section Expressions

variable {f : Parser Node} {n : Node} {s s' : State}

/-- The turns of a term are the operators after its first factor; a comparison is the last of them. -/
theorem termFrom_reads (hctx : ctx.Ended)
    (hf : ∀ n s s', f ctx s = .ok (n, s') → Reads ctx.builtins (.factor n) s s')
    (m : Nat) {left : Node} (hm : s.tokens.length ≤ m) (h : termFrom f m left ctx s = .ok (n, s')) :
    Reads ctx.builtins (.termRest left n) s s' := by
  induction m generalizing left s with
  | zero =>
    obtain ⟨rfl, rfl⟩ := pure_ok.1 h
    have hkind : s'.kind = .endOfFile := by
      simp [State.kind, List.eq_nil_of_length_eq_zero (Nat.le_zero.1 hm)]
    apply Reads.termStop <;> simp [hkind, Token.Kind.isComparison]
  | succ m ih =>
    simp only [termFrom, bind_ok, peek_ok hctx] at h
    obtain ⟨_, _, ⟨rfl, rfl⟩, h⟩ := h
    split at h
    · next hk =>
      simp only [bind_ok] at h
      obtain ⟨t, s₁, ht, right, s₂, hright, h⟩ := h
      have htakes := takes_of_advance ht rfl (by rcases hk with hk | hk <;> simp [hk])
      have hread := hf _ _ _ hright
      have hlen := hread.length_le
      have hlen' := htakes.length
      exact Reads.times htakes hk hread (ih (by omega) h)
    · next hk =>
      split at h
      · next hcmp =>
        simp only [bind_ok, pure_ok] at h
        obtain ⟨t, s₁, ht, right, s₂, hright, rfl, rfl⟩ := h
        have htakes := takes_of_advance ht rfl (by intro he; simp [he, Token.Kind.isComparison] at hcmp)
        exact Reads.compare htakes hcmp (hf _ _ _ hright)
      · next hcmp =>
        obtain ⟨rfl, rfl⟩ := pure_ok.1 h
        exact Reads.termStop (fun he => hk (Or.inl he)) (fun he => hk (Or.inr he))
          (Bool.not_eq_true _ ▸ hcmp)

theorem term_reads (hctx : ctx.Ended)
    (hf : ∀ n s s', f ctx s = .ok (n, s') → Reads ctx.builtins (.factor n) s s')
    (h : term f ctx s = .ok (n, s')) : Reads ctx.builtins (.term n) s s' := by
  simp only [term, bind_ok, remaining_ok] at h
  obtain ⟨left, s₁, hleft, _, _, ⟨rfl, rfl⟩, h⟩ := h
  exact Reads.term (hf _ _ _ hleft) (termFrom_reads hctx hf _ (Nat.le_refl _) h)

theorem expressionFrom_reads (hctx : ctx.Ended)
    (hf : ∀ n s s', f ctx s = .ok (n, s') → Reads ctx.builtins (.factor n) s s')
    (m : Nat) {left : Node} (hm : s.tokens.length ≤ m)
    (h : expressionFrom f m left ctx s = .ok (n, s')) :
    Reads ctx.builtins (.exprRest left n) s s' := by
  induction m generalizing left s with
  | zero =>
    obtain ⟨rfl, rfl⟩ := pure_ok.1 h
    have hkind : s'.kind = .endOfFile := by
      simp [State.kind, List.eq_nil_of_length_eq_zero (Nat.le_zero.1 hm)]
    apply Reads.exprStop <;> simp [hkind]
  | succ m ih =>
    simp only [expressionFrom, bind_ok, peek_ok hctx] at h
    obtain ⟨_, _, ⟨rfl, rfl⟩, h⟩ := h
    split at h
    · next hk =>
      simp only [bind_ok] at h
      obtain ⟨t, s₁, ht, right, s₂, hright, h⟩ := h
      have htakes := takes_of_advance ht rfl (by rcases hk with hk | hk <;> simp [hk])
      have hread := term_reads hctx hf hright
      have hlen := hread.length_le
      have hlen' := htakes.length
      exact Reads.plus htakes hk hread (ih (by omega) h)
    · next hk =>
      obtain ⟨rfl, rfl⟩ := pure_ok.1 h
      exact Reads.exprStop (fun he => hk (Or.inl he)) (fun he => hk (Or.inr he))

theorem expression_reads (hctx : ctx.Ended)
    (hf : ∀ n s s', f ctx s = .ok (n, s') → Reads ctx.builtins (.factor n) s s')
    (h : expression f ctx s = .ok (n, s')) : Reads ctx.builtins (.expr n) s s' := by
  simp only [expression, bind_ok, remaining_ok] at h
  obtain ⟨left, s₁, hleft, _, _, ⟨rfl, rfl⟩, h⟩ := h
  exact Reads.expr (term_reads hctx hf hleft) (expressionFrom_reads hctx hf _ (Nat.le_refl _) h)

/-- A call goes to the function that the table has under its name, and to a builtin if there is none. -/
theorem resolve_ok {name : Token} {callee : Callee} (h : resolve name ctx s = .ok (callee, s')) :
    callee = calleeOf s.functions name.value ∧ Callable ctx.builtins s.functions name.value ∧
      s' = s := by
  simp only [resolve, bind_ok, get_ok, read_ok] at h
  obtain ⟨_, _, ⟨rfl, rfl⟩, ctx, s, ⟨rfl, rfl⟩, h⟩ := h
  cases hfun : s.functions.lookup name.value with
  | some number =>
    rw [hfun] at h
    obtain ⟨rfl, rfl⟩ := pure_ok.1 h
    simp [calleeOf, Callable, hfun]
  | none =>
    rw [hfun] at h
    cases hknown : ctx.builtins with
    | none =>
      rw [hknown] at h
      obtain ⟨rfl, rfl⟩ := pure_ok.1 h
      simp [calleeOf, Callable, hfun]
    | some names =>
      rw [hknown] at h
      simp only at h
      split at h
      · next hmem =>
        obtain ⟨rfl, rfl⟩ := pure_ok.1 h
        simp [calleeOf, Callable, hfun, hmem]
      · simp at h

/-- A call is read together with the parentheses around its arguments. -/
theorem call_reads (hctx : ctx.Ended)
    (hf : ∀ n s s', f ctx s = .ok (n, s') → Reads ctx.builtins (.factor n) s s')
    (hk : s.kind = .call) (h : call f ctx s = .ok (n, s')) : Reads ctx.builtins (.call n) s s' := by
  simp only [call, bind_ok, discard_ok, spanFrom_ok, pure_ok] at h
  obtain ⟨t, s₁, ht, _, s₂, ⟨l, hl⟩, args, s₃, hargs, _, s₄, ⟨r, hr⟩, _, _, ⟨rfl, rfl⟩, callee, _,
    hcallee, rfl, rfl⟩ := h
  obtain ⟨rfl, hcallable, hs⟩ := resolve_ok hcallee
  subst hs
  have hmany : s₃.kind = .rightParen ∧ Reads ctx.builtins (.args args) s₂ s₃ := by
    refine manyUntil_ok (Q := fun as s s' => s'.kind = .rightParen ∧ Reads ctx.builtins (.args as) s s')
      hctx ?_ ?_ ?_ (Nat.le_refl _) hargs
    · intro s hstop
      have hstop := of_decide_eq_true hstop
      exact ⟨hstop, Reads.argsNil hstop⟩
    · intro a as s s₁ s' _ hstop hitem hread
      obtain ⟨hend, hrest⟩ := hread
      simp only [bind_ok, pure_ok] at hitem
      obtain ⟨arg, s₂, harg, _, s₃, hcomma, rfl, rfl⟩ := hitem
      rw [optionalComma_ok hctx hcomma] at hrest
      exact ⟨hend, Reads.argsCons (of_decide_eq_false hstop) (expression_reads hctx hf harg) hrest⟩
    · intro a s s₁ _ hstop hitem
      simp only [bind_ok, pure_ok] at hitem
      obtain ⟨arg, s₂, harg, _, s₃, hcomma, rfl, rfl⟩ := hitem
      have hlen := (expression_reads hctx hf harg).length_le
      have hlen' := State.length_pastComma s₂
      rw [optionalComma_ok hctx hcomma]
      simp only [Phrase.least] at hlen
      omega
  have htakes := takes_of_advance hr hmany.1 (by decide)
  have hprev : s'.prev = r.span.stop := by rw [htakes.next]; rfl
  rw [hprev]
  exact Reads.call (takes_of_advance ht hk (by decide)) (takes_of_expect hctx hl (by decide)) hmany.2
    htakes hcallable

theorem nameUse_reads (hctx : ctx.Ended) (h : nameUse ctx s = .ok (n, s')) :
    Reads ctx.builtins (.factor n) s s' := by
  simp only [nameUse, bind_ok, pure_ok] at h
  obtain ⟨t, _, ht, rfl, rfl⟩ := h
  exact Reads.use (takes_of_expect hctx ht (by decide))

theorem numeral_reads (hk : s.kind = .number) (h : numeral ctx s = .ok (n, s')) :
    Reads ctx.builtins (.factor n) s s' := by
  simp only [numeral, bind_ok] at h
  obtain ⟨t, _, ht, h⟩ := h
  cases hv : t.value.readInt32 with
  | some v =>
    rw [hv] at h
    obtain ⟨rfl, rfl⟩ := pure_ok.1 h
    exact Reads.number (takes_of_advance ht hk (by decide)) hv
  | none =>
    rw [hv] at h
    simp at h

/-- One case for each token a factor begins with. -/
theorem factor_reads (hctx : ctx.Ended) (m : Nat) (h : factor m ctx s = .ok (n, s')) :
    Reads ctx.builtins (.factor n) s s' := by
  induction m generalizing n s s' with
  | zero => exact nameUse_reads hctx h
  | succ m ih =>
    have hf : ∀ n s s', factor m ctx s = .ok (n, s') → Reads ctx.builtins (.factor n) s s' :=
      fun n s s' h => ih h
    simp only [factor, bind_ok, current_ok] at h
    obtain ⟨t, s, ⟨ht, rfl⟩, h⟩ := h
    have hkind : s.kind = t.kind := by rw [ht, kind_current hctx]
    -- The token that is looked at is the one that is taken.
    have hsame : ∀ {k : Token.Kind} {t' : Token} {s₁ : State}, Takes k t' s s₁ → t' = t := by
      intro k t' s₁ htakes
      rw [ht, htakes.head, Option.getD_some]
    cases hk : t.kind <;> rw [hk] at h
    case plus =>
      simp only [bind_ok, discard_ok, pure_ok] at h
      obtain ⟨_, s₁, ⟨t', hadv⟩, operand, _, hop, rfl, rfl⟩ := h
      have htakes := takes_of_advance hadv (hkind.trans hk) (by decide)
      obtain rfl := hsame htakes
      exact Reads.sign htakes (Or.inl rfl) (ih hop)
    case minus =>
      simp only [bind_ok, discard_ok, pure_ok] at h
      obtain ⟨_, s₁, ⟨t', hadv⟩, operand, _, hop, rfl, rfl⟩ := h
      have htakes := takes_of_advance hadv (hkind.trans hk) (by decide)
      obtain rfl := hsame htakes
      exact Reads.sign htakes (Or.inr rfl) (ih hop)
    case number => exact numeral_reads (hkind.trans hk) h
    case string =>
      simp only [bind_ok, discard_ok, pure_ok] at h
      obtain ⟨_, s₁, ⟨t', hadv⟩, rfl, rfl⟩ := h
      have htakes := takes_of_advance hadv (hkind.trans hk) (by decide)
      obtain rfl := hsame htakes
      exact Reads.str htakes
    case bool =>
      simp only [bind_ok, discard_ok, pure_ok] at h
      obtain ⟨_, s₁, ⟨t', hadv⟩, rfl, rfl⟩ := h
      have htakes := takes_of_advance hadv (hkind.trans hk) (by decide)
      obtain rfl := hsame htakes
      exact Reads.bool htakes
    case leftParen =>
      simp only [bind_ok, discard_ok, pure_ok] at h
      obtain ⟨_, s₁, ⟨t', hadv⟩, inner, s₂, hinner, _, s₃, ⟨r, hr⟩, rfl, rfl⟩ := h
      exact Reads.paren (takes_of_advance hadv (hkind.trans hk) (by decide))
        (expression_reads hctx hf hinner) (takes_of_expect hctx hr (by decide))
    case call => exact Reads.called (call_reads hctx hf (hkind.trans hk) h)
    all_goals exact nameUse_reads hctx h

theorem anyExpression_reads (hctx : ctx.Ended) (h : anyExpression ctx s = .ok (n, s')) :
    Reads ctx.builtins (.expr n) s s' := by
  simp only [anyExpression, bind_ok, remaining_ok] at h
  obtain ⟨_, _, ⟨rfl, rfl⟩, h⟩ := h
  exact expression_reads hctx (fun _ _ _ => factor_reads hctx _) h

theorem anyTerm_reads (hctx : ctx.Ended) (h : anyTerm ctx s = .ok (n, s')) :
    Reads ctx.builtins (.term n) s s' := by
  simp only [anyTerm, bind_ok, remaining_ok] at h
  obtain ⟨_, _, ⟨rfl, rfl⟩, h⟩ := h
  exact term_reads hctx (fun _ _ _ => factor_reads hctx _) h

theorem anyCall_reads (hctx : ctx.Ended) (hk : s.kind = .call) (h : anyCall ctx s = .ok (n, s')) :
    Reads ctx.builtins (.call n) s s' := by
  simp only [anyCall, bind_ok, remaining_ok] at h
  obtain ⟨_, _, ⟨rfl, rfl⟩, h⟩ := h
  exact call_reads hctx (fun _ _ _ => factor_reads hctx _) hk h

end Expressions

/-! ## Statements -/

section Statements

variable {n : Node} {s s' : State}

theorem declaration_reads (hctx : ctx.Ended) (hk : s.kind.isType = true)
    (h : declaration ctx s = .ok (n, s')) : Reads ctx.builtins (.declaration n) s s' := by
  simp only [declaration, bind_ok, peek_ok hctx] at h
  obtain ⟨t, s₁, ht, name, s₂, hname, _, _, ⟨rfl, rfl⟩, h⟩ := h
  have htype := takes_of_advance ht rfl (by intro he; simp [he, Token.Kind.isType] at hk)
  have hname := takes_of_expect hctx hname (by decide)
  rw [htype.kind] at h
  split at h
  · next heq =>
    simp only [bind_ok, discard_ok, spanFrom_ok, pure_ok] at h
    obtain ⟨_, s₃, ⟨eq, hadv⟩, value, s₄, hvalue, _, _, ⟨rfl, rfl⟩, rfl, rfl⟩ := h
    exact Reads.declareAs htype hk hname (takes_of_advance hadv heq (by decide))
      (anyExpression_reads hctx hvalue)
  · next hne =>
    simp only [bind_ok, spanFrom_ok, pure_ok] at h
    obtain ⟨_, _, ⟨rfl, rfl⟩, rfl, rfl⟩ := h
    have hprev : s'.prev = name.span.stop := by rw [hname.next]; rfl
    rw [hprev]
    exact Reads.declare htype hk hname hne

theorem assignment_reads (hctx : ctx.Ended) (h : assignment ctx s = .ok (n, s')) :
    Reads ctx.builtins (.assignment n) s s' := by
  simp only [assignment, bind_ok, discard_ok, spanFrom_ok, pure_ok] at h
  obtain ⟨name, s₁, hname, _, s₂, ⟨eq, heq⟩, value, s₃, hvalue, _, _, ⟨rfl, rfl⟩, rfl, rfl⟩ := h
  exact Reads.assign (takes_of_expect hctx hname (by decide)) (takes_of_expect hctx heq (by decide))
    (anyExpression_reads hctx hvalue)

/-- A parameter is a declaration without a value, and a comma may follow it. -/
theorem parameter_ok {p : Param} (hctx : ctx.Ended) (h : parameter ctx s = .ok (p, s')) :
    ∃ s₁, Reads ctx.builtins (.declaration p.node) s s₁ ∧ s' = s₁.pastComma := by
  simp only [parameter, bind_ok, current_ok] at h
  obtain ⟨_, _, ⟨rfl, rfl⟩, h⟩ := h
  rw [kind_current hctx] at h
  split at h
  · next hk =>
    simp only [bind_ok] at h
    obtain ⟨d, s₁, hd, h⟩ := h
    split at h
    · simp only [bind_ok, pure_ok] at h
      obtain ⟨_, _, hcomma, rfl, rfl⟩ := h
      exact ⟨s₁, declaration_reads hctx hk hd, optionalComma_ok hctx hcomma⟩
    · simp at h
  · simp at h

/-- The loop over parameters stops at the closing parenthesis only. -/
theorem parameters_reads {ps : List Param} (hctx : ctx.Ended)
    (h : manyUntil (· = .rightParen) parameter ctx s = .ok (ps, s')) :
    s'.kind = .rightParen ∧ Reads ctx.builtins (.params ps) s s' := by
  refine manyUntil_ok (Q := fun ps s s' => s'.kind = .rightParen ∧ Reads ctx.builtins (.params ps) s s')
    hctx ?_ ?_ ?_ (Nat.le_refl _) h
  · intro s hstop
    have hstop := of_decide_eq_true hstop
    exact ⟨hstop, Reads.paramsNil hstop⟩
  · intro p ps s s₁ s' _ _ hp ⟨hend, hrest⟩
    obtain ⟨s₂, hdecl, rfl⟩ := parameter_ok hctx hp
    exact ⟨hend, Reads.paramsCons hdecl hrest⟩
  · intro p s s₁ _ _ hp
    obtain ⟨s₂, hdecl, rfl⟩ := parameter_ok hctx hp
    have hlen := hdecl.length_le
    have hlen' := State.length_pastComma s₂
    simp only [Phrase.least] at hlen
    omega

theorem condition_reads (hctx : ctx.Ended) (h : condition ctx s = .ok (n, s')) :
    Reads ctx.builtins (.condition n) s s' := by
  simp only [condition, bind_ok, discard_ok, pure_ok] at h
  obtain ⟨_, s₁, ⟨l, hl⟩, cond, s₂, hcond, _, s₃, ⟨r, hr⟩, rfl, rfl⟩ := h
  exact Reads.condition (takes_of_expect hctx hl (by decide)) (anyExpression_reads hctx hcond)
    (takes_of_expect hctx hr (by decide))

theorem loopStart_reads (hctx : ctx.Ended) (h : loopStart ctx s = .ok (n, s')) :
    Reads ctx.builtins (.loopStart n) s s' := by
  simp only [loopStart, bind_ok, current_ok] at h
  obtain ⟨_, _, ⟨rfl, rfl⟩, h⟩ := h
  rw [kind_current hctx] at h
  split at h
  · next hk => exact Reads.startDeclaration (declaration_reads hctx hk h)
  · split at h
    · exact Reads.startAssignment (assignment_reads hctx h)
    · simp at h

theorem loopCondition_reads (hctx : ctx.Ended) (h : loopCondition ctx s = .ok (n, s')) :
    Reads ctx.builtins (.term n) s s' ∧ n.isComparison = true := by
  simp only [loopCondition, bind_ok] at h
  obtain ⟨cond, s₁, hcond, h⟩ := h
  split at h
  · next hcmp =>
    obtain ⟨rfl, rfl⟩ := pure_ok.1 h
    exact ⟨anyTerm_reads hctx hcond, hcmp⟩
  · simp at h

/-- A reader of statements follows the grammar as long as at most `m` tokens are left. -/
def StatementsRead (ctx : Context) (m : Nat) (st : Place → Parser Node) : Prop :=
  ∀ place n s s', s.tokens.length ≤ m → s.kind ≠ .endOfFile → st place ctx s = .ok (n, s') →
    Reads ctx.builtins (.stmt place n) s s'

variable {m : Nat} {st : Place → Parser Node} {place : Place}

/-- The brace that opens a block is a token less for its statements. -/
theorem block_reads {braces : Braces} {body : List Node} (hctx : ctx.Ended)
    (hst : StatementsRead ctx m st) (hm : s.tokens.length ≤ m + 1)
    (h : block st place ctx s = .ok ((braces, body), s')) :
    Reads ctx.builtins (.block place braces body) s s' := by
  simp only [block, bind_ok, discard_ok, spanFrom_ok, pure_ok, Prod.mk.injEq] at h
  obtain ⟨l, s₁, hl, body, s₂, hbody, _, _, ⟨r, hr⟩, _, _, ⟨rfl, rfl⟩, ⟨rfl, rfl⟩, rfl⟩ := h
  have hl := takes_of_expect hctx hl (by decide)
  have hr := takes_of_expect hctx hr (by decide)
  have hlen := hl.length
  have hmany : s₂.kind = .rightBrace →
      Reads ctx.builtins (.stmts ⟨l.span.start, place.depth + 1⟩ body) s₁ s₂ := by
    have hbound : s₁.tokens.length ≤ m := by omega
    refine manyUntil_ok
      (Q := fun ns s s' => s'.kind = .rightBrace →
        Reads ctx.builtins (.stmts ⟨l.span.start, place.depth + 1⟩ ns) s s')
      hctx ?_ ?_ ?_ hbound hbody
    · intro s _ hend
      exact Reads.stmtsNil hend
    · intro n ns s s₁ s' hs hstop hn hrest hend
      have hstop := of_decide_eq_false hstop
      exact Reads.stmtsCons (fun he => hstop (Or.inl he)) (fun he => hstop (Or.inr he))
        (hst _ n s s₁ hs (fun he => hstop (Or.inr he)) hn) (hrest hend)
    · intro n s s₁ hs hstop hn
      have hstop := of_decide_eq_false hstop
      exact (hst _ n s s₁ hs (fun he => hstop (Or.inr he)) hn).length_le
  have hprev : s'.prev = r.span.stop := by rw [hr.next]; rfl
  rw [hprev]
  exact Reads.block hl (hmany (Takes.kind_eq hr)) hr

/-- A function is read up to the end of its block, with its name looked up before. -/
theorem function_reads {f : Function} (hctx : ctx.Ended) (hst : StatementsRead ctx m st)
    (hm : s.tokens.length ≤ m + 1) (hk : s.kind = .func)
    (h : function st place ctx s = .ok (f, s')) :
    Reads ctx.builtins (.function place f) s s' := by
  simp only [function, bind_ok, current_ok] at h
  obtain ⟨t, s₁, ht, _, _, ⟨rfl, rfl⟩, h⟩ := h
  rw [kind_current hctx] at h
  have ht := takes_of_advance ht hk (by decide)
  split at h
  case isFalse => simp at h
  case isTrue hcall =>
    obtain ⟨name, hhead, hname⟩ := current_of_kind hcall (by decide)
    rw [hhead, Option.getD_some] at h
    simp only [bind_ok, discard_ok, get_ok] at h
    obtain ⟨_, _, ⟨name', hadv⟩, _, _, ⟨rfl, rfl⟩, _, s₂, ⟨rfl, rfl⟩, h⟩ := h
    have hadv := takes_of_advance hadv hcall (by decide)
    obtain rfl : name' = name := Option.some.inj (hadv.head.symm.trans hhead)
    -- The tokens taken so far change neither the functions read nor the number begun.
    have hfun : s₂.functions = s.functions := by rw [hadv.next, ht.next]; rfl
    have hbegun : s₂.begun = s.begun := by rw [hadv.next, ht.next]; rfl
    rw [hfun, hbegun] at h
    split at h
    case isTrue =>
      simp only [bind_ok, fail_ok, false_and, exists_const, exists_false] at h
    case isFalse hnone =>
      simp only [bind_ok, discard_ok, modify_ok, spanFrom_ok, pure_ok] at h
      obtain ⟨_, s₃, rfl, _, s₄, ⟨l, hl⟩, ps, s₅, hps, _, s₆, ⟨r, hr⟩, ⟨braces, body⟩, s₇, hblock, _,
        _, rfl, _, _, ⟨rfl, rfl⟩, rfl, rfl⟩ := h
      have hbegin : { s₂ with begun := s.begun + 1 } = s₂.begin := by rw [← hbegun]; rfl
      rw [hbegin] at hl
      have hl := takes_of_expect hctx hl (by decide)
      obtain ⟨hend, hps⟩ := parameters_reads hctx hps
      have hr := takes_of_advance hr hend (by decide)
      have hlen := ht.length
      have hlen₁ := hadv.length
      have hlen₂ := hl.length
      have hlen₃ := hr.length
      have hlen₄ := hps.length_le
      have hblock := block_reads hctx hst
        (by simp only [State.tokens_begin, Phrase.least] at *; omega) hblock
      exact Reads.function ht hadv (Option.not_isSome_iff_eq_none.1 hnone) hl hps hr hblock

theorem conditional_reads (hctx : ctx.Ended) (hst : StatementsRead ctx m st)
    (hm : s.tokens.length ≤ m + 1) (hk : s.kind = .if)
    (h : conditional st place ctx s = .ok (n, s')) : Reads ctx.builtins (.stmt place n) s s' := by
  simp only [conditional, bind_ok, peek_ok hctx] at h
  obtain ⟨t, s₁, ht, cond, s₂, hcond, ⟨braces, yes⟩, s₃, hyes, _, _, ⟨rfl, rfl⟩, h⟩ := h
  have ht := takes_of_advance ht hk (by decide)
  have hcond := condition_reads hctx hcond
  have hlen := ht.length
  have hlen₁ := hcond.length_le
  have hyes := block_reads hctx hst (by omega) hyes
  have hlen₂ := hyes.length_le
  split at h
  · next helse =>
    simp only [bind_ok, discard_ok, spanFrom_ok, pure_ok] at h
    obtain ⟨_, s₄, ⟨e, he⟩, ⟨braces', no⟩, s₅, hno, _, _, ⟨rfl, rfl⟩, rfl, rfl⟩ := h
    have he := takes_of_advance he helse (by decide)
    have hlen₃ := he.length
    exact Reads.choose ht hcond hyes he (block_reads hctx hst (by omega) hno)
  · next helse =>
    simp only [bind_ok, spanFrom_ok, pure_ok] at h
    obtain ⟨_, _, ⟨rfl, rfl⟩, rfl, rfl⟩ := h
    exact Reads.when ht hcond hyes helse

theorem whileLoop_reads (hctx : ctx.Ended) (hst : StatementsRead ctx m st)
    (hm : s.tokens.length ≤ m + 1) (hk : s.kind = .while)
    (h : whileLoop st place ctx s = .ok (n, s')) : Reads ctx.builtins (.stmt place n) s s' := by
  simp only [whileLoop, bind_ok, spanFrom_ok, pure_ok] at h
  obtain ⟨t, s₁, ht, cond, s₂, hcond, ⟨braces, body⟩, s₃, hbody, _, _, ⟨rfl, rfl⟩, rfl, rfl⟩ := h
  have ht := takes_of_advance ht hk (by decide)
  have hcond := condition_reads hctx hcond
  have hlen := ht.length
  have hlen₁ := hcond.length_le
  exact Reads.whileLoop ht hcond (block_reads hctx hst (by omega) hbody)

theorem forLoop_reads (hctx : ctx.Ended) (hst : StatementsRead ctx m st)
    (hm : s.tokens.length ≤ m + 1) (hk : s.kind = .for)
    (h : forLoop st place ctx s = .ok (n, s')) : Reads ctx.builtins (.stmt place n) s s' := by
  simp only [forLoop, bind_ok, discard_ok, spanFrom_ok, pure_ok] at h
  obtain ⟨t, s₁, ht, _, s₂, ⟨l, hl⟩, init, s₃, hinit, _, s₄, ⟨c, hc⟩, cond, s₅, hcond, _, s₆, ⟨c', hc'⟩,
    step, s₇, hstep, _, s₈, ⟨r, hr⟩, ⟨braces, body⟩, s₉, hbody, _, _, ⟨rfl, rfl⟩, rfl, rfl⟩ := h
  have ht := takes_of_advance ht hk (by decide)
  have hl := takes_of_expect hctx hl (by decide)
  have hinit := loopStart_reads hctx hinit
  have hc := takes_of_expect hctx hc (by decide)
  obtain ⟨hcond, hcmp⟩ := loopCondition_reads hctx hcond
  have hc' := takes_of_expect hctx hc' (by decide)
  have hstep := assignment_reads hctx hstep
  have hr := takes_of_expect hctx hr (by decide)
  have hlen := ht.length
  have hlen₁ := hl.length
  have hlen₂ := hinit.length_le
  have hlen₃ := hc.length
  have hlen₄ := hcond.length_le
  have hlen₅ := hc'.length
  have hlen₆ := hstep.length_le
  have hlen₇ := hr.length
  exact Reads.forLoop ht hl hinit hc hcond hcmp hc' hstep hr (block_reads hctx hst (by omega) hbody)

theorem passOver_reads (hk : opensStatement s.kind = false) (hne : s.kind ≠ .endOfFile)
    (h : passOver ctx s = .ok (n, s')) : Reads ctx.builtins (.stmt place n) s s' := by
  simp only [passOver, bind_ok, pure_ok] at h
  obtain ⟨t, _, ht, rfl, rfl⟩ := h
  exact Reads.skip (takes_of_advance ht rfl hne) hk hne

/-- One case for each token a statement begins with. The counter bounds the nesting of blocks. -/
theorem statement_reads (hctx : ctx.Ended) (m : Nat) : StatementsRead ctx m (statement m) := by
  induction m with
  | zero =>
    intro place n s s' hm hne _
    refine absurd ?_ hne
    simp [State.kind, List.eq_nil_of_length_eq_zero (Nat.le_zero.1 hm)]
  | succ m ih =>
    intro place n s s' hm hne h
    simp only [statement, bind_ok, peek_ok hctx] at h
    obtain ⟨k, s, ⟨hk, rfl⟩, h⟩ := h
    cases k
    case func =>
      simp only [bind_ok, pure_ok] at h
      obtain ⟨f, _, hf, rfl, rfl⟩ := h
      exact Reads.stmtFunction (function_reads hctx ih hm hk.symm hf)
    case intType | stringType | boolType =>
      exact Reads.stmtDeclaration (declaration_reads hctx (by rw [← hk]; rfl) h)
    case name => exact Reads.stmtAssignment (assignment_reads hctx h)
    case call => exact Reads.stmtCall (anyCall_reads hctx hk.symm h)
    case «if» => exact conditional_reads hctx ih hm hk.symm h
    case «while» => exact whileLoop_reads hctx ih hm hk.symm h
    case «for» => exact forLoop_reads hctx ih hm hk.symm h
    all_goals exact passOver_reads (by rw [← hk]; rfl) hne h

end Statements

/-! ## Programs -/

section Programs

variable {s s' : State}

theorem globalsFrom_reads (hctx : ctx.Ended) (m : Nat) {acc ns : List Node}
    (hm : s.tokens.length ≤ m) (h : globalsFrom m acc ctx s = .ok (ns, s')) :
    ∃ new, ns = acc.reverse ++ new ∧ Reads ctx.builtins (.globals new) s s' := by
  induction m generalizing acc s with
  | zero =>
    obtain ⟨rfl, rfl⟩ := pure_ok.1 h
    have hkind : s'.kind = .endOfFile := by
      simp [State.kind, List.eq_nil_of_length_eq_zero (Nat.le_zero.1 hm)]
    exact ⟨[], by simp, Reads.globalsNil (by simp [hkind, Token.Kind.isType])⟩
  | succ m ih =>
    simp only [globalsFrom, bind_ok, peek_ok hctx] at h
    obtain ⟨_, _, ⟨rfl, rfl⟩, h⟩ := h
    split at h
    · next hk =>
      simp only [bind_ok] at h
      obtain ⟨n, s₁, hn, h⟩ := h
      have hn := declaration_reads hctx hk hn
      have hlen := hn.length_le
      simp only [Phrase.least] at hlen
      obtain ⟨new, rfl, hnew⟩ := ih (by omega) h
      exact ⟨n :: new, by simp, Reads.globalsCons hn hnew⟩
    · next hk =>
      obtain ⟨rfl, rfl⟩ := pure_ok.1 h
      exact ⟨[], by simp, Reads.globalsNil (Bool.not_eq_true _ ▸ hk)⟩

theorem functionsFrom_reads (hctx : ctx.Ended) (m : Nat) {acc fs : List Function}
    (hm : s.tokens.length ≤ m) (h : functionsFrom m acc ctx s = .ok (fs, s')) :
    ∃ new, fs = acc.reverse ++ new ∧ Reads ctx.builtins (.functions new) s s' := by
  induction m generalizing acc s with
  | zero =>
    obtain ⟨rfl, rfl⟩ := pure_ok.1 h
    have hkind : s'.kind = .endOfFile := by
      simp [State.kind, List.eq_nil_of_length_eq_zero (Nat.le_zero.1 hm)]
    exact ⟨[], by simp, Reads.functionsNil (by simp [hkind])⟩
  | succ m ih =>
    simp only [functionsFrom, bind_ok, peek_ok hctx] at h
    obtain ⟨_, _, ⟨rfl, rfl⟩, h⟩ := h
    split at h
    · next hk =>
      simp only [bind_ok, remaining_ok] at h
      obtain ⟨_, _, ⟨rfl, rfl⟩, f, s₁, hf, h⟩ := h
      have hf := function_reads hctx (statement_reads hctx _) (Nat.le_succ _) hk hf
      have hlen := hf.length_le
      simp only [Phrase.least] at hlen
      obtain ⟨new, rfl, hnew⟩ := ih (by omega) h
      exact ⟨f :: new, by simp, Reads.functionsCons hf hnew⟩
    · next hk =>
      obtain ⟨rfl, rfl⟩ := pure_ok.1 h
      exact ⟨[], by simp, Reads.functionsNil hk⟩

/-- **The parser is sound.** What the parser accepts is a program of the grammar: declarations and then
functions, after which no token is left and the file ends. -/
theorem program_reads {p : Program} (hctx : ctx.Ended) (h : program ctx s = .ok (p, s')) :
    ∃ s₁ s₂ eof, Reads ctx.builtins (.globals p.globals) s s₁ ∧
      Reads ctx.builtins (.functions p.functions) s₁ s₂ ∧ s₂.kind = .endOfFile ∧
      eof = s₂.tokens.head?.getD (endToken ctx) ∧ p.span = ⟨ctx.file, .first, eof.span.stop⟩ ∧
      (s₂.tokens.tail = [] → ∃ eof, ctx.ending = .ok eof) := by
  simp only [program, bind_ok, get_ok, remaining_ok, read_ok, pure_ok] at h
  obtain ⟨_, _, ⟨rfl, rfl⟩, _, _, hguard, _, _, ⟨rfl, rfl⟩, globals, s₁, hglobals, _, _, ⟨rfl, rfl⟩, fs,
    s₂, hfs, eof, s₃, heof, _, _, ⟨rfl, rfl⟩, rfl, rfl⟩ := h
  rw [guardEnding_ok hguard] at hglobals
  obtain ⟨new, rfl, hglobals⟩ := globalsFrom_reads hctx _ (Nat.le_refl _) hglobals
  obtain ⟨new', rfl, hfs⟩ := functionsFrom_reads hctx _ (Nat.le_refl _) hfs
  simp only [expect, bind_ok, current_ok] at heof
  obtain ⟨_, _, ⟨rfl, rfl⟩, heof⟩ := heof
  rw [kind_current hctx] at heof
  split at heof
  · next hend =>
    have hlast := ending_of_advance heof
    obtain ⟨rfl, -⟩ := advance_ok heof
    exact ⟨_, _, _, hglobals, hfs, hend, rfl, rfl, hlast⟩
  · simp at heof

end Programs

end ScriptKit.Parser
