import ScriptKit.Proofs.Grammar.Mirror

/-!
# One outcome

Every source, whatever it holds, is parsed to one of two ends: a program and no diagnostic, or no program and one
diagnostic. The parser goes on after a fault of the scanner, with a token that stands for the end of the file and with
a cursor that does not move any more, so each of its loops has to be seen to stop there; and where one of its parts
gives up, the one fault has to be there already.

The parts of the recording parser are taken one after the other and shown to mirror those of the parser that stops
(`Mirrors`). The loops go by the counters of that parser. At the end of the file each of them stops
(`Runs.termStops` and those after it) or meets a part that gives up (`Runs.factor_refused`).

**Theorem (`one_outcome`).** Parsing comes to one end, with a program or with one diagnostic.
-/

namespace ScriptKit

namespace Recorder

open Parse ScriptKit.Parser

variable {α β : Type} {ctx : Context} {d d' : Desk}

/-! ## At the end of the file -/

namespace Runs

variable {file : Text} {builtins : Option (List Text)} {o : Option β}

theorem look {q : Desk → α} {f : α → Plan β} (h : Runs file builtins (f (q d)) d o d') :
    Runs file builtins (.see q >>= f) d o d' := .bindSome .see h

/-- A name is missing at the end of the file. -/
theorem name_refused (hd : d.Frozen) : Runs file builtins (Plan.expect .name) d none d := by
  have hrefuse : Runs file builtins
      (.refuse (.expected .name d.current) d.current.span : Plan Token) d none (d.record _) := .refuse
  rw [record_settled hd.faulty] at hrefuse
  exact look (by simpa [hd.ended] using hrefuse)

theorem factor_refused (hd : d.Frozen) : Runs file builtins .factor d none d := by
  have hname : Runs file builtins Plan.nameUse d none d := .bindNone (name_refused hd)
  exact .factor (look (by simpa [hd.ended] using hname))

theorem argument_refused (hd : d.Frozen) : Runs file builtins Plan.argument d none d :=
  .bindNone (.bindNone (.bindNone (factor_refused hd)))

/-- A parameter is missing at the end of the file. -/
theorem parameter_refused (hd : d.Frozen) : Runs file builtins Plan.parameter d none d := by
  have hrefuse : Runs file builtins
      (.refuse (.parameter d.current) d.current.span : Plan Param) d none (d.record _) := .refuse
  rw [record_settled hd.faulty] at hrefuse
  exact look (by simpa [hd.ended, Token.Kind.isType] using hrefuse)

variable (hend : d.current.kind = .endOfFile)

include hend

theorem termStops (left : Node) : Runs file builtins (Plan.termTurn left) d (some (.inr left)) d := by
  refine look ?_
  simp only [hend, Token.Kind.isComparison]
  exact .see

theorem expressionStops (left : Node) : Runs file builtins (Plan.expressionTurn left) d (some (.inr left)) d := by
  refine look ?_
  simp only [hend]
  exact .see

theorem globalsStop (globals : List Node) :
    Runs file builtins (Plan.globalsTurn globals) d (some (.inr globals.reverse)) d := by
  refine look ?_
  simp only [hend, Token.Kind.isType]
  exact .see

theorem functionsStop (functions : List Function) :
    Runs file builtins (Plan.functionsTurn functions) d (some (.inr functions.reverse)) d := by
  refine look ?_
  simp only [hend]
  exact .see

end Runs

/-! ## Loops -/

section Loops

variable {k : Nat}

/-- A loop with no turn left has no token left, and stops. -/
theorem mirrors_stopped {turn : α → Plan (α ⊕ β)} {a : α} {b : β} (hctx : ctx.Ended)
    (hstop : ∀ d, d.current.kind = .endOfFile → Runs ctx.file ctx.builtins (turn a) d (some (.inr b)) d) :
    Mirrors ctx (Within 0) (.loop turn a) (pure b) :=
  .at_end hctx (.pure b) fun _ _ _ hend hrun => by
    obtain ⟨rfl, rfl⟩ := hrun.ends
    exact .loopDone (hstop _ hend)

variable {stop : Token.Kind → Bool} {item : Plan α} {item' : Parser α}

/-- The counter goes down with the tokens, since an item takes one at least. -/
theorem mirrors_itemsUntil (hctx : ctx.Ended) (hitem : Mirrors ctx (Within k) item item')
    (hless : ∀ a s s', s.tokens.length ≤ k → stop s.kind = false → item' ctx s = .ok (a, s') →
      s'.tokens.length < s.tokens.length)
    (hstop : ∀ d, d.Frozen → stop .endOfFile = true ∨ Runs ctx.file ctx.builtins item d none d)
    (n : Nat) (items : List α) :
    Mirrors ctx (fun s => Within k s ∧ s.tokens.length < n) (.loop (Plan.itemsTurn stop item) items)
      (itemsUntil stop item' n items) := by
  -- An item takes a token, so that the turns do not run out before the tokens do. On a frozen desk the loop
  -- ends at once, either with the list or with the item it refuses.
  induction n generalizing items with
  | zero =>
    refine ⟨fun s _ _ hs => absurd hs.2 (Nat.not_lt_zero _), fun _ s _ _ hs => absurd hs.2 (Nat.not_lt_zero _),
      fun _ s _ hs => absurd hs.2 (Nat.not_lt_zero _), fun d hd => ?_⟩
    cases hend : stop .endOfFile with
    | true => exact ⟨_, d, .loopDone (.look (by simpa [hd.ended, hend] using .see)), hd⟩
    | false =>
      have hrefused := (hstop d hd).resolve_left (by simp [hend])
      exact ⟨none, d, .loopNone (.look (by simpa [hd.ended, hend] using .bindNone hrefused)), hd⟩
  | succ n ih =>
    refine .unroll (.assoc (.onPeek hctx fun kind => ?_))
    cases hkind : stop kind with
    | true =>
      simp only [if_true]
      exact .pure_bind (.pure _)
    | false =>
      simp only [Bool.false_eq_true, if_false]
      refine .assoc ((hitem.weaken fun s hs => hs.1.1).step (fun s a s' hs ha => ?_) fun a => .pure_bind (ih _))
      obtain ⟨⟨hwithin, hn⟩, rfl⟩ := hs
      have hlt := hless a s s' hwithin hkind ha
      exact ⟨Nat.le_trans (Nat.le_of_lt hlt) hwithin, by omega⟩

theorem mirrors_manyUntil (hctx : ctx.Ended) (hitem : Mirrors ctx (Within k) item item')
    (hless : ∀ a s s', s.tokens.length ≤ k → stop s.kind = false → item' ctx s = .ok (a, s') →
      s'.tokens.length < s.tokens.length)
    (hstop : ∀ d, d.Frozen → stop .endOfFile = true ∨ Runs ctx.file ctx.builtins item d none d) :
    Mirrors ctx (Within k) (Plan.manyUntil stop item) (manyUntil stop item') := by
  refine .remaining_bind fun n hn => ?_
  refine (mirrors_itemsUntil hctx hitem hless hstop (n + 1) []).weaken fun s hs => ?_
  exact ⟨Nat.le_trans hs hn, Nat.lt_succ_of_le hs⟩

end Loops

/-! ## Expressions -/

section Expressions

variable {k : Nat} {f : Parser Node}

theorem mirrors_termFrom (hctx : ctx.Ended) (hf : Mirrors ctx (Within k) .factor f) (n : Nat) (hn : n ≤ k)
    (left : Node) : Mirrors ctx (Within n) (.loop Plan.termTurn left) (termFrom f n left) := by
  induction n generalizing left with
  | zero => exact mirrors_stopped hctx fun _ hend => Runs.termStops hend left
  | succ n ih =>
    have hfactor : Mirrors ctx (Within n) .factor f := hf.weaken fun s hs => Nat.le_trans hs (by omega)
    refine .unroll (.assoc (.onPeek hctx fun kind => ?_))
    by_cases hop : kind = .star ∨ kind = .slash
    · simp only [if_pos hop]
      refine .assoc (.take (fun s hs => ⟨hs.1, by rcases hop with rfl | rfl <;> simp [hs.2]⟩) fun op => ?_)
      exact .assoc (hfactor.bind fun right => .pure_bind (ih (by omega) _))
    · simp only [if_neg hop]
      by_cases hcmp : kind.isComparison
      · simp only [if_pos hcmp]
        have hne : kind ≠ .endOfFile := by
          rintro rfl
          cases hcmp
        refine .assoc (.take (fun s hs => ⟨hs.1, hs.2.symm ▸ hne⟩) fun op => ?_)
        exact .assoc (hfactor.bind fun right => .pure_bind (.pure _))
      · simp only [if_neg hcmp]
        exact .pure_bind (.pure _)

theorem mirrors_term (hctx : ctx.Ended) (hf : Mirrors ctx (Within k) .factor f) :
    Mirrors ctx (Within k) Plan.term (term f) :=
  hf.bind fun left => .remaining_bind fun n hn => mirrors_termFrom hctx hf n hn left

theorem mirrors_expressionFrom (hctx : ctx.Ended) (hf : Mirrors ctx (Within k) .factor f) (n : Nat) (hn : n ≤ k)
    (left : Node) : Mirrors ctx (Within n) (.loop Plan.expressionTurn left) (expressionFrom f n left) := by
  induction n generalizing left with
  | zero => exact mirrors_stopped hctx fun _ hend => Runs.expressionStops hend left
  | succ n ih =>
    have hfactor : Mirrors ctx (Within n) .factor f := hf.weaken fun s hs => Nat.le_trans hs (by omega)
    refine .unroll (.assoc (.onPeek hctx fun kind => ?_))
    by_cases hop : kind = .plus ∨ kind = .minus
    · simp only [if_pos hop]
      refine .assoc (.take (fun s hs => ⟨hs.1, by rcases hop with rfl | rfl <;> simp [hs.2]⟩) fun op => ?_)
      exact .assoc ((mirrors_term hctx hfactor).bind fun right => .pure_bind (ih (by omega) _))
    · simp only [if_neg hop]
      exact .pure_bind (.pure _)

theorem mirrors_expression (hctx : ctx.Ended) (hf : Mirrors ctx (Within k) .factor f) :
    Mirrors ctx (Within k) Plan.expression (expression f) :=
  (mirrors_term hctx hf).bind fun left => .remaining_bind fun n hn => mirrors_expressionFrom hctx hf n hn left

theorem mirrors_resolve {P : State → Prop} (name : Token) :
    Mirrors ctx P (Plan.resolve ctx.builtins name) (resolve name) := by
  refine .functions_bind fun s => .read_bind ?_
  cases s.functions.lookup name.value with
  | some number => exact .pure _
  | none =>
    cases ctx.builtins with
    | none => exact .pure _
    | some known =>
      simp only [List.contains_iff_mem]
      exact .ite (fun _ => .pure _) fun _ => .refuse

/-- The bound on the arguments is that behind the name. -/
theorem mirrors_call {P : State → Prop} (hctx : ctx.Ended)
    (hP : ∀ s t s', P s → advance ctx s = .ok (t, s') → Within k s') (hf : Mirrors ctx (Within k) .factor f)
    (hreads : ∀ n s s', f ctx s = .ok (n, s') → Reads ctx.builtins (.factor n) s s') :
    Mirrors ctx P (Plan.call ctx.builtins) (call f) := by
  have hargument : Mirrors ctx (Within k) Plan.argument (do
      let arg ← expression f
      optionalComma
      return arg) :=
    (mirrors_expression hctx hf).bind fun _ => (Mirrors.optionalComma hctx).bind fun _ => .pure _
  refine Mirrors.advance.step hP fun name => Mirrors.expect.discard.bind fun _ => ?_
  refine (mirrors_manyUntil hctx hargument ?_ fun d hd => Or.inr (Runs.argument_refused hd)).bind fun args => ?_
  · intro a s s' _ _ hitem
    obtain ⟨arg, s₁, harg, hitem⟩ := bind_ok.1 hitem
    obtain ⟨_, s₂, hcomma, hitem⟩ := bind_ok.1 hitem
    obtain ⟨rfl, rfl⟩ := pure_ok.1 hitem
    have hlen := (expression_reads hctx hreads harg).length_le
    have hlen' := State.length_pastComma s₁
    rw [optionalComma_ok hctx hcomma]
    simp only [Phrase.least] at hlen
    omega
  · refine Mirrors.advance.discard.bind fun _ => .spanFrom_bind fun span => ?_
    exact (mirrors_resolve name).bind fun callee => .pure _

theorem mirrors_nameUse {P : State → Prop} : Mirrors ctx P Plan.nameUse nameUse :=
  Mirrors.expect.step (Q := fun _ => True) (fun _ _ _ _ _ => trivial) fun _ => .pure _

theorem mirrors_numeral : Mirrors ctx (Within k) Plan.numeral numeral := by
  refine Mirrors.advance.bind fun t => ?_
  cases t.value.readInt32 with
  | some value => exact .pure _
  | none => exact .refuse

/-- One case for each way a factor begins. Where another factor follows, the token that begins it has been taken. -/
theorem mirrors_factor (hctx : ctx.Ended) (n : Nat) : Mirrors ctx (Within n) .factor (factor n) := by
  induction n with
  | zero =>
    exact .at_end hctx mirrors_nameUse fun d o d' hend hrun => .factor (.look (by simpa [hend] using hrun))
  | succ n ih =>
    have hbody : Mirrors ctx (Within (n + 1)) (Plan.factorBody ctx.builtins) (factor (n + 1)) := by
      refine .onCurrent fun t => ?_
      have hkind : ∀ s : State, Within (n + 1) s ∧ t = s.tokens.head?.getD (endToken ctx) →
          Within (n + 1) s ∧ s.kind = t.kind :=
        fun s hs => ⟨hs.1, by rw [hs.2, kind_current hctx]⟩
      have hmore : t.kind ≠ .endOfFile → ∀ s : State, Within (n + 1) s ∧ t = s.tokens.head?.getD (endToken ctx) →
          Within (n + 1) s ∧ s.kind ≠ .endOfFile :=
        fun hne s hs => ⟨hs.1, (hkind s hs).2 ▸ hne⟩
      cases hk : t.kind
      case plus | minus => exact .discard_take (hmore (by simp [hk])) (ih.bind fun operand => .pure _)
      case number => exact mirrors_numeral.weaken fun s hs => hs.1
      case string | bool => exact .discard_take (hmore (by simp [hk])) (.pure _)
      case leftParen =>
        refine .discard_take (hmore (by simp [hk])) ((mirrors_expression hctx ih).bind fun inner => ?_)
        exact Mirrors.expect.discard.bind fun _ => .pure _
      case call =>
        refine mirrors_call hctx (fun s t' s' hs hx => ?_) ih fun _ _ _ => factor_reads hctx n
        obtain ⟨hwithin, hne⟩ := hmore (by simp [hk]) s hs
        exact Mirrors.within_of_advance hx hwithin hne
      all_goals exact mirrors_nameUse
    exact hbody.of_runs fun _ _ _ => .factor

theorem mirrors_anyExpression (hctx : ctx.Ended) : Mirrors ctx (Within k) Plan.expression anyExpression :=
  .remaining_bind fun n _ => mirrors_expression hctx (mirrors_factor hctx n)

theorem mirrors_anyTerm (hctx : ctx.Ended) : Mirrors ctx (Within k) Plan.term anyTerm :=
  .remaining_bind fun n _ => mirrors_term hctx (mirrors_factor hctx n)

theorem mirrors_anyCall (hctx : ctx.Ended) : Mirrors ctx (Within k) (Plan.call ctx.builtins) anyCall := by
  refine .remaining_bind fun n _ => mirrors_call hctx (fun s t s' hs hx => ?_) (mirrors_factor hctx n)
    fun _ _ _ => factor_reads hctx n
  exact Nat.le_trans (Mirrors.advance.fewer s t s' hs hx) hs

end Expressions

/-! ## Statements -/

section Statements

variable {k : Nat}

theorem mirrors_declaration (hctx : ctx.Ended) : Mirrors ctx (Within k) Plan.declaration declaration := by
  refine Mirrors.advance.bind fun type => Mirrors.expect.bind fun name => .peek_bind hctx fun kind => ?_
  refine .ite (fun _ => ?_) fun _ => .spanFrom_bind fun span => .pure _
  refine Mirrors.advance.discard.bind fun _ => (mirrors_anyExpression hctx).bind fun value => ?_
  exact .spanFrom_bind fun span => .pure _

theorem mirrors_assignment (hctx : ctx.Ended) : Mirrors ctx (Within k) Plan.assignment assignment := by
  refine Mirrors.expect.bind fun name => Mirrors.expect.discard.bind fun _ => ?_
  exact (mirrors_anyExpression hctx).bind fun value => .spanFrom_bind fun span => .pure _

theorem mirrors_parameter (hctx : ctx.Ended) : Mirrors ctx (Within k) Plan.parameter parameter := by
  refine .current_bind fun t => .ite (fun _ => (mirrors_declaration hctx).bind fun d => ?_) fun _ => .refuse
  cases d
  case declare => exact (Mirrors.optionalComma hctx).bind fun _ => .pure _
  all_goals exact .refuse

theorem mirrors_parameters (hctx : ctx.Ended) :
    Mirrors ctx (Within k) (Plan.manyUntil (· = .rightParen) Plan.parameter)
      (manyUntil (· = .rightParen) parameter) := by
  refine mirrors_manyUntil hctx (mirrors_parameter hctx) ?_ fun d hd => Or.inr (Runs.parameter_refused hd)
  intro p s s' _ _ hp
  obtain ⟨s₁, hdecl, rfl⟩ := parameter_ok hctx hp
  have hlen := hdecl.length_le
  have hlen' := State.length_pastComma s₁
  simp only [Phrase.least] at hlen
  omega

theorem mirrors_condition (hctx : ctx.Ended) : Mirrors ctx (Within k) Plan.condition condition := by
  refine Mirrors.expect.discard.bind fun _ => (mirrors_anyExpression hctx).bind fun cond => ?_
  exact Mirrors.expect.discard.bind fun _ => .pure _

theorem mirrors_loopStart (hctx : ctx.Ended) : Mirrors ctx (Within k) Plan.loopStart loopStart :=
  .current_bind fun _ => .ite (fun _ => mirrors_declaration hctx) fun _ =>
    .ite (fun _ => mirrors_assignment hctx) fun _ => .refuse

theorem mirrors_loopCondition (hctx : ctx.Ended) : Mirrors ctx (Within k) Plan.loopCondition loopCondition :=
  (mirrors_anyTerm hctx).bind fun _ => .ite (fun _ => .pure _) fun _ => .refuse

theorem mirrors_passOver : Mirrors ctx (Within k) Plan.passOver passOver :=
  Mirrors.advance.bind fun _ => .pure _

section Nested

variable {st : Parser.Place → Parser Node} {place : Parser.Place} (hctx : ctx.Ended)
  (hst : ∀ place, Mirrors ctx (Within k) (.statement place) (st place)) (hreads : StatementsRead ctx k st)

include hctx hst hreads

theorem mirrors_block : Mirrors ctx (Within (k + 1)) (Plan.block place) (block st place) := by
  refine Mirrors.expect.step (Q := Within k) (fun s t s' hs hx => ?_) fun opening => ?_
  · have hlen := (takes_of_expect hctx hx (by decide)).length
    unfold Within at *
    omega
  refine (mirrors_manyUntil hctx (hst _) ?_ fun d _ => Or.inl (by decide)).bind fun body => ?_
  · intro n s s' hs hstop hn
    have hstop := of_decide_eq_false hstop
    exact (hreads _ n s s' hs (fun he => hstop (Or.inr he)) hn).length_le
  · exact Mirrors.expect.discard.bind fun _ => .spanFrom_bind fun span => .pure _

theorem mirrors_function : Mirrors ctx (Within (k + 1)) (Plan.function place) (function st place) := by
  refine Mirrors.advance.bind fun start => .current_bind fun name => .ite (fun _ => ?_) fun _ => .refuse
  refine Mirrors.advance.discard.bind fun _ => .begun_bind fun s => .functions_bind fun s' => ?_
  refine .ite (fun _ => .refuse_bind) fun _ => Mirrors.begin.bind fun _ => Mirrors.expect.discard.bind fun _ => ?_
  refine (mirrors_parameters hctx).bind fun params => Mirrors.advance.discard.bind fun _ => ?_
  refine (mirrors_block hctx hst hreads).bind fun body => Mirrors.register.bind fun _ => ?_
  exact .spanFrom_bind fun span => .pure _

theorem mirrors_conditional :
    Mirrors ctx (Within (k + 1)) (Plan.conditional place) (conditional st place) := by
  refine Mirrors.advance.bind fun start => (mirrors_condition hctx).bind fun cond => ?_
  refine (mirrors_block hctx hst hreads).bind fun yes => .peek_bind hctx fun kind => .ite (fun _ => ?_) fun _ => ?_
  · refine Mirrors.advance.discard.bind fun _ => (mirrors_block hctx hst hreads).bind fun no => ?_
    exact .spanFrom_bind fun span => .pure _
  · exact .spanFrom_bind fun span => .pure _

theorem mirrors_whileLoop : Mirrors ctx (Within (k + 1)) (Plan.whileLoop place) (whileLoop st place) := by
  refine Mirrors.advance.bind fun start => (mirrors_condition hctx).bind fun cond => ?_
  exact (mirrors_block hctx hst hreads).bind fun body => .spanFrom_bind fun span => .pure _

theorem mirrors_forLoop : Mirrors ctx (Within (k + 1)) (Plan.forLoop place) (forLoop st place) := by
  refine Mirrors.advance.bind fun start => Mirrors.expect.discard.bind fun _ => ?_
  refine (mirrors_loopStart hctx).bind fun init => Mirrors.expect.discard.bind fun _ => ?_
  refine (mirrors_loopCondition hctx).bind fun cond => Mirrors.expect.discard.bind fun _ => ?_
  refine (mirrors_assignment hctx).bind fun step => Mirrors.expect.discard.bind fun _ => ?_
  exact (mirrors_block hctx hst hreads).bind fun body => .spanFrom_bind fun span => .pure _

end Nested

/-- One case for each way a statement begins. -/
theorem mirrors_statement (hctx : ctx.Ended) (n : Nat) (place : Parser.Place) :
    Mirrors ctx (Within n) (.statement place) (statement n place) := by
  induction n generalizing place with
  | zero =>
    exact .at_end hctx mirrors_passOver fun d o d' hend hrun => .statement (.look (by simpa [hend] using hrun))
  | succ n ih =>
    have hreads := statement_reads hctx n
    have hbody : Mirrors ctx (Within (n + 1)) (Plan.statementBody ctx.builtins place) (statement (n + 1) place) := by
      refine .peek_bind hctx fun kind => ?_
      cases kind with
      | func => exact (mirrors_function hctx ih hreads).bind fun f => .pure _
      | intType | stringType | boolType => exact mirrors_declaration hctx
      | name => exact mirrors_assignment hctx
      | call => exact mirrors_anyCall hctx
      | «if» => exact mirrors_conditional hctx ih hreads
      | «while» => exact mirrors_whileLoop hctx ih hreads
      | «for» => exact mirrors_forLoop hctx ih hreads
      | _ => exact mirrors_passOver
    exact hbody.of_runs fun _ _ _ => .statement

end Statements

/-! ## Programs -/

section Programs

theorem mirrors_globalsFrom (hctx : ctx.Ended) (n : Nat) (globals : List Node) :
    Mirrors ctx (Within n) (.loop Plan.globalsTurn globals) (globalsFrom n globals) := by
  induction n generalizing globals with
  | zero => exact mirrors_stopped hctx fun _ hend => Runs.globalsStop hend globals
  | succ n ih =>
    refine .unroll (.assoc (.onPeek hctx fun kind => ?_))
    by_cases htype : kind.isType
    · simp only [if_pos htype]
      refine .assoc (((mirrors_declaration hctx).weaken fun s hs => hs.1).step (fun s g s' hs hg => ?_) fun g =>
        .pure_bind (ih _))
      have hlen := (declaration_reads hctx (hs.2 ▸ htype) hg).length_le
      have hwithin := hs.1
      simp only [Phrase.least, Within] at *
      omega
    · simp only [if_neg htype]
      exact .pure_bind (.pure _)

theorem mirrors_functionsFrom (hctx : ctx.Ended) (n : Nat) (functions : List Function) :
    Mirrors ctx (Within n) (.loop Plan.functionsTurn functions) (functionsFrom n functions) := by
  induction n generalizing functions with
  | zero => exact mirrors_stopped hctx fun _ hend => Runs.functionsStop hend functions
  | succ n ih =>
    refine .unroll (.assoc (.onPeek hctx fun kind => ?_))
    by_cases hfunc : kind = .func
    · simp only [if_pos hfunc]
      refine .assoc (.onRemaining (fun _ hs => hs.1) fun m _ => ?_)
      have hfunction : Mirrors ctx (Within (m + 1)) (Plan.function .top) (function (statement m) .top) :=
        mirrors_function hctx (mirrors_statement hctx m) (statement_reads hctx m)
      refine (hfunction.weaken fun s hs => Nat.le_succ_of_le hs.2).step (fun s f s' hs hf => ?_) fun f =>
        .pure_bind (ih _)
      have hlen := (function_reads hctx (statement_reads hctx m) (Nat.le_succ_of_le hs.2)
        (hs.1.2.trans hfunc) hf).length_le
      have hwithin := hs.1.1
      simp only [Phrase.least, Within] at *
      omega
    · simp only [if_neg hfunc]
      exact .pure_bind (.pure _)

/-- One parser gives the end of the file that it takes, and the other the token after it. -/
theorem mirrors_fileEnd {P : State → Prop} (hctx : ctx.Ended) :
    Mirrors ctx P Plan.fileEnd (expect .endOfFile) := by
  have hexpect : Mirrors ctx P (Plan.expect .endOfFile) (expect .endOfFile) := .expect
  have hboth : Mirrors ctx P Plan.fileEnd (discard (expect .endOfFile) >>= fun _ => current) :=
    hexpect.discard.step (Q := fun _ => True) (fun _ _ _ _ _ => trivial) fun _ => .current
  refine ⟨hexpect.fewer, fun d s t s' hs hd hx => ?_, fun d s e hs hd hx => ?_, hboth.frozen⟩
  · have hsame := hd.after_end hctx hx
    exact hboth.ok d s t s' hs hd (bind_ok.2 ⟨⟨⟩, s', discard_ok.2 ⟨t, hx⟩, current_ok.2 ⟨hsame, rfl⟩⟩)
  · refine hboth.error d s e hs hd (bind_error.2 (Or.inl ?_))
    show (expect .endOfFile >>= fun _ => pure PUnit.unit) ctx s = .error e
    exact bind_error.2 (Or.inl hx)

/-- What is left to do once the first token is there. -/
def programRest : Parser Program := do
  let globals ← globalsFrom (← remaining) []
  let functions ← functionsFrom (← remaining) []
  let eof ← expect .endOfFile
  return ⟨⟨(← read).file, .first, eof.span.stop⟩, globals, functions⟩

theorem program_eq (ctx : Context) (s : State) (hmore : s.tokens = [] → ∃ eof, ctx.ending = .ok eof) :
    Parser.program ctx s = programRest ctx s := by
  obtain ⟨tokens, prev, functions, begun⟩ := s
  obtain ⟨file, ending, builtins⟩ := ctx
  cases tokens with
  | nil =>
    obtain ⟨eof, rfl⟩ := hmore rfl
    rfl
  | cons t ts => rfl

theorem mirrors_program {k : Nat} (hctx : ctx.Ended) :
    Mirrors ctx (Within k) (Plan.program ctx.file) programRest := by
  refine .remaining_bind fun n _ => ?_
  refine (mirrors_globalsFrom hctx n []).bind fun globals => .remaining_bind fun m _ => ?_
  refine (mirrors_functionsFrom hctx m []).bind fun functions => ?_
  exact (mirrors_fileEnd hctx).bind fun eof => .read_bind (.pure _)

end Programs

/-! ## Whole sources -/

section Sources

variable {file source : Text} {builtins : Option (List Text)}

/-- What the parser that stops answers, once the first token is there. -/
theorem parse_eq (hmore : (scan file source).tokens = [] → ∃ eof, (scan file source).ending = .ok eof) :
    parse file source builtins =
      (programRest (scanContext file source builtins) (scan file source).state).map Prod.fst := by
  rw [← program_eq (scanContext file source builtins) (scan file source).state hmore]
  unfold parse parseScanned scanContext Scanned.state
  generalize Parser.program _ _ = result
  cases result <;> rfl

theorem parse_faulty {e : Token.Error} (hnil : (scan file source).tokens = [])
    (hending : (scan file source).ending = .error e) : parse file source builtins = .error (scanError file e) := by
  simp only [parse, parseScanned, hnil, hending]
  rfl

theorem runs_start {o : Option Program}
    (h : Runs file builtins (Plan.program file) ((Desk.start file source).advance file) o d) :
    Runs file builtins (Plan.start file) (Desk.start file source) o d :=
  .bindSome (.bindSome .advance .see) h

/-- What the parser that stops answers is what the recording parser comes to: a program with nothing recorded, or the
one fault it has recorded. -/
theorem runs_of_parse (file source : Text) (builtins : Option (List Text)) :
    ∃ o d, Runs file builtins (Plan.start file) (Desk.start file source) o d ∧
      ((∃ p, parse file source builtins = .ok p ∧ o = some p ∧ d.faults = []) ∨
        ∃ e, parse file source builtins = .error e ∧ d.faults = [e]) := by
  let ctx := scanContext file source builtins
  have hmirrors : Mirrors ctx (Within (scan file source).tokens.length) (Plan.program file) programRest :=
    mirrors_program (ended_scanContext file source builtins)
  have hsupplies : Supplies file (.start source) (scan file source).tokens (scan file source).ending :=
    supplies_take (Nat.lt_succ_self _)
  -- a source whose first token is faulty leaves the parser with a fault before it has begun
  by_cases hmore : (scan file source).tokens = [] → ∃ eof, (scan file source).ending = .ok eof
  · have halike : Alike ctx ((Desk.start file source).advance file) (scan file source).state :=
      alike_advance hsupplies rfl hmore
    rw [parse_eq hmore]
    cases hrest : programRest ctx (scan file source).state with
    | ok r =>
      obtain ⟨p, s'⟩ := r
      obtain ⟨d, hrun, hd⟩ := hmirrors.ok _ _ p s' (Nat.le_refl _) halike hrest
      exact ⟨some p, d, runs_start hrun, Or.inl ⟨p, rfl, rfl, hd.faultless⟩⟩
    | error e =>
      obtain ⟨o, d, hrun, hfaults, -⟩ := hmirrors.error _ _ e (Nat.le_refl _) halike hrest
      exact ⟨o, d, runs_start hrun, Or.inr ⟨e, rfl, hfaults⟩⟩
  · obtain ⟨hnil, hnone⟩ := Classical.not_imp.1 hmore
    cases hending : (scan file source).ending with
    | ok eof => exact absurd ⟨eof, hending⟩ hnone
    | error e =>
      rw [hnil, hending] at hsupplies
      have hfrozen : ((Desk.start file source).advance file).faults = [scanError file e] ∧
          ((Desk.start file source).advance file).Frozen := frozen_advance hsupplies rfl
      obtain ⟨o, d, hrun, -⟩ := hmirrors.frozen _ hfrozen.2
      exact ⟨o, d, runs_start hrun, Or.inr
        ⟨scanError file e, parse_faulty hnil hending, (hrun.settled hfrozen.2.faulty).trans hfrozen.1⟩⟩

theorem code_of_fault (fault : Fault) : fault.code = .lex ∨ fault.code = .parse ∨ fault.code = .type := by
  cases fault <;> simp [Fault.code]

/-- Parsing a source comes to one end: with a program and no diagnostic, or with no program and one diagnostic, which
has a place and is of one of three kinds. Whatever gives up on the way does so with this one fault recorded. -/
theorem one_outcome (file source : Text) (builtins : Option (List Text)) :
    ∃ o d, Runs file builtins (Plan.start file) (Desk.start file source) o d ∧
      (∀ o' d', Runs file builtins (Plan.start file) (Desk.start file source) o' d' → o' = o ∧ d' = d) ∧
      ((∃ p, parse file source builtins = .ok p ∧ verdict o d = (some p, [])) ∨
        ∃ e, parse file source builtins = .error e ∧ verdict o d = (none, [e.diagnostic]) ∧
          e.diagnostic.span.isSome ∧
          (e.diagnostic.code = .lex ∨ e.diagnostic.code = .parse ∨ e.diagnostic.code = .type)) ∧
      ∀ (α : Type) (c : Plan α) (d₁ d₂ : Desk),
        Reaches file builtins c d₁ (Plan.start file) (Desk.start file source) →
        Runs file builtins c d₁ none d₂ → ∃ e, d₂.faults = [e] ∧ d.faults = [e] := by
  obtain ⟨o, d, hrun, houtcome⟩ := runs_of_parse file source builtins
  refine ⟨o, d, hrun, fun _ _ hrun' => hrun.unique hrun', ?_, fun α c d₁ d₂ hreaches hnone => ?_⟩
  · rcases houtcome with ⟨p, hp, rfl, hfaults⟩ | ⟨e, he, hfaults⟩
    · exact Or.inl ⟨p, hp, by simp [verdict, hfaults]⟩
    · exact Or.inr ⟨e, he, by simp [verdict, hfaults], rfl, code_of_fault e.fault⟩
  · have hone := (hnone.recorded (hreaches.recorded (Nat.zero_le 1))).2 rfl
    obtain ⟨e, he⟩ := List.length_eq_one_iff.1 hone
    exact ⟨e, he, (hreaches.settled hrun hnone (by simp [he])).trans he⟩

/-- A character that begins no token stands where a name should. The scanner's fault is recorded, and the declaration
gives up with it. -/
theorem one_outcome_unexpected :
    ∃ o d e d₁ d₂, Runs "a" none (Plan.start "a") (Desk.start "a" "int @") o d ∧
      verdict o d = (none, [Error.diagnostic e]) ∧ e.fault.code = .lex ∧
      Reaches "a" none Plan.declaration d₁ (Plan.start "a") (Desk.start "a" "int @") ∧
      Runs "a" none Plan.declaration d₁ none d₂ ∧ d₂.faults = [e] := by
  let d₁ := (Desk.start "a" "int @").advance "a"
  let d₂ := d₁.advance "a"
  have hint : d₁.current.kind = .intType := by decide +kernel
  have hlex : d₂.current.kind = .endOfFile ∧ d₂.faults.map (fun e => e.fault.code) = [Code.lex] := by decide +kernel
  have hfrozen : d₂.Frozen := ⟨fun hnil => by simp [hnil] at hlex, hlex.1⟩
  have hname : Runs "a" none (Plan.expect .name) d₂ none d₂ := Runs.name_refused hfrozen
  have hdeclaration : Runs "a" none Plan.declaration d₁ none d₂ := .bindSome .advance (.bindNone hname)
  have hreaches : Reaches "a" none Plan.declaration d₁ (Plan.start "a") (Desk.start "a" "int @") := by
    refine .next (.bindSome .advance .see) (.first (.turn (.next .see ?_)))
    show Reaches "a" none Plan.declaration d₁ (if d₁.current.kind.isType then _ else _) d₁
    rw [hint]
    exact .first .here
  obtain ⟨o, d, hrun, -, -, hall⟩ := one_outcome "a" "int @" none
  obtain ⟨e, he, he'⟩ := hall _ Plan.declaration d₁ d₂ hreaches hdeclaration
  refine ⟨o, d, e, d₁, d₂, hrun, by simp [verdict, he'], ?_, hreaches, hdeclaration, he⟩
  simpa [he] using hlex.2

end Sources

end Recorder

end ScriptKit
