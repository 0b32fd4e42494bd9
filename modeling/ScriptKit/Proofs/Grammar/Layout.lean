import ScriptKit.Proofs.Grammar.Steps
import ScriptKit.Proofs.Token.Exact
import ScriptKit.Proofs.Tree.Core
import ScriptKit.Proofs.Tree.Outline

/-!
# Places never decide

Blanks, line feeds and comments leave no trace in the tokens of a source but the places of these. Here the parser
reads tokens twice, from two sources in which they stand at different places. A token, a fault, a state of the parser
or a node is `bare` if it stands nowhere, and `Agree ctx ctx' view x y` says of two parsers that they come to the
same, places aside: wherever the tokens that are left are the same but for their places, both fail with the same
fault, or both succeed, with results of which `view` shows the same, in states that are the same.

Two parsers agree if their steps do (`Agree.bind`), and each function of the grammar agrees with itself, whatever
the places are that it is given: of its parameters (a first token, a left operand, a block around a statement) only
the bare part has to be the same.

**Theorem (`agree_program`).** The two readings of a program agree.

**Theorem (`parse_layout`).** Sources with the same tokens are parsed in the same way, places aside.
-/

namespace ScriptKit

open Parse

/-! ## What stands nowhere -/

/-- A token that stands nowhere. -/
def Token.bare (t : Token) : Token := { t with span := default }

theorem Token.bare_inj {t u : Token} : t.bare = u.bare ↔ t.kind = u.kind ∧ t.value = u.value := by
  simp [Token.bare]

namespace Parse

/-- A fault about tokens that stand nowhere. -/
def Fault.bare : Fault → Fault
  | .expected kind got => .expected kind got.bare
  | .functionName got => .functionName got.bare
  | .parameter got => .parameter got.bare
  | .forHeader got => .forHeader got.bare
  | fault => fault

/-- The wording of a fault mentions no places. -/
theorem Fault.message_bare (fault : Fault) : fault.bare.message = fault.message := by
  cases fault <;> rfl

theorem Fault.code_bare (fault : Fault) : fault.bare.code = fault.code := by
  cases fault <;> rfl

/-- A state at tokens that stand nowhere. -/
def State.bare (s : State) : State := { s with tokens := s.tokens.map Token.bare, prev := default }

theorem State.bare_inj {s s' : State} : s.bare = s'.bare ↔
    s.tokens.map Token.bare = s'.tokens.map Token.bare ∧ s.functions = s'.functions ∧ s.begun = s'.begun := by
  simp [State.bare]

/-- Contexts of two sources that end without a fault and know the same builtins. -/
structure Context.Alike (ctx ctx' : Context) : Prop where
  ending : ∃ eof eof', ctx.ending = .ok eof ∧ ctx'.ending = .ok eof' ∧ eof.bare = eof'.bare
  builtins : ctx.builtins = ctx'.builtins

end Parse

namespace Parser

variable {α β γ δ : Type} {ctx ctx' : Context}

/-! ## Agreement -/

/-- What is left of the outcome of a parser where nothing stands anywhere. -/
def bareOutcome (view : α → γ) : Except Error (α × State) → Except Fault (γ × State)
  | .ok (a, s) => .ok (view a, s.bare)
  | .error e => .error e.fault.bare

/-- Runs that come to the same, places aside, both fail or both succeed. -/
theorem bareOutcome_eq {view : α → γ} {r r' : Except Error (α × State)}
    (h : bareOutcome view r = bareOutcome view r') :
    (∃ e e', r = .error e ∧ r' = .error e' ∧ e.fault.bare = e'.fault.bare) ∨
      ∃ a s b s', r = .ok (a, s) ∧ r' = .ok (b, s') ∧ view a = view b ∧ s.bare = s'.bare := by
  rcases r with e | ⟨a, s⟩
  all_goals rcases r' with e' | ⟨b, s'⟩
  · exact Or.inl ⟨e, e', rfl, rfl, Except.error.inj h⟩
  · cases h
  · cases h
  · obtain ⟨hview, hs⟩ := Prod.mk.inj (Except.ok.inj h)
    exact Or.inr ⟨a, s, b, s', rfl, rfl, hview, hs⟩

/-- Two parsers come to the same, places aside, wherever they stand at the same tokens, places aside. -/
def Agree (ctx ctx' : Context) (view : α → γ) (x y : Parser α) : Prop :=
  ∀ s s', s.bare = s'.bare → bareOutcome view (x ctx s) = bareOutcome view (y ctx' s')

namespace Agree

variable {view : α → γ} {view' : β → δ} {x y : Parser α} {f g : α → Parser β}

theorem pure {a b : α} (h : view a = view b) : Agree ctx ctx' view (pure a) (pure b) := by
  intro s s' hs
  show Except.ok (view a, s.bare) = Except.ok (view b, s'.bare)
  rw [h, hs]

theorem bind (hx : Agree ctx ctx' view x y) (hf : ∀ a b, view a = view b → Agree ctx ctx' view' (f a) (g b)) :
    Agree ctx ctx' view' (x >>= f) (y >>= g) := by
  intro s s' hs
  show bareOutcome view' (x ctx s >>= fun r => f r.1 ctx r.2) =
    bareOutcome view' (y ctx' s' >>= fun r => g r.1 ctx' r.2)
  rcases bareOutcome_eq (hx s s' hs) with ⟨e, e', hleft, hright, hfault⟩ | ⟨a, t, b, t', hleft, hright, hab, ht⟩
  · rw [hleft, hright]
    exact congrArg Except.error hfault
  · rw [hleft, hright]
    exact hf a b hab t t' ht

/-- A step whose result names no places. -/
theorem bind_same {x y : Parser α} {f g : α → Parser β} (hx : Agree ctx ctx' id x y)
    (hf : ∀ a, Agree ctx ctx' view' (f a) (g a)) : Agree ctx ctx' view' (x >>= f) (y >>= g) :=
  hx.bind fun a b hab => by
    obtain rfl : a = b := hab
    exact hf a

/-- A step whose result is not looked at. -/
theorem discard (hx : Agree ctx ctx' view x y) :
    Agree ctx ctx' (fun _ => ()) (discard x) (discard y) :=
  hx.bind fun _ _ _ => pure rfl

theorem ite {c : Prop} [Decidable c] {x' y' : Parser α} (hx : c → Agree ctx ctx' view x y)
    (hy : ¬c → Agree ctx ctx' view x' y') :
    Agree ctx ctx' view (if c then x else x') (if c then y else y') := by
  by_cases hc : c
  · rw [if_pos hc, if_pos hc]
    exact hx hc
  · rw [if_neg hc, if_neg hc]
    exact hy hc

theorem fail {fault fault' : Fault} {span span' : Span} (h : fault.bare = fault'.bare) :
    Agree ctx ctx' view (Parser.fail fault span) (Parser.fail fault' span') :=
  fun _ _ _ => congrArg Except.error h

/-- Nothing follows a failure. -/
theorem fail_bind {fault fault' : Fault} {span span' : Span} (h : fault.bare = fault'.bare) :
    Agree ctx ctx' view' (Parser.fail fault span >>= f) (Parser.fail fault' span' >>= g) :=
  fun _ _ _ => congrArg Except.error h

theorem state : Agree ctx ctx' State.bare (get : Parser State) get := by
  intro s s' hs
  show Except.ok (s.bare, s.bare) = Except.ok (s'.bare, s'.bare)
  rw [hs]

theorem change {m m' : State → State} (h : ∀ s s', s.bare = s'.bare → (m s).bare = (m' s').bare) :
    Agree ctx ctx' (fun _ => ()) (modify m : Parser PUnit) (modify m') := by
  intro s s' hs
  show Except.ok ((), (m s).bare) = Except.ok ((), (m' s').bare)
  rw [h s s' hs]

end Agree

/-! ## Tokens -/

theorem agree_remaining : Agree ctx ctx' id remaining remaining := by
  refine Agree.state.bind fun s s' hs => .pure ?_
  have hlength := congrArg List.length (State.bare_inj.1 hs).1
  simpa using hlength

theorem agree_spanFrom (start start' : Token) :
    Agree ctx ctx' (fun _ => ()) (spanFrom start) (spanFrom start') :=
  Agree.state.bind fun _ _ _ => .pure rfl

section Tokens

variable (hctx : ctx.Alike ctx')

include hctx

theorem agree_current : Agree ctx ctx' Token.bare current current := by
  intro s s' hs
  obtain ⟨eof, eof', hok, hok', heof⟩ := hctx.ending
  have hhead := congrArg List.head? (State.bare_inj.1 hs).1
  rw [List.head?_map, List.head?_map] at hhead
  have htoken : (s.tokens.head?.getD (endToken ctx)).bare = (s'.tokens.head?.getD (endToken ctx')).bare := by
    rw [endToken, endToken, hok, hok']
    show _ = (s'.tokens.head?.getD eof').bare
    rw [← Option.getD_map Token.bare, ← Option.getD_map Token.bare, hhead, heof]
  show Except.ok (_, s.bare) = Except.ok (_, s'.bare)
  rw [htoken, hs]

theorem agree_peek : Agree ctx ctx' id peek peek :=
  (agree_current hctx).bind fun _ _ ht => .pure (Token.bare_inj.1 ht).1

/-- Neither of the two sources ends with a fault. -/
theorem agree_guardEnding (rest rest' : List Token) :
    Agree ctx ctx' (fun _ => ()) (guardEnding rest) (guardEnding rest') := by
  intro s s' hs
  obtain ⟨eof, eof', hok, hok', -⟩ := hctx.ending
  rw [guardEnding_run hok, guardEnding_run hok']
  show Except.ok ((), s.bare) = Except.ok ((), s'.bare)
  rw [hs]

theorem agree_advance : Agree ctx ctx' Token.bare advance advance := by
  refine (agree_current hctx).bind fun t t' ht => Agree.state.bind fun s s' hs => ?_
  refine (agree_guardEnding hctx _ _).bind fun _ _ _ => (Agree.change fun r r' hr => ?_).bind fun _ _ _ => .pure ht
  obtain ⟨-, hfunctions, hbegun⟩ := State.bare_inj.1 hr
  have htail := congrArg List.tail (State.bare_inj.1 hs).1
  rw [← List.map_tail, ← List.map_tail] at htail
  exact State.bare_inj.2 ⟨htail, hfunctions, hbegun⟩

theorem agree_expect (kind : Token.Kind) : Agree ctx ctx' Token.bare (expect kind) (expect kind) := by
  refine (agree_current hctx).bind fun t t' ht => ?_
  rw [(Token.bare_inj.1 ht).1]
  exact .ite (fun _ => agree_advance hctx) fun _ => .fail (congrArg (Fault.expected kind) ht)

theorem agree_optionalComma : Agree ctx ctx' (fun _ => ()) optionalComma optionalComma := by
  refine (agree_peek hctx).bind_same fun _ => ?_
  exact .ite (fun _ => (agree_advance hctx).discard) fun _ => .pure rfl

variable {view : α → γ} {stop : Token.Kind → Bool} {item item' : Parser α}

theorem agree_itemsUntil (hitem : Agree ctx ctx' view item item') (n : Nat) {items items' : List α}
    (h : items.map view = items'.map view) :
    Agree ctx ctx' (List.map view) (itemsUntil stop item n items) (itemsUntil stop item' n items') := by
  induction n generalizing items items' with
  | zero => exact .pure (by rw [List.map_reverse, List.map_reverse, h])
  | succ n ih =>
    refine (agree_peek hctx).bind_same fun _ => ?_
    refine .ite (fun _ => .pure (by rw [List.map_reverse, List.map_reverse, h])) fun _ => ?_
    exact hitem.bind fun a b hab => ih (by rw [List.map_cons, List.map_cons, hab, h])

theorem agree_manyUntil (hitem : Agree ctx ctx' view item item') :
    Agree ctx ctx' (List.map view) (manyUntil stop item) (manyUntil stop item') := by
  exact agree_remaining.bind_same fun _ => agree_itemsUntil hctx hitem _ rfl

end Tokens

/-! ## Expressions -/

section Expressions

variable (hctx : ctx.Alike ctx') {f f' : Parser Node}

include hctx

theorem agree_termFrom (hf : Agree ctx ctx' Node.bare f f') (n : Nat) {left left' : Node}
    (h : left.bare = left'.bare) : Agree ctx ctx' Node.bare (termFrom f n left) (termFrom f' n left') := by
  induction n generalizing left left' with
  | zero => exact .pure h
  | succ n ih =>
    refine (agree_peek hctx).bind_same fun _ => ?_
    refine .ite (fun _ => ?_) fun _ => .ite (fun _ => ?_) fun _ => .pure h
    · refine (agree_advance hctx).bind fun op op' hop => hf.bind fun right right' hright => ih ?_
      rw [Node.bare, Node.bare, h, hright, (Token.bare_inj.1 hop).2]
    · refine (agree_advance hctx).bind fun op op' hop => hf.bind fun right right' hright => .pure ?_
      rw [Node.bare, Node.bare, h, hright, (Token.bare_inj.1 hop).2]

theorem agree_term (hf : Agree ctx ctx' Node.bare f f') : Agree ctx ctx' Node.bare (term f) (term f') := by
  exact hf.bind fun left left' hleft => agree_remaining.bind_same fun _ => agree_termFrom hctx hf _ hleft

theorem agree_expressionFrom (hf : Agree ctx ctx' Node.bare f f') (n : Nat) {left left' : Node}
    (h : left.bare = left'.bare) :
    Agree ctx ctx' Node.bare (expressionFrom f n left) (expressionFrom f' n left') := by
  induction n generalizing left left' with
  | zero => exact .pure h
  | succ n ih =>
    refine (agree_peek hctx).bind_same fun _ => ?_
    refine .ite (fun _ => ?_) fun _ => .pure h
    refine (agree_advance hctx).bind fun op op' hop => (agree_term hctx hf).bind fun right right' hright => ih ?_
    rw [Node.bare, Node.bare, h, hright, (Token.bare_inj.1 hop).2]

theorem agree_expression (hf : Agree ctx ctx' Node.bare f f') :
    Agree ctx ctx' Node.bare (expression f) (expression f') := by
  exact (agree_term hctx hf).bind fun left left' hleft => agree_remaining.bind_same fun _ => agree_expressionFrom hctx hf _ hleft

theorem agree_builtins : Agree ctx ctx' Context.builtins (read : Parser Context) read := by
  intro s s' hs
  show Except.ok (ctx.builtins, s.bare) = Except.ok (ctx'.builtins, s'.bare)
  rw [hctx.builtins, hs]

/-- A name is resolved by the functions read so far and by the builtins. -/
theorem agree_resolve {name name' : Token} (h : name.bare = name'.bare) :
    Agree ctx ctx' id (resolve name) (resolve name') := by
  refine Agree.state.bind fun s s' hs => (agree_builtins hctx).bind fun c c' hc => ?_
  rw [(State.bare_inj.1 hs).2.1, hc, (Token.bare_inj.1 h).2]
  split
  · exact .pure rfl
  · exact .pure rfl
  · exact .ite (fun _ => .pure rfl) fun _ => .fail rfl

theorem agree_call (hf : Agree ctx ctx' Node.bare f f') : Agree ctx ctx' Node.bare (call f) (call f') := by
  have hitem : Agree ctx ctx' Node.bare
      (do
        let arg ← expression f
        optionalComma
        return arg)
      (do
        let arg ← expression f'
        optionalComma
        return arg) :=
    (agree_expression hctx hf).bind fun _ _ harg => (agree_optionalComma hctx).bind fun _ _ _ => .pure harg
  refine (agree_advance hctx).bind fun name name' hname => ((agree_expect hctx _).discard).bind fun _ _ _ => ?_
  refine (agree_manyUntil hctx hitem).bind fun args args' hargs => ((agree_advance hctx).discard).bind fun _ _ _ => ?_
  refine (agree_spanFrom name name').bind fun _ _ _ => (agree_resolve hctx hname).bind_same fun _ => .pure ?_
  rw [Node.bare, Node.bare, Node.bareAll_eq_map, Node.bareAll_eq_map, hargs, (Token.bare_inj.1 hname).2]

theorem agree_nameUse : Agree ctx ctx' Node.bare nameUse nameUse := by
  refine (agree_expect hctx _).bind fun t t' ht => .pure ?_
  rw [Node.bare, Node.bare, (Token.bare_inj.1 ht).2]

theorem agree_numeral : Agree ctx ctx' Node.bare numeral numeral := by
  refine (agree_advance hctx).bind fun t t' ht => ?_
  rw [(Token.bare_inj.1 ht).2]
  split
  · exact .pure rfl
  · exact .fail rfl

theorem agree_factor (n : Nat) : Agree ctx ctx' Node.bare (factor n) (factor n) := by
  induction n with
  | zero => exact agree_nameUse hctx
  | succ n ih =>
    refine (agree_current hctx).bind fun t t' ht => ?_
    obtain ⟨hkind, hvalue⟩ := Token.bare_inj.1 ht
    have hsigned : Agree ctx ctx' Node.bare
        (do
          discard advance
          let operand ← factor n
          return .sign (t.span.through operand.span) (.ofSymbol t.value) operand)
        (do
          discard advance
          let operand ← factor n
          return .sign (t'.span.through operand.span) (.ofSymbol t'.value) operand) := by
      refine ((agree_advance hctx).discard).bind fun _ _ _ => ih.bind fun operand operand' hoperand => .pure ?_
      rw [Node.bare, Node.bare, hoperand, hvalue]
    rw [hkind]
    split
    · exact hsigned
    · exact hsigned
    · exact agree_numeral hctx
    · exact ((agree_advance hctx).discard).bind fun _ _ _ => .pure (by rw [Node.bare, Node.bare, hvalue])
    · exact ((agree_advance hctx).discard).bind fun _ _ _ => .pure (by rw [Node.bare, Node.bare, hvalue])
    · refine ((agree_advance hctx).discard).bind fun _ _ _ => (agree_expression hctx ih).bind fun _ _ hinner => ?_
      exact ((agree_expect hctx _).discard).bind fun _ _ _ => .pure hinner
    · exact agree_call hctx ih
    · exact agree_nameUse hctx

theorem agree_anyExpression : Agree ctx ctx' Node.bare anyExpression anyExpression := by
  exact agree_remaining.bind_same fun _ => agree_expression hctx (agree_factor hctx _)

theorem agree_anyTerm : Agree ctx ctx' Node.bare anyTerm anyTerm := by
  exact agree_remaining.bind_same fun _ => agree_term hctx (agree_factor hctx _)

theorem agree_anyCall : Agree ctx ctx' Node.bare anyCall anyCall := by
  exact agree_remaining.bind_same fun _ => agree_call hctx (agree_factor hctx _)

end Expressions

/-! ## Statements -/

/-- A declaration is a declaration wherever it stands. -/
theorem declare_of_bare {n : Node} {span : Span} {name : Text} {type : VarType}
    (h : n.bare = .declare span name type) : ∃ span', n = .declare span' name type := by
  cases n <;> cases h
  exact ⟨_, rfl⟩

section Statements

variable (hctx : ctx.Alike ctx')

include hctx

theorem agree_declaration : Agree ctx ctx' Node.bare declaration declaration := by
  refine (agree_advance hctx).bind fun type type' htype => (agree_expect hctx _).bind fun name name' hname => ?_
  refine (agree_peek hctx).bind_same fun _ => ?_
  obtain ⟨htype, -⟩ := Token.bare_inj.1 htype
  obtain ⟨-, hname⟩ := Token.bare_inj.1 hname
  refine .ite (fun _ => ?_) fun _ => ?_
  · refine ((agree_advance hctx).discard).bind fun _ _ _ => (agree_anyExpression hctx).bind fun value value' hvalue => ?_
    refine (agree_spanFrom type type').bind fun _ _ _ => .pure ?_
    rw [Node.bare, Node.bare, htype, hname, hvalue]
  · refine (agree_spanFrom type type').bind fun _ _ _ => .pure ?_
    rw [Node.bare, Node.bare, htype, hname]

theorem agree_assignment : Agree ctx ctx' Node.bare assignment assignment := by
  refine (agree_expect hctx _).bind fun name name' hname => ((agree_expect hctx _).discard).bind fun _ _ _ => ?_
  refine (agree_anyExpression hctx).bind fun value value' hvalue => ?_
  refine (agree_spanFrom name name').bind fun _ _ _ => .pure ?_
  rw [Node.bare, Node.bare, (Token.bare_inj.1 hname).2, hvalue]

theorem agree_parameter : Agree ctx ctx' Param.bare parameter parameter := by
  refine (agree_current hctx).bind fun t t' ht => ?_
  rw [(Token.bare_inj.1 ht).1]
  refine .ite (fun _ => ?_) fun _ => .fail (congrArg Fault.parameter ht)
  refine (agree_declaration hctx).bind fun d d' hd => ?_
  split
  · next span name type =>
    obtain ⟨span', rfl⟩ := declare_of_bare hd.symm
    exact (agree_optionalComma hctx).bind fun _ _ _ => .pure rfl
  · next hother =>
    split
    · next span name type =>
      obtain ⟨span', rfl⟩ := declare_of_bare hd
      exact absurd rfl (hother _ _ _)
    · exact .fail rfl

theorem agree_condition : Agree ctx ctx' Node.bare condition condition := by
  refine ((agree_expect hctx _).discard).bind fun _ _ _ => (agree_anyExpression hctx).bind fun _ _ hcond => ?_
  exact ((agree_expect hctx _).discard).bind fun _ _ _ => .pure hcond

theorem agree_loopStart : Agree ctx ctx' Node.bare loopStart loopStart := by
  refine (agree_current hctx).bind fun t t' ht => ?_
  rw [(Token.bare_inj.1 ht).1]
  refine .ite (fun _ => agree_declaration hctx) fun _ => .ite (fun _ => agree_assignment hctx) fun _ => ?_
  exact .fail (congrArg Fault.forHeader ht)

theorem agree_loopCondition : Agree ctx ctx' Node.bare loopCondition loopCondition := by
  refine (agree_anyTerm hctx).bind fun cond cond' hcond => ?_
  have hcomparison := congrArg Node.isComparison hcond
  have hkind := congrArg Node.kind hcond
  simp only [Node.isComparison_bare, Node.kind_bare] at hcomparison hkind
  rw [hcomparison, hkind]
  exact .ite (fun _ => .pure hcond) fun _ => .fail rfl

theorem agree_passOver : Agree ctx ctx' Node.bare passOver passOver :=
  (agree_advance hctx).bind fun _ _ ht => .pure (by rw [Node.bare, Node.bare, (Token.bare_inj.1 ht).2])

section Nested

variable {st : Place → Parser Node} (hst : ∀ place place', Agree ctx ctx' Node.bare (st place) (st place'))
  (place place' : Place)

include hst

theorem agree_block : Agree ctx ctx' (fun r => Node.bareAll r.2) (block st place) (block st place') := by
  refine (agree_expect hctx _).bind fun l l' _ => (agree_manyUntil hctx (hst _ _)).bind fun body body' hbody => ?_
  refine ((agree_expect hctx _).discard).bind fun _ _ _ => (agree_spanFrom l l').bind fun _ _ _ => .pure ?_
  rw [Node.bareAll_eq_map, Node.bareAll_eq_map, hbody]

theorem agree_function :
    Agree ctx ctx' (fun f => f.node.bare) (function st place) (function st place') := by
  refine (agree_advance hctx).bind fun start start' _ => (agree_current hctx).bind fun name name' hname => ?_
  have hvalue := (Token.bare_inj.1 hname).2
  rw [(Token.bare_inj.1 hname).1]
  refine .ite (fun _ => ?_) fun _ => .fail (congrArg Fault.functionName hname)
  refine ((agree_advance hctx).discard).bind fun _ _ _ => Agree.state.bind fun s s' hs => ?_
  refine Agree.state.bind fun r r' hr => ?_
  rw [hvalue, (State.bare_inj.1 hs).2.2, (State.bare_inj.1 hr).2.1]
  refine .ite (fun _ => .fail_bind rfl) fun _ => ?_
  refine (Agree.change fun u u' hu => ?_).bind fun _ _ _ => ((agree_expect hctx _).discard).bind fun _ _ _ => ?_
  · obtain ⟨htokens, hfunctions, -⟩ := State.bare_inj.1 hu
    exact State.bare_inj.2 ⟨htokens, hfunctions, rfl⟩
  refine (agree_manyUntil hctx (agree_parameter hctx)).bind fun ps ps' hps => ?_
  refine ((agree_advance hctx).discard).bind fun _ _ _ => ?_
  refine (agree_block hctx hst place place').bind fun b b' hb => ?_
  refine (Agree.change fun u u' hu => ?_).bind fun _ _ _ => (agree_spanFrom start start').bind fun _ _ _ => .pure ?_
  · obtain ⟨htokens, hfunctions, hbegun⟩ := State.bare_inj.1 hu
    exact State.bare_inj.2 ⟨htokens, congrArg (_ :: ·) hfunctions, hbegun⟩
  simp only [Function.node, Node.bare, hps, hb]

theorem agree_conditional : Agree ctx ctx' Node.bare (conditional st place) (conditional st place') := by
  refine (agree_advance hctx).bind fun start start' _ => (agree_condition hctx).bind fun cond cond' hcond => ?_
  refine (agree_block hctx hst place place').bind fun yes yes' hyes => (agree_peek hctx).bind_same fun _ => ?_
  refine .ite (fun _ => ?_) fun _ => ?_
  · refine ((agree_advance hctx).discard).bind fun _ _ _ => (agree_block hctx hst place place').bind fun no no' hno => ?_
    refine (agree_spanFrom start start').bind fun _ _ _ => .pure ?_
    simp only [Node.bare, hcond, hyes, hno]
  · refine (agree_spanFrom start start').bind fun _ _ _ => .pure ?_
    simp only [Node.bare, hcond, hyes]

theorem agree_whileLoop : Agree ctx ctx' Node.bare (whileLoop st place) (whileLoop st place') := by
  refine (agree_advance hctx).bind fun start start' _ => (agree_condition hctx).bind fun cond cond' hcond => ?_
  refine (agree_block hctx hst place place').bind fun body body' hbody => ?_
  refine (agree_spanFrom start start').bind fun _ _ _ => .pure ?_
  simp only [Node.bare, hcond, hbody]

theorem agree_forLoop : Agree ctx ctx' Node.bare (forLoop st place) (forLoop st place') := by
  refine (agree_advance hctx).bind fun start start' _ => ((agree_expect hctx _).discard).bind fun _ _ _ => ?_
  refine (agree_loopStart hctx).bind fun init init' hinit => ((agree_expect hctx _).discard).bind fun _ _ _ => ?_
  refine (agree_loopCondition hctx).bind fun cond cond' hcond => ((agree_expect hctx _).discard).bind fun _ _ _ => ?_
  refine (agree_assignment hctx).bind fun step step' hstep => ((agree_expect hctx _).discard).bind fun _ _ _ => ?_
  refine (agree_block hctx hst place place').bind fun body body' hbody => ?_
  refine (agree_spanFrom start start').bind fun _ _ _ => .pure ?_
  simp only [Node.bare, hinit, hcond, hstep, hbody]

end Nested

/-- One case for each way a statement begins. -/
theorem agree_statement (n : Nat) (place place' : Place) :
    Agree ctx ctx' Node.bare (statement n place) (statement n place') := by
  induction n generalizing place place' with
  | zero => exact agree_passOver hctx
  | succ n ih =>
    refine (agree_peek hctx).bind_same fun kind => ?_
    cases kind with
    | func => exact (agree_function hctx ih place place').bind fun f f' hf => .pure hf
    | intType | stringType | boolType => exact agree_declaration hctx
    | name => exact agree_assignment hctx
    | call => exact agree_anyCall hctx
    | «if» => exact agree_conditional hctx ih place place'
    | «while» => exact agree_whileLoop hctx ih place place'
    | «for» => exact agree_forLoop hctx ih place place'
    | _ => exact agree_passOver hctx

/-! ## Programs -/

theorem agree_globalsFrom (n : Nat) {globals globals' : List Node} (h : globals.map Node.bare = globals'.map Node.bare) :
    Agree ctx ctx' (List.map Node.bare) (globalsFrom n globals) (globalsFrom n globals') := by
  induction n generalizing globals globals' with
  | zero => exact .pure (by rw [List.map_reverse, List.map_reverse, h])
  | succ n ih =>
    refine (agree_peek hctx).bind_same fun _ => .ite (fun _ => ?_) fun _ => ?_
    · exact (agree_declaration hctx).bind fun g g' hg => ih (by rw [List.map_cons, List.map_cons, hg, h])
    · exact .pure (by rw [List.map_reverse, List.map_reverse, h])

theorem agree_functionsFrom (n : Nat) {fs fs' : List Function}
    (h : fs.map (fun f => f.node.bare) = fs'.map fun f => f.node.bare) :
    Agree ctx ctx' (List.map fun f => f.node.bare) (functionsFrom n fs) (functionsFrom n fs') := by
  induction n generalizing fs fs' with
  | zero => exact .pure (by rw [List.map_reverse, List.map_reverse, h])
  | succ n ih =>
    refine (agree_peek hctx).bind_same fun _ => .ite (fun _ => ?_) fun _ => ?_
    · refine agree_remaining.bind_same fun m => ?_
      refine (agree_function hctx (agree_statement hctx m) .top .top).bind fun f f' hf => ?_
      exact ih (by rw [List.map_cons, List.map_cons, hf, h])
    · exact .pure (by rw [List.map_reverse, List.map_reverse, h])

/-- A program is read in the same way wherever its tokens stand. -/
theorem agree_program : Agree ctx ctx' (fun p => p.node.bare) program program := by
  refine Agree.state.bind fun _ _ _ => (agree_guardEnding hctx _ _).bind fun _ _ _ => ?_
  refine agree_remaining.bind_same fun n => (agree_globalsFrom hctx n rfl).bind fun gs gs' hgs => ?_
  refine agree_remaining.bind_same fun m => (agree_functionsFrom hctx m rfl).bind fun fs fs' hfs => ?_
  refine (agree_expect hctx _).bind fun _ _ _ => (agree_builtins hctx).bind fun _ _ _ => .pure ?_
  simp only [Program.node, Node.bare, Node.bareAll_eq_map, hgs, List.map_map]
  rw [show Node.bare ∘ Function.node = fun f : Function => f.node.bare from rfl, hfs]

end Statements

end Parser

/-! ## Numbers of functions -/

theorem getElem?_filterMap {α β : Type} (g : α → Option β) (l : List α) (k : Nat) (b : β) :
    (l.filterMap g)[k]? = some b ↔ ∃ j a, l[j]? = some a ∧ g a = some b ∧ ((l.take j).filterMap g).length = k := by
  induction l generalizing k with
  | nil => simp
  | cons a l ih =>
    rw [← Nat.or_exists_add_one]
    cases ha : g a with
    | none => simp [ha, ih]
    | some c =>
      cases k with
      | zero => simp [ha]
      | succ k => simp [ha, ih]

namespace Program

/-- The number of a function that is declared by the `j`th node of a program. -/
def numberAt (p : Program) (j : Nat) : Nat := ((p.node.preorder.take j).filterMap Node.function?).length

/-- The `i`th node of a program is a call that was resolved to the function declared by the `j`th node. -/
def ResolvesTo (p : Program) (i j : Nat) : Prop :=
  ∃ span name args f, p.node.preorder[i]? = some (.call span name (.function (p.numberAt j)) args) ∧
    p.node.preorder[j]? = some (Function.node f)

/-- The function of a number is the one that is declared by a node with that number. -/
theorem function?_iff {p : Program} {k : Nat} {f : Function} :
    p.function? k = some f ↔ ∃ j, p.node.preorder[j]? = some f.node ∧ p.numberAt j = k := by
  simp only [function?, allFunctions, getElem?_filterMap, Node.function?_eq_some, numberAt]
  constructor
  · rintro ⟨j, _, hj, rfl, hk⟩
    exact ⟨j, hj, hk⟩
  · rintro ⟨j, hj, hk⟩
    exact ⟨j, _, hj, rfl, hk⟩

end Program

/-! ## Nodes at the same place of the walk -/

theorem Node.preorder_bare (n : Node) : n.bare.preorder = n.preorder.map bare := by
  induction n using induction_children with
  | step n ih =>
    rw [preorder_eq, preorder_eq n, children_bare, List.map_cons, List.map_flatMap, List.flatMap_map]
    rw [List.flatMap_def, List.flatMap_def, List.map_congr_left ih]

theorem Node.call_of_bare {n : Node} {span : Span} {name : Text} {callee : Callee} {args : List Node}
    (h : n.bare = (Node.call span name callee args).bare) : ∃ span' args', n = .call span' name callee args' := by
  cases n <;> simp only [bare, reduceCtorEq, call.injEq] at h
  obtain ⟨-, rfl, rfl, -⟩ := h
  exact ⟨_, _, rfl⟩

theorem Node.function_of_bare {n : Node} {f : Function} (h : n.bare = f.node.bare) : ∃ f' : Function, n = f'.node := by
  cases n <;> simp only [bare, Function.node, reduceCtorEq] at h
  exact ⟨⟨_, _, _, _, _⟩, rfl⟩

theorem Node.isSome_function?_bare (n : Node) : n.bare.function?.isSome = n.function?.isSome := by
  cases n <;> rfl

namespace Program

variable {p q : Program}

/-- Nodes at the same place of the walks over two programs that are the same. -/
theorem getElem?_bare (h : p.node.bare = q.node.bare) (i : Nat) :
    p.node.preorder[i]?.map Node.bare = q.node.preorder[i]?.map Node.bare := by
  have hwalk := congrArg Node.preorder h
  rw [Node.preorder_bare, Node.preorder_bare] at hwalk
  rw [← List.getElem?_map, ← List.getElem?_map, hwalk]

theorem numberAt_eq (h : p.node.bare = q.node.bare) (j : Nat) : p.numberAt j = q.numberAt j := by
  have hcount : ∀ r : Program, r.numberAt j =
      ((r.node.bare.preorder.take j).countP fun n => n.function?.isSome) := by
    intro r
    rw [numberAt, List.length_filterMap_eq_countP, Node.preorder_bare, ← List.map_take, List.countP_map]
    exact List.countP_congr fun n _ => by rw [Function.comp, Node.isSome_function?_bare]
  rw [hcount p, hcount q, h]

/-- Calls are resolved to functions at the same places of the walk. -/
theorem ResolvesTo.of_bare (h : p.node.bare = q.node.bare) {i j : Nat} (hp : p.ResolvesTo i j) :
    q.ResolvesTo i j := by
  obtain ⟨span, name, args, f, hcall, hf⟩ := hp
  have hcall' := getElem?_bare h i
  have hf' := getElem?_bare h j
  rw [hcall, numberAt_eq h j] at hcall'
  rw [hf] at hf'
  obtain ⟨n, hn, hnbare⟩ := Option.map_eq_some_iff.1 hcall'.symm
  obtain ⟨m, hm, hmbare⟩ := Option.map_eq_some_iff.1 hf'.symm
  obtain ⟨span', args', rfl⟩ := Node.call_of_bare hnbare
  obtain ⟨f', rfl⟩ := Node.function_of_bare hmbare
  exact ⟨span', name, args', f', hn, hm⟩

end Program

/-! ## Sources with the same tokens -/

theorem ending_of_tokenize {file source : Text} {ts : List Token} (h : tokenize file source = .ok ts) :
    (scan file source).ending = .ok (endOfFile file source) ∧
      ts = (scan file source).tokens ++ [endOfFile file source] := by
  simp only [tokenize] at h
  split at h
  · next eof hending =>
    obtain ⟨-, rfl⟩ := scan_end hending
    exact ⟨hending, (Except.ok.inj h).symm⟩
  · cases h

/-- Two sources that are cut into the same tokens, layout and comments aside, are read as the same program, places
aside, in which the same calls are resolved to the same functions, or refused with the same code and message. -/
theorem parse_layout {file file' source source' : Text} {ts ts' : List Token} (builtins : Option (List Text))
    (hts : tokenize file source = .ok ts) (hts' : tokenize file' source' = .ok ts')
    (hsame : ts.map (fun t => (t.kind, t.value)) = ts'.map fun t => (t.kind, t.value)) :
    (∃ p q, parse file source builtins = .ok p ∧ parse file' source' builtins = .ok q ∧
      p.node.bare = q.node.bare ∧ p.node.outline = q.node.outline ∧ p.shape = q.shape ∧
      ∀ i j, p.ResolvesTo i j ↔ q.ResolvesTo i j) ∨
    ∃ e e', parse file source builtins = .error e ∧ parse file' source' builtins = .error e' ∧
      e.diagnostic.code = e'.diagnostic.code ∧ e.diagnostic.message = e'.diagnostic.message := by
  obtain ⟨hending, rfl⟩ := ending_of_tokenize hts
  obtain ⟨hending', rfl⟩ := ending_of_tokenize hts'
  have htokens : (scan file source).tokens.map Token.bare = (scan file' source').tokens.map Token.bare := by
    rw [List.map_append, List.map_append] at hsame
    exact map_eq_of_map_eq (fun t _ u _ htu => Token.bare_inj.2 (Prod.mk.inj htu))
      (List.append_inj_left' hsame rfl)
  have halike : Context.Alike ⟨file, (scan file source).ending, builtins⟩
      ⟨file', (scan file' source').ending, builtins⟩ := ⟨⟨_, _, hending, hending', rfl⟩, rfl⟩
  -- from here on the two parsers read the same tokens but for their places
  have hagree := Parser.agree_program halike ⟨(scan file source).tokens, .first, [], 0⟩
    ⟨(scan file' source').tokens, .first, [], 0⟩ (State.bare_inj.2 ⟨htokens, rfl, rfl⟩)
  simp only [parse, parseScanned]
  rcases Parser.bareOutcome_eq hagree with ⟨e, e', hp, hq, hfault⟩ | ⟨p, s, q, s', hp, hq, hbare, -⟩
  · rw [hp, hq]
    refine Or.inr ⟨e, e', rfl, rfl, ?_, ?_⟩
    · show e.fault.code = e'.fault.code
      rw [← Fault.code_bare, hfault, Fault.code_bare]
    · show e.fault.message = e'.fault.message
      rw [← Fault.message_bare, hfault, Fault.message_bare]
  · rw [hp, hq]
    have houtline : p.node.outline = q.node.outline := by
      rw [← Node.outline_bare, hbare, Node.outline_bare]
    have hshape : p.node.shape = q.node.shape := by
      rw [Node.shape_eq_write, Node.shape_eq_write, houtline]
    refine Or.inl ⟨p, q, rfl, rfl, hbare, houtline, hshape, fun i j => ?_⟩
    exact ⟨.of_bare hbare, .of_bare hbare.symm⟩

/-- Two functions and a call, written with hardly any layout. -/
def denseText : Text := "func F(int a)\x7b\x7dfunc Main()\x7bF(1)\x7d"

/-- Two functions and a call, with blanks, line feeds and comments. -/
def airyText : Text := "// once //\nfunc F(int a) \x7b\n\x7d\n\nfunc Main()\n\x7b F(1 // \" // ) \x7d\n"

/-- Comments between the functions and the arguments change nothing. -/
theorem parse_layout_airy :
    ∃ p q, parse "a" denseText = .ok p ∧ parse "b" airyText = .ok q ∧ p.node.bare = q.node.bare ∧
      p.node.outline = q.node.outline ∧ p.shape = q.shape ∧ ∀ i j, p.ResolvesTo i j ↔ q.ResolvesTo i j := by
  have hsame : (tokenize "a" denseText).toOption.map (List.map fun t => (t.kind, t.value)) =
      (tokenize "b" airyText).toOption.map (List.map fun t => (t.kind, t.value)) := by decide +kernel
  have hok : (tokenize "a" denseText).toBool = true ∧ (tokenize "b" airyText).toBool = true ∧
      (parse "a" denseText).toBool = true := by decide +kernel
  cases hts : tokenize "a" denseText with
  | error e => rw [hts] at hok; cases hok.1
  | ok ts =>
    cases hts' : tokenize "b" airyText with
    | error e => rw [hts'] at hok; cases hok.2.1
    | ok ts' =>
      rw [hts, hts'] at hsame
      rcases parse_layout none hts hts' (Option.some.inj hsame) with h | ⟨e, -, he, -⟩
      · exact h
      · rw [he] at hok
        cases hok.2.2

end ScriptKit
