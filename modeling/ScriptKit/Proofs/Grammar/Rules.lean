import ScriptKit.Proofs.Grammar.Steps

/-!
# Properties of the whole parser

A property of parsers holds of the whole parser if it holds of the steps that look at the current token, take it or
refuse it, and passes through sequencing. `Rules Place P` lists what there is to show. `P Q x` says that `x` has the
property and that what it reads satisfies `Q`; here `Q` says where things start, because a fault is reported at the
start of something that has been read. `Place` is what holds of these starts.

The parser does the rest in the same way for every property, one lemma for each of its functions.
-/

namespace ScriptKit.Parser

open Parse

/-- What makes a property of parsers hold of the whole parser. -/
structure Rules (Place : Pos → Prop) (P : {α : Type} → (α → Prop) → Parser α → Prop) : Prop where
  pure : ∀ {α : Type} {Q : α → Prop} {a : α}, Q a → P Q (pure a)
  bind : ∀ {α β : Type} {Q : α → Prop} {R : β → Prop} {x : Parser α} {f : α → Parser β}, P Q x →
    (∀ a, Q a → P R (f a)) → P R (x >>= f)
  fail : ∀ {α : Type} {Q : α → Prop} {fault : Fault} {span : Span}, fault.code ≠ .lex → Place span.start →
    P Q (fail fault span)
  get : P (fun _ => True) (get : Parser State)
  modify : ∀ {f : State → State}, (∀ s, (f s).tokens = s.tokens) → P (fun _ => True) (modify f)
  current : P (fun t => Place t.span.start) current
  advance : P (fun t => Place t.span.start) advance
  resolve : ∀ {name : Token}, Place name.span.start → P (fun _ => True) (resolve name)

namespace Rules

variable {Place : Pos → Prop} {P : {α : Type} → (α → Prop) → Parser α → Prop} {α : Type} {Q : α → Prop}
  {x y : Parser α} {f : Parser Node} {kind : Token.Kind} {stop : Token.Kind → Bool} {n : Nat}

/-! ## Sequencing -/

theorem ite (_ : Rules Place P) {c : Prop} [Decidable c] (hx : P Q x) (hy : P Q y) : P Q (if c then x else y) := by
  split
  · exact hx
  · exact hy

variable (h : Rules Place P)

include h

theorem discard (hx : P Q x) : P (fun _ => True) (discard x) := by
  show P _ (x >>= fun _ => Pure.pure PUnit.unit)
  exact h.bind hx fun _ _ => h.pure trivial

/-! ## Tokens -/

theorem peek : P (fun _ => True) peek := h.bind h.current fun _ _ => h.pure trivial

theorem remaining : P (fun _ => True) remaining := h.bind h.get fun _ _ => h.pure trivial

/-- What reaches from a token on begins where the token does. -/
theorem spanFrom (start : Token) : P (fun span => span.start = start.span.start) (spanFrom start) :=
  h.bind h.get fun _ _ => h.pure rfl

/-- A token of another kind is refused where it stands. -/
theorem expect : P (fun t => Place t.span.start) (expect kind) :=
  h.bind h.current fun t ht => h.ite h.advance (h.fail (by simp [Fault.code]) ht)

theorem optionalComma : P (fun _ => True) optionalComma :=
  h.bind h.peek fun _ _ => h.ite (h.discard h.advance) (h.pure trivial)

/-- A loop has the property if each of its turns has it. -/
theorem itemsUntil {item : Parser α} (hitem : P Q item) (n : Nat) (items : List α) :
    P (fun _ => True) (itemsUntil stop item n items) := by
  induction n generalizing items with
  | zero => exact h.pure trivial
  | succ n ih => exact h.bind h.peek fun _ _ => h.ite (h.pure trivial) (h.bind hitem fun a _ => ih (a :: items))

theorem manyUntil {item : Parser α} (hitem : P Q item) : P (fun _ => True) (manyUntil stop item) :=
  h.bind h.remaining fun n _ => h.itemsUntil hitem (n + 1) []

/-! ## Expressions -/

/-- A term begins where the factor on its left does. -/
theorem termFrom (hf : P (fun n => Place n.span.start) f) (n : Nat) {left : Node}
    (hleft : Place left.span.start) : P (fun n => Place n.span.start) (termFrom f n left) := by
  induction n generalizing left with
  | zero => exact h.pure hleft
  | succ n ih =>
    refine h.bind h.peek fun _ _ => h.ite ?_ (h.ite ?_ (h.pure hleft))
    · exact h.bind h.advance fun op _ => h.bind hf fun right _ => ih hleft
    · exact h.bind h.advance fun op _ => h.bind hf fun right _ => h.pure hleft

theorem term (hf : P (fun n => Place n.span.start) f) : P (fun n => Place n.span.start) (term f) :=
  h.bind hf fun _ hleft => h.bind h.remaining fun n _ => h.termFrom hf n hleft

theorem expressionFrom (hf : P (fun n => Place n.span.start) f) (n : Nat) {left : Node}
    (hleft : Place left.span.start) : P (fun n => Place n.span.start) (expressionFrom f n left) := by
  induction n generalizing left with
  | zero => exact h.pure hleft
  | succ n ih =>
    refine h.bind h.peek fun _ _ => h.ite ?_ (h.pure hleft)
    exact h.bind h.advance fun op _ => h.bind (h.term hf) fun right _ => ih hleft

/-- An expression begins where its first term does. -/
theorem expression (hf : P (fun n => Place n.span.start) f) :
    P (fun n => Place n.span.start) (expression f) :=
  h.bind (h.term hf) fun _ hleft => h.bind h.remaining fun n _ => h.expressionFrom hf n hleft

/-- A call begins with its name, which is where it is refused if nothing has this name. -/
theorem call (hf : P (fun n => Place n.span.start) f) : P (fun n => Place n.span.start) (call f) := by
  have hitem : P (fun n => Place n.span.start) (do
      let arg ← Parser.expression f
      Parser.optionalComma
      return arg) := h.bind (h.expression hf) fun _ harg => h.bind h.optionalComma fun _ _ => h.pure harg
  refine h.bind h.advance fun name hname => h.bind (h.discard h.expect) fun _ _ => ?_
  refine h.bind (h.manyUntil hitem) fun _ _ => h.bind (h.discard h.advance) fun _ _ => ?_
  refine h.bind (h.spanFrom name) fun span hspan => h.bind (h.resolve hname) fun _ _ => h.pure ?_
  exact hspan ▸ hname

theorem nameUse : P (fun n => Place n.span.start) nameUse := h.bind h.expect fun _ ht => h.pure ht

theorem numeral : P (fun n => Place n.span.start) numeral := by
  refine h.bind h.advance fun t ht => ?_
  split
  · exact h.pure ht
  · exact h.fail (by simp [Fault.code]) ht

/-- One case for each way a factor begins. -/
theorem factor (n : Nat) : P (fun n => Place n.span.start) (factor n) := by
  induction n with
  | zero => exact h.nameUse
  | succ n ih =>
    refine h.bind h.current fun t ht => ?_
    split
    · exact h.bind (h.discard h.advance) fun _ _ => h.bind ih fun _ _ => h.pure ht
    · exact h.bind (h.discard h.advance) fun _ _ => h.bind ih fun _ _ => h.pure ht
    · exact h.numeral
    · exact h.bind (h.discard h.advance) fun _ _ => h.pure ht
    · exact h.bind (h.discard h.advance) fun _ _ => h.pure ht
    · refine h.bind (h.discard h.advance) fun _ _ => h.bind (h.expression ih) fun _ hinner => ?_
      exact h.bind (h.discard h.expect) fun _ _ => h.pure hinner
    · exact h.call ih
    · exact h.nameUse

theorem anyExpression : P (fun n => Place n.span.start) anyExpression :=
  h.bind h.remaining fun n _ => h.expression (h.factor n)

theorem anyTerm : P (fun n => Place n.span.start) anyTerm := h.bind h.remaining fun n _ => h.term (h.factor n)

theorem anyCall : P (fun n => Place n.span.start) anyCall := h.bind h.remaining fun n _ => h.call (h.factor n)

/-! ## Statements -/

theorem declaration : P (fun n => Place n.span.start) declaration := by
  refine h.bind h.advance fun type htype => h.bind h.expect fun name _ => h.bind h.peek fun _ _ => h.ite ?_ ?_
  · refine h.bind (h.discard h.advance) fun _ _ => h.bind h.anyExpression fun value _ => ?_
    exact h.bind (h.spanFrom type) fun span hspan => h.pure (hspan ▸ htype)
  · exact h.bind (h.spanFrom type) fun span hspan => h.pure (hspan ▸ htype)

theorem assignment : P (fun n => Place n.span.start) assignment := by
  refine h.bind h.expect fun name hname => h.bind (h.discard h.expect) fun _ _ => ?_
  refine h.bind h.anyExpression fun value _ => ?_
  exact h.bind (h.spanFrom name) fun span hspan => h.pure (hspan ▸ hname)

/-- A parameter that has a value is refused at the start of its declaration. -/
theorem parameter : P (fun _ => True) parameter := by
  refine h.bind h.current fun t ht => h.ite (h.bind h.declaration fun d hd => ?_) (h.fail (by simp [Fault.code]) ht)
  split
  · exact h.bind h.optionalComma fun _ _ => h.pure trivial
  · exact h.fail (by simp [Fault.code]) hd

theorem condition : P (fun n => Place n.span.start) condition := by
  refine h.bind (h.discard h.expect) fun _ _ => h.bind h.anyExpression fun cond hcond => ?_
  exact h.bind (h.discard h.expect) fun _ _ => h.pure hcond

theorem loopStart : P (fun n => Place n.span.start) loopStart :=
  h.bind h.current fun t ht => h.ite h.declaration (h.ite h.assignment (h.fail (by simp [Fault.code]) ht))

/-- What is no comparison is refused where it begins. -/
theorem loopCondition : P (fun n => Place n.span.start) loopCondition :=
  h.bind h.anyTerm fun cond hcond => h.ite (h.pure hcond) (h.fail (by simp [Fault.code]) hcond)

theorem passOver : P (fun n => Place n.span.start) passOver := h.bind h.advance fun _ ht => h.pure ht

section Nested

variable {st : Parser.Place → Parser Node} {place : Parser.Place}
  (hst : ∀ place, P (fun n => Place n.span.start) (st place))

include hst

/-- A block has the property as soon as its statements have it, wherever they stand. -/
theorem block : P (fun _ => True) (block st place) := by
  refine h.bind h.expect fun opening _ => h.bind (h.manyUntil (hst _)) fun body _ => ?_
  exact h.bind (h.discard h.expect) fun _ _ => h.bind (h.spanFrom opening) fun _ _ => h.pure trivial

/-- A name that is taken is refused where it stands, before the function is read. -/
theorem function : P (fun f => Place f.span.start) (function st place) := by
  refine h.bind h.advance fun start hstart => h.bind h.current fun name hname => h.ite ?_ ?_
  · refine h.bind (h.discard h.advance) fun _ _ => h.bind h.get fun s _ => h.bind h.get fun s' _ => h.ite ?_ ?_
    · exact h.bind (Q := fun _ => False) (h.fail (by simp [Fault.code]) hname) fun _ hfalse => hfalse.elim
    · refine h.bind (h.modify fun _ => rfl) fun _ _ => h.bind (h.discard h.expect) fun _ _ => ?_
      refine h.bind (h.manyUntil h.parameter) fun params _ => h.bind (h.discard h.advance) fun _ _ => ?_
      refine h.bind (h.block hst) fun body _ => h.bind (h.modify fun _ => rfl) fun _ _ => ?_
      exact h.bind (h.spanFrom start) fun span hspan => h.pure (hspan ▸ hstart)
  · exact h.fail (by simp [Fault.code]) hname

theorem conditional : P (fun n => Place n.span.start) (conditional st place) := by
  refine h.bind h.advance fun start hstart => h.bind h.condition fun cond _ => h.bind (h.block hst) fun yes _ => ?_
  refine h.bind h.peek fun _ _ => h.ite ?_ ?_
  · refine h.bind (h.discard h.advance) fun _ _ => h.bind (h.block hst) fun no _ => ?_
    exact h.bind (h.spanFrom start) fun span hspan => h.pure (hspan ▸ hstart)
  · exact h.bind (h.spanFrom start) fun span hspan => h.pure (hspan ▸ hstart)

theorem whileLoop : P (fun n => Place n.span.start) (whileLoop st place) := by
  refine h.bind h.advance fun start hstart => h.bind h.condition fun cond _ => h.bind (h.block hst) fun body _ => ?_
  exact h.bind (h.spanFrom start) fun span hspan => h.pure (hspan ▸ hstart)

theorem forLoop : P (fun n => Place n.span.start) (forLoop st place) := by
  refine h.bind h.advance fun start hstart => h.bind (h.discard h.expect) fun _ _ => ?_
  refine h.bind h.loopStart fun init _ => h.bind (h.discard h.expect) fun _ _ => ?_
  refine h.bind h.loopCondition fun cond _ => h.bind (h.discard h.expect) fun _ _ => ?_
  refine h.bind h.assignment fun step _ => h.bind (h.discard h.expect) fun _ _ => ?_
  refine h.bind (h.block hst) fun body _ => ?_
  exact h.bind (h.spanFrom start) fun span hspan => h.pure (hspan ▸ hstart)

end Nested

/-- One case for each way a statement begins. -/
theorem statement (n : Nat) (place : Parser.Place) : P (fun n => Place n.span.start) (statement n place) := by
  induction n generalizing place with
  | zero => exact h.passOver
  | succ n ih =>
    refine h.bind h.peek fun kind _ => ?_
    cases kind with
    | func => exact h.bind (h.function ih) fun f hf => h.pure hf
    | intType | stringType | boolType => exact h.declaration
    | name => exact h.assignment
    | call => exact h.anyCall
    | «if» => exact h.conditional ih
    | «while» => exact h.whileLoop ih
    | «for» => exact h.forLoop ih
    | _ => exact h.passOver

/-! ## Programs -/

theorem globalsFrom (n : Nat) (globals : List Node) : P (fun _ => True) (globalsFrom n globals) := by
  induction n generalizing globals with
  | zero => exact h.pure trivial
  | succ n ih =>
    exact h.bind h.peek fun _ _ => h.ite (h.bind h.declaration fun g _ => ih (g :: globals)) (h.pure trivial)

theorem functionsFrom (n : Nat) (functions : List Function) :
    P (fun _ => True) (functionsFrom n functions) := by
  induction n generalizing functions with
  | zero => exact h.pure trivial
  | succ n ih =>
    refine h.bind h.peek fun _ _ => h.ite (h.bind h.remaining fun m _ => ?_) (h.pure trivial)
    exact h.bind (h.function (h.statement m)) fun f _ => ih (f :: functions)

end Rules

end ScriptKit.Parser
