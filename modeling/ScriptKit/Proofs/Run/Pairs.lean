import ScriptKit.Proofs.Run.Local

/-!
# The same code in two runs

Two runs of a program evaluate the same nodes, with builtins, levels or worlds that differ. `Paired P` says that a
relation between steps of the two holds of every local step beside itself and passes through sequencing, and `Pairs`
what more there is to show of it: how it passes through frames, through statement lists, through loops and
through calls. The evaluator does the rest in the same way for every relation, by induction over nodes.

**Theorem (`Pairs.evalWith`).** If `P` satisfies the rules, then it relates the two evaluations of a node.
-/

namespace ScriptKit.Run

open Node

/-! ## Sequencing -/

/-- A relation between steps of two runs that local steps have to themselves, and that passes through
sequencing. -/
structure Paired (P : (α : Type) → Run α → Run α → Prop) : Prop where
  same : ∀ {α : Type} {x : Run α}, Local x → P α x x
  bind : ∀ {α β : Type} {x y : Run α} {f g : α → Run β}, P α x y → (∀ a, P β (f a) (g a)) →
    P β (x >>= f) (y >>= g)

namespace Paired

variable {P : (α : Type) → Run α → Run α → Prop} {α β : Type} {x x' y y' : Run α} {span : Span} {n : Node}

theorem ite (_ : Paired P) {c : Prop} [Decidable c] (hx : P α x x') (hy : P α y y') :
    P α (if c then x else y) (if c then x' else y') := by
  split
  · exact hx
  · exact hy

variable (h : Paired P)

include h

theorem pure (a : α) : P α (pure a) (pure a) := h.same .pure

theorem fail (fault : Fault) (span : Span) : P α (fail fault span) (fail fault span) := h.same .fail

theorem discard (hx : P α x y) : P PUnit (discard x) (discard y) := h.bind hx fun _ => h.pure PUnit.unit

/-- What follows a value that is needed. -/
theorem value {x y : Run (Option Value)} {k k' : Value → Run α} (hx : P _ x y) (hk : ∀ v, P α (k v) (k' v)) :
    P α (x >>= fun v => needValue n v >>= k) (y >>= fun v => needValue n v >>= k') :=
  h.bind hx fun v => h.bind (h.same (Local.sequential.needValue v)) hk

theorem operand {x y : Run (Option Value)} {symbol : Text} {k k' : Int32 → Run α} (hx : P _ x y)
    (hk : ∀ i, P α (k i) (k' i)) :
    P α (x >>= fun v => needValue n v >>= fun v => needInt n symbol v >>= k)
      (y >>= fun v => needValue n v >>= fun v => needInt n symbol v >>= k') :=
  h.value hx fun v => h.bind (h.same (Local.sequential.needInt symbol v)) hk

theorem globals {next next' : Node → Run (Option Value)} {gs : List Node} (hgs : ∀ g ∈ gs, P _ (next g) (next' g)) :
    P Unit (globals next gs) (globals next' gs) := by
  induction gs with
  | nil => exact h.pure ()
  | cons g gs ih =>
    obtain ⟨hg, hgs⟩ := List.forall_mem_cons.1 hgs
    exact h.bind (h.discard hg) fun _ => ih hgs

/-- Two runs start in the same way if their globals and their calls of the entry are related. -/
theorem start {next next' : Node → Run (Option Value)} {p : Program}
    (hglobals : ∀ g ∈ p.globals, P _ (next g) (next' g))
    (hmain : ∀ f, p.entry? = some f → P Unit (callFunction next f [] f.span) (callFunction next' f [] f.span)) :
    P Unit (start next p) (start next' p) := by
  -- the same code follows whether the structure of the program fails or not
  refine h.ite (h.bind (h.fail _ _) fun _ => ?_) ?_
  all_goals
    refine h.bind (h.globals hglobals) fun _ => ?_
    cases hentry : p.entry? with
    | none => exact h.pure ()
    | some f => exact h.ite (hmain f hentry) (h.fail _ _)

end Paired

/-! ## Nodes -/

/-- What makes a relation hold of the nodes that satisfy `N`, whose children do so as well. -/
structure Pairs (env env' : Env) (bound bound' : Nat) (next next' : Node → Run (Option Value)) (N : Node → Prop)
    (P : (α : Type) → Run α → Run α → Prop) : Prop where
  paired : Paired P
  children : ∀ n, N n → ∀ c ∈ n.children, N c
  functions : env'.functions = env.functions
  inFrame : ∀ {α : Type} {x y : Run α}, P α x y → P α (inFrame x) (inFrame y)
  statements : ∀ body, (∀ s ∈ body, N s) → P Unit (statements next body) (statements next' body)
  turns : ∀ span {x y : Run Bool}, P Bool x y →
    P Unit (turns (check span >>= fun _ => x) bound) (turns (check span >>= fun _ => y) bound')
  callBuiltin : ∀ span name callee args values, N (.call span name callee args) → env.target? callee = none →
    P (Option Value) (callBuiltin env span name values) (callBuiltin env' span name values)
  callFunction : ∀ f ∈ env.functions, ∀ args span,
    P Unit (callFunction next f args span) (callFunction next' f args span)

namespace Pairs

variable {env env' : Env} {bound bound' : Nat} {next next' : Node → Run (Option Value)} {N : Node → Prop}
  {P : (α : Type) → Run α → Run α → Prop} {n : Node}

variable (h : Pairs env env' bound bound' next next' N P)

include h

theorem target (callee : Callee) : env'.target? callee = env.target? callee := by
  cases callee with
  | builtin => rfl
  | function number => exact congrArg (·[number]?) h.functions

theorem evalArgs {args : List Node}
    (hargs : ∀ a ∈ args, P _ (evalWith env bound next a) (evalWith env' bound' next' a)) :
    P _ (evalArgs env bound next args) (evalArgs env' bound' next' args) := by
  induction args with
  | nil =>
    simp only [Run.evalArgs]
    exact h.paired.pure []
  | cons a args ih =>
    obtain ⟨ha, hargs⟩ := List.forall_mem_cons.1 hargs
    simp only [Run.evalArgs]
    exact h.paired.value ha fun v => h.paired.bind (ih hargs) fun vs => h.paired.pure (v :: vs)

theorem call {span : Span} {name : Text} {callee : Callee} {args : List Node} (hn : N (.call span name callee args))
    (hargs : ∀ a ∈ args, P _ (evalWith env bound next a) (evalWith env' bound' next' a)) :
    P _ (evalWith env bound next (.call span name callee args))
      (evalWith env' bound' next' (.call span name callee args)) := by
  simp only [Run.evalWith, h.target]
  cases hf : env.target? callee with
  | none => exact h.paired.bind (h.evalArgs hargs) fun values => h.callBuiltin span name callee args values hn hf
  | some f =>
    have hmem : f ∈ env.functions := by
      cases callee with
      | builtin => cases hf
      | function number => exact List.mem_of_getElem? hf
    refine h.paired.ite (h.paired.bind (h.evalArgs hargs) fun values => ?_) (h.paired.fail _ _)
    exact h.paired.bind (h.callFunction f hmem values span) fun _ => h.paired.pure none

theorem condition (hchildren : ∀ c ∈ n.children, P _ (evalWith env bound next c) (evalWith env' bound' next' c))
    (statement : Text) :
    P _ (evalCondition env bound next statement n) (evalCondition env' bound' next' statement n) := by
  cases n with
  | compare =>
    simp only [evalCondition]
    refine h.paired.operand (hchildren _ (by simp [Node.children])) fun l => ?_
    refine h.paired.operand (hchildren _ (by simp [Node.children])) fun r => ?_
    exact h.paired.same (Local.sequential.applyRelation _ _ _ _)
  | _ =>
    simp only [evalCondition]
    exact h.paired.fail _ _

/-- One case for each kind of node. -/
theorem node (hn : N n) (hchildren : ∀ c ∈ n.children, P _ (evalWith env bound next c) (evalWith env' bound' next' c))
    (hconditions : ∀ c ∈ n.children, ∀ statement,
      P _ (evalCondition env bound next statement c) (evalCondition env' bound' next' statement c)) :
    P _ (evalWith env bound next n) (evalWith env' bound' next' n) := by
  have hp := h.paired
  have hbody : ∀ braces body, .block braces body ∈ n.children →
      P _ (Run.statements next body) (Run.statements next' body) := fun braces body hblock =>
    h.statements body (h.children _ (h.children n hn _ hblock))
  cases n with
  | number | bool | function | skip =>
    simp only [Run.evalWith]
    exact hp.pure _
  | str =>
    simp only [Run.evalWith]
    exact hp.same .interpolate
  | use =>
    simp only [Run.evalWith]
    exact hp.same .resolve
  | declare =>
    simp only [Run.evalWith]
    exact hp.bind (hp.same .declare) fun _ => hp.pure none
  | declareAs =>
    simp only [Run.evalWith]
    refine hp.value (hchildren _ (by simp [Node.children])) fun v => ?_
    exact hp.bind (hp.same .declare) fun _ => hp.pure none
  | assign =>
    simp only [Run.evalWith]
    refine hp.value (hchildren _ (by simp [Node.children])) fun v => ?_
    exact hp.bind (hp.same .assign) fun _ => hp.pure none
  | arith =>
    simp only [Run.evalWith]
    refine hp.operand (hchildren _ (by simp [Node.children])) fun l => ?_
    refine hp.operand (hchildren _ (by simp [Node.children])) fun r => ?_
    exact hp.same (Local.sequential.applyArith _ _ _ _)
  | compare =>
    simp only [Run.evalWith]
    refine hp.operand (hchildren _ (by simp [Node.children])) fun l => ?_
    refine hp.operand (hchildren _ (by simp [Node.children])) fun r => ?_
    exact hp.bind (hp.same (Local.sequential.applyRelation _ _ _ _)) fun _ => hp.pure _
  | sign =>
    simp only [Run.evalWith]
    exact hp.same (Local.sequential.applySign _ _)
  | block braces body =>
    simp only [Run.evalWith]
    exact hp.bind (h.inFrame (h.statements body (h.children _ hn))) fun _ => hp.pure none
  | call => exact h.call hn hchildren
  | when _ _ braces yes =>
    simp only [Run.evalWith]
    refine hp.bind (hconditions _ (by simp [Node.children]) _) fun go => hp.ite ?_ (hp.pure none)
    exact hp.bind (h.inFrame (hbody braces yes (by simp [Node.children]))) fun _ => hp.pure none
  | choose _ _ braces yes braces' no =>
    simp only [Run.evalWith]
    refine hp.bind (hconditions _ (by simp [Node.children]) _) fun go => hp.ite ?_ ?_
    · exact hp.bind (h.inFrame (hbody braces yes (by simp [Node.children]))) fun _ => hp.pure none
    · exact hp.bind (h.inFrame (hbody braces' no (by simp [Node.children]))) fun _ => hp.pure none
  | whileLoop _ _ braces body =>
    simp only [Run.evalWith]
    refine hp.bind (h.turns _ ?_) fun _ => hp.pure none
    refine hp.bind (hconditions _ (by simp [Node.children]) _) fun go => hp.ite ?_ (hp.pure false)
    exact hp.bind (hbody braces body (by simp [Node.children])) fun _ => hp.pure true
  | forLoop _ _ _ _ braces body =>
    simp only [Run.evalWith]
    refine h.inFrame (hp.bind (hp.discard (hchildren _ (by simp [Node.children]))) fun _ => ?_)
    refine hp.bind (h.turns _ ?_) fun _ => hp.pure none
    refine hp.bind (hconditions _ (by simp [Node.children]) _) fun go => hp.ite ?_ (hp.pure false)
    refine hp.bind (h.inFrame (hbody braces body (by simp [Node.children]))) fun _ => ?_
    exact hp.bind (hp.discard (hchildren _ (by simp [Node.children]))) fun _ => hp.pure true
  | program =>
    simp only [Run.evalWith]
    exact hp.fail _ _

/-- The two evaluations of a node are related, and so are those of a condition. -/
theorem evalWith (hn : N n) :
    P _ (evalWith env bound next n) (evalWith env' bound' next' n) ∧
      ∀ statement, P _ (evalCondition env bound next statement n) (evalCondition env' bound' next' statement n) := by
  induction n using induction_children with
  | step n ih =>
    have hchildren := fun c hc => (ih c hc (h.children n hn c hc)).1
    have hconditions := fun c hc => (ih c hc (h.children n hn c hc)).2
    exact ⟨h.node hn hchildren hconditions, h.condition hchildren⟩

end Pairs

end ScriptKit.Run
