import ScriptKit.Proofs.Run.Triple
import ScriptKit.Proofs.Tree.Walk

/-!
# Properties of every run

A property of steps holds of the whole evaluator if it holds of the small steps and passes through sequencing,
through frames and through calls. `Rules env P` lists what there is to show: one rule for each small step, and
for a call of a function that it has `P` if its body has. The evaluator does the rest in the same way for
every property, by induction over nodes and then over levels.

The statements of a list are handed to the level below. `below env level` is what the evaluator uses for them
at `level`; below the last level nothing is done at all.

**Theorem (`Rules.eval`).** If `P` satisfies the rules, then evaluating a node has `P`, at every level.
-/

namespace ScriptKit.Run

open Node

/-! ## Levels -/

/-- How the statements of a list are run at a level. -/
def below (env : Env) : Nat → Node → Run (Option Value)
  | 0 => fun _ => return none
  | level + 1 => eval env level

theorem eval_eq (env : Env) (level : Nat) : eval env level = evalWith env level (below env level) := by
  cases level <;> rfl

/-! ## Sequencing -/

/-- A property of steps that passes through sequencing, whether they give a result or fail. -/
structure Sequential (P : (α : Type) → Run α → Prop) : Prop where
  pure : ∀ {α : Type} (a : α), P α (pure a)
  fail : ∀ {α : Type} (fault : Fault) (span : Span), P α (fail fault span)
  bind : ∀ {α β : Type} {x : Run α} {f : α → Run β}, P α x → (∀ a, P β (f a)) → P β (x >>= f)

/-- What follows a step leads on from where the step has led, and nothing follows a failure. -/
theorem bind_onward {α β : Type} {R : Machine → Machine → Prop} (hrefl : ∀ m, R m m) {x : Run α} {f : α → Run β}
    (hf : ∀ a m, R m (f a m).2) (m : Machine) : R (x m).2 ((x >>= f) m).2 := by
  rw [bind_apply]
  cases x m with
  | mk result m' =>
    cases result with
    | ok a => exact hf a m'
    | error e => exact hrefl m'

/-- Where steps lead, whether they give a result or fail, passes through sequencing. -/
theorem Sequential.of_trans {R : Machine → Machine → Prop} (hrefl : ∀ m, R m m)
    (htrans : ∀ {m n k}, R m n → R n k → R m k) : Sequential fun _ x => ∀ m, R m (x m).2 where
  pure _ m := hrefl m
  fail _ _ m := hrefl m
  bind hx hf m := htrans (hx m) (bind_onward hrefl hf m)

namespace Sequential

variable {P : (α : Type) → Run α → Prop} {α : Type} {n : Node}

theorem ite (_ : Sequential P) {c : Prop} [Decidable c] {x y : Run α} (hx : P α x) (hy : P α y) :
    P α (if c then x else y) := by
  split
  · exact hx
  · exact hy

variable (h : Sequential P)

include h

theorem discard {x : Run α} (hx : P α x) : P PUnit (discard x) :=
  h.bind hx fun _ => h.pure PUnit.unit

theorem needValue (v : Option Value) : P Value (needValue n v) := by
  cases v with
  | none => exact h.fail _ _
  | some v => exact h.pure v

theorem needInt (symbol : Text) (v : Value) : P Int32 (needInt n symbol v) := by
  unfold Run.needInt
  split
  · exact h.pure _
  · exact h.fail _ _

theorem applyArith (span : Span) (op : Arith) (l r : Int32) : P (Option Value) (applyArith span op l r) := by
  cases op with
  | div => exact h.ite (h.fail _ _) (h.pure _)
  | other symbol => exact h.fail _ _
  | _ => exact h.pure _

theorem applyRelation (span : Span) (op : Relation) (l r : Int32) : P Bool (applyRelation span op l r) := by
  cases op with
  | other symbol => exact h.fail _ _
  | _ => exact h.pure _

theorem applySign (span : Span) (op : Sign) : P (Option Value) (applySign span op n) := by
  unfold Run.applySign
  split
  · exact h.pure _
  · exact h.pure _
  · exact h.fail _ _
  · exact h.fail _ _

theorem operand {x : Run (Option Value)} {symbol : Text} {k : Int32 → Run α} (hx : P _ x)
    (hk : ∀ i, P α (k i)) :
    P α (x >>= fun v => Run.needValue n v >>= fun v => Run.needInt n symbol v >>= k) :=
  h.bind hx fun v => h.bind (h.needValue v) fun v => h.bind (h.needInt symbol v) hk

theorem turns {turn : Run Bool} (hturn : P Bool turn) (k : Nat) : P Unit (turns turn k) := by
  induction k with
  | zero => exact h.discard hturn
  | succ k ih => exact h.bind hturn fun _ => h.ite ih (h.pure ())

variable {env : Env} {bound : Nat} {next : Node → Run (Option Value)}

theorem globals {gs : List Node} (hgs : ∀ g ∈ gs, P _ (next g)) : P Unit (globals next gs) := by
  induction gs with
  | nil => exact h.pure ()
  | cons g gs ih =>
    obtain ⟨hg, hgs⟩ := List.forall_mem_cons.1 hgs
    exact h.bind (h.discard hg) fun _ => ih hgs

theorem evalArgs {args : List Node} (hargs : ∀ a ∈ args, P _ (evalWith env bound next a)) :
    P (List Value) (evalArgs env bound next args) := by
  induction args with
  | nil =>
    simp only [Run.evalArgs]
    exact h.pure []
  | cons a args ih =>
    obtain ⟨ha, hargs⟩ := List.forall_mem_cons.1 hargs
    simp only [Run.evalArgs]
    exact h.bind ha fun v => h.bind (h.needValue v) fun v => h.bind (ih hargs) fun vs => h.pure (v :: vs)

end Sequential

/-! ## The rules -/

/-- What makes a property of steps hold of the evaluator. -/
structure Rules (env : Env) (P : (α : Type) → Run α → Prop) : Prop where
  pure : ∀ {α : Type} (a : α), P α (pure a)
  fail : ∀ {α : Type} (fault : Fault) (span : Span), P α (fail fault span)
  bind : ∀ {α β : Type} {x : Run α} {f : α → Run β}, P α x → (∀ a, P β (f a)) → P β (x >>= f)
  check : ∀ span, P Unit (check span)
  declare : ∀ span name type value, P Unit (declare span name type value)
  assign : ∀ span name value, P Unit (assign span name value)
  resolve : ∀ span name, P (Option Value) (resolve span name)
  interpolate : ∀ span text, P (Option Value) (do
    let filled ← liftScope span (ScriptKit.interpolate (← get).chain text)
    return some (.str filled))
  callBuiltin : ∀ span name args, P (Option Value) (callBuiltin env span name args)
  inFrame : ∀ {α : Type} {x : Run α}, P α x → P α (inFrame x)
  callFunction : ∀ {level : Nat} {f : Function} (args : List Value) (span : Span), f ∈ env.functions →
    P Unit (statements (below env level) f.body) → P Unit (callFunction (below env level) f args span)

namespace Rules

variable {env : Env} {P : (α : Type) → Run α → Prop} {α : Type} {bound level : Nat}
  {next : Node → Run (Option Value)} {n : Node}

variable (h : Rules env P)

include h

theorem sequential : Sequential P := ⟨h.pure, h.fail, h.bind⟩

theorem statements {body : List Node} (hbody : ∀ s ∈ body, P _ (next s)) :
    P Unit (statements next body) := by
  induction body with
  | nil => exact h.pure ()
  | cons s rest ih =>
    obtain ⟨hs, hrest⟩ := List.forall_mem_cons.1 hbody
    exact h.bind (h.check s.span) fun _ => h.bind (h.sequential.discard hs) fun _ => ih hrest

/-! ## Nodes -/

theorem call {span : Span} {name : Text} {callee : Callee} {args : List Node}
    (hnext : ∀ s, P _ (below env level s)) (hargs : ∀ a ∈ args, P _ (evalWith env bound (below env level) a)) :
    P _ (evalWith env bound (below env level) (.call span name callee args)) := by
  simp only [evalWith]
  cases hf : env.target? callee with
  | none => exact h.bind (h.sequential.evalArgs hargs) fun values => h.callBuiltin span name values
  | some f =>
    have hmem : f ∈ env.functions := by
      cases callee with
      | builtin => cases hf
      | function number => exact List.mem_of_getElem? hf
    refine h.sequential.ite (h.bind (h.sequential.evalArgs hargs) fun values => ?_) (h.fail _ _)
    exact h.bind (h.callFunction values span hmem (h.statements fun s _ => hnext s)) fun _ => h.pure none

theorem condition (hchildren : ∀ c ∈ n.children, P _ (evalWith env bound next c)) (statement : Text) :
    P Bool (evalCondition env bound next statement n) := by
  cases n with
  | compare =>
    simp only [evalCondition]
    refine h.sequential.operand (hchildren _ (by simp [children])) fun l => ?_
    exact h.sequential.operand (hchildren _ (by simp [children])) fun r => h.sequential.applyRelation _ _ l r
  | _ =>
    simp only [evalCondition]
    exact h.fail _ _

/-- One case for each kind of node. -/
theorem node (hnext : ∀ s, P _ (below env level s))
    (hchildren : ∀ c ∈ n.children, P _ (evalWith env bound (below env level) c))
    (hconditions : ∀ c ∈ n.children, ∀ statement,
      P _ (evalCondition env bound (below env level) statement c)) :
    P _ (evalWith env bound (below env level) n) := by
  have hbody : ∀ body : List Node, P _ (Run.statements (below env level) body) := fun body =>
    h.statements fun s _ => hnext s
  cases n with
  | number | bool | function | skip =>
    simp only [evalWith]
    exact h.pure _
  | str =>
    simp only [evalWith]
    exact h.interpolate _ _
  | use =>
    simp only [evalWith]
    exact h.resolve _ _
  | declare =>
    simp only [evalWith]
    exact h.bind (h.declare _ _ _ _) fun _ => h.pure none
  | declareAs =>
    simp only [evalWith]
    refine h.bind (hchildren _ (by simp [children])) fun v => h.bind (h.sequential.needValue v) fun v => ?_
    exact h.bind (h.declare _ _ _ _) fun _ => h.pure none
  | assign =>
    simp only [evalWith]
    refine h.bind (hchildren _ (by simp [children])) fun v => h.bind (h.sequential.needValue v) fun v => ?_
    exact h.bind (h.assign _ _ _) fun _ => h.pure none
  | arith =>
    simp only [evalWith]
    refine h.sequential.operand (hchildren _ (by simp [children])) fun l => ?_
    exact h.sequential.operand (hchildren _ (by simp [children])) fun r => h.sequential.applyArith _ _ l r
  | compare =>
    simp only [evalWith]
    refine h.sequential.operand (hchildren _ (by simp [children])) fun l => ?_
    refine h.sequential.operand (hchildren _ (by simp [children])) fun r => ?_
    exact h.bind (h.sequential.applyRelation _ _ l r) fun b => h.pure _
  | sign =>
    simp only [evalWith]
    exact h.sequential.applySign _ _
  | block =>
    simp only [evalWith]
    exact h.bind (h.inFrame (hbody _)) fun _ => h.pure none
  | call => exact h.call hnext hchildren
  | when =>
    simp only [evalWith]
    refine h.bind (hconditions _ (by simp [children]) _) fun go => ?_
    exact h.sequential.ite (h.bind (h.inFrame (hbody _)) fun _ => h.pure none) (h.pure none)
  | choose =>
    simp only [evalWith]
    refine h.bind (hconditions _ (by simp [children]) _) fun go => h.sequential.ite ?_ ?_
    all_goals exact h.bind (h.inFrame (hbody _)) fun _ => h.pure none
  | whileLoop =>
    simp only [evalWith]
    refine h.bind (h.sequential.turns (h.bind (h.check _) fun _ => ?_) _) fun _ => h.pure none
    refine h.bind (hconditions _ (by simp [children]) _) fun go => h.sequential.ite ?_ (h.pure false)
    exact h.bind (hbody _) fun _ => h.pure true
  | forLoop =>
    simp only [evalWith]
    -- the first frame is that of the header, and each turn pushes one for the body
    refine h.inFrame (h.bind (h.sequential.discard (hchildren _ (by simp [children]))) fun _ => ?_)
    refine h.bind (h.sequential.turns (h.bind (h.check _) fun _ => ?_) _) fun _ => h.pure none
    refine h.bind (hconditions _ (by simp [children]) _) fun go => h.sequential.ite ?_ (h.pure false)
    refine h.bind (h.inFrame (hbody _)) fun _ => ?_
    exact h.bind (h.sequential.discard (hchildren _ (by simp [children]))) fun _ => h.pure true
  | program =>
    simp only [evalWith]
    exact h.fail _ _

theorem evalWith (hnext : ∀ s, P _ (below env level s)) (n : Node) :
    P _ (evalWith env bound (below env level) n) ∧
      ∀ statement, P _ (evalCondition env bound (below env level) statement n) := by
  induction n using induction_children with
  | step n ih =>
    have hchildren := fun c hc => (ih c hc).1
    exact ⟨h.node hnext hchildren fun c hc => (ih c hc).2, h.condition hchildren⟩

theorem below (level : Nat) (s : Node) : P _ (Run.below env level s) := by
  induction level generalizing s with
  | zero => exact h.pure none
  | succ level ih =>
    show P _ (Run.eval env level s)
    rw [eval_eq]
    exact (h.evalWith ih s).1

/-- Evaluating a node has the property. -/
theorem eval (level : Nat) (n : Node) : P _ (eval env level n) := h.below (level + 1) n

/-- A call of a function has the property. -/
theorem callFunction_of_mem {f : Function} (hf : f ∈ env.functions) (level : Nat) (args : List Value)
    (span : Span) : P Unit (Run.callFunction (Run.below env level) f args span) :=
  h.callFunction args span hf (h.statements fun s _ => h.below level s)

/-- Starting a program has the property. -/
theorem start {p : Program} (hp : env.functions = p.allFunctions) (level : Nat) :
    P Unit (start (Run.eval env level) p) := by
  have hmem : ∀ f, p.entry? = some f → f ∈ env.functions := by
    intro f hf
    rw [hp]
    refine mem_functions.2 (mem_preorder_child (List.mem_append_right _ ?_))
    exact List.mem_map_of_mem (List.mem_of_getLast? hf)
  -- the same code follows whether the structure of the program fails or not
  refine h.sequential.ite (h.bind (h.fail _ _) fun _ => ?_) ?_
  all_goals
    refine h.bind (h.sequential.globals fun g _ => h.eval level g) fun _ => ?_
    cases hentry : p.entry? with
    | none => exact h.pure ()
    | some f => exact h.sequential.ite (h.callFunction_of_mem (hmem f hentry) (level + 1) [] f.span) (h.fail _ _)

end Rules

end ScriptKit.Run
