import ScriptKit.Proofs.Grammar.Placed
import ScriptKit.Proofs.Run.Layout

/-!
# Programs without loops end

A call is resolved when it is read, against the functions that have been read to their closing brace. So a
function calls only functions that end before it does, itself excluded, and no chain of calls comes back to
where it began. The end of a function is what decreases from call to call.

A run asks before every statement whether it may go on. `Asks c x` says that a step does so at most `c` times,
whatever happens, and `Budgeted` that a node is bounded in this way, by one number at every level and for all
builtins. A node that is no loop is bounded if its children are and the functions it calls have bounded bodies,
which gives bounds for one function after the other in the order in which they end.

**Theorem (`calls_go_backward`).** In a parsed program every call is resolved to the last function of its name
that ends before it, if there is one, no function calls itself through others, and without loops there is a
budget with which every run ends.
-/

namespace ScriptKit

/-- Whether a node is a loop. -/
def Node.isLoop : Node → Bool
  | .whileLoop .. | .forLoop .. => true
  | _ => false

namespace Run

/-! ## Questions -/

variable {α β : Type}

/-- With a budget of at least `c`, a step is not interrupted and takes at most `c` from the budget. -/
def Asks (c : Nat) (x : Run α) : Prop :=
  ∀ m, c ≤ m.budget → (∀ f, (x m).1 = .error f → f.fault ≠ .canceled) ∧ m.budget ≤ (x m).2.budget + c

namespace Asks

variable {c d : Nat} {span : Span} {name : Text}

theorem mono {x : Run α} (h : Asks c x) (hcd : c ≤ d) : Asks d x := by
  intro m hm
  obtain ⟨hgo, hspent⟩ := h m (Nat.le_trans hcd hm)
  exact ⟨hgo, by omega⟩

theorem pure {a : α} : Asks c (pure a : Run α) := by
  intro m _
  refine ⟨fun f hf => ?_, Nat.le_add_right _ _⟩
  cases hf

theorem fail {fault : Fault} (h : fault ≠ .canceled) : Asks c (fail fault span : Run α) := by
  intro m _
  refine ⟨fun f hf => ?_, Nat.le_add_right _ _⟩
  cases hf
  exact h

theorem bind {x : Run α} {f : α → Run β} (hx : Asks c x) (hf : ∀ a, Asks d (f a)) :
    Asks (c + d) (x >>= f) := by
  intro m hm
  obtain ⟨hgo, hspent⟩ := hx m (by omega)
  cases hrun : x m with
  | mk result m₁ =>
    rw [hrun] at hgo hspent
    cases result with
    | ok a =>
      rw [bind_ok_apply hrun]
      obtain ⟨hgo', hspent'⟩ := hf a m₁ (by dsimp only at hspent; omega)
      exact ⟨hgo', by dsimp only at hspent; omega⟩
    | error e =>
      rw [bind_error_apply hrun]
      refine ⟨fun f hf => hgo f ?_, by dsimp only at hspent ⊢; omega⟩
      cases hf
      rfl

/-- Go on after a step that asks nothing. -/
theorem step {x : Run α} {f : α → Run β} (hx : Asks 0 x) (hf : ∀ a, Asks c (f a)) : Asks c (x >>= f) :=
  (bind hx hf).mono (by omega)

theorem discard {x : Run α} (h : Asks c x) : Asks c (discard x) := by
  show Asks c (x >>= fun _ => Pure.pure PUnit.unit)
  exact (bind (d := 0) h fun _ => pure).mono (by omega)

theorem ite {p : Prop} [Decidable p] {x y : Run α} (hx : Asks c x) (hy : Asks c y) :
    Asks c (if p then x else y) := by
  split
  · exact hx
  · exact hy

theorem get {f : Machine → Run α} (h : ∀ m, Asks c (f m)) : Asks c (MonadState.get >>= f) :=
  fun m hm => h m m hm

theorem modify {f : Machine → Machine} (h : ∀ m, (f m).budget = m.budget) :
    Asks 0 (modify f : Run PUnit) := by
  intro m _
  refine ⟨fun e he => ?_, Nat.le_of_eq (h m).symm⟩
  cases he

theorem check : Asks 1 (check span) := by
  intro m hm
  obtain ⟨n, hn⟩ : ∃ n, m.budget = n + 1 := ⟨m.budget - 1, by omega⟩
  rw [Sim.check_succ hn]
  refine ⟨fun f hf => ?_, Nat.le_of_eq hn⟩
  cases hf

theorem emit {what : Trace.Happening} : Asks 0 (emit span what) := modify fun _ => rfl

theorem liftScope {r : Except Scope.Error α} : Asks 0 (liftScope span r) := by
  cases r with
  | ok a => exact pure
  | error e => exact fail (by simp)

theorem declare {type : VarType} {value : Option Value} : Asks 0 (declare span name type value) :=
  get fun _ => step liftScope fun _ => step (modify fun _ => rfl) fun _ => emit

theorem assign {value : Value} : Asks 0 (assign span name value) :=
  get fun _ => step liftScope fun _ => modify fun _ => rfl

theorem needValue {n : Node} {v : Option Value} : Asks 0 (needValue n v) := by
  cases v with
  | none =>
    refine fail ?_
    cases n <;> simp [noValue]
  | some v => exact pure

theorem needInt {n : Node} {symbol : Text} {v : Value} : Asks 0 (needInt n symbol v) := by
  unfold Run.needInt
  split
  · exact pure
  · exact fail (by simp)

theorem applyArith {op : Arith} {l r : Int32} : Asks 0 (applyArith span op l r) := by
  cases op with
  | div => exact ite (fail (by simp)) pure
  | other symbol => exact fail (by simp)
  | _ => exact pure

theorem applyRelation {op : Relation} {l r : Int32} : Asks 0 (applyRelation span op l r) := by
  cases op with
  | other symbol => exact fail (by simp)
  | _ => exact pure

theorem applySign {op : Sign} {n : Node} : Asks 0 (applySign span op n) := by
  unfold Run.applySign
  split
  · exact pure
  · exact pure
  · exact fail (by simp)
  · exact fail (by simp)

/-- A builtin always returns and asks nothing. -/
theorem callBuiltin {env : Env} {args : List Value} : Asks 0 (callBuiltin env span name args) := by
  unfold Run.callBuiltin
  split
  · exact fail (by simp)
  · refine step emit fun _ => get fun m => step (modify fun _ => rfl) fun _ => ?_
    split
    · exact pure
    · exact fail (by simp)
    · exact fail (by simp)

/-- An operand asks as much as its evaluation. -/
theorem operand {x : Run (Option Value)} {n : Node} {symbol : Text} {k : Int32 → Run α}
    (hx : Asks c x) (hk : ∀ i, Asks d (k i)) :
    Asks (c + d) (x >>= fun v => Run.needValue n v >>= fun v => Run.needInt n symbol v >>= k) :=
  bind hx fun _ => step needValue fun _ => step needInt hk

theorem inFrame {x : Run α} (h : Asks c x) : Asks c (inFrame x) :=
  fun m hm => h { m with chain := {} :: m.chain } hm

theorem bindParams {params : List Param} {args : List Value} : Asks 0 (bindParams params args) := by
  induction params generalizing args with
  | nil => exact pure
  | cons p params ih =>
    cases args with
    | nil => exact pure
    | cons v args => exact step declare fun _ => ih

theorem callFrame {f : Function} {args : List Value} : Asks 0 (callFrame f args) := by
  intro m hm
  have hparams : Asks 0 (Run.bindParams f.params args) := bindParams
  obtain ⟨hgo, hspent⟩ := hparams { m with chain := {} :: m.chain.getLast?.toList } hm
  simp only [Run.callFrame]
  revert hgo hspent
  cases Run.bindParams f.params args { m with chain := {} :: m.chain.getLast?.toList } with
  | mk result m₁ =>
    intro hgo hspent
    cases result with
    | ok u => exact ⟨fun f hf => (by cases hf), hspent⟩
    | error e =>
      refine ⟨fun f hf => ?_, hspent⟩
      cases hf
      exact hgo e rfl

theorem statements {next : Node → Run (Option Value)} {body : List Node}
    (h : ∀ s ∈ body, Asks c (next s)) : Asks (body.length * (1 + c)) (statements next body) := by
  induction body with
  | nil => exact pure
  | cons s rest ih =>
    obtain ⟨hs, hrest⟩ := List.forall_mem_cons.1 h
    refine (bind check fun _ => bind (discard hs) fun _ => ih hrest).mono ?_
    rw [List.length_cons, Nat.succ_mul]
    omega

theorem callFunction {next : Node → Run (Option Value)} {f : Function} {args : List Value}
    (h : Asks c (Run.statements next f.body)) : Asks c (callFunction next f args span) := by
  refine ite (step emit fun _ => step callFrame fun frame => ?_) (fail (by simp))
  exact fun m hm => h { m with chain := frame :: m.chain } hm

end Asks

/-! ## Bounded nodes -/

/-- There is a number of questions that evaluating a node never exceeds, also in the place of a condition. -/
structure Budgeted (fns : List Function) (n : Node) : Prop where
  eval : ∃ c, ∀ registry level, Asks c (eval ⟨registry, fns⟩ level n)
  condition : ∃ c, ∀ registry level statement,
    Asks c (evalCondition ⟨registry, fns⟩ level (below ⟨registry, fns⟩ level) statement n)

section Budgeted

variable {fns : List Function} {n : Node}

/-- Some number bounds all the nodes of a list. -/
theorem budgeted_list {ns : List Node} (h : ∀ n ∈ ns, Budgeted fns n) :
    ∃ c, ∀ n ∈ ns, ∀ registry level, Asks c (eval ⟨registry, fns⟩ level n) := by
  induction ns with
  | nil => exact ⟨0, by simp⟩
  | cons n ns ih =>
    obtain ⟨hn, hns⟩ := List.forall_mem_cons.1 h
    obtain ⟨c, hc⟩ := hn.eval
    obtain ⟨d, hd⟩ := ih hns
    refine ⟨c + d, List.forall_mem_cons.2 ⟨fun registry level => ?_, fun n hn registry level => ?_⟩⟩
    · exact (hc registry level).mono (by omega)
    · exact (hd n hn registry level).mono (by omega)

/-- A list of bounded statements is bounded, also one level lower. -/
theorem budgeted_body {body : List Node} (h : ∀ s ∈ body, Budgeted fns s) :
    ∃ c, ∀ registry level, Asks c (statements (eval ⟨registry, fns⟩ level) body) ∧
      Asks c (statements (below ⟨registry, fns⟩ level) body) := by
  obtain ⟨c, hc⟩ := budgeted_list h
  refine ⟨_, fun registry level => ⟨Asks.statements fun s hs => hc s hs registry level,
    Asks.statements fun s hs => ?_⟩⟩
  cases level with
  | zero => exact Asks.pure
  | succ level => exact hc s hs registry level

theorem budgeted_args {args : List Node} (h : ∀ a ∈ args, Budgeted fns a) :
    ∃ c, ∀ registry level,
      Asks c (evalArgs ⟨registry, fns⟩ level (below ⟨registry, fns⟩ level) args) := by
  induction args with
  | nil => exact ⟨0, fun registry level => by simp only [evalArgs]; exact Asks.pure⟩
  | cons a args ih =>
    obtain ⟨ha, hargs⟩ := List.forall_mem_cons.1 h
    obtain ⟨c, hc⟩ := ha.eval
    obtain ⟨d, hd⟩ := ih hargs
    refine ⟨c + (d + 0), fun registry level => ?_⟩
    have hfirst := hc registry level
    rw [eval_eq] at hfirst
    simp only [evalArgs]
    exact .bind hfirst fun _ => .step .needValue fun _ => .bind (hd registry level) fun _ => .pure

/-- The functions that a tree calls have bounded bodies. -/
def CallsBudgeted (fns : List Function) (n : Node) : Prop :=
  ∀ span name k args f, .call span name (.function k) args ∈ n.preorder → fns[k]? = some f →
    ∀ s ∈ f.body, Budgeted fns s

theorem CallsBudgeted.child (h : CallsBudgeted fns n) {c : Node} (hc : c ∈ n.children) : CallsBudgeted fns c :=
  fun span name k args f hcall => h span name k args f (Node.mem_preorder_of_child hc hcall)

theorem budgeted_call {span : Span} {name : Text} {callee : Callee} {args : List Node}
    (hcalls : CallsBudgeted fns (.call span name callee args)) (h : ∀ a ∈ args, Budgeted fns a) :
    ∃ c, ∀ registry level, Asks c (eval ⟨registry, fns⟩ level (.call span name callee args)) := by
  obtain ⟨c, hc⟩ := budgeted_args h
  simp only [eval_eq, evalWith]
  cases htarget : Env.target? ⟨{}, fns⟩ callee with
  | none =>
    have hnone : ∀ registry, Env.target? ⟨registry, fns⟩ callee = none := by
      intro registry
      cases callee <;> exact htarget
    refine ⟨c + 0, fun registry level => ?_⟩
    rw [hnone registry]
    exact .bind (hc registry level) fun _ => .callBuiltin
  | some f =>
    have hsome : ∀ registry, Env.target? ⟨registry, fns⟩ callee = some f := by
      intro registry
      cases callee <;> exact htarget
    have hbody : ∀ s ∈ f.body, Budgeted fns s := by
      cases callee with
      | builtin => cases htarget
      | function k => exact hcalls span name k args f (Node.mem_preorder_self _) htarget
    obtain ⟨d, hd⟩ := budgeted_body hbody
    refine ⟨c + (d + 0), fun registry level => ?_⟩
    rw [hsome registry]
    refine .ite (.bind (hc registry level) fun _ => ?_) (.fail (by simp))
    exact .bind (.callFunction (hd registry level).2) fun _ => .pure

/-- A condition is bounded if its operands are. -/
theorem budgeted_condition (h : ∀ c ∈ n.children, Budgeted fns c) :
    ∃ c, ∀ registry level statement,
      Asks c (evalCondition ⟨registry, fns⟩ level (below ⟨registry, fns⟩ level) statement n) := by
  cases n with
  | compare span left op right =>
    obtain ⟨c, hc⟩ := (h left (by simp [Node.children])).eval
    obtain ⟨d, hd⟩ := (h right (by simp [Node.children])).eval
    simp only [eval_eq] at hc hd
    refine ⟨c + (d + 0), fun registry level statement => ?_⟩
    simp only [evalCondition]
    exact .operand (hc registry level) fun l => .operand (hd registry level) fun r => .applyRelation
  | _ =>
    refine ⟨0, fun registry level statement => ?_⟩
    simp only [evalCondition]
    exact .fail (by simp)

/-- One case for each kind of node that is no loop. -/
theorem budgeted_node (hloop : n.isLoop = false) (hcalls : CallsBudgeted fns n)
    (h : ∀ c ∈ n.children, Budgeted fns c) :
    ∃ c, ∀ registry level, Asks c (eval ⟨registry, fns⟩ level n) := by
  cases n with
  | number | bool | function | skip =>
    simp only [eval_eq, evalWith]
    exact ⟨0, fun _ _ => .pure⟩
  | str =>
    simp only [eval_eq, evalWith]
    exact ⟨0, fun _ _ => .get fun _ => .step .liftScope fun _ => .pure⟩
  | use =>
    simp only [eval_eq, evalWith]
    exact ⟨0, fun _ _ => .get fun _ => .liftScope⟩
  | declare =>
    simp only [eval_eq, evalWith]
    exact ⟨0, fun _ _ => .step .declare fun _ => .pure⟩
  | declareAs span name type value =>
    obtain ⟨c, hc⟩ := (h value (by simp [Node.children])).eval
    simp only [eval_eq, evalWith] at hc ⊢
    refine ⟨c + 0, fun registry level => .bind (hc registry level) fun _ => ?_⟩
    exact .step .needValue fun _ => .step .declare fun _ => .pure
  | assign span name value =>
    obtain ⟨c, hc⟩ := (h value (by simp [Node.children])).eval
    simp only [eval_eq, evalWith] at hc ⊢
    refine ⟨c + 0, fun registry level => .bind (hc registry level) fun _ => ?_⟩
    exact .step .needValue fun _ => .step .assign fun _ => .pure
  | arith span left op right =>
    obtain ⟨c, hc⟩ := (h left (by simp [Node.children])).eval
    obtain ⟨d, hd⟩ := (h right (by simp [Node.children])).eval
    simp only [eval_eq, evalWith] at hc hd ⊢
    refine ⟨c + (d + 0), fun registry level => ?_⟩
    exact .operand (hc registry level) fun l => .operand (hd registry level) fun r => .applyArith
  | compare span left op right =>
    obtain ⟨c, hc⟩ := (h left (by simp [Node.children])).eval
    obtain ⟨d, hd⟩ := (h right (by simp [Node.children])).eval
    simp only [eval_eq, evalWith] at hc hd ⊢
    refine ⟨c + (d + 0), fun registry level => ?_⟩
    exact .operand (hc registry level) fun l => .operand (hd registry level) fun r =>
      .step .applyRelation fun _ => .pure
  | sign =>
    simp only [eval_eq, evalWith]
    exact ⟨0, fun _ _ => .applySign⟩
  | block braces body =>
    obtain ⟨c, hc⟩ := budgeted_body h
    simp only [eval_eq, evalWith]
    exact ⟨c + 0, fun registry level => .bind (.inFrame (hc registry level).2) fun _ => .pure⟩
  -- a call is the one node that does not end in its children: its body is budgeted by `hcalls`
  | call span name callee args => exact budgeted_call hcalls h
  | when span cond braces yes =>
    obtain ⟨c, hc⟩ := (h cond (by simp [Node.children])).condition
    obtain ⟨d, hd⟩ := (h (.block braces yes) (by simp [Node.children])).eval
    simp only [eval_eq, evalWith] at hd ⊢
    exact ⟨c + d, fun registry level => .bind (hc registry level _) fun _ => .ite (hd registry level) .pure⟩
  | choose span cond braces yes braces' no =>
    obtain ⟨c, hc⟩ := (h cond (by simp [Node.children])).condition
    obtain ⟨d, hd⟩ := (h (.block braces yes) (by simp [Node.children])).eval
    obtain ⟨d', hd'⟩ := (h (.block braces' no) (by simp [Node.children])).eval
    simp only [eval_eq, evalWith] at hd hd' ⊢
    -- one bound serves whichever branch is taken
    refine ⟨c + (d + d'), fun registry level => .bind (hc registry level _) fun _ => ?_⟩
    exact .ite ((hd registry level).mono (by omega)) ((hd' registry level).mono (by omega))
  | whileLoop => cases hloop
  | forLoop => cases hloop
  | program =>
    simp only [eval_eq, evalWith]
    exact ⟨0, fun _ _ => .fail (by simp)⟩

/-- A tree without loops is bounded if it calls functions with bounded bodies only. -/
theorem budgeted_tree (hloops : ∀ m ∈ n.preorder, m.isLoop = false) (hcalls : CallsBudgeted fns n) :
    Budgeted fns n := by
  induction n using Node.induction_children with
  | step n ih =>
    have hchildren : ∀ c ∈ n.children, Budgeted fns c := fun c hc =>
      ih c hc (fun m hm => hloops m (Node.mem_preorder_of_child hc hm)) (hcalls.child hc)
    exact ⟨budgeted_node (hloops n (Node.mem_preorder_self n)) hcalls hchildren, budgeted_condition hchildren⟩

end Budgeted

/-! ## Programs -/

theorem Asks.globals {c : Nat} {next : Node → Run (Option Value)} {gs : List Node}
    (h : ∀ g ∈ gs, Asks c (next g)) : Asks (gs.length * c) (globals next gs) := by
  induction gs with
  | nil => exact .pure
  | cons g gs ih =>
    obtain ⟨hg, hgs⟩ := List.forall_mem_cons.1 h
    refine (Asks.bind (.discard hg) fun _ => ih hgs).mono ?_
    rw [List.length_cons, Nat.succ_mul]
    omega

theorem Asks.start {next : Node → Run (Option Value)} {p : Program} {c d : Nat}
    (hglobals : Asks c (Run.globals next p.globals))
    (hmain : ∀ f, p.entry? = some f → Asks d (Run.callFunction next f [] f.span)) :
    Asks (c + d) (Run.start next p) := by
  unfold Run.start
  refine .ite (.step (.fail (by simp)) fun _ => ?_) ?_
  all_goals
    refine .bind hglobals fun _ => ?_
    cases hentry : p.entry? with
    | none => exact .pure
    | some f => exact .ite (hmain f hentry) (.fail (by simp))

/-- Starting a program is bounded if its globals and the bodies of its functions are. -/
theorem budgeted_start {p : Program} (hglobals : ∀ g ∈ p.globals, Budgeted p.allFunctions g)
    (hbodies : ∀ f ∈ p.functions, ∀ s ∈ f.body, Budgeted p.allFunctions s) :
    ∃ c, ∀ registry level, Asks c (start (eval ⟨registry, p.allFunctions⟩ level) p) := by
  obtain ⟨c, hc⟩ := budgeted_list hglobals
  obtain ⟨d, hd⟩ : ∃ d, ∀ registry level, ∀ f, p.entry? = some f →
      Asks d (callFunction (eval ⟨registry, p.allFunctions⟩ level) f [] f.span) := by
    cases hentry : p.entry? with
    | none => exact ⟨0, fun _ _ f hf => nomatch hf⟩
    | some f =>
      obtain ⟨d, hd⟩ := budgeted_body (hbodies f (List.mem_of_getLast? hentry))
      refine ⟨d, fun registry level f' hf' => ?_⟩
      cases hf'
      exact .callFunction (hd registry level).1
  refine ⟨p.globals.length * c + d, fun registry level => ?_⟩
  exact .start (Asks.globals fun g hg => hc g hg registry level) (hd registry level)

end Run

open Run

/-- Positions do not decrease for ever. -/
theorem Pos.wellFounded_lt : WellFounded fun p q : Pos => p < q := by
  refine Subrelation.wf ?_ (InvImage.wf (fun p : Pos => (p.line, p.col))
    (Prod.lex Nat.lt_wfRel Nat.lt_wfRel).wf)
  rintro ⟨line, col⟩ ⟨line', col'⟩ h
  rcases h with h | ⟨hline, hcol⟩
  · exact Prod.Lex.left _ _ h
  · cases hline
    exact Prod.Lex.right _ hcol

section Programs

variable {p : Program} {ended : List (Function × Nat)}

/-- Without loops the bodies of all functions are bounded: one function after the other, in the order in
which they end. -/
theorem Program.Placed.budgeted_bodies (hp : p.Placed ended)
    (hloops : ∀ n ∈ p.node.preorder, n.isLoop = false) {f : Function} (hf : f.node ∈ p.node.preorder) :
    ∀ s ∈ f.body, Budgeted p.allFunctions s := by
  induction hstop : f.span.stop using Pos.wellFounded_lt.induction generalizing f with
  | _ stop ih =>
    subst hstop
    intro s hs
    have hbelow := Node.mem_preorder_body hf hs
    refine budgeted_tree (fun m hm => hloops m (Node.mem_preorder_trans hm hbelow)) ?_
    intro span name k args g hcall hg
    obtain ⟨g', hg', hlt⟩ := hp.target_lt hf (Node.block_mem_children f) (Node.mem_preorder_of_child hs hcall)
    obtain rfl : g = g' := Option.some.inj (hg.symm.trans hg')
    exact ih g.span.stop hlt (p.mem_preorder_of_function? hg) rfl

/-- A program without loops has a budget with which every run ends. -/
theorem Program.Placed.run_ends (hp : p.Placed ended) (hloops : ∀ n ∈ p.node.preorder, n.isLoop = false) :
    ∃ least, ∀ registry world budget, least ≤ budget → ¬(p.run registry world budget).Canceled := by
  have hchild : ∀ n ∈ p.node.children, n ∈ p.node.preorder := fun _ hn => Node.mem_preorder_child hn
  have hglobals : ∀ g ∈ p.globals, Budgeted p.allFunctions g := by
    intro g hg
    have hbelow := hchild g (List.mem_append_left _ hg)
    refine budgeted_tree (fun m hm => hloops m (Node.mem_preorder_trans hm hbelow)) ?_
    intro span name k args f _ hf
    exact hp.budgeted_bodies hloops (p.mem_preorder_of_function? hf)
  have hbodies : ∀ f ∈ p.functions, ∀ s ∈ f.body, Budgeted p.allFunctions s := fun f hf =>
    hp.budgeted_bodies hloops (hchild f.node (List.mem_append_right _ (List.mem_map_of_mem hf)))
  obtain ⟨least, hleast⟩ := budgeted_start hglobals hbodies
  refine ⟨least, fun registry world budget henough hcanceled => ?_⟩
  have hgo := (hleast registry budget (.start world budget) henough).1
  simp only [Outcome.Canceled, Program.run] at hcanceled
  revert hcanceled hgo
  cases start (eval ⟨registry, p.allFunctions⟩ budget) p (.start world budget) with
  | mk result m =>
    cases result with
    | ok u => exact fun hcanceled => by cases hcanceled
    | error f => exact fun hcanceled hgo => hgo f rfl (Option.some.inj hcanceled)

/-- Once runs are not interrupted, the budget does not matter. -/
theorem agrees_of_not_canceled {registry : Registry} {world : World} {budget budget' : Nat}
    (h : ¬(p.run registry world budget).Canceled) (h' : ¬(p.run registry world budget').Canceled) :
    (p.run registry world budget).Agrees (p.run registry world budget') := by
  obtain ⟨least, hleast⟩ := run_core (p := p) rfl h
  obtain ⟨least', hleast'⟩ := run_core (p := p) rfl h'
  obtain ⟨hfault, hglobals, hworld⟩ := hleast (least + least') (Nat.le_add_right _ _)
  obtain ⟨hfault', hglobals', hworld'⟩ := hleast' (least + least') (Nat.le_add_left _ _)
  exact ⟨hfault.symm.trans hfault', hglobals.symm.trans hglobals', hworld.symm.trans hworld'⟩

/-- The body of the function with the first number, nested code included, calls the one with the second. -/
def Program.Calls (p : Program) (i j : Nat) : Prop :=
  ∃ f, p.function? i = some f ∧
    ∃ s ∈ f.body, ∃ span name args, Node.call span name (.function j) args ∈ s.preorder

/-- A chain of calls leads to a function that ends before the first one. -/
theorem Program.Placed.chain_lt (hp : p.Placed ended) {i j : Nat} (h : Relation.TransGen p.Calls i j) :
    ∃ f g, p.function? i = some f ∧ p.function? j = some g ∧ g.span.stop < f.span.stop := by
  have hstep : ∀ i j, p.Calls i j →
      ∃ f g, p.function? i = some f ∧ p.function? j = some g ∧ g.span.stop < f.span.stop := by
    rintro i j ⟨f, hf, s, hs, span, name, args, hcall⟩
    obtain ⟨g, hg, hlt⟩ := hp.target_lt (p.mem_preorder_of_function? hf) (Node.block_mem_children f)
      (Node.mem_preorder_of_child hs hcall)
    exact ⟨f, g, hf, hg, hlt⟩
  induction h with
  | single h => exact hstep _ _ h
  | tail _ h ih =>
    obtain ⟨f, g, hf, hg, hlt⟩ := ih
    obtain ⟨g', k, hg', hk, hlt'⟩ := hstep _ _ h
    obtain rfl : g = g' := Option.some.inj (hg.symm.trans hg')
    exact ⟨f, k, hf, hk, by grind⟩

end Programs

/-- The function with a number ends, closing brace included, before a position. -/
def Program.EndsBefore (p : Program) (k : Nat) (f : Function) (pos : Pos) : Prop :=
  p.function? k = some f ∧ f.braces.span.stop.Le pos

/-- Calls are resolved backward only. A call that has a target calls the last function of its name that ends
before it, and a call has none exactly if no function of its name does. Hence no function is reached again by
the calls in its body and in the bodies of the functions they call, and a program without loops has a budget
with which every run ends, whatever its builtins answer, in a way that does not depend on the budget. -/
theorem calls_go_backward {file source : Text} {builtins : Option (List Text)} {p : Program}
    (h : parse file source builtins = .ok p) :
    (∀ span name callee args, .call span name callee args ∈ p.node.preorder →
      (∀ k, callee = .function k → ∃ f, p.EndsBefore k f span.start ∧ f.name = name ∧
        ∀ j g, p.EndsBefore j g span.start → g.name = name →
          j = k ∨ g.braces.span.stop.Lt f.braces.span.stop) ∧
      (callee = .builtin ↔ ¬∃ j g, p.EndsBefore j g span.start ∧ g.name = name)) ∧
    (∀ i, ¬Relation.TransGen p.Calls i i) ∧
    ((∀ n ∈ p.node.preorder, n.isLoop = false) → ∃ least, ∀ registry world budget, least ≤ budget →
      ¬(p.run registry world budget).Canceled ∧
        (p.run registry world budget).Agrees (p.run registry world least)) := by
  obtain ⟨ended, hp⟩ := placed_of_parse h
  -- the tree places a function by its whole span, which ends where its braces end
  have hstop : ∀ {j g}, p.function? j = some g → g.braces.span.stop = g.span.stop := fun hg =>
    hp.stop_braces (p.mem_preorder_of_function? hg)
  refine ⟨fun span name callee args hcall => ⟨?_, ?_⟩, fun i hcycle => ?_, fun hloops => ?_⟩
  · rintro k rfl
    obtain ⟨f, hf, hname, hend, hlast⟩ := hp.target hcall
    refine ⟨f, ⟨hf, by rw [hstop hf]; exact hend⟩, hname, fun j g hg hgname => ?_⟩
    obtain ⟨hg, hend⟩ := hg
    rw [hstop hg] at hend ⊢
    rw [hstop hf]
    exact hlast j g hg hgname hend
  · rw [hp.untargeted hcall]
    constructor
    · rintro hnone ⟨j, g, ⟨hg, hend⟩, hname⟩
      rw [hstop hg] at hend
      exact hnone j g hg hname hend
    · intro hnone j g hg hname hend
      exact hnone ⟨j, g, ⟨hg, by rw [hstop hg]; exact hend⟩, hname⟩
  · obtain ⟨f, g, hf, hg, hlt⟩ := hp.chain_lt hcycle
    obtain rfl : f = g := Option.some.inj (hf.symm.trans hg)
    grind
  · obtain ⟨least, hleast⟩ := hp.run_ends hloops
    refine ⟨least, fun registry world budget henough => ?_⟩
    have hgo := hleast registry world budget henough
    exact ⟨hgo, agrees_of_not_canceled hgo (hleast registry world least (Nat.le_refl _))⟩

/-- Two functions that call each other in order, without loops. -/
theorem calls_go_backward_two :
    ∃ p, parse "a" "func A() \x7b WriteLine(1) \x7d func Main() \x7b A() A() \x7d" = .ok p ∧
      p.allFunctions.length = 2 ∧ (∀ n ∈ p.node.preorder, n.isLoop = false) ∧
      (∀ i, ¬Relation.TransGen p.Calls i i) ∧
      ∃ least, ∀ registry world budget, least ≤ budget → ¬(p.run registry world budget).Canceled := by
  have hread : (parse "a" "func A() \x7b WriteLine(1) \x7d func Main() \x7b A() A() \x7d").toOption.map
      (fun p => (p.allFunctions.length, p.node.preorder.all fun n => !n.isLoop)) = some (2, true) := by
    decide +kernel
  cases hparse : parse "a" "func A() \x7b WriteLine(1) \x7d func Main() \x7b A() A() \x7d" with
  | error e =>
    rw [hparse] at hread
    cases hread
  | ok p =>
    rw [hparse] at hread
    obtain ⟨hcount, hloops⟩ := Prod.mk.inj (Option.some.inj hread)
    have hloops : ∀ n ∈ p.node.preorder, n.isLoop = false := by simpa using hloops
    obtain ⟨-, hacyclic, hends⟩ := calls_go_backward hparse
    obtain ⟨least, hleast⟩ := hends hloops
    exact ⟨p, rfl, hcount, hloops, hacyclic, least, fun r w b hb => (hleast r w b hb).1⟩

end ScriptKit
