import ScriptKit.Proofs.Run.Layout
import ScriptKit.Proofs.Scope.Names
import ScriptKit.Proofs.Tree.Walk

/-!
# Called code and the frames of its caller

A function runs on top of the frames of whoever calls it. It may assign to the variables in them, but it
declares in frames of its own, which are gone when it returns. So whatever is called, the names in the frames
of the caller stay as they are.

The level of the evaluator has to be kept in step with the budget for this, since below the last level
nothing is done at all. `Within level J` is a condition on frames together with a bound on the budget, and the
rules here are those of `Triple` for such conditions.

**Theorem (`leaves_eval`).** Code that runs on top of some frames leaves the names in them alone, and where it
fails because of a name, it does so in its own region or in the regions of the functions it calls.
-/

namespace ScriptKit.Run

open Node Chain Check

variable {α β : Type} {J K : Chain → Prop} {E : Failure → Prop} {level : Nat} {names : Names}

/-- The frames satisfy `J`, and the budget is at most `level`. -/
def Within (level : Nat) (J : Chain → Prop) (m : Machine) : Prop := m.budget ≤ level ∧ J m.chain

theorem Within.weaken {m : Machine} {lower : Nat} (h : Within lower J m) (hle : lower ≤ level) :
    Within level J m :=
  ⟨Nat.le_trans h.1 hle, h.2⟩

namespace Triple

variable {span : Span} {name : Text}

/-- What a step that asks nothing does to the frames. -/
theorem within {x : Run α} {R : α → Chain → Prop} (hx : Instant x x)
    (h : Triple (OnChain J) x (fun a => OnChain (R a)) E) :
    Triple (Within level J) x (fun a => Within level (R a)) E := by
  intro m hm
  have hrun := h m hm.2
  have hbudget := (hx m m rfl).2.1
  revert hrun hbudget
  cases x m with
  | mk result m' =>
    cases result with
    | ok a => exact fun hR hbudget => ⟨by dsimp only at hbudget; exact hbudget ▸ hm.1, hR⟩
    | error f => exact fun hE _ => hE

/-- A pure fact that is known before a step may be used in it. -/
theorem assume {P : Machine → Prop} {φ : Prop} {x : Run α} {Q : α → Machine → Prop}
    (h : φ → Triple P x Q E) : Triple (fun m => P m ∧ φ) x Q E := fun m hm => h hm.2 m hm.1

/-- A question takes one from the budget, if there is one to take. -/
theorem check_within (hstop : E ⟨.canceled, span⟩) :
    Triple (Within level J) (Run.check span) (fun _ m => ∃ lower, level = lower + 1 ∧ Within lower J m) E := by
  intro m hm
  cases hbudget : m.budget with
  | zero =>
    rw [Sim.check_zero hbudget]
    exact hstop
  | succ n =>
    rw [Sim.check_succ hbudget]
    have hle := hm.1
    exact ⟨level - 1, by omega, by dsimp only; omega, hm.2⟩

theorem ask (hstop : E ⟨.canceled, span⟩) :
    Triple (Within level J) (Run.check span) (fun _ => Within level J) E := by
  refine (check_within hstop).mono (fun _ h => h) ?_ fun _ h => h
  rintro _ m ⟨lower, rfl, hm⟩
  exact hm.weaken (Nat.le_succ lower)

/-- Statements that keep a condition on frames. -/
theorem statements_within {next : Node → Run (Option Value)} {body : List Node}
    (hstop : ∀ s ∈ body, E ⟨.canceled, s.span⟩)
    (h : ∀ lower, level = lower + 1 → ∀ s ∈ body,
      Triple (Within lower J) (next s) (fun _ => Within level J) E) :
    Triple (Within level J) (Run.statements next body) (fun _ => Within level J) E := by
  induction body with
  | nil => exact pure fun _ hm => hm
  | cons s rest ih =>
    obtain ⟨hstop, hstops⟩ := List.forall_mem_cons.1 hstop
    refine bind (check_within hstop) fun _ => ?_
    rintro m ⟨lower, hlevel, hm⟩
    have hs := discard (R := fun _ => Within level J) (h lower hlevel s (List.mem_cons_self ..))
    refine bind hs (fun _ => ?_) m hm
    exact ih hstops fun lower hlevel s hs => h lower hlevel s (List.mem_cons_of_mem _ hs)

/-- What the first turn of a loop and every other one establish holds after the loop. -/
theorem turns_within {P : Machine → Prop} {φ : Prop} {turn : Run Bool}
    (h : Triple P turn (fun _ m => P m ∧ φ) E) (n : Nat) :
    Triple P (Run.turns turn n) (fun _ m => P m ∧ φ) E := by
  induction n with
  | zero => exact discard (R := fun _ m => P m ∧ φ) h
  | succ n ih =>
    refine bind h fun again => assume fun hφ => ite (fun _ => ih) fun _ => ?_
    exact pure fun _ hm => ⟨hm, hφ⟩

/-- The report of the end of a call changes neither frames nor budget. -/
theorem reportEnd_within {P : Machine → Prop} {φ : Prop} {x : Run Unit}
    (h : Triple P x (fun _ m => Within level J m ∧ φ) E) :
    Triple P (Run.reportEnd span name x) (fun _ m => Within level J m ∧ φ) E := by
  intro m hm
  have hx := h m hm
  simp only [Run.reportEnd]
  revert hx
  cases x m with
  | mk result m' => cases result <;> exact fun hx => hx

end Triple

/-! ## Leaving the names alone -/

/-- A step that leaves the names in the frames alone, all but those of the first frame. -/
def Leaves (E : Failure → Prop) (level : Nat) (x : Run α) : Prop :=
  ∀ names, Triple (Within level (Above names)) x (fun _ => Within level (Above names)) E

/-- A step that leaves the names in all the frames alone. -/
def LeavesAll (E : Failure → Prop) (level : Nat) (x : Run α) : Prop :=
  ∀ names, Triple (Within level (Shows names)) x (fun _ => Within level (Shows names)) E

namespace Leaves

variable {span : Span} {name : Text}

theorem pure {a : α} : Leaves E level (pure a : Run α) := fun _ => Triple.pure fun _ hm => hm

theorem fail {fault : Fault} (h : E ⟨fault, span⟩) : Leaves E level (fail fault span : Run α) :=
  fun _ => Triple.fail h

theorem bind {x : Run α} {f : α → Run β} (hx : Leaves E level x) (hf : ∀ a, Leaves E level (f a)) :
    Leaves E level (x >>= f) := fun names => Triple.bind (hx names) fun a => hf a names

theorem discard {x : Run α} (h : Leaves E level x) : Leaves E level (discard x) :=
  fun names => Triple.discard (R := fun _ => Within level (Above names)) (h names)

theorem ite {p : Prop} [Decidable p] {x y : Run α} (hx : Leaves E level x) (hy : Leaves E level y) :
    Leaves E level (if p then x else y) := fun names => Triple.ite (fun _ => hx names) fun _ => hy names

theorem check (hstop : E ⟨.canceled, span⟩) : Leaves E level (check span) := fun _ => Triple.ask hstop

theorem turns {turn : Run Bool} (h : Leaves E level turn) (n : Nat) : Leaves E level (turns turn n) :=
  fun names => Triple.turns (h names) n

theorem declare {type : VarType} {value : Option Value} (h : ∀ e, E ⟨.scope e, span⟩) :
    Leaves E level (declare span name type value) := fun _ =>
  Triple.within .declare (Triple.declare (fun _ _ hc hok => hc.declare hok) fun _ e _ _ => h e)

theorem assign {value : Value} (h : ∀ e, E ⟨.scope e, span⟩) : Leaves E level (assign span name value) :=
  fun _ => Triple.within .assign (Triple.assign (fun _ _ hc hok => hc.assign hok) fun _ e _ _ => h e)

theorem resolve (h : ∀ e, E ⟨.scope e, span⟩) : Leaves E level (resolve span name) := fun _ =>
  Triple.within .resolve (Triple.resolve fun _ e _ _ => h e)

theorem interpolate {text : Text} (h : ∀ e, E ⟨.scope e, span⟩) :
    Leaves E level (do
      let filled ← Run.liftScope span (ScriptKit.interpolate (← MonadState.get).chain text)
      return some (Value.str filled)) := by
  intro names
  refine Triple.bind (Q := fun _ => Within level (Above names)) (Triple.get fun _ hm => hm) fun m => ?_
  refine Triple.bind (Q := fun _ => Within level (Above names)) ?_ fun _ => Triple.pure fun _ hm => hm
  exact Triple.liftScope (fun _ _ _ hm => hm) fun e _ => h e

theorem needValue {n : Node} {v : Option Value} (h : E ⟨noValue n, n.span⟩) :
    Leaves E level (needValue n v) := fun _ => Triple.needValue h

theorem operand {x : Run (Option Value)} {n : Node} {symbol : Text} {k : Int32 → Run α}
    (hx : Leaves E level x) (hnone : E ⟨noValue n, n.span⟩) (hint : ∀ v, E ⟨.operand symbol v, n.span⟩)
    (hk : ∀ i, Leaves E level (k i)) :
    Leaves E level (x >>= fun v => Run.needValue n v >>= fun v => Run.needInt n symbol v >>= k) :=
  fun names => Triple.operand (hx names) hnone hint fun i => hk i names

theorem applyArith {op : Arith} {l r : Int32} (hzero : E ⟨.divisionByZero, span⟩)
    (hother : ∀ symbol, E ⟨.arithmeticOperator symbol, span⟩) :
    Leaves E level (applyArith span op l r) := fun _ => Triple.applyArith hzero hother

theorem applyRelation {op : Relation} {l r : Int32}
    (hother : ∀ symbol, E ⟨.comparisonOperator symbol, span⟩) :
    Leaves E level (applyRelation span op l r) := fun _ => Triple.applyRelation hother

/-- Leaving all names alone leaves those alone that are not in the first frame. -/
theorem of_all {x : Run α} (h : LeavesAll E level x) : Leaves E level x := by
  intro names m hm
  obtain ⟨hbudget, f, c₀, hchain, hshows⟩ := hm
  have hne : names ≠ [] := hshows.ne_nil
  have hall : Shows (f.vars.map Prod.fst :: names) m.chain := by
    rw [hchain]
    exact hshows.cons f
  have hx := h _ m ⟨hbudget, hall⟩
  revert hx
  cases x m with
  | mk result m' =>
    cases result with
    | ok a => exact fun hx => ⟨hx.1, hx.2.above hne⟩
    | error e => exact fun hx => hx

end Leaves

namespace LeavesAll

variable {span : Span} {name : Text}

/-- What is done in a frame of its own leaves the names in all other frames alone. -/
theorem inside {frame : Frame} {x : Run α} (h : Leaves E level x) :
    LeavesAll E level (Sim.inside frame x) := by
  intro names m hm
  have hx := h names { m with chain := frame :: m.chain } ⟨hm.1, frame, m.chain, rfl, hm.2⟩
  unfold Sim.inside
  revert hx
  cases x { m with chain := frame :: m.chain } with
  | mk result m' =>
    cases result with
    | error e => exact fun hx => hx
    | ok a =>
      rintro ⟨hbudget, f, c₀, hchain, hshows⟩
      refine ⟨hbudget, ?_⟩
      show Shows names m'.chain.tail
      rw [hchain]
      exact hshows

theorem inFrame {x : Run α} (h : Leaves E level x) : LeavesAll E level (inFrame x) := inside h

theorem reportEnd {x : Run Unit} (h : LeavesAll E level x) : LeavesAll E level (reportEnd span name x) := by
  intro names
  have hx := (h names).mono (fun _ hm => hm) (fun _ _ hm => And.intro hm trivial) fun _ h => h
  exact (Triple.reportEnd_within hx).mono (fun _ hm => hm) (fun _ _ hm => hm.1) fun _ h => h

/-- A call leaves the names of its caller alone if the statements of the function do. -/
theorem callFunction {next : Node → Run (Option Value)} {f : Function} {args : List Value}
    (hparams : ∀ p ∈ f.params, ∀ e, E ⟨.scope e, p.span⟩)
    (harity : E ⟨.arity f.name f.params.length args.length, span⟩)
    (h : Leaves E level (statements next f.body)) : LeavesAll E level (callFunction next f args span) := by
  intro names
  unfold Run.callFunction
  refine Triple.ite (fun _ => ?_) fun _ => Triple.fail harity
  refine Triple.bind (Q := fun _ => Within level (Shows names)) ?_ fun _ => ?_
  · exact Triple.within .emit (Triple.emit fun _ _ hm => hm)
  refine Triple.bind (Triple.within (.callFrame rfl) (Triple.callFrame hparams)) fun frame => ?_
  exact reportEnd (inside h) names

theorem callBuiltin {env : Env} {args : List Value} (hunknown : E ⟨.unknownFunction name, span⟩)
    (hfault : ∀ b w fault, env.builtins.get? name = some b → (b.run args w).1 = .error fault →
      ∀ place, E ⟨.builtin name fault, place⟩) :
    LeavesAll E level (callBuiltin env span name args) := fun _ =>
  Triple.within (.callBuiltin rfl) (Triple.callBuiltin hunknown hfault)

end LeavesAll

/-! ## Regions -/

/-- A failure that has to do with names happened at one of the spots. -/
def ScopedAt (Spot : Span → Prop) (f : Failure) : Prop := f.fault.code = .scope → Spot f.span

/-- The functions that a tree calls have their parameters at the given spots and their statements among the
given ones. -/
def CallsInto (fns : List Function) (Spot : Span → Prop) (In : Node → Prop) (n : Node) : Prop :=
  ∀ span name k args f, .call span name (.function k) args ∈ n.preorder → fns[k]? = some f →
    (∀ p ∈ f.params, Spot p.span) ∧ ∀ s ∈ f.body, In s

theorem CallsInto.child {fns : List Function} {Spot : Span → Prop} {In : Node → Prop} {n c : Node}
    (h : CallsInto fns Spot In n) (hc : c ∈ n.children) : CallsInto fns Spot In c :=
  fun span name k args f hcall => h span name k args f (mem_preorder_of_child hc hcall)

/-- Code that is closed under calls: what is below its nodes is part of it, and so are the functions they call,
and all of it stands at the given spots. -/
structure Region (fns : List Function) (Spot : Span → Prop) (In : Node → Prop) : Prop where
  child : ∀ n c, In n → c ∈ n.children → In c
  spot : ∀ n, In n → Spot n.span
  calls : ∀ n, In n → CallsInto fns Spot In n

/-- Wherever a builtin may fail because of a name, there is one of the spots. So either builtins have
nothing to do with names, or the spots are everywhere. -/
def Env.FailsAt (env : Env) (Spot : Span → Prop) : Prop :=
  ∀ name b args w fault, env.builtins.get? name = some b → (b.run args w).1 = .error fault →
    ∀ place, ScopedAt Spot ⟨.builtin name fault, place⟩

section Regions

variable {env : Env} {Spot : Span → Prop} {In : Node → Prop} {next : Node → Run (Option Value)} {n : Node}

/-- A failure that has nothing to do with names. -/
theorem scopedAt_of_code {fault : Fault} {span : Span} (h : fault.code ≠ .scope) :
    ScopedAt Spot ⟨fault, span⟩ := fun hcode => absurd hcode h

theorem scopedAt_noValue {span : Span} : ScopedAt Spot ⟨noValue n, span⟩ :=
  scopedAt_of_code (by cases n <;> simp [noValue, Fault.code])

/-- One level lower, the statements of a region leave names alone. -/
def NextLeaves (Spot : Span → Prop) (In : Node → Prop) (level : Nat)
    (next : Node → Run (Option Value)) : Prop :=
  ∀ lower, level = lower + 1 → ∀ s, In s → Leaves (ScopedAt Spot) lower (next s)

theorem leaves_statements (hnext : NextLeaves Spot In level next) {body : List Node}
    (hbody : ∀ s ∈ body, In s) : Leaves (ScopedAt Spot) level (statements next body) := by
  intro names
  refine Triple.statements_within (fun _ _ => scopedAt_of_code (by simp [Fault.code])) ?_
  intro lower hlevel s hs
  refine (hnext lower hlevel s (hbody s hs) names).mono (fun _ hm => hm) (fun _ _ hm => ?_) fun _ h => h
  exact hm.weaken (by omega)

theorem leaves_args {args : List Node}
    (h : ∀ a ∈ args, Leaves (ScopedAt Spot) level (evalWith env level next a)) :
    Leaves (ScopedAt Spot) level (evalArgs env level next args) := by
  induction args with
  | nil =>
    simp only [evalArgs]
    exact .pure
  | cons a args ih =>
    obtain ⟨ha, hargs⟩ := List.forall_mem_cons.1 h
    simp only [evalArgs]
    exact .bind ha fun _ => .bind (.needValue scopedAt_noValue) fun _ => .bind (ih hargs) fun _ => .pure

/-- A call of a function of a region leaves all names alone. -/
theorem leavesAll_callFunction (hnext : NextLeaves Spot In level next) {f : Function}
    (hparams : ∀ p ∈ f.params, Spot p.span) (hbody : ∀ s ∈ f.body, In s) {values : List Value} {span : Span} :
    LeavesAll (ScopedAt Spot) level (callFunction next f values span) :=
  .callFunction (fun p hp _ _ => hparams p hp) (scopedAt_of_code (by simp [Fault.code]))
    (leaves_statements hnext hbody)

theorem leavesAll_callBuiltin (henv : env.FailsAt Spot) {span : Span} {name : Text} {values : List Value} :
    LeavesAll (ScopedAt Spot) level (callBuiltin env span name values) := by
  refine .callBuiltin (scopedAt_of_code (by simp [Fault.code])) fun b w fault hb hfault => ?_
  exact henv name b values w fault hb hfault

/-- A node and a condition leave names alone. -/
structure LeavesNode (Spot : Span → Prop) (env : Env) (level : Nat) (next : Node → Run (Option Value))
    (n : Node) : Prop where
  eval : Leaves (ScopedAt Spot) level (evalWith env level next n)
  condition : ∀ statement, Leaves (ScopedAt Spot) level (evalCondition env level next statement n)

theorem leaves_operand {symbol : Text} {k : Int32 → Run α} (hn : LeavesNode Spot env level next n)
    (hk : ∀ i, Leaves (ScopedAt Spot) level (k i)) :
    Leaves (ScopedAt Spot) level (evalWith env level next n >>= fun v => needValue n v >>= fun v =>
      needInt n symbol v >>= k) :=
  .operand hn.eval scopedAt_noValue (fun _ => scopedAt_of_code (by simp [Fault.code])) hk

theorem leaves_condition (h : ∀ c ∈ n.children, LeavesNode Spot env level next c) (statement : Text) :
    Leaves (ScopedAt Spot) level (evalCondition env level next statement n) := by
  cases n with
  | compare =>
    simp only [evalCondition]
    refine leaves_operand (h _ (by simp [children])) fun l => ?_
    refine leaves_operand (h _ (by simp [children])) fun r => ?_
    exact .applyRelation fun _ => scopedAt_of_code (by simp [Fault.code])
  | _ =>
    simp only [evalCondition]
    exact .fail (scopedAt_of_code (by simp [Fault.code]))

theorem leaves_call (henv : env.FailsAt Spot) (hregion : Region env.functions Spot In)
    (hnext : NextLeaves Spot In level next) {span : Span} {name : Text} {callee : Callee} {args : List Node}
    (hn : In (.call span name callee args)) (h : ∀ a ∈ args, LeavesNode Spot env level next a) :
    Leaves (ScopedAt Spot) level (evalWith env level next (.call span name callee args)) := by
  have hargs := leaves_args fun a ha => (h a ha).eval
  simp only [evalWith]
  cases htarget : env.target? callee with
  | none => exact .bind hargs fun _ => .of_all (leavesAll_callBuiltin henv)
  | some f =>
    cases callee with
    | builtin => cases htarget
    | function k =>
      refine .ite (.bind hargs fun _ => .bind ?_ fun _ => .pure)
        (.fail (scopedAt_of_code (by simp [Fault.code])))
      obtain ⟨hparams, hbody⟩ := hregion.calls _ hn span name k args f (mem_preorder_self _) htarget
      exact .of_all (leavesAll_callFunction hnext hparams hbody)

/-- One case for each kind of node. -/
theorem leaves_node (henv : env.FailsAt Spot) (hregion : Region env.functions Spot In)
    (hnext : NextLeaves Spot In level next) (hn : In n)
    (h : ∀ c ∈ n.children, LeavesNode Spot env level next c) :
    Leaves (ScopedAt Spot) level (evalWith env level next n) := by
  have hspot : ∀ e, ScopedAt Spot ⟨.scope e, n.span⟩ := fun _ _ => hregion.spot n hn
  have hblock : ∀ braces body, .block braces body ∈ n.children →
      Leaves (ScopedAt Spot) level (statements next body) := fun braces body hb =>
    leaves_statements hnext fun s hs => hregion.child _ s (hregion.child n _ hn hb) hs
  cases n with
  | number | bool | function | skip =>
    simp only [evalWith]
    exact .pure
  | str =>
    simp only [evalWith]
    exact .interpolate hspot
  | use =>
    simp only [evalWith]
    exact .resolve hspot
  | declare =>
    simp only [evalWith]
    exact .bind (.declare hspot) fun _ => .pure
  | declareAs =>
    simp only [evalWith]
    refine .bind (h _ (by simp [children])).eval fun v => .bind (.needValue scopedAt_noValue) fun v => ?_
    exact .bind (.declare hspot) fun _ => .pure
  | assign =>
    simp only [evalWith]
    refine .bind (h _ (by simp [children])).eval fun v => .bind (.needValue scopedAt_noValue) fun v => ?_
    exact .bind (.assign hspot) fun _ => .pure
  | arith =>
    simp only [evalWith]
    refine leaves_operand (h _ (by simp [children])) fun l => ?_
    refine leaves_operand (h _ (by simp [children])) fun r => ?_
    exact .applyArith (scopedAt_of_code (by simp [Fault.code])) fun _ => scopedAt_of_code (by simp [Fault.code])
  | compare =>
    simp only [evalWith]
    refine leaves_operand (h _ (by simp [children])) fun l => ?_
    refine leaves_operand (h _ (by simp [children])) fun r => ?_
    exact .bind (.applyRelation fun _ => scopedAt_of_code (by simp [Fault.code])) fun _ => .pure
  | sign span op operand =>
    simp only [evalWith, applySign]
    split
    · exact .pure
    · exact .pure
    · exact .fail (scopedAt_of_code (by simp [Fault.code]))
    · exact .fail (scopedAt_of_code (by simp [Fault.code]))
  | block braces body =>
    simp only [evalWith]
    have hbody := leaves_statements hnext fun s hs => hregion.child _ s hn hs
    exact .bind (.of_all (.inFrame hbody)) fun _ => .pure
  | call => exact leaves_call henv hregion hnext hn h
  | when _ _ braces yes =>
    simp only [evalWith]
    refine .bind ((h _ (by simp [children])).condition _) fun go => .ite ?_ .pure
    exact .bind (.of_all (.inFrame (hblock braces yes (by simp [children])))) fun _ => .pure
  | choose _ _ braces yes braces' no =>
    simp only [evalWith]
    refine .bind ((h _ (by simp [children])).condition _) fun go => .ite ?_ ?_
    · exact .bind (.of_all (.inFrame (hblock braces yes (by simp [children])))) fun _ => .pure
    · exact .bind (.of_all (.inFrame (hblock braces' no (by simp [children])))) fun _ => .pure
  | whileLoop _ _ braces body =>
    simp only [evalWith]
    refine .bind (.turns (.bind (.check ?_) fun _ => ?_) _) fun _ => .pure
    · exact scopedAt_of_code (by simp [Fault.code])
    refine .bind ((h _ (by simp [children])).condition _) fun go => .ite ?_ .pure
    -- the body of a while loop runs in the frame around it
    exact .bind (hblock braces body (by simp [children])) fun _ => .pure
  | forLoop _ _ _ _ braces body =>
    simp only [evalWith]
    refine .of_all (.inFrame (.bind (.discard (h _ (by simp [children])).eval) fun _ => ?_))
    refine .bind (.turns (.bind (.check ?_) fun _ => ?_) _) fun _ => .pure
    · exact scopedAt_of_code (by simp [Fault.code])
    refine .bind ((h _ (by simp [children])).condition _) fun go => .ite ?_ .pure
    refine .bind (.of_all (.inFrame (hblock braces body (by simp [children])))) fun _ => ?_
    exact .bind (.discard (h _ (by simp [children])).eval) fun _ => .pure
  | program =>
    simp only [evalWith]
    exact .fail (scopedAt_of_code (by simp [Fault.code]))

theorem leaves_evalWith (henv : env.FailsAt Spot) (hregion : Region env.functions Spot In)
    (hnext : NextLeaves Spot In level next) (hn : In n) : LeavesNode Spot env level next n := by
  induction n using induction_children with
  | step n ih =>
    have hchildren := fun c hc => ih c hc (hregion.child n c hn hc)
    exact ⟨leaves_node henv hregion hnext hn hchildren, leaves_condition hchildren⟩

/-- The code of a region leaves the names of whoever it is called from alone, however deep a run goes. -/
theorem leaves_eval (henv : env.FailsAt Spot) (hregion : Region env.functions Spot In) (level : Nat) :
    NextLeaves Spot In (level + 1) (eval env level) ∧ NextLeaves Spot In level (below env level) := by
  induction level with
  | zero =>
    have hbelow : NextLeaves Spot In 0 (below env 0) := fun lower hlower => by cases hlower
    refine ⟨?_, hbelow⟩
    intro lower hlower s hs
    cases hlower
    exact (leaves_evalWith henv hregion hbelow hs).eval
  | succ level ih =>
    have hbelow : NextLeaves Spot In (level + 1) (below env (level + 1)) := ih.1
    refine ⟨?_, hbelow⟩
    intro lower hlower s hs
    cases hlower
    exact (leaves_evalWith henv hregion hbelow hs).eval

end Regions

end ScriptKit.Run
