import ScriptKit.Proofs.Run.Rules
import ScriptKit.Proofs.Run.Simulation
import ScriptKit.Proofs.Tree.Alike

/-!
# Layout does not matter to a run

Programs of the same core differ in places and in statements that were passed over. A run uses places for
failures and events only, and a statement that was passed over costs it one question. So two runs of such
programs show the same, although they may need different budgets.

The proof goes along the evaluator. `evalWith` leaves the statements it reaches past a question to `next`,
and `Follows` is what it needs of that. One case per kind of node gives `sim_evalWith`, and `sim_eval`
follows by induction on the level.

**Theorem (`run_core`).** If a program ends before its budget does, then every program of the same core
ends in the same way with any budget that is large enough.
-/

namespace ScriptKit.Run

open Node

variable {α : Type}

/-! ## Statement lists -/

/-- How two ways to run statements correspond below a level: statements that were passed over do nothing,
and statements of the same core show the same. -/
structure Follows (level : Nat) (next : Node → Run (Option Value))
    (next' : Nat → Node → Run (Option Value)) : Prop where
  skip : ∀ span text, next (.skip span text) = pure none
  skip' : ∀ level' span text, next' level' (.skip span text) = pure none
  step : ∀ lower, level = lower + 1 → ∀ s s', s.core = s'.core →
    Sim lower (next s) fun level' => next' (level' + 1) s'

theorem statements_skip {next : Node → Run (Option Value)} {s : Node} (rest : List Node)
    (hskip : ∀ span text, next (.skip span text) = pure none) (hs : s.isSkip = true) :
    statements next (s :: rest) = check s.span >>= fun _ => statements next rest := by
  cases s with
  | skip span text =>
    rw [statements, hskip]
    rfl
  | _ => cases hs

/-- Statement lists of the same core show the same. The lists are gone through together: what was passed
over is skipped on its own side, and the other statements correspond. -/
theorem Follows.statements {level : Nat} {next : Node → Run (Option Value)}
    {next' : Nat → Node → Run (Option Value)} (h : Follows level next next') {body body' : List Node}
    (hbody : coreAll body = coreAll body') :
    Sim level (statements next body) fun level' => statements (next' level') body' := by
  -- Either list may have a skipped statement in front, which is passed alone; otherwise both have the same
  -- statement.
  induction body generalizing body' with
  | nil =>
    induction body' with
    | nil => exact .pure
    | cons s' body' ih =>
      cases hs' : s'.isSkip with
      | true =>
        simp only [statements_skip body' (h.skip' _) hs']
        exact .checkRight (ih (by rw [hbody, coreAll_cons_skip hs']))
      | false =>
        rw [coreAll_cons_stmt hs'] at hbody
        cases hbody
  | cons s body ih =>
    cases hs : s.isSkip with
    | true =>
      rw [statements_skip body h.skip hs]
      exact .checkLeft (ih (by rw [← hbody, coreAll_cons_skip hs]))
    | false =>
      rw [coreAll_cons_stmt hs] at hbody
      induction body' with
      | nil => cases hbody
      | cons s' body' ih' =>
        cases hs' : s'.isSkip with
        | true =>
          simp only [statements_skip body' (h.skip' _) hs']
          exact .checkRight (ih' (by rw [hbody, coreAll_cons_skip hs']))
        | false =>
          rw [coreAll_cons_stmt hs'] at hbody
          obtain ⟨hhead, hrest⟩ := List.cons.inj hbody
          cases level with
          | zero => exact .stopped
          | succ lower =>
            refine .check s'.span (fun _ => rfl) ?_
            refine .bind (.discard (h.step lower rfl s s' hhead)) fun _ => ?_
            exact (ih hrest).lower (Nat.le_succ lower) 1

/-! ## Expressions -/

section Expressions

variable {level : Nat} {n n' : Node} {symbol : Text}

theorem noValue_bare (n : Node) : noValue n.bare = noValue n := by cases n <;> rfl

theorem Instant.needValue {v : Option Value} (h : n.bare = n'.bare) :
    Instant (needValue n v) (needValue n' v) := by
  cases v with
  | none =>
    have hfault : noValue n = noValue n' := by rw [← noValue_bare, h, noValue_bare]
    simp only [Run.needValue, hfault]
    exact .fail
  | some v => exact .pure

theorem Instant.needInt {v : Value} : Instant (needInt n symbol v) (needInt n' symbol v) := by
  unfold Run.needInt
  split
  · exact .pure
  · exact .fail

theorem applySign_bare (span : Span) (op : Sign) (operand : Node) :
    applySign span op operand.bare = applySign span op operand := by
  cases operand <;> cases op <;> rfl

theorem Instant.applySign {span span' : Span} {op : Sign} (h : n.bare = n'.bare) :
    Instant (applySign span op n) (applySign span' op n') := by
  rw [← applySign_bare, ← applySign_bare span' op n', h]
  cases n'.bare with
  | number span value =>
    cases op with
    | other symbol => exact .fail
    | _ => exact .pure
  | _ => cases op <;> exact .fail

theorem Sim.operand {x : Run (Option Value)} {y : Nat → Run (Option Value)} {k : Int32 → Run α}
    {k' : Nat → Int32 → Run α} (h : n.bare = n'.bare) (hx : Sim level x y)
    (hk : ∀ i, Sim level (k i) fun level' => k' level' i) :
    Sim level (x >>= fun v => Run.needValue n v >>= fun v => Run.needInt n symbol v >>= k)
      fun level' => y level' >>= fun v => Run.needValue n' v >>= fun v =>
        Run.needInt n' symbol v >>= k' level' := by
  refine .bind hx fun v => ?_
  refine .bind (.instant (.needValue h)) fun v => ?_
  exact .bind (.instant .needInt) hk

end Expressions

/-! ## Environments -/

/-- Environments with the same builtins whose functions say the same. -/
structure Env.Alike (env env' : Env) : Prop where
  builtins : env.builtins = env'.builtins
  functions : env.functions.map Function.core = env'.functions.map Function.core

theorem Env.Alike.target? {env env' : Env} (h : env.Alike env') (callee : Callee) :
    (env.target? callee).map Function.core = (env'.target? callee).map Function.core := by
  cases callee with
  | builtin => rfl
  | function number =>
    show (env.functions[number]?).map _ = (env'.functions[number]?).map _
    rw [← List.getElem?_map, ← List.getElem?_map, h.functions]

/-! ## Nodes -/

section Nodes

variable {env env' : Env} {level : Nat} {next : Node → Run (Option Value)}
  {next' : Nat → Node → Run (Option Value)}

/-- Everything of the same core as a node shows the same, also in the place of a condition. -/
structure Simulated (env env' : Env) (level : Nat) (next : Node → Run (Option Value))
    (next' : Nat → Node → Run (Option Value)) (n : Node) : Prop where
  eval : ∀ n', n.core = n'.core →
    Sim level (evalWith env level next n) fun level' => evalWith env' level' (next' level') n'
  condition : ∀ statement n', n.bare = n'.bare →
    Sim level (evalCondition env level next statement n)
      fun level' => evalCondition env' level' (next' level') statement n'

theorem Simulated.bare {n n' : Node} (h : Simulated env env' level next next' n) (hn : n.bare = n'.bare) :
    Sim level (evalWith env level next n) fun level' => evalWith env' level' (next' level') n' :=
  h.eval n' (core_of_bare hn)

theorem sim_args {args args' : List Node}
    (h : ∀ n ∈ args, Simulated env env' level next next' n) (hargs : bareAll args = bareAll args') :
    Sim level (evalArgs env level next args)
      fun level' => evalArgs env' level' (next' level') args' := by
  induction args generalizing args' with
  | nil =>
    cases args' with
    | nil => exact .pure
    | cons n' args' => cases hargs
  | cons n args ih =>
    cases args' with
    | nil => cases hargs
    | cons n' args' =>
      obtain ⟨hn, hargs⟩ := List.cons.inj hargs
      obtain ⟨hsim, h⟩ := List.forall_mem_cons.1 h
      refine .bind (hsim.bare hn) fun v => .bind (.instant (.needValue hn)) fun v => ?_
      exact .bind (ih h hargs) fun _ => .pure

theorem sim_condition {n n' : Node} (h : ∀ c ∈ n.children, Simulated env env' level next next' c)
    (hn : n.bare = n'.bare) (statement : Text) :
    Sim level (evalCondition env level next statement n)
      fun level' => evalCondition env' level' (next' level') statement n' := by
  have hkind : n.kind = n'.kind := by rw [← kind_bare, hn, kind_bare]
  have halike := alike_of_core (core_of_bare hn)
  cases halike with
  | compare hleft hright =>
    refine .operand hleft ((h _ (by simp [children])).bare hleft) fun l => ?_
    refine .operand hright ((h _ (by simp [children])).bare hright) fun r => ?_
    exact .instant .applyRelation
  | _ =>
    simp only [evalCondition, hkind]
    exact .instant .fail

/-- Calls show the same if their arguments do, whichever function they call. -/
theorem sim_call (henv : env.Alike env') (hnext : Follows level next next') {span span' : Span}
    {name : Text} {callee : Callee} {args args' : List Node}
    (h : ∀ n ∈ args, Simulated env env' level next next' n) (hargs : bareAll args = bareAll args') :
    Sim level (evalWith env level next (.call span name callee args))
      fun level' => evalWith env' level' (next' level') (.call span' name callee args') := by
  have hlength : args.length = args'.length := by
    simpa only [bareAll_eq_map, List.length_map] using congrArg List.length hargs
  have htarget := henv.target? callee
  simp only [evalWith]
  cases hf : env.target? callee with
  | none =>
    rw [hf] at htarget
    rw [Option.map_eq_none_iff.1 htarget.symm]
    exact .bind (sim_args h hargs) fun _ => .instant (.callBuiltin henv.builtins)
  | some f =>
    rw [hf] at htarget
    obtain ⟨f', hf', hcore⟩ := Option.map_eq_some_iff.1 htarget.symm
    obtain ⟨-, hname, hparams, -, hbody⟩ := Function.mk.inj hcore
    have hparams' : f.params.length = f'.params.length := by
      simpa only [List.length_map] using congrArg List.length hparams.symm
    rw [hf']
    dsimp only
    rw [hlength, hparams', ← hname]
    refine .ite ?_ (.instant .fail)
    refine .bind (sim_args h hargs) fun values => .bind ?_ fun _ => .pure
    exact .callFunction hname.symm hparams.symm (hnext.statements hbody.symm)

/-- A loop shows the same if a turn does. -/
theorem sim_loop {turn : Run Bool} {turn' : Nat → Run Bool} {span span' : Span}
    (h : Sim level turn turn') : Sim level (turns (check span >>= fun _ => turn) level)
      fun level' => turns (check span' >>= fun _ => turn' level') level' :=
  .turns fun lower hlower => h.lower (by omega) 1

theorem sim_node (henv : env.Alike env') (hnext : Follows level next next') {n n' : Node}
    (h : ∀ c ∈ n.children, Simulated env env' level next next' c) (hn : Alike n n') :
    Sim level (evalWith env level next n) fun level' => evalWith env' level' (next' level') n' := by
  -- `Alike` sets the parts of the one node beside those of the other, so one case is left for each kind.
  cases hn with
  | number => exact .pure
  | bool => exact .pure
  | str => exact .instant .interpolate
  | use => exact .instant .resolve
  | declare => exact .bind (.instant .declare) fun _ => .pure
  | declareAs hvalue =>
    refine .bind ((h _ (by simp [children])).bare hvalue) fun v => ?_
    refine .bind (.instant (.needValue hvalue)) fun v => ?_
    exact .bind (.instant .declare) fun _ => .pure
  | assign hvalue =>
    refine .bind ((h _ (by simp [children])).bare hvalue) fun v => ?_
    refine .bind (.instant (.needValue hvalue)) fun v => ?_
    exact .bind (.instant .assign) fun _ => .pure
  | arith hleft hright =>
    refine .operand hleft ((h _ (by simp [children])).bare hleft) fun l => ?_
    refine .operand hright ((h _ (by simp [children])).bare hright) fun r => ?_
    exact .instant .applyArith
  | compare hleft hright =>
    refine .operand hleft ((h _ (by simp [children])).bare hleft) fun l => ?_
    refine .operand hright ((h _ (by simp [children])).bare hright) fun r => ?_
    exact .bind (.instant .applyRelation) fun _ => .pure
  | sign hoperand => exact .instant (.applySign hoperand)
  | block hbody => exact .bind (.inFrame (hnext.statements hbody)) fun _ => .pure
  | function => exact .pure
  | call hargs => exact sim_call henv hnext h hargs
  | when hcond hyes =>
    refine .bind ((h _ (by simp [children])).condition _ _ hcond) fun go => ?_
    exact .ite (.bind (.inFrame (hnext.statements hyes)) fun _ => .pure) .pure
  | choose hcond hyes hno =>
    refine .bind ((h _ (by simp [children])).condition _ _ hcond) fun go => .ite ?_ ?_
    · exact .bind (.inFrame (hnext.statements hyes)) fun _ => .pure
    · exact .bind (.inFrame (hnext.statements hno)) fun _ => .pure
  | whileLoop hcond hbody =>
    refine .bind (sim_loop ?_) fun _ => .pure
    refine .bind ((h _ (by simp [children])).condition _ _ hcond) fun go => .ite ?_ .pure
    exact .bind (hnext.statements hbody) fun _ => .pure
  | forLoop hinit hcond hstep hbody =>
    refine .inFrame (.bind (.discard ((h _ (by simp [children])).bare hinit)) fun _ => ?_)
    refine .bind (sim_loop ?_) fun _ => .pure
    refine .bind ((h _ (by simp [children])).condition _ _ hcond) fun go => .ite ?_ .pure
    refine .bind (.inFrame (hnext.statements hbody)) fun _ => ?_
    exact .bind (.discard ((h _ (by simp [children])).bare hstep)) fun _ => .pure
  | skip => exact .pure
  | program => exact .instant .fail

theorem sim_evalWith (henv : env.Alike env') (hnext : Follows level next next') (n : Node) :
    Simulated env env' level next next' n := by
  induction n using induction_children with
  | step n ih =>
    exact ⟨fun n' hn => sim_node henv hnext ih (alike_of_core hn),
      fun statement n' hn => sim_condition ih hn statement⟩

theorem eval_skip (env : Env) (level : Nat) (span : Span) (text : Text) :
    eval env level (.skip span text) = pure none := by
  cases level <;> rfl

theorem below_skip (env : Env) (level : Nat) (span : Span) (text : Text) :
    below env level (.skip span text) = pure none := by
  cases level with
  | zero => rfl
  | succ level => exact eval_skip env level span text

/-- Nodes of the same core show the same. -/
theorem sim_eval (henv : env.Alike env') (level : Nat) {n n' : Node} (hn : n.core = n'.core) :
    Sim level (eval env level n) fun level' => eval env' level' n' := by
  induction level generalizing n n' with
  | zero =>
    have hnext : Follows 0 (below env 0) (below env') :=
      ⟨below_skip env 0, below_skip env', fun lower hlower => by cases hlower⟩
    simp only [eval_eq]
    exact (sim_evalWith henv hnext n).eval n' hn
  | succ level ih =>
    have hnext : Follows (level + 1) (below env (level + 1)) (below env') := by
      refine ⟨below_skip env (level + 1), below_skip env', fun lower hlower s s' hs => ?_⟩
      cases hlower
      exact ih hs
    simp only [eval_eq]
    exact (sim_evalWith henv hnext n).eval n' hn

/-- The statements of a function may be run at the level of the machine itself. -/
theorem follows_eval (henv : env.Alike env') (level : Nat) :
    Follows level (eval env level) (eval env') := by
  refine ⟨eval_skip env level, eval_skip env', fun lower hlower s s' hs => ?_⟩
  exact (sim_eval henv level hs).lower (by omega) 1

theorem sim_globals (henv : env.Alike env') (level : Nat) {ns ns' : List Node}
    (h : ns.map bare = ns'.map bare) :
    Sim level (globals (eval env level) ns) fun level' => globals (eval env' level') ns' := by
  induction ns generalizing ns' with
  | nil =>
    cases ns' with
    | nil => exact .pure
    | cons n' ns' => cases h
  | cons n ns ih =>
    cases ns' with
    | nil => cases h
    | cons n' ns' =>
      obtain ⟨hn, hns⟩ := List.cons.inj h
      exact .bind (.discard (sim_eval henv level (core_of_bare hn))) fun _ => ih hns

end Nodes

/-! ## Programs -/

/-- Programs of the same core start in the same way. -/
theorem sim_start {env env' : Env} (henv : env.Alike env') (level : Nat) {p q : Program}
    (h : p.core = q.core) :
    Sim level (start (eval env level) p) fun level' => start (eval env' level') q := by
  obtain ⟨-, hglobals, hfunctions⟩ := Program.mk.inj h
  have hempty : (p.globals.isEmpty && p.functions.isEmpty) =
      (q.globals.isEmpty && q.functions.isEmpty) := by
    have h₁ := congrArg List.isEmpty hglobals
    have h₂ := congrArg List.isEmpty hfunctions
    simp only [List.isEmpty_map] at h₁ h₂
    rw [h₁, h₂]
  have hentry : p.entry?.map Function.core = q.entry?.map Function.core := by
    rw [Program.entry?, Program.entry?, ← List.getLast?_map, ← List.getLast?_map, hfunctions]
  unfold start
  rw [hempty]
  refine .ite (.bind (.instant .fail) fun _ => ?_) ?_
  all_goals
    refine .bind (sim_globals henv level hglobals) fun _ => ?_
    cases hf : p.entry? with
    | none =>
      rw [hf] at hentry
      rw [Option.map_eq_none_iff.1 hentry.symm]
      exact .pure
    | some f =>
      rw [hf] at hentry
      obtain ⟨f', hf', hcore⟩ := Option.map_eq_some_iff.1 hentry.symm
      obtain ⟨-, hname, hparams, -, hbody⟩ := Function.mk.inj hcore
      rw [hf']
      dsimp only
      rw [← hname]
      refine .ite ?_ (.instant .fail)
      exact .callFunction hname.symm hparams.symm ((follows_eval henv level).statements hbody.symm)

/-- Whether a run was interrupted from outside. -/
def Outcome.Canceled (o : Outcome) : Prop := o.failure.map Failure.fault = some .canceled

/-- Outcomes that show the same: the same failure up to its place, or none, and the same globals and
world. -/
structure Outcome.Agrees (o o' : Outcome) : Prop where
  fault : o.failure.map Failure.fault = o'.failure.map Failure.fault
  globals : o.globals = o'.globals
  world : o.world = o'.world

/-- If a program ends before its budget does, then a program of the same core ends in the same way with
every budget that is large enough. -/
theorem run_core {p q : Program} (h : p.core = q.core) {registry : Registry} {world : World}
    {budget : Nat} (hgo : ¬(p.run registry world budget).Canceled) :
    ∃ least, ∀ budget', least ≤ budget' →
      (q.run registry world budget').Agrees (p.run registry world budget) := by
  have henv : Env.Alike ⟨registry, p.allFunctions⟩ ⟨registry, q.allFunctions⟩ :=
    ⟨rfl, by rw [← p.allFunctions_core, h, q.allFunctions_core]⟩
  have hsim := sim_start henv budget h (.start world budget) (Nat.le_refl _)
  simp only [Program.run] at hgo ⊢
  cases hrun : start (eval ⟨registry, p.allFunctions⟩ budget) p (.start world budget) with
  | mk result m =>
    rw [hrun] at hsim hgo
    -- a simulation says nothing of a run that was canceled, so it has to end otherwise first
    have hend : (outlook (result, m)).1 ≠ .error .canceled := by
      intro hcanceled
      cases result with
      | ok u => cases hcanceled
      | error e => exact hgo (congrArg some (by injection hcanceled))
    obtain ⟨-, cost, hcost⟩ := hsim hend
    refine ⟨cost, fun budget' henough => ?_⟩
    obtain ⟨hout, -⟩ := hcost budget' (.start world budget') rfl henough (Nat.le_refl _)
    dsimp only at hout
    have hroot : ∀ {c c' : Chain}, c = c' → c.getLast?.getD .root = c'.getLast?.getD .root :=
      fun h => h ▸ rfl
    cases result with
    | ok u =>
      obtain ⟨m', hrun', hview⟩ := eq_of_outlook_ok hout
      obtain ⟨hchain, hworld⟩ := Prod.mk.inj hview
      rw [hrun']
      exact ⟨rfl, hroot hchain, hworld⟩
    | error e =>
      obtain ⟨e', m', hrun', hfault, hview⟩ := eq_of_outlook_error hout
      obtain ⟨hchain, hworld⟩ := Prod.mk.inj hview
      rw [hrun']
      exact ⟨congrArg some hfault, hroot hchain, hworld⟩

end ScriptKit.Run
