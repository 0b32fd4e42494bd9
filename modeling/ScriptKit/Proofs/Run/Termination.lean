import Mathlib.Data.Set.Finite.Basic
import Mathlib.Order.Interval.Finset.Nat
import ScriptKit.Proofs.Run.Local
import ScriptKit.Proofs.Run.Unbounded

/-!
# Runs come to an end

A plan that asks only finitely often whether it may go on and is told that it may comes to an end. The measure is
what the context still allows, first, and the syntax, second: within a node the plan goes on to parts of the node,
and every way back to a node that may be as large passes a question.

This is the measure of the evaluator, so the evaluator itself shows the end. Where the context allows `budget`
more questions, a step of the evaluator with this budget does what the plan does (`Tracks`), and the context goes
on to allow what the step leaves of the budget.

**Theorem (`execution_ends`).** Every run comes to one end. If a question is answered no, it is the last one, and
the run fails as interrupted where it was asked. The outcome is that of the evaluator with as many questions as
the context allows.
-/

namespace ScriptKit.Run

open Node

variable {α β : Type}

/-! ## What a context allows -/

/-- From a question on, a context answers yes `budget` times and then no. -/
structure Allows (context : Nat → Bool) (asked budget : Nat) : Prop where
  yes : ∀ i < budget, context (asked + i) = true
  no : context (asked + budget) = false

namespace Allows

variable {context : Nat → Bool} {asked budget : Nat}

theorem next (h : Allows context asked (budget + 1)) : Allows context (asked + 1) budget where
  yes i hi := by
    rw [Nat.add_assoc, Nat.add_comm 1 i]
    exact h.yes (i + 1) (Nat.succ_lt_succ hi)
  no := by
    rw [Nat.add_assoc, Nat.add_comm 1 budget]
    exact h.no

/-- A context that answers yes finitely often allows some number of questions. -/
theorem exists_of_finite (h : {i | context i = true}.Finite) : ∃ budget, Allows context 0 budget := by
  have hno : ∃ i, context i = false := by
    obtain ⟨i, hi⟩ := h.infinite_compl.nonempty
    exact ⟨i, Bool.eq_false_of_not_eq_true hi⟩
  refine ⟨Nat.find hno, fun i hi => ?_, ?_⟩
  · rw [Nat.zero_add]
    exact Bool.eq_true_of_not_eq_false (Nat.find_min hno hi)
  · rw [Nat.zero_add]
    exact Nat.find_spec hno

theorem unique {budget' : Nat} (h : Allows context asked budget) (h' : Allows context asked budget') :
    budget' = budget := by
  rcases Nat.lt_trichotomy budget' budget with hlt | heq | hgt
  · cases h'.no.symm.trans (h.yes budget' hlt)
  · exact heq
  · cases h.no.symm.trans (h'.yes budget hgt)

end Allows

/-! ## Following the evaluator -/

/-- A machine whose budget is not looked at. -/
def Machine.idle (m : Machine) : Machine := { m with budget := 0 }

/-- From a machine whose budget is what the context allows, the plan comes to the end to which the step leads, and
what is left of the budget is what the context still allows. -/
def Tracks (env : Env) (context : Nat → Bool) (level : Nat) (c : Plan α) (x : Run α) : Prop :=
  ∀ m asked, m.budget ≤ level → Allows context asked.length m.budget →
    ∃ asked', Executes env context c ⟨m.idle, asked⟩ (x m).1 ⟨(x m).2.idle, asked'⟩ ∧
      (x m).2.budget ≤ m.budget ∧ ∀ a, (x m).1 = .ok a → Allows context asked'.length (x m).2.budget

namespace Tracks

variable {env : Env} {context : Nat → Bool} {level : Nat} {span : Span} {name : Text} {n : Node}

/-- A step that has nothing to do with the budget. -/
theorem of_steady {x : Run α} (h : ∀ m, x m.idle = ((x m).1, (x m).2.idle) ∧ (x m).2.budget = m.budget) :
    Tracks env context level (.step x) x := by
  intro m asked _ hallows
  obtain ⟨hidle, hbudget⟩ := h m
  refine ⟨asked, ?_, Nat.le_of_eq hbudget, fun _ _ => hbudget ▸ hallows⟩
  have hstep : Executes env context (.step x) ⟨m.idle, asked⟩ (x m.idle).1 ⟨(x m.idle).2, asked⟩ := .step
  rwa [hidle] at hstep

theorem of_local {x : Run α} (h : Local x) : Tracks env context level (.step x) x := by
  refine of_steady fun m => ?_
  obtain ⟨hresult, hmoved⟩ := h m m.idle rfl
  obtain ⟨es, hes, hes'⟩ := hmoved.events
  refine ⟨Prod.ext hresult.symm ?_, hmoved.budget.1⟩
  calc (x m.idle).2
      = ⟨(x m.idle).2.chain, (x m.idle).2.world, (x m.idle).2.events, (x m.idle).2.budget⟩ := rfl
    _ = ⟨(x m).2.chain, (x m).2.world, (x m).2.events, 0⟩ := by
      rw [← hmoved.chain, hmoved.world.1, hmoved.world.2, hes, hes', hmoved.budget.2]
      rfl

theorem pure (a : α) : Tracks env context level (Pure.pure a) (Pure.pure a) := of_local .pure

theorem fail (fault : Fault) (span : Span) :
    Tracks env context level (.step (fail fault span : Run α)) (Run.fail fault span) := of_local .fail

theorem bind {c : Plan α} {f : α → Plan β} {x : Run α} {g : α → Run β} (hx : Tracks env context level c x)
    (hf : ∀ a, Tracks env context level (f a) (g a)) : Tracks env context level (c >>= f) (x >>= g) := by
  intro m asked hlevel hallows
  obtain ⟨asked₁, hexec, hless, hrest⟩ := hx m asked hlevel hallows
  cases hrun : x m with
  | mk result m₁ =>
    rw [hrun] at hexec hless hrest
    cases result with
    | error e =>
      rw [bind_error_apply hrun]
      exact ⟨asked₁, .bindFails hexec, hless, fun _ h => by cases h⟩
    | ok a =>
      rw [bind_ok_apply hrun]
      obtain ⟨asked₂, hexec', hless', hrest'⟩ := hf a m₁ asked₁ (Nat.le_trans hless hlevel) (hrest a rfl)
      exact ⟨asked₂, .bindOk hexec hexec', Nat.le_trans hless' hless, hrest'⟩

theorem ite {p : Prop} [Decidable p] {c d : Plan α} {x y : Run α} (hx : Tracks env context level c x)
    (hy : Tracks env context level d y) :
    Tracks env context level (if p then c else d) (if p then x else y) := by
  split
  · exact hx
  · exact hy

/-- A lower level asks for less. -/
theorem lower {c : Plan α} {x : Run α} (h : Tracks env context level c x) {low : Nat} (hlow : low ≤ level) :
    Tracks env context low c x := fun m asked hlevel => h m asked (Nat.le_trans hlevel hlow)

/-- Past a question the level is one lower. -/
theorem ask {c : Plan α} {x : Run α} (h : ∀ low, level = low + 1 → Tracks env context low c x) :
    Tracks env context level (Plan.ask n >>= fun _ => c) (check n.span >>= fun _ => x) := by
  intro m asked hlevel hallows
  cases hbudget : m.budget with
  | zero =>
    rw [bind_error_apply (Sim.check_zero hbudget)]
    have hno : context asked.length = false := by simpa only [hbudget, Nat.add_zero] using hallows.no
    exact ⟨⟨n, false⟩ :: asked, .bindFails (.stops hno), Nat.le_of_eq hbudget, fun _ h => by cases h⟩
  | succ budget =>
    rw [bind_ok_apply (Sim.check_succ hbudget)]
    rw [hbudget] at hallows
    have hyes : context asked.length = true := hallows.yes 0 (Nat.succ_pos budget)
    obtain ⟨asked', hexec, hless, hrest⟩ := h (level - 1) (by omega) { m with budget := budget }
      (⟨n, true⟩ :: asked) (by dsimp only; omega) hallows.next
    exact ⟨asked', .bindOk (.goesOn hyes) hexec, Nat.le_succ_of_le hless, hrest⟩

/-- What follows a question has used some of the budget once it gives a value. -/
theorem spends {c : Plan α} {x : Run α} (h : Tracks env context level c x) {m m' : Machine} {a : α} {asked : List Question}
    (hlevel : m.budget ≤ level) (hallows : Allows context asked.length m.budget)
    (hrun : (check n.span >>= fun _ => x) m = (.ok a, m')) : m'.budget < m.budget := by
  cases hbudget : m.budget with
  | zero =>
    rw [bind_error_apply (Sim.check_zero hbudget)] at hrun
    cases hrun
  | succ budget =>
    rw [hbudget] at hallows
    rw [bind_ok_apply (Sim.check_succ hbudget)] at hrun
    obtain ⟨asked', -, hless, -⟩ := h { m with budget := budget } (⟨n, true⟩ :: asked)
      (by dsimp only; omega) hallows.next
    rw [hrun] at hless
    exact Nat.lt_succ_of_le hless

/-! ### Frames, calls and loops -/

theorem inside {c : Plan α} {x : Run α} {frame : Frame} (h : Tracks env context level c x) :
    Tracks env context level (.inside frame c) (Sim.inside frame x) := by
  intro m asked hlevel hallows
  obtain ⟨asked', hexec, hrest⟩ := h { m with chain := frame :: m.chain } asked hlevel hallows
  have hinside : Executes env context (.inside frame c) ⟨m.idle, asked⟩ _ _ := .inside hexec
  exact ⟨asked', hinside, hrest⟩

theorem inFrame {c : Plan α} {x : Run α} (h : Tracks env context level c x) :
    Tracks env context level (.inside {} c) (inFrame x) := inside h

theorem reportEnd {c : Plan Unit} {x : Run Unit} (h : Tracks env context level c x) :
    Tracks env context level (.reportEnd span name c) (reportEnd span name x) := by
  intro m asked hlevel hallows
  obtain ⟨asked', hexec, hrest⟩ := h m asked hlevel hallows
  exact ⟨asked', .reportEnd hexec, hrest⟩

theorem callBuiltin {args : List Value} :
    Tracks env context level (.step (callBuiltin env span name args)) (callBuiltin env span name args) := by
  refine of_steady fun m => ?_
  cases hb : env.builtins.get? name with
  | none =>
    unfold Run.callBuiltin
    rw [hb]
    exact ⟨rfl, rfl⟩
  | some b =>
    rw [callBuiltin_apply hb, callBuiltin_apply hb]
    exact ⟨rfl, rfl⟩

theorem discard {c : Plan α} {x : Run α} (h : Tracks env context level c x) :
    Tracks env context level (discard c) (discard x) := bind h fun _ => pure PUnit.unit

theorem statements {next : Node → Run (Option Value)} {body : List Node}
    (hnext : ∀ low, level = low + 1 → ∀ s, Tracks env context low (.eval s) (next s)) :
    Tracks env context level (Plan.statements body) (statements next body) := by
  induction body with
  | nil => exact pure ()
  | cons s rest ih =>
    refine ask fun low hlow => ?_
    exact bind (discard (hnext low hlow s)) fun _ => ih.lower (by omega)

theorem callFunction {next : Node → Run (Option Value)} {f : Function} {args : List Value}
    (hbody : Tracks env context level (Plan.statements f.body) (Run.statements next f.body)) :
    Tracks env context level (Plan.callFunction f args span) (callFunction next f args span) :=
  ite (bind (of_local .emit) fun _ => bind (of_local .callFrame) fun _ => reportEnd (inside hbody)) (fail _ _)

/-- A loop whose turns begin with a question: a turn that says yes has used some of the budget, which is at most
the bound of the loop. -/
theorem turns {c : Plan Bool} {x : Run Bool} (h : Tracks env context level c x) :
    Tracks env context level (.loop (Plan.ask n >>= fun _ => c)) (turns (check n.span >>= fun _ => x) level) := by
  induction level with
  | zero =>
    intro m asked hlevel hallows
    have hturn : Tracks env context 0 (Plan.ask n >>= fun _ => c) (check n.span >>= fun _ => x) :=
      ask fun _ hlow => by cases hlow
    obtain ⟨asked', hexec, hless, -⟩ := hturn m asked hlevel hallows
    -- no level is left, so the check fails before the turn begins
    have hrun : (check n.span >>= fun _ => x) m = (.error ⟨.canceled, n.span⟩, m) :=
      bind_error_apply (Sim.check_zero (Nat.le_zero.1 hlevel))
    rw [hrun] at hexec hless
    rw [show Run.turns (check n.span >>= fun _ => x) 0 m = _ from bind_error_apply hrun]
    exact ⟨asked', .loopFails hexec, hless, fun _ h => by cases h⟩
  | succ level ih =>
    intro m asked hlevel hallows
    have hturn : Tracks env context (level + 1) (Plan.ask n >>= fun _ => c) (check n.span >>= fun _ => x) :=
      ask fun low hlow => h.lower (by omega)
    obtain ⟨asked₁, hexec, hless, hrest⟩ := hturn m asked hlevel hallows
    rw [Run.turns]
    cases hrun : (check n.span >>= fun _ => x) m with
    | mk result m₁ =>
      rw [hrun] at hexec hless hrest
      cases result with
      | error e =>
        rw [bind_error_apply hrun]
        exact ⟨asked₁, .loopFails hexec, hless, fun _ h => by cases h⟩
      | ok again =>
        rw [bind_ok_apply hrun]
        cases again with
        | false => exact ⟨asked₁, .loopDone hexec, hless, fun _ _ => hrest false rfl⟩
        | true =>
          -- the turn has asked and so has spent, which leaves a budget the lower level suffices for
          have hspent : m₁.budget < m.budget := h.spends hlevel hallows hrun
          obtain ⟨asked₂, hexec', hless', hrest'⟩ := ih (h.lower (Nat.le_succ level)) m₁ asked₁ (by omega)
            (hrest true rfl)
          exact ⟨asked₂, .loopAgain hexec hexec', Nat.le_trans hless' hless, hrest'⟩

/-! ### Nodes -/

theorem value {c : Plan (Option Value)} {x : Run (Option Value)} {k : Value → Plan α} {k' : Value → Run α}
    (hx : Tracks env context level c x) (hk : ∀ v, Tracks env context level (k v) (k' v)) :
    Tracks env context level (c >>= fun v => .step (needValue n v) >>= k) (x >>= fun v => needValue n v >>= k') :=
  bind hx fun v => bind (of_local (Local.sequential.needValue v)) hk

theorem operand {c : Plan (Option Value)} {x : Run (Option Value)} {symbol : Text} {k : Int32 → Plan α}
    {k' : Int32 → Run α} (hx : Tracks env context level c x) (hk : ∀ i, Tracks env context level (k i) (k' i)) :
    Tracks env context level
      (c >>= fun v => .step (needValue n v) >>= fun v => .step (needInt n symbol v) >>= k)
      (x >>= fun v => needValue n v >>= fun v => needInt n symbol v >>= k') :=
  value hx fun v => bind (of_local (Local.sequential.needInt symbol v)) hk

section Nodes

variable {next : Node → Run (Option Value)}

theorem arguments {args : List Node}
    (hargs : ∀ a ∈ args, Tracks env context level (.eval a) (evalWith env level next a)) :
    Tracks env context level (Plan.arguments args) (evalArgs env level next args) := by
  induction args with
  | nil =>
    simp only [evalArgs]
    exact pure []
  | cons a args ih =>
    obtain ⟨ha, hargs⟩ := List.forall_mem_cons.1 hargs
    simp only [evalArgs]
    exact value ha fun v => bind (ih hargs) fun vs => pure (v :: vs)

theorem condition (hchildren : ∀ c ∈ n.children, Tracks env context level (.eval c) (evalWith env level next c))
    (statement : Text) :
    Tracks env context level (Plan.condition statement n) (evalCondition env level next statement n) := by
  cases n with
  | compare =>
    simp only [evalCondition]
    refine operand (hchildren _ (by simp [children])) fun l => ?_
    refine operand (hchildren _ (by simp [children])) fun r => ?_
    exact of_local (Local.sequential.applyRelation _ _ _ _)
  | _ =>
    simp only [evalCondition]
    exact fail _ _

theorem call {callee : Callee} {args : List Node}
    (hnext : ∀ low, level = low + 1 → ∀ s, Tracks env context low (.eval s) (next s))
    (hargs : ∀ a ∈ args, Tracks env context level (.eval a) (evalWith env level next a)) :
    Tracks env context level (Plan.node env (.call span name callee args))
      (evalWith env level next (.call span name callee args)) := by
  simp only [evalWith, Plan.node]
  cases env.target? callee with
  | none => exact bind (arguments hargs) fun values => callBuiltin
  | some f =>
    refine ite (bind (arguments hargs) fun values => ?_) (fail _ _)
    exact bind (callFunction (statements hnext)) fun _ => pure none

/-- One case for each kind of node. -/
theorem node (hnext : ∀ low, level = low + 1 → ∀ s, Tracks env context low (.eval s) (next s))
    (hchildren : ∀ c ∈ n.children, Tracks env context level (.eval c) (evalWith env level next c))
    (hconditions : ∀ c ∈ n.children, ∀ statement,
      Tracks env context level (Plan.condition statement c) (evalCondition env level next statement c)) :
    Tracks env context level (Plan.node env n) (evalWith env level next n) := by
  have hbody : ∀ body, Tracks env context level (Plan.statements body) (Run.statements next body) :=
    fun body => statements hnext
  cases n with
  | number | bool | function | skip =>
    simp only [evalWith]
    exact pure _
  | str =>
    simp only [evalWith]
    exact of_local .interpolate
  | use =>
    simp only [evalWith]
    exact of_local .resolve
  | declare =>
    simp only [evalWith]
    exact bind (of_local .declare) fun _ => pure none
  | declareAs =>
    simp only [evalWith]
    refine value (hchildren _ (by simp [children])) fun v => ?_
    exact bind (of_local .declare) fun _ => pure none
  | assign =>
    simp only [evalWith]
    refine value (hchildren _ (by simp [children])) fun v => ?_
    exact bind (of_local .assign) fun _ => pure none
  | arith =>
    simp only [evalWith]
    refine operand (hchildren _ (by simp [children])) fun l => ?_
    refine operand (hchildren _ (by simp [children])) fun r => ?_
    exact of_local (Local.sequential.applyArith _ _ _ _)
  | compare =>
    simp only [evalWith]
    refine operand (hchildren _ (by simp [children])) fun l => ?_
    refine operand (hchildren _ (by simp [children])) fun r => ?_
    exact bind (of_local (Local.sequential.applyRelation _ _ _ _)) fun _ => pure _
  | sign =>
    simp only [evalWith]
    exact of_local (Local.sequential.applySign _ _)
  | block =>
    simp only [evalWith]
    exact bind (inFrame (hbody _)) fun _ => pure none
  | call => exact call hnext hchildren
  | when =>
    simp only [evalWith]
    refine bind (hconditions _ (by simp [children]) _) fun go => ite ?_ (pure none)
    exact bind (inFrame (hbody _)) fun _ => pure none
  | choose =>
    simp only [evalWith]
    refine bind (hconditions _ (by simp [children]) _) fun go => ite ?_ ?_
    all_goals exact bind (inFrame (hbody _)) fun _ => pure none
  | whileLoop span cond braces body =>
    simp only [evalWith]
    -- the plan of a loop names the node, whose span the context is asked with before each turn
    refine bind (turns (n := .whileLoop span cond braces body) ?_) fun _ => pure none
    refine bind (hconditions _ (by simp [children]) _) fun go => ite ?_ (pure false)
    exact bind (hbody _) fun _ => pure true
  | forLoop span init cond last braces body =>
    simp only [evalWith]
    refine inFrame (bind (discard (hchildren _ (by simp [children]))) fun _ => ?_)
    refine bind (turns (n := .forLoop span init cond last braces body) ?_) fun _ => pure none
    refine bind (hconditions _ (by simp [children]) _) fun go => ite ?_ (pure false)
    refine bind (inFrame (hbody _)) fun _ => ?_
    exact bind (discard (hchildren _ (by simp [children]))) fun _ => pure true
  | program =>
    simp only [evalWith]
    exact fail _ _

/-- To evaluate a node is to do what has to be done for it. -/
theorem of_node {x : Run (Option Value)} (h : Tracks env context level (Plan.node env n) x) :
    Tracks env context level (.eval n) x := by
  intro m asked hlevel hallows
  obtain ⟨asked', hexec, hrest⟩ := h m asked hlevel hallows
  exact ⟨asked', .eval hexec, hrest⟩

theorem evalWith (hnext : ∀ low, level = low + 1 → ∀ s, Tracks env context low (.eval s) (next s)) (n : Node) :
    Tracks env context level (.eval n) (evalWith env level next n) ∧
      ∀ statement, Tracks env context level (Plan.condition statement n)
        (evalCondition env level next statement n) := by
  induction n using induction_children with
  | step n ih =>
    have hchildren := fun c hc => (ih c hc).1
    exact ⟨of_node (node hnext hchildren fun c hc => (ih c hc).2), condition hchildren⟩

end Nodes

theorem eval (level : Nat) (n : Node) : Tracks env context level (.eval n) (eval env level n) := by
  induction level generalizing n with
  | zero => exact (evalWith (fun _ hlow => by cases hlow) n).1
  | succ level ih =>
    refine (evalWith (fun low hlow s => ?_) n).1
    obtain rfl : level = low := Nat.succ.inj hlow
    exact ih s

/-! ### Programs -/

theorem globals {gs : List Node} : Tracks env context level (Plan.globals gs) (globals (Run.eval env level) gs) := by
  induction gs with
  | nil => exact pure ()
  | cons g gs ih => exact bind (discard (eval level g)) fun _ => ih

theorem start (p : Program) :
    Tracks env context level (Plan.start p) (start (Run.eval env level) p) := by
  -- the same plan follows whether the structure of the program fails or not
  refine ite (bind (fail _ _) fun _ => ?_) ?_
  all_goals
    refine bind globals fun _ => ?_
    cases p.entry? with
    | none => exact pure ()
    | some f =>
      refine ite (callFunction (statements fun low hlow s => ?_)) (fail _ _)
      exact (eval level s).lower (by omega)

end Tracks

/-! ## The end of a run -/

/-- A run comes to one end, whatever calls its program makes, if the context answers yes finitely often. The context
answers its questions in order, one that is answered no is the last one, and then the run fails at the node where
it was asked. What the program comes to is what the evaluator comes to with the budget that the context allows. -/
theorem execution_ends (env : Env) (p : Program) (world : World) (context : Nat → Bool)
    (hfinite : {i | context i = true}.Finite) :
    ∃ asked o, p.Executes env context world asked o ∧
      (∀ asked' o', p.Executes env context world asked' o' → asked' = asked ∧ o' = o) ∧
      asked.map Question.goesOn = (List.range asked.length).map context ∧
      (∀ before n after, asked = before ++ ⟨n, false⟩ :: after →
        (∀ q ∈ before, q.goesOn = true) ∧ after = [] ∧ o.failure = some ⟨.canceled, n.span⟩) ∧
      (env.functions = p.allFunctions → ∀ budget, (∀ i < budget, context i = true) → context budget = false →
        o = p.run env.builtins world budget) := by
  obtain ⟨budget, hallows⟩ := Allows.exists_of_finite hfinite
  obtain ⟨latest, hexec, -⟩ := Tracks.start p (.start world budget) [] (Nat.le_refl budget) hallows
  refine ⟨latest.reverse, _, ⟨_, _, hexec, rfl, rfl⟩, ?_, ?_, ?_, ?_⟩
  · rintro _ _ ⟨r, s, hexec', rfl, rfl⟩
    obtain ⟨rfl, rfl⟩ := hexec.unique hexec'
    exact ⟨rfl, rfl⟩
  · rw [List.length_reverse]
    exact hexec.answered rfl
  · intro before n after hasked
    have hlatest : latest = after.reverse ++ ⟨n, false⟩ :: before.reverse := by
      rw [← List.reverse_reverse latest, hasked]
      simp
    obtain ⟨hafter, hbefore, hr⟩ := hexec.asks.latest rfl hlatest
    refine ⟨fun q hq => hbefore q (List.mem_reverse.2 hq), List.reverse_eq_nil_iff.1 hafter, ?_⟩
    show Program.failure? _ = _
    rw [hr]
    rfl
  · intro hfunctions budget' hyes hno
    have hsame : budget' = budget := hallows.unique ⟨by simpa using hyes, by simpa using hno⟩
    rw [hsame, Program.run_eq_outcome, ← hfunctions]
    rfl

/-- A program whose `Main` calls itself. -/
def recursive : Program where
  span := default
  globals := []
  functions := [⟨default, ("Main" : Text), [], default, [.call default ("Main" : Text) (.function 0) []]⟩]

/-- It is stopped by a context that answers yes twice and once more when nobody asks any longer. -/
theorem execution_ends_recursive :
    {i : Nat | (i < 2 || i == 5) = true}.Finite ∧
      ∃ asked o, recursive.Executes ⟨.default, recursive.allFunctions⟩ (fun i => i < 2 || i == 5) {} asked o ∧
        o.failure = some ⟨.canceled, default⟩ := by
  have hfinite : {i : Nat | (i < 2 || i == 5) = true}.Finite := by
    refine (Set.finite_Iic 5).subset fun i hi => ?_
    simp at hi
    simp only [Set.mem_Iic]
    omega
  obtain ⟨asked, o, hexec, -, -, -, hrun⟩ :=
    execution_ends ⟨.default, recursive.allFunctions⟩ recursive {} (fun i => i < 2 || i == 5) hfinite
  refine ⟨hfinite, asked, o, hexec, ?_⟩
  rw [hrun rfl 2 (by decide) rfl]
  decide +kernel

end ScriptKit.Run
