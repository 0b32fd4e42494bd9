import ScriptKit.Proofs.Run.Rules
import ScriptKit.Proofs.Tree.Formed

/-!
# Properties of expressions

Expressions that were read from a source are made of literals, variables, operators and calls. A property of steps
that passes through sequencing therefore holds of the evaluation of an expression if it holds of reading variables
and if a call has it whenever its arguments have.

**Theorem (`ExprRules.expr`).** If `P` satisfies these rules, then evaluating an expression has `P`.
-/

namespace ScriptKit.Run

/-- What makes a property of steps hold of expressions whose calls satisfy `C`. -/
structure ExprRules (env : Env) (bound : Nat) (next : Node → Run (Option Value)) (C : Text → Callee → Prop)
    (P : (α : Type) → Run α → Prop) : Prop where
  sequential : Sequential P
  resolve : ∀ span name, P (Option Value) (resolve span name)
  interpolate : ∀ span text, P (Option Value) (do
    let filled ← liftScope span (ScriptKit.interpolate (← get).chain text)
    return some (.str filled))
  call : ∀ span name callee args, C name callee → (∀ a ∈ args, P _ (evalWith env bound next a)) →
    P _ (evalWith env bound next (.call span name callee args))

namespace ExprRules

variable {env : Env} {bound : Nat} {next : Node → Run (Option Value)} {C : Text → Callee → Prop}
  {P : (α : Type) → Run α → Prop} {S : Text → Prop} {n : Node}

/-- Evaluating an expression has the property. -/
theorem expr (h : ExprRules env bound next C P) (hn : IsExpr S C n) : P _ (evalWith env bound next n) := by
  have hseq := h.sequential
  induction hn with
  | number | bool =>
    simp only [evalWith]
    exact hseq.pure _
  | str =>
    simp only [evalWith]
    exact h.interpolate _ _
  | use =>
    simp only [evalWith]
    exact h.resolve _ _
  | call _ hcallee _ ih => exact h.call _ _ _ _ hcallee ih
  | sign =>
    simp only [evalWith]
    exact hseq.applySign _ _
  | arith _ _ _ ih ih' =>
    simp only [evalWith]
    exact hseq.operand ih fun l => hseq.operand ih' fun r => hseq.applyArith _ _ l r
  | compare _ _ _ ih ih' =>
    simp only [evalWith]
    refine hseq.operand ih fun l => hseq.operand ih' fun r => ?_
    exact hseq.bind (hseq.applyRelation _ _ l r) fun b => hseq.pure _

/-- Evaluating an expression as a condition has the property. -/
theorem condition (h : ExprRules env bound next C P) (hn : IsExpr S C n) (statement : Text) :
    P Bool (evalCondition env bound next statement n) := by
  have hseq := h.sequential
  cases hn with
  | compare _ hleft hright =>
    simp only [evalCondition]
    exact hseq.operand (h.expr hleft) fun l => hseq.operand (h.expr hright) fun r => hseq.applyRelation _ _ l r
  | _ =>
    simp only [evalCondition]
    exact hseq.fail _ _

end ExprRules

end ScriptKit.Run
