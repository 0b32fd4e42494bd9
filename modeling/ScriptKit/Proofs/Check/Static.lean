import ScriptKit.Check
import ScriptKit.Proofs.Run.Triple
import ScriptKit.Proofs.Tree.Formed

/-!
# The check predicts static failures

Some failures of a run can be seen in the program: that it has no `Main` to start with, that a condition
is no comparison, that a sign stands in front of something that is no number, and that a function is
called with the wrong number of arguments.

**Theorem (`check_predicts_static`).** If a run of a parsed program ends with such a failure, wherever the
run got to and whatever its builtins answered, then the check reports it with the same code, the same
message and the same span.

A builtin may fail with a code of its own choosing, and the run hands it on. The check runs no builtins and
knows nothing of that, even if the code is the one of a malformed program (`check_ignores_builtins`).

The check goes through the program in its own order and with its own names, and the run through whatever
it calls. What ties them together is that the check has been to every statement of every function: a
statement is `CoveredStmt` if all that the check says about it, under some names, is in the report.
-/

namespace ScriptKit

open Run

/-- Whether a failure can be seen in the program. What a builtin raises cannot, whatever code it gives. -/
def Run.Fault.isStatic : Fault → Bool
  | .builtin .. => false
  | .condition .. | .unaryOperand .. | .arity .. => true
  | fault => fault.code == .programStructure

namespace Check

/-- A failure is in a report if it is static. -/
def Predicted (D : List Diagnostic) (f : Failure) : Prop := f.fault.isStatic = true → f.diagnostic ∈ D

/-- A failure that is not static needs no report. -/
theorem predicted_of_dynamic {D : List Diagnostic} {fault : Fault} {span : Span}
    (h : fault.isStatic = false) : Predicted D ⟨fault, span⟩ := by
  intro hstatic
  rw [h] at hstatic
  cases hstatic

/-! ## What the check has been to -/

section Covered

variable {D : List Diagnostic} {fns : List Function}

/-- All that the check says about an expression is in the report. -/
def CoveredExpr (D : List Diagnostic) (fns : List Function) (n : Node) : Prop :=
  ∃ known names, known.functions = fns ∧ expr known names n ⊆ D

/-- All that the check says about a statement is in the report. -/
def CoveredStmt (D : List Diagnostic) (fns : List Function) (n : Node) : Prop :=
  ∃ known names, known.functions = fns ∧ (stmt known names n).1 ⊆ D

/-- All that the check says about a condition is in the report. -/
def CoveredCondition (D : List Diagnostic) (fns : List Function) (statement : Text) (n : Node) : Prop :=
  ∃ known names, known.functions = fns ∧ condition known names statement n ⊆ D

theorem exprs_eq (known : Known) (names : Names) (ns : List Node) :
    exprs known names ns = ns.flatMap (expr known names) := by
  induction ns with
  | nil => simp [exprs]
  | cons n ns ih => simp [exprs, ih]

theorem stmt_subset_stmts (known : Known) (names : Names) {n : Node} {ns : List Node} (h : n ∈ ns) :
    ∃ names', (stmt known names' n).1 ⊆ (stmts known names ns).1 := by
  induction ns generalizing names with
  | nil => simp at h
  | cons n' ns ih =>
    simp only [stmts]
    rcases List.mem_cons.1 h with rfl | h
    · exact ⟨names, List.subset_append_left _ _⟩
    · obtain ⟨names', hsub⟩ := ih (stmt known names n').2 h
      exact ⟨names', List.subset_append_of_subset_right _ hsub⟩

theorem coveredStmt_of_mem {known : Known} {names : Names} {n : Node} {ns : List Node}
    (hfns : known.functions = fns) (h : (stmts known names ns).1 ⊆ D) (hn : n ∈ ns) :
    CoveredStmt D fns n := by
  obtain ⟨names', hsub⟩ := stmt_subset_stmts known names hn
  exact ⟨known, names', hfns, List.Subset.trans hsub h⟩

theorem coveredExpr_of_mem {known : Known} {names : Names} {n : Node} {ns : List Node}
    (hfns : known.functions = fns) (h : exprs known names ns ⊆ D) (hn : n ∈ ns) :
    CoveredExpr D fns n := by
  rw [exprs_eq] at h
  exact ⟨known, names, hfns, fun d hd => h (List.mem_flatMap.2 ⟨n, hn, hd⟩)⟩

end Covered

/-! ## Expressions -/

/-- A call of a function goes by the name of the function. -/
def Named (fns : List Function) (name : Text) (callee : Callee) : Prop :=
  ∀ k f, callee = .function k → fns[k]? = some f → f.name = name

section Expressions

variable {D : List Diagnostic} {S : Text → Prop} {env : Env} {bound : Nat}
  {next : Node → Run (Option Value)} {n : Node}

theorem fails_operand {symbol : Text} {α : Type} {k : Int32 → Run α}
    (hn : Fails (Predicted D) (evalWith env bound next n)) (hk : ∀ i, Fails (Predicted D) (k i)) :
    Fails (Predicted D) (evalWith env bound next n >>= fun v => needValue n v >>= fun v =>
      needInt n symbol v >>= k) :=
  Triple.operand hn (predicted_of_dynamic (by cases n <;> rfl)) (fun _ => predicted_of_dynamic rfl) hk

theorem evalArgs_triple {args : List Node}
    (h : ∀ a ∈ args, Fails (Predicted D) (evalWith env bound next a)) :
    Triple (fun _ => True) (evalArgs env bound next args) (fun vs _ => vs.length = args.length)
      (Predicted D) := by
  induction args with
  | nil =>
    simp only [evalArgs]
    exact Triple.pure fun _ _ => rfl
  | cons a args ih =>
    obtain ⟨ha, hargs⟩ := List.forall_mem_cons.1 h
    have hnone : Predicted D ⟨noValue a, a.span⟩ := predicted_of_dynamic (by cases a <;> rfl)
    simp only [evalArgs]
    refine Triple.bind (Q := fun _ _ => True) ha fun v => ?_
    refine Triple.bind (Q := fun _ _ => True) (Triple.needValue hnone) fun v => ?_
    refine Triple.bind (ih hargs) fun vs => ?_
    exact Triple.pure fun _ hlen => by rw [List.length_cons, hlen, List.length_cons]

/-- A call with the right number of arguments fails only in the body of the function. -/
theorem fails_callFunction {f : Function} {args : List Value} {span : Span}
    (hlen : args.length = f.params.length)
    (hbody : ∀ s ∈ f.body, Fails (Predicted D) (next s)) :
    Fails (Predicted D) (callFunction next f args span) := by
  unfold callFunction
  refine Triple.ite (fun _ => ?_) fun hne => absurd hlen hne
  refine Triple.bind (Q := fun _ => OnChain fun _ => True) (Triple.emit fun _ _ _ => trivial) fun _ => ?_
  refine Triple.bind (Triple.callFrame fun _ _ _ => predicted_of_dynamic rfl) fun frame => ?_
  have hstatements : Fails (Predicted D) (statements next f.body) :=
    Triple.statements (fun _ _ _ => trivial) (fun _ _ => predicted_of_dynamic rfl) hbody
  exact Triple.reportEnd (Triple.callBody (K := fun _ => True) (hstatements.mono (fun _ _ => trivial)
    (fun _ _ _ => trivial) fun _ h => h))

/-- The static failures of a covered expression are in the report. -/
theorem fails_expr (hbody : ∀ f ∈ env.functions, ∀ s ∈ f.body, Fails (Predicted D) (next s))
    (hn : IsExpr S (Named env.functions) n) (hc : CoveredExpr D env.functions n) :
    Fails (Predicted D) (evalWith env bound next n) := by
  induction hn with
  | number | bool =>
    simp only [evalWith]
    exact Triple.pure fun _ _ => trivial
  | str =>
    simp only [evalWith]
    refine Triple.bind (Q := fun _ _ => True) (Triple.get fun _ _ => trivial) fun m => ?_
    refine Triple.bind (Q := fun _ _ => True) (Triple.liftScope (fun _ _ _ _ => trivial) fun _ _ => ?_)
      fun _ => Triple.pure fun _ _ => trivial
    -- a missing name is no static fault, for it depends on the scope at the time
    exact predicted_of_dynamic rfl
  | use =>
    simp only [evalWith]
    exact Triple.resolve (J := fun _ => True) fun _ _ _ _ => predicted_of_dynamic rfl
  | @call span name callee args hname hnamed _ ih =>
    obtain ⟨known, names, hfns, hsub⟩ := hc
    simp only [expr, List.append_subset] at hsub
    obtain ⟨hargs, harity⟩ := hsub
    have hvalues := evalArgs_triple fun a ha => ih a ha (coveredExpr_of_mem hfns hargs ha)
    simp only [evalWith]
    cases htarget : env.target? callee with
    | none =>
      refine Triple.bind hvalues fun values => ?_
      refine (Triple.callBuiltin (J := fun _ => True) ?_ ?_).mono (fun _ _ => trivial)
        (fun _ _ _ => trivial) fun _ h => h
      · exact predicted_of_dynamic rfl
      · exact fun _ _ _ _ _ _ => predicted_of_dynamic rfl
    | some f =>
      have hmem : f ∈ env.functions ∧ f.name = name := by
        cases callee with
        | builtin => cases htarget
        | function k => exact ⟨List.mem_of_getElem? htarget, hnamed k f rfl htarget⟩
      obtain ⟨hmem, rfl⟩ := hmem
      -- the numbers are compared before any argument is evaluated, and they are those the check compares
      refine Triple.ite (fun hlen => ?_) fun hne => Triple.fail fun _ => harity ?_
      · refine Triple.bind hvalues fun values => ?_
        intro m hvalues
        refine Triple.bind (fails_callFunction (hvalues.trans hlen) (hbody f hmem)) (fun _ => ?_) m trivial
        exact Triple.pure fun _ _ => trivial
      · have htarget' : known.target? callee = some f := by
          rw [← htarget]
          cases callee <;> simp [Known.target?, Env.target?, hfns]
        simp [arity, htarget', hne, report]
  | @sign span op n _ _ _ =>
    obtain ⟨known, names, -, hsub⟩ := hc
    simp only [expr] at hsub
    simp only [evalWith]
    -- a sign is applied to the literal behind it; any other operand is reported
    cases n with
    | number span' v =>
      cases op with
      | other symbol => exact Triple.fail (predicted_of_dynamic rfl)
      | _ => exact Triple.pure fun _ _ => trivial
    | _ => exact Triple.fail fun _ => hsub (List.mem_singleton.2 rfl)
  | @arith span left right op _ _ _ ihl ihr =>
    obtain ⟨known, names, hfns, hsub⟩ := hc
    simp only [expr, List.append_subset] at hsub
    simp only [evalWith]
    refine fails_operand (ihl ⟨known, names, hfns, hsub.1⟩) fun l => ?_
    refine fails_operand (ihr ⟨known, names, hfns, hsub.2⟩) fun r => ?_
    exact Triple.applyArith (predicted_of_dynamic rfl) fun _ => predicted_of_dynamic rfl
  | @compare span left right op _ _ _ ihl ihr =>
    obtain ⟨known, names, hfns, hsub⟩ := hc
    simp only [expr, List.append_subset] at hsub
    simp only [evalWith]
    refine fails_operand (ihl ⟨known, names, hfns, hsub.1⟩) fun l => ?_
    refine fails_operand (ihr ⟨known, names, hfns, hsub.2⟩) fun r => ?_
    refine Triple.bind (Triple.applyRelation fun _ => predicted_of_dynamic rfl) fun _ => ?_
    exact Triple.pure fun _ _ => trivial

theorem fails_condition {statement : Text}
    (hbody : ∀ f ∈ env.functions, ∀ s ∈ f.body, Fails (Predicted D) (next s))
    (hn : IsExpr S (Named env.functions) n) (hc : CoveredCondition D env.functions statement n) :
    Fails (Predicted D) (evalCondition env bound next statement n) := by
  obtain ⟨known, names, hfns, hsub⟩ := hc
  simp only [condition, List.append_subset] at hsub
  cases hn with
  | compare _ hl hr =>
    simp only [expr, List.append_subset] at hsub
    simp only [evalCondition]
    refine fails_operand (fails_expr hbody hl ⟨known, names, hfns, hsub.2.1⟩) fun l => ?_
    refine fails_operand (fails_expr hbody hr ⟨known, names, hfns, hsub.2.2⟩) fun r => ?_
    exact Triple.applyRelation fun _ => predicted_of_dynamic rfl
  | _ =>
    simp only [evalCondition]
    exact Triple.fail fun _ => hsub.1 (List.mem_singleton.2 rfl)

end Expressions

/-! ## Statements -/

section Statements

variable {D : List Diagnostic} {S : Text → Prop} {env : Env} {bound : Nat}
  {next : Node → Run (Option Value)} {n : Node}

/-- The functions below a covered statement have covered bodies. -/
theorem covered_functions {C : Text → Callee → Prop} {fns : List Function} (hn : IsStmt S C n)
    (hc : CoveredStmt D fns n) :
    ∀ f ∈ n.functions, ∀ s ∈ f.body, IsStmt S C s ∧ CoveredStmt D fns s := by
  -- A function below a statement stands in one of its bodies, and the report of a body is part of the report of
  -- the statement.
  induction hn with
  | declare hv => simp [(IsStmt.declare (S := S) (C := C) hv).functions rfl]
  | declareAs hv hvalue => simp [(IsStmt.declareAs hv hvalue).functions rfl]
  | assign hname hvalue => simp [(IsStmt.assign hname hvalue).functions rfl]
  | call hcall => simp [hcall.functions]
  | @function span name params braces body _ _ hbody ih =>
    obtain ⟨known, names, hfns, hsub⟩ := hc
    simp only [stmt, List.append_subset] at hsub
    -- a body is checked without `strict`, which is about names and not about functions
    have hloose : Known.functions { known with strict := false } = fns := hfns
    have hcovered : ∀ s ∈ body, CoveredStmt D fns s := fun s hs => coveredStmt_of_mem hloose hsub.2 hs
    intro f hf
    rw [show Node.function span name params braces body =
      (Function.mk span name params braces body).node from rfl, functions_function] at hf
    rcases List.mem_cons.1 hf with rfl | hf
    · exact fun s hs => ⟨hbody s hs, hcovered s hs⟩
    · obtain ⟨s, hs, hf⟩ := List.mem_flatMap.1 hf
      exact ih s hs (hcovered s hs) f hf
  | when hcond _ ih =>
    obtain ⟨known, names, hfns, hsub⟩ := hc
    simp only [stmt, List.append_subset] at hsub
    intro f hf
    rw [functions_when hcond.functions] at hf
    obtain ⟨s, hs, hf⟩ := List.mem_flatMap.1 hf
    exact ih s hs (coveredStmt_of_mem hfns hsub.2 hs) f hf
  | choose hcond _ _ ih ih' =>
    obtain ⟨known, names, hfns, hsub⟩ := hc
    simp only [stmt, List.append_subset] at hsub
    intro f hf
    rw [functions_choose hcond.functions, List.mem_append] at hf
    rcases hf with hf | hf
    · obtain ⟨s, hs, hf⟩ := List.mem_flatMap.1 hf
      exact ih s hs (coveredStmt_of_mem hfns hsub.1.2 hs) f hf
    · obtain ⟨s, hs, hf⟩ := List.mem_flatMap.1 hf
      exact ih' s hs (coveredStmt_of_mem hfns hsub.2 hs) f hf
  | whileLoop hcond _ ih =>
    obtain ⟨known, names, hfns, hsub⟩ := hc
    simp only [stmt, List.append_subset] at hsub
    intro f hf
    rw [functions_whileLoop hcond.functions] at hf
    obtain ⟨s, hs, hf⟩ := List.mem_flatMap.1 hf
    exact ih s hs (coveredStmt_of_mem hfns hsub.2 hs) f hf
  | forLoop hinit hkind hcond _ hstep hassign _ _ _ ih =>
    obtain ⟨known, names, hfns, hsub⟩ := hc
    simp only [stmt, List.append_subset] at hsub
    intro f hf
    rw [functions_forLoop (hinit.functions hkind) hcond.functions
      (hstep.functions (by simp [hassign]))] at hf
    obtain ⟨s, hs, hf⟩ := List.mem_flatMap.1 hf
    exact ih s hs (coveredStmt_of_mem hfns hsub.1.2 hs) f hf
  | skip => simp [functions_skip]

/-- What `next` does with covered statements is predicted. -/
def NextPredicted (D : List Diagnostic) (S : Text → Prop) (fns : List Function)
    (next : Node → Run (Option Value)) : Prop :=
  ∀ s, IsStmt S (Named fns) s → CoveredStmt D fns s → Fails (Predicted D) (next s)

theorem fails_statements {known : Known} {names : Names} {body : List Node}
    (hnext : NextPredicted D S env.functions next) (hfns : known.functions = env.functions)
    (hsub : (stmts known names body).1 ⊆ D) (hbody : ∀ s ∈ body, IsStmt S (Named env.functions) s) :
    Fails (Predicted D) (statements next body) :=
  Triple.statements (fun _ _ _ => trivial) (fun _ _ => predicted_of_dynamic rfl) fun s hs =>
    hnext s (hbody s hs) (coveredStmt_of_mem hfns hsub hs)

theorem fails_inFrame {α : Type} {x : Run α} (h : Fails (Predicted D) x) :
    Fails (Predicted D) (inFrame x) :=
  Triple.inFrame (h.mono (fun _ _ => trivial) (fun _ _ _ => trivial) fun _ h => h)

theorem fails_value {α : Type} {k : Value → Run α}
    (hn : Fails (Predicted D) (evalWith env bound next n)) (hk : ∀ v, Fails (Predicted D) (k v)) :
    Fails (Predicted D) (evalWith env bound next n >>= fun v => needValue n v >>= k) :=
  Triple.bind hn fun _ =>
    Triple.bind (Triple.needValue (predicted_of_dynamic (by cases n <;> rfl))) hk

/-- The static failures of a covered statement are in the report. -/
theorem fails_stmt
    (hfns : ∀ f ∈ env.functions, ∀ s ∈ f.body,
      IsStmt S (Named env.functions) s ∧ CoveredStmt D env.functions s)
    (hnext : NextPredicted D S env.functions next) (hn : IsStmt S (Named env.functions) n)
    (hc : CoveredStmt D env.functions n) : Fails (Predicted D) (evalWith env bound next n) := by
  have hbody : ∀ f ∈ env.functions, ∀ s ∈ f.body, Fails (Predicted D) (next s) := fun f hf s hs =>
    hnext s (hfns f hf s hs).1 (hfns f hf s hs).2
  have hdone : ∀ v : Option Value, Fails (Predicted D) (pure v : Run (Option Value)) := fun _ =>
    Triple.pure fun _ _ => trivial
  obtain ⟨known, names, hknown, hsub⟩ := hc
  -- `names` is generalized for the header of a for loop, which is checked in a block of its own
  induction hn generalizing names with
  | declare =>
    simp only [evalWith]
    refine Triple.bind ?_ fun _ => hdone none
    exact Triple.declare (J := fun _ => True) (K := fun _ => True) (fun _ _ _ _ => trivial)
      fun _ _ _ _ => predicted_of_dynamic rfl
  | declareAs _ hvalue =>
    simp only [stmt, List.append_subset] at hsub
    simp only [evalWith]
    refine fails_value (fails_expr hbody hvalue ⟨known, names, hknown, hsub.1⟩) fun v => ?_
    refine Triple.bind ?_ fun _ => hdone none
    exact Triple.declare (J := fun _ => True) (K := fun _ => True) (fun _ _ _ _ => trivial)
      fun _ _ _ _ => predicted_of_dynamic rfl
  | assign _ hvalue =>
    simp only [stmt, List.append_subset] at hsub
    simp only [evalWith]
    refine fails_value (fails_expr hbody hvalue ⟨known, names, hknown, hsub.1⟩) fun v => ?_
    refine Triple.bind ?_ fun _ => hdone none
    exact Triple.assign (J := fun _ => True) (K := fun _ => True) (fun _ _ _ _ => trivial)
      fun _ _ _ _ => predicted_of_dynamic rfl
  | call hcall =>
    simp only [stmt] at hsub
    exact fails_expr hbody hcall ⟨known, names, hknown, hsub⟩
  | function =>
    simp only [evalWith]
    exact hdone none
  | when hcond hyes _ =>
    simp only [stmt, List.append_subset] at hsub
    simp only [evalWith]
    refine Triple.bind (fails_condition hbody hcond ⟨known, names, hknown, hsub.1⟩) fun b => ?_
    refine Triple.ite (fun _ => ?_) fun _ => hdone none
    refine Triple.bind (fails_inFrame ?_) fun _ => hdone none
    exact fails_statements hnext hknown hsub.2 hyes
  | choose hcond hyes hno _ _ =>
    simp only [stmt, List.append_subset] at hsub
    simp only [evalWith]
    refine Triple.bind (fails_condition hbody hcond ⟨known, names, hknown, hsub.1.1⟩) fun b => ?_
    refine Triple.ite (fun _ => ?_) fun _ => ?_
    · refine Triple.bind (fails_inFrame ?_) fun _ => hdone none
      exact fails_statements hnext hknown hsub.1.2 hyes
    · refine Triple.bind (fails_inFrame ?_) fun _ => hdone none
      exact fails_statements hnext hknown hsub.2 hno
  | whileLoop hcond hstmts _ =>
    simp only [stmt, List.append_subset] at hsub
    simp only [evalWith]
    refine Triple.bind (Triple.turns ?_ _) fun _ => hdone none
    refine Triple.bind (Q := fun _ _ => True) (Triple.check (fun _ _ _ => trivial) ?_) fun _ => ?_
    · exact predicted_of_dynamic rfl
    refine Triple.bind (fails_condition hbody hcond ⟨known, names, hknown, hsub.1⟩) fun b => ?_
    refine Triple.ite (fun _ => ?_) fun _ => Triple.pure fun _ _ => trivial
    refine Triple.bind (fails_statements hnext hknown hsub.2 hstmts) fun _ => ?_
    exact Triple.pure fun _ _ => trivial
  | forLoop hinit _ hcond _ hstep _ hstmts ihinit ihstep _ =>
    simp only [stmt, List.append_subset] at hsub
    obtain ⟨⟨⟨hsubinit, hsubcond⟩, hsubbody⟩, hsubstep⟩ := hsub
    simp only [evalWith]
    refine fails_inFrame ?_
    refine Triple.bind (Triple.discard (R := fun _ _ => True) (ihinit _ hsubinit)) fun _ => ?_
    refine Triple.bind (Triple.turns ?_ _) fun _ => hdone none
    refine Triple.bind (Q := fun _ _ => True) (Triple.check (fun _ _ _ => trivial) ?_) fun _ => ?_
    · exact predicted_of_dynamic rfl
    refine Triple.bind (fails_condition hbody hcond ⟨known, _, hknown, hsubcond⟩) fun b => ?_
    refine Triple.ite (fun _ => ?_) fun _ => Triple.pure fun _ _ => trivial
    refine Triple.bind (fails_inFrame (fails_statements hnext hknown hsubbody hstmts)) fun _ => ?_
    refine Triple.bind (Triple.discard (R := fun _ _ => True) (ihstep _ hsubstep)) fun _ => ?_
    exact Triple.pure fun _ _ => trivial
  | skip =>
    simp only [evalWith]
    exact hdone none

/-- The static failures of covered statements are in the report, however deep a run goes. -/
theorem fails_eval (env : Env)
    (hfns : ∀ f ∈ env.functions, ∀ s ∈ f.body,
      IsStmt S (Named env.functions) s ∧ CoveredStmt D env.functions s) (level : Nat) :
    NextPredicted D S env.functions (eval env level) := by
  induction level with
  | zero =>
    intro s hs hc
    exact fails_stmt hfns (fun _ _ _ => Triple.pure fun _ _ => trivial) hs hc
  | succ level ih =>
    intro s hs hc
    exact fails_stmt hfns ih hs hc

end Statements

/-! ## Programs -/

section Programs

variable {D : List Diagnostic} {S : Text → Prop} {p : Program}

theorem covered_of_function {known : Known} {globals : Names} {f : Function} {fns : List Function}
    (hfns : known.functions = fns) (h : function known globals f ⊆ D) :
    ∀ s ∈ f.body, CoveredStmt D fns s := by
  simp only [function, List.append_subset] at h
  exact fun s hs => coveredStmt_of_mem hfns h.2 hs

/-- The check goes through the bodies of all the functions it is given. -/
theorem covered_of_functions {known : Known} {globals : Names} {fs : List Function} {f : Function}
    (h : functions known globals fs ⊆ D) (hf : f ∈ fs) :
    ∀ s ∈ f.body, CoveredStmt D known.functions s := by
  have hloose : ∀ strict, Known.functions { known with strict := strict } = known.functions :=
    fun _ => rfl
  induction fs with
  | nil => simp at hf
  | cons g rest ih =>
    cases rest with
    | nil =>
      rw [List.mem_singleton.1 hf]
      simp only [functions] at h
      exact covered_of_function (hloose _) h
    | cons g' rest =>
      simp only [functions, List.append_subset] at h
      rcases List.mem_cons.1 hf with rfl | hf
      · exact covered_of_function (hloose _) h.1
      · exact ih h.2 hf

/-- The check goes through the bodies of all the functions of a program, nested ones included. -/
theorem covered_allFunctions {C : Text → Callee → Prop} (hp : p.IsFormed S C) :
    ∀ f ∈ p.allFunctions, ∀ s ∈ f.body, IsStmt S C s ∧ CoveredStmt p.check p.allFunctions s := by
  intro f hf
  rw [Program.allFunctions_eq hp] at hf
  obtain ⟨g, hg, hf⟩ := List.mem_flatMap.1 hf
  have hbody : ∀ s ∈ g.body, IsStmt S C s := by
    cases hp.functions g hg with
    | function _ _ hbody => exact hbody
  have hcheck : functions ⟨p.allFunctions, true⟩ (stmts ⟨p.allFunctions, true⟩ [[]] p.globals).2
      p.functions ⊆ p.check := by
    intro d hd
    simp only [Program.check, List.mem_append]
    exact Or.inl (Or.inr hd)
  have hcovered := covered_of_functions hcheck hg
  rw [functions_function] at hf
  rcases List.mem_cons.1 hf with rfl | hf
  · exact fun s hs => ⟨hbody s hs, hcovered s hs⟩
  · obtain ⟨s, hs, hf⟩ := List.mem_flatMap.1 hf
    exact covered_functions (hbody s hs) (hcovered s hs) f hf

theorem fails_globals {next : Node → Run (Option Value)} {gs : List Node}
    (h : ∀ g ∈ gs, Fails (Predicted D) (next g)) : Fails (Predicted D) (Run.globals next gs) := by
  induction gs with
  | nil => exact Triple.pure fun _ _ => trivial
  | cons g gs ih =>
    obtain ⟨hg, hgs⟩ := List.forall_mem_cons.1 h
    exact Triple.bind (Triple.discard (R := fun _ _ => True) hg) fun _ => ih hgs

theorem mem_allFunctions {C : Text → Callee → Prop} (hp : p.IsFormed S C) {f : Function}
    (hf : f ∈ p.functions) : f ∈ p.allFunctions := by
  rw [Program.allFunctions_eq hp]
  exact List.mem_flatMap.2 ⟨f, hf, by rw [functions_function]; exact List.mem_cons_self ..⟩

/-- Starting the last function fails as the check says, if it is not `Main` or takes arguments. -/
theorem fails_entry {next : Node → Run (Option Value)} {f : Function} (hentry : p.entry? = some f)
    (hbody : ∀ s ∈ f.body, Fails (Predicted p.check) (next s)) :
    Fails (Predicted p.check)
      (if f.name = ("Main" : Text) then callFunction next f [] f.span
        else fail (.entryName f.name) f.span) := by
  refine Triple.ite (fun hmain => ?_) fun hmain => Triple.fail fun _ => ?_
  · by_cases hparams : f.params = []
    · exact fails_callFunction (by simp [hparams]) hbody
    · unfold callFunction
      refine Triple.ite (fun hlen => ?_) fun _ => Triple.fail fun _ => ?_
      · exact absurd (List.eq_nil_of_length_eq_zero hlen.symm) hparams
      · simp only [Program.check, List.mem_append]
        refine Or.inr ?_
        simp [entryArity, hentry, hmain, hparams, report]
  · have hsome : (p.globals.isEmpty && p.functions.isEmpty) = false := by
      have : p.functions ≠ [] := by
        intro hnil
        simp [Program.entry?, hnil] at hentry
      simp [this]
    simp only [Program.check, List.mem_append]
    refine Or.inl (Or.inl (Or.inl ?_))
    simp [entryPoint, hsome, hentry, hmain, report]

/-- The static failures of a run of a well-formed program are in its report. -/
theorem fails_start (registry : Registry) (level : Nat) (hp : p.IsFormed S (Named p.allFunctions)) :
    Fails (Predicted p.check) (Run.start (eval ⟨registry, p.allFunctions⟩ level) p) := by
  have hfns := covered_allFunctions hp
  have hnext : NextPredicted p.check S p.allFunctions (eval ⟨registry, p.allFunctions⟩ level) :=
    fails_eval ⟨registry, p.allFunctions⟩ hfns level
  have hcheck : (stmts ⟨p.allFunctions, true⟩ [[]] p.globals).1 ⊆ p.check := by
    intro d hd
    simp only [Program.check, List.mem_append]
    exact Or.inl (Or.inl (Or.inr hd))
  have hrest : Fails (Predicted p.check) (Run.globals (eval ⟨registry, p.allFunctions⟩ level) p.globals) :=
    fails_globals fun g hg => hnext g (hp.globals g hg).1 (coveredStmt_of_mem rfl hcheck hg)
  have hguard : ∀ {x : Run Unit}, Fails (Predicted p.check) x → Fails (Predicted p.check) (do
      if p.globals.isEmpty && p.functions.isEmpty then fail .emptyProgram p.span
      Run.globals (eval ⟨registry, p.allFunctions⟩ level) p.globals
      x) := by
    intro x hx
    refine Triple.ite (fun hempty => ?_) fun _ => Triple.bind hrest fun _ => hx
    refine Triple.bind (Q := fun _ _ => True) (Triple.fail fun _ => ?_) fun _ => Triple.bind hrest fun _ => hx
    simp only [Program.check, entryPoint, hempty, if_true, List.mem_append]
    exact Or.inl (Or.inl (Or.inl (List.mem_singleton.2 rfl)))
  unfold Run.start
  cases hentry : p.entry? with
  | none => exact hguard (Triple.pure fun _ _ => trivial)
  | some f =>
    have hf := mem_allFunctions hp (List.mem_of_getLast? hentry)
    exact hguard (fails_entry hentry fun s hs => hnext s (hfns f hf s hs).1 (hfns f hf s hs).2)

end Programs

end Check

theorem mem_of_lookup {table : List (Text × Nat)} {name : Text} {k : Nat}
    (h : table.lookup name = some k) : (name, k) ∈ table := by
  obtain ⟨l₁, l₂, rfl, -⟩ := List.lookup_eq_some_iff.1 h
  simp

open Check in
theorem named_of_parse {file source : Text} {builtins : Option (List Text)} {p : Program}
    (h : parse file source builtins = .ok p) :
    p.IsFormed (fun _ => True) (Named p.allFunctions) := by
  refine formed_of_parse (I := fun table => ∀ entry ∈ table, ∀ f, p.allFunctions[entry.2]? = some f →
    f.name = entry.1) (fun _ _ _ => trivial) ?_ (by simp) ?_ h
  · intro table name htable k f hcallee hf
    unfold Parse.calleeOf at hcallee
    split at hcallee
    · next number hlookup =>
      cases hcallee
      exact htable (name, k) (mem_of_lookup hlookup) f hf
    · cases hcallee
  · intro k f table hf htable
    refine List.forall_mem_cons.2 ⟨fun f' hf' => ?_, htable⟩
    rw [hf] at hf'
    cases hf'
    rfl

/-- The check reports every static failure of a run. -/
theorem check_predicts_static {file source : Text} {builtins : Option (List Text)} {p : Program}
    {registry : Registry} {world : World} {budget : Nat} {f : Failure}
    (hparse : parse file source builtins = .ok p)
    (hfailure : (p.run registry world budget).failure = some f) (hstatic : f.fault.isStatic = true) :
    f.diagnostic ∈ p.check := by
  have hstart := Check.fails_start registry budget (named_of_parse hparse)
  exact failure_of_triple (hstart.mono (fun _ _ => trivial) (fun _ _ h => h) fun _ h => h) hfailure hstatic

/-- A condition that is a number. -/
theorem check_predicts_static_condition :
    ∃ p f, parse "a" "func Main() \x7b if (1) \x7b\x7d \x7d" = .ok p ∧
      (p.run .default {} 3).failure = some f ∧ f.fault = .condition "if" "Number" ∧
      f.diagnostic ∈ p.check := by
  have hrun : (parse "a" "func Main() \x7b if (1) \x7b\x7d \x7d").toOption.bind
      (fun p => (p.run .default {} 3).failure) =
        some ⟨.condition "if" "Number", ⟨"a", ⟨1, 19⟩, ⟨1, 20⟩⟩⟩ := by decide +kernel
  cases hparse : parse "a" "func Main() \x7b if (1) \x7b\x7d \x7d" with
  | error e => rw [hparse] at hrun; cases hrun
  | ok p =>
    rw [hparse] at hrun
    exact ⟨p, _, rfl, hrun, rfl, check_predicts_static hparse hrun rfl⟩

/-- A builtin that calls every program malformed. -/
def grumbler : Registry := ({} : Registry).register
  (.constant "Grumble" [] (.error (.raised .programStructure "malformed" none [])))

/-- A program that calls it. -/
def grumbling : Text := "func Main() \x7b Grumble() \x7d"

/-- A run ends with the code of a malformed program because a builtin says so, and the check has nothing to report. -/
theorem check_ignores_builtins :
    ∃ p f, parse "a" grumbling (some grumbler.names) = .ok p ∧ (p.run grumbler {} 3).failure = some f ∧
      f.diagnostic = ⟨.programStructure, "malformed", some ⟨"a", ⟨1, 15⟩, ⟨1, 24⟩⟩, []⟩ ∧ f.diagnostic ∉ p.check := by
  have hrun : (parse "a" grumbling (some grumbler.names)).toOption.bind
      (fun p => (p.run grumbler {} 3).failure.map fun f => (f, p.check)) =
        some (⟨.builtin "Grumble" (.raised .programStructure "malformed" none []),
          ⟨"a", ⟨1, 15⟩, ⟨1, 24⟩⟩⟩, []) := by decide +kernel
  cases hparse : parse "a" grumbling (some grumbler.names) with
  | error e => rw [hparse] at hrun; cases hrun
  | ok p =>
    rw [hparse] at hrun
    obtain ⟨f, hfailure, heq⟩ := Option.map_eq_some_iff.1 hrun
    obtain ⟨rfl, hcheck⟩ := Prod.mk.inj heq
    refine ⟨p, _, rfl, hfailure, rfl, ?_⟩
    rw [hcheck]
    exact List.not_mem_nil

end ScriptKit
