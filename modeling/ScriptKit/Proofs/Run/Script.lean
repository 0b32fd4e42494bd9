import ScriptKit.Proofs.Run.Rules
import ScriptKit.Proofs.Run.Simulation

/-!
# Scripts of runs

The evaluator composes functions on machines, and such a function does not tell what it went through. A script is
the evaluation of a node spelled out in small steps: to look at the machine, to ask, to declare, to assign and to
call a builtin, with what is done in a frame of its own and the calls of functions as parts that have scripts
themselves. `Script.run` performs a script, and the points of a script are the machines it goes through when it is
performed, each with the origins of its frames.

**Theorem (`run_script`).** Performing the script of a node is evaluating the node.
-/

namespace ScriptKit

namespace Run

open Node

variable {α β : Type}

/-! ## Looking -/

/-- A step that changes nothing. -/
def Idle (x : Run α) : Prop := ∀ m, (x m).2 = m

namespace Idle

theorem bind {x : Run α} {f : α → Run β} (hx : Idle x) (hf : ∀ a, Idle (f a)) : Idle (x >>= f) := by
  intro m
  have hm := hx m
  rw [bind_apply]
  revert hm
  cases x m with
  | mk result m' =>
    rintro rfl
    cases result with
    | ok a => exact hf a m'
    | error e => rfl

theorem sequential : Sequential fun _ x => Idle x := ⟨fun _ _ => rfl, fun _ _ _ => rfl, bind⟩

theorem liftScope {span : Span} {r : Except Scope.Error α} : Idle (liftScope span r) := by
  cases r with
  | ok a => exact sequential.pure a
  | error e => exact sequential.fail _ _

theorem resolve {span : Span} {name : Text} : Idle (resolve span name) := fun m => liftScope m

theorem interpolate {span : Span} {text : Text} :
    Idle (do
      let filled ← Run.liftScope span (ScriptKit.interpolate (← MonadState.get).chain text)
      return some (Value.str filled)) := fun m => bind liftScope (fun _ => sequential.pure _) m

end Idle

/-! ## Scripts -/

/-- The small steps of a run. -/
inductive Step : Type → Type 1
  | look {α : Type} (x : Run α) : Idle x → Step α
  | check (span : Span) : Step Unit
  | declare (span : Span) (name : Text) (type : VarType) (value : Option Value) : Step Unit
  | assign (span : Span) (name : Text) (value : Value) : Step Unit
  | callBuiltin (span : Span) (name : Text) (args : List Value) : Step (Option Value)

/-- Perform a small step. -/
def Step.run (env : Env) {α : Type} : Step α → Run α
  | .look x _ => x
  | .check span => Run.check span
  | .declare span name type value => Run.declare span name type value
  | .assign span name value => Run.assign span name value
  | .callBuiltin span name args => Run.callBuiltin env span name args

/-- A run spelled out in small steps. -/
inductive Script : Type → Type 1
  | pure {α : Type} (a : α) : Script α
  | fail {α : Type} (fault : Fault) (span : Span) : Script α
  | step {α β : Type} (s : Step β) (next : β → Script α) : Script α
  /-- What is done in a frame of its own. -/
  | inFrame {α β : Type} (body : Script β) (next : β → Script α) : Script α
  /-- A call of a function: its body is performed in the frame of the parameters. -/
  | call {α : Type} (f : Function) (args : List Value) (span : Span) (body : Script Unit) (next : Script α) : Script α

namespace Script

/-- One script after the other. -/
def bind {α β : Type} : Script α → (α → Script β) → Script β
  | .pure a, f => f a
  | .fail fault span, _ => .fail fault span
  | .step s next, f => .step s fun b => (next b).bind f
  | .inFrame body next, f => .inFrame body fun b => (next b).bind f
  | .call g args span body next, f => .call g args span body (next.bind f)

instance : Monad Script where
  pure := .pure
  bind := .bind

/-- The call of a function in a run, with what is done in its frame. -/
def runCall (f : Function) (args : List Value) (span : Span) (body : Run Unit) : Run Unit := do
  emit span (.callStart f.name)
  let frame ← callFrame f args
  reportEnd span f.name (Sim.inside frame body)

/-- Perform a script. -/
def run (env : Env) {α : Type} : Script α → Run α
  | .pure a => return a
  | .fail fault span => Run.fail fault span
  | .step s next => do (next (← s.run env)).run env
  | .inFrame body next => do (next (← Run.inFrame (body.run env))).run env
  | .call f args span body next => do
    runCall f args span (body.run env)
    next.run env

theorem run_bind (env : Env) (s : Script α) (f : α → Script β) :
    (s >>= f).run env = s.run env >>= fun a => (f a).run env := by
  show (s.bind f).run env = _
  induction s with
  | pure a => simp only [Script.bind, run, pure_bind]
  | fail fault span => rfl
  | step s next ih => simp only [Script.bind, run, bind_assoc, ih]
  | inFrame body next _ ih => simp only [Script.bind, run, bind_assoc, ih]
  | call g args span body next _ ih => simp only [Script.bind, run, bind_assoc, ih]

/-! ## The scripts of the evaluator -/

/-- Look at the machine. -/
def look (x : Run α) (h : Idle x) : Script α := .step (.look x h) .pure

/-- Ask whether the run may go on. -/
def check (span : Span) : Script Unit := .step (.check span) .pure

/-- Declare a variable. -/
def declare (span : Span) (name : Text) (type : VarType) (value : Option Value) : Script Unit :=
  .step (.declare span name type value) .pure

/-- Assign to a variable. -/
def assign (span : Span) (name : Text) (value : Value) : Script Unit := .step (.assign span name value) .pure

/-- Call a builtin. -/
def callBuiltin (span : Span) (name : Text) (args : List Value) : Script (Option Value) :=
  .step (.callBuiltin span name args) .pure

/-- Do something in a frame of its own. -/
def framed (body : Script α) : Script α := .inFrame body .pure

/-- The value a node has given. -/
def needValue (n : Node) (v : Option Value) : Script Value := look (Run.needValue n v) (Idle.sequential.needValue v)

/-- The integer an operand counts as. -/
def needInt (n : Node) (symbol : Text) (v : Value) : Script Int32 :=
  look (Run.needInt n symbol v) (Idle.sequential.needInt symbol v)

/-- Perform statements one after the other. -/
def statements (next : Node → Script (Option Value)) : List Node → Script Unit
  | [] => return ()
  | s :: rest => do
    check s.span
    discard (next s)
    statements next rest

/-- Repeat a turn as long as it answers yes. -/
def turns (turn : Script Bool) : Nat → Script Unit
  | 0 => discard turn
  | n + 1 => do
    if ← turn then turns turn n

/-- Call a function. -/
def callFunction (next : Node → Script (Option Value)) (f : Function) (args : List Value) (span : Span) :
    Script Unit :=
  if args.length = f.params.length then .call f args span (statements next f.body) (.pure ())
  else .fail (.arity f.name f.params.length args.length) span

mutual

/-- The script of a node, with `next` for the statements that are reached past a question. -/
def ofNode (env : Env) (bound : Nat) (next : Node → Script (Option Value)) : Node → Script (Option Value)
  | .number _ n => return some (.int n)
  | .bool _ b => return some (.bool b)
  | .str span t => look (do
      let filled ← liftScope span (interpolate (← get).chain t)
      return some (.str filled)) Idle.interpolate
  | .use span name => look (resolve span name) Idle.resolve
  | .declare span name type => do
    declare span name type none
    return none
  | .declareAs span name type value => do
    let v ← needValue value (← ofNode env bound next value)
    declare span name type (some v)
    return none
  | .assign span name value => do
    let v ← needValue value (← ofNode env bound next value)
    assign span name v
    return none
  | .arith span left op right => do
    let l ← needInt left op.symbol (← needValue left (← ofNode env bound next left))
    let r ← needInt right op.symbol (← needValue right (← ofNode env bound next right))
    look (applyArith span op l r) (Idle.sequential.applyArith span op l r)
  | .compare span left op right => do
    let l ← needInt left op.symbol (← needValue left (← ofNode env bound next left))
    let r ← needInt right op.symbol (← needValue right (← ofNode env bound next right))
    return some (.bool (← look (applyRelation span op l r) (Idle.sequential.applyRelation span op l r)))
  | .sign span op operand => look (applySign span op operand) (Idle.sequential.applySign span op)
  | .block _ body => do
    framed (statements next body)
    return none
  | .function .. => return none
  | .call span name callee args =>
    match env.target? callee with
    | some f => do
      if args.length = f.params.length then
        let values ← ofArgs env bound next args
        callFunction next f values span
        return none
      else .fail (.arity f.name f.params.length args.length) span
    | none => do
      let values ← ofArgs env bound next args
      callBuiltin span name values
  | .when _ cond _ yes => do
    if ← ofCondition env bound next "if" cond then framed (statements next yes)
    return none
  | .choose _ cond _ yes _ no => do
    if ← ofCondition env bound next "if" cond then framed (statements next yes)
    else framed (statements next no)
    return none
  | .whileLoop span cond _ body => do
    turns (do
      check span
      if ← ofCondition env bound next "while" cond then
        statements next body
        return true
      else return false) bound
    return none
  | .forLoop span init cond last _ body =>
    framed (do
      discard (ofNode env bound next init)
      turns (do
        check span
        if ← ofCondition env bound next "for" cond then
          framed (statements next body)
          discard (ofNode env bound next last)
          return true
        else return false) bound
      return none)
  | .skip .. => return none
  | n@(.program span _ _) => .fail (.unhandled n.kind) span

/-- The script of a condition. -/
def ofCondition (env : Env) (bound : Nat) (next : Node → Script (Option Value)) (statement : Text) :
    Node → Script Bool
  | .compare span left op right => do
    let l ← needInt left op.symbol (← needValue left (← ofNode env bound next left))
    let r ← needInt right op.symbol (← needValue right (← ofNode env bound next right))
    look (applyRelation span op l r) (Idle.sequential.applyRelation span op l r)
  | n => .fail (.condition statement n.kind) n.span

/-- The script of arguments. -/
def ofArgs (env : Env) (bound : Nat) (next : Node → Script (Option Value)) : List Node → Script (List Value)
  | [] => return []
  | n :: rest => do
    let v ← needValue n (← ofNode env bound next n)
    return v :: (← ofArgs env bound next rest)

end

/-- The script of a node at a level. -/
def ofEval (env : Env) : Nat → Node → Script (Option Value)
  | 0 => ofNode env 0 fun _ => return none
  | level + 1 => ofNode env (level + 1) (ofEval env level)

/-- The script of global declarations. -/
def globals (next : Node → Script (Option Value)) : List Node → Script Unit
  | [] => return ()
  | g :: rest => do
    discard (next g)
    globals next rest

/-- The script of a program. -/
def start (next : Node → Script (Option Value)) (p : Program) : Script Unit := do
  if p.globals.isEmpty && p.functions.isEmpty then .fail .emptyProgram p.span
  globals next p.globals
  match p.entry? with
  | none => return ()
  | some f =>
    if f.name = ("Main" : Text) then callFunction next f [] f.span else .fail (.entryName f.name) f.span

/-! ## Performing them -/

section Performing

variable {env : Env}

theorem run_pure (a : α) : (Pure.pure a : Script α).run env = Pure.pure a := rfl

theorem run_fail (fault : Fault) (span : Span) : (Script.fail fault span : Script α).run env = Run.fail fault span :=
  rfl

theorem run_ite {c : Prop} [Decidable c] (s t : Script α) :
    (if c then s else t).run env = if c then s.run env else t.run env := by
  split <;> rfl

theorem run_discard (s : Script α) : (discard s).run env = discard (s.run env) := run_bind env s _

theorem run_step (s : Step α) : (Script.step s .pure).run env = s.run env := bind_pure (s.run env)

theorem run_check (span : Span) : (check span).run env = Run.check span := run_step _

theorem run_declare (span : Span) (name : Text) (type : VarType) (value : Option Value) :
    (declare span name type value).run env = Run.declare span name type value := run_step _

theorem run_assign (span : Span) (name : Text) (value : Value) :
    (assign span name value).run env = Run.assign span name value := run_step _

theorem run_callBuiltin (span : Span) (name : Text) (args : List Value) :
    (callBuiltin span name args).run env = Run.callBuiltin env span name args := run_step _

theorem run_framed (s : Script α) : (framed s).run env = Run.inFrame (s.run env) := bind_pure (Run.inFrame (s.run env))

theorem run_look (x : Run α) (h : Idle x) : (look x h).run env = x := run_step _

theorem run_needValue (n : Node) (v : Option Value) : (needValue n v).run env = Run.needValue n v := run_look ..

theorem run_needInt (n : Node) (symbol : Text) (v : Value) :
    (needInt n symbol v).run env = Run.needInt n symbol v := run_look ..

variable {next : Node → Script (Option Value)} {next' : Node → Run (Option Value)}

theorem run_statements (hnext : ∀ s, (next s).run env = next' s) (body : List Node) :
    (statements next body).run env = Run.statements next' body := by
  induction body with
  | nil => rfl
  | cons s rest ih => simp only [statements, Run.statements, run_bind, run_check, run_discard, hnext, ih]

theorem run_turns {turn : Script Bool} {turn' : Run Bool} (h : turn.run env = turn') (n : Nat) :
    (turns turn n).run env = Run.turns turn' n := by
  induction n with
  | zero => rw [turns, run_discard, h, Run.turns]
  | succ n ih =>
    simp only [turns, Run.turns, run_bind, h, run_ite, ih]
    rfl

theorem run_callFunction (hnext : ∀ s, (next s).run env = next' s) (f : Function) (args : List Value) (span : Span) :
    (callFunction next f args span).run env = Run.callFunction next' f args span := by
  unfold callFunction Run.callFunction
  split
  · rw [run, run_statements hnext]
    exact bind_pure (runCall f args span (Run.statements next' f.body))
  · rfl

/-- The script of a node and of a condition perform what the evaluator does. -/
structure Performs (env : Env) (bound : Nat) (next : Node → Script (Option Value))
    (next' : Node → Run (Option Value)) (n : Node) : Prop where
  eval : (ofNode env bound next n).run env = evalWith env bound next' n
  condition : ∀ statement,
    (ofCondition env bound next statement n).run env = evalCondition env bound next' statement n

variable {bound : Nat} {n : Node}

theorem run_args {args : List Node} (h : ∀ a ∈ args, (ofNode env bound next a).run env = evalWith env bound next' a) :
    (ofArgs env bound next args).run env = evalArgs env bound next' args := by
  induction args with
  | nil =>
    simp only [ofArgs, evalArgs]
    rfl
  | cons a args ih =>
    obtain ⟨ha, hargs⟩ := List.forall_mem_cons.1 h
    simp only [ofArgs, evalArgs, run_bind, run_needValue, run_pure, ha, ih hargs]

theorem run_condition (h : ∀ c ∈ n.children, Performs env bound next next' c) (statement : Text) :
    (ofCondition env bound next statement n).run env = evalCondition env bound next' statement n := by
  cases n with
  | compare _ left _ right =>
    have hleft := (h left (by simp [children])).eval
    have hright := (h right (by simp [children])).eval
    simp only [ofCondition, evalCondition, run_bind, run_needValue, run_needInt, run_look, hleft, hright]
  | _ =>
    simp only [ofCondition, evalCondition]
    rfl

theorem run_call {span : Span} {name : Text} {callee : Callee} {args : List Node}
    (hnext : ∀ s, (next s).run env = next' s)
    (h : ∀ a ∈ args, (ofNode env bound next a).run env = evalWith env bound next' a) :
    (ofNode env bound next (.call span name callee args)).run env =
      evalWith env bound next' (.call span name callee args) := by
  simp only [ofNode, evalWith]
  cases env.target? callee with
  | none => simp only [run_bind, run_args h, run_callBuiltin]
  | some f => simp only [run_ite, run_bind, run_args h, run_callFunction hnext, run_pure, run_fail]

/-- One case for each kind of node. -/
theorem run_node (hnext : ∀ s, (next s).run env = next' s)
    (h : ∀ c ∈ n.children, Performs env bound next next' c) :
    (ofNode env bound next n).run env = evalWith env bound next' n := by
  have hbody := run_statements hnext
  cases n with
  | number | bool | function | skip =>
    simp only [ofNode, evalWith]
    rfl
  | str | use | sign =>
    simp only [ofNode, evalWith]
    exact run_look ..
  | declare => simp only [ofNode, evalWith, run_bind, run_declare, run_pure]
  | declareAs _ _ _ value =>
    have hvalue := (h value (by simp [children])).eval
    simp only [ofNode, evalWith, run_bind, run_needValue, run_declare, run_pure, hvalue]
  | assign _ _ value =>
    have hvalue := (h value (by simp [children])).eval
    simp only [ofNode, evalWith, run_bind, run_needValue, run_assign, run_pure, hvalue]
  | arith _ left _ right | compare _ left _ right =>
    have hleft := (h left (by simp [children])).eval
    have hright := (h right (by simp [children])).eval
    simp only [ofNode, evalWith, run_bind, run_needValue, run_needInt, run_look, run_pure, hleft, hright]
  | block => simp only [ofNode, evalWith, run_bind, run_framed, run_pure, hbody]
  | call => exact run_call hnext fun a ha => (h a ha).eval
  | when _ cond =>
    have hcond := (h cond (by simp [children])).condition
    simp only [ofNode, evalWith, run_bind, run_framed, run_pure, run_ite, hcond, hbody]
  | choose _ cond =>
    have hcond := (h cond (by simp [children])).condition
    simp only [ofNode, evalWith, run_bind, run_framed, run_pure, run_ite, hcond, hbody]
  | whileLoop _ cond =>
    have hcond := (h cond (by simp [children])).condition
    simp only [ofNode, evalWith, run_bind, run_pure]
    rw [run_turns]
    simp only [run_bind, run_check, run_pure, run_ite, hcond, hbody]
  | forLoop _ init cond last =>
    have hinit := (h init (by simp [children])).eval
    have hcond := (h cond (by simp [children])).condition
    have hlast := (h last (by simp [children])).eval
    simp only [ofNode, evalWith, run_framed, run_bind, run_discard, run_pure, hinit]
    rw [run_turns]
    simp only [run_bind, run_check, run_framed, run_discard, run_pure, run_ite, hcond, hlast, hbody]
  | program =>
    simp only [ofNode, evalWith]
    rfl

theorem performs (hnext : ∀ s, (next s).run env = next' s) (n : Node) : Performs env bound next next' n := by
  induction n using induction_children with
  | step n ih => exact ⟨run_node hnext ih, run_condition ih⟩

/-- Performing the script of a node is evaluating it. -/
theorem run_script (env : Env) (level : Nat) (n : Node) : (ofEval env level n).run env = eval env level n := by
  induction level generalizing n with
  | zero => exact (performs (fun _ => rfl) n).eval
  | succ level ih => exact (performs ih n).eval

/-- Performing the script of a program is starting it. -/
theorem run_start (env : Env) (level : Nat) (p : Program) :
    (start (ofEval env level) p).run env = Run.start (eval env level) p := by
  have hglobals : ∀ gs, (globals (ofEval env level) gs).run env = Run.globals (eval env level) gs := by
    intro gs
    induction gs with
    | nil => rfl
    | cons g gs ih => simp only [globals, Run.globals, run_bind, run_discard, run_script, ih]
  unfold start Run.start
  cases p.entry? with
  | none => simp only [run_ite, run_bind, run_fail, run_pure, hglobals]
  | some f => simp only [run_ite, run_bind, run_fail, hglobals, run_callFunction (run_script env level)]

end Performing

end Script

/-! ## Points -/

/-- What a frame was made for: the globals of the run, a block, or a call of a function. -/
inductive Origin where
  | run
  | block
  | call (f : Function)

/-- A machine that a run goes through, with the origins of its frames. -/
structure Point where
  machine : Machine
  origins : List Origin

/-- The points after a step: those of what follows it, or the one at which it has failed. -/
def onward (r : Except Failure α × Machine) (origins : List Origin) (points : α → Machine → List Point) :
    List Point :=
  match r with
  | (.ok a, m) => points a m
  | (.error _, m) => [⟨m, origins⟩]

/-- The machines that the declaration of parameters goes through. -/
def paramPoints : List Param → List Value → Machine → List Origin → List Point
  | p :: params, v :: args, m, origins =>
    ⟨m, origins⟩ :: onward (declare p.span p.name p.type (some v) m) origins fun _ m' =>
      paramPoints params args m' origins
  | _, _, m, origins => [⟨m, origins⟩]

/-- The machine of a call that has begun. -/
def Machine.entered (m : Machine) (f : Function) (span : Span) : Machine :=
  { m with events := ⟨span, .callStart f.name⟩ :: m.events }

namespace Script

/-- The machines that a script goes through, from its start to its end. The parameters of a call are declared where
only the globals are visible, and its body is performed on top of the frames of the caller. -/
def points (env : Env) {α : Type} : Script α → Machine → List Origin → List Point
  | .pure _, m, origins => [⟨m, origins⟩]
  | .fail _ _, m, origins => [⟨m, origins⟩]
  | .step s next, m, origins =>
    ⟨m, origins⟩ :: onward (s.run env m) origins fun b m' => (next b).points env m' origins
  | .inFrame body next, m, origins =>
    ⟨m, origins⟩ :: body.points env { m with chain := {} :: m.chain } (.block :: origins) ++
      onward (Run.inFrame (body.run env) m) origins fun b m' => (next b).points env m' origins
  | .call f args span body next, m, origins =>
    ⟨m, origins⟩ ::
      paramPoints f.params args { m.entered f span with chain := {} :: m.chain.getLast?.toList } [.call f, .run] ++
      (match callFrame f args (m.entered f span) with
        | (.ok frame, m') => body.points env { m' with chain := frame :: m'.chain } (.call f :: origins)
        | (.error _, _) => []) ++
      onward (runCall f args span (body.run env) m) origins fun _ m' => next.points env m' origins

/-- A run begins at a point. -/
theorem start_mem_points (env : Env) (s : Script α) (m : Machine) (origins : List Origin) :
    ⟨m, origins⟩ ∈ s.points env m origins := by
  cases s <;> simp [points]

theorem end_mem_onward {x : Run α} {f : α → Run β} {points : α → Machine → List Point} {origins : List Origin}
    (h : ∀ a m, ⟨(f a m).2, origins⟩ ∈ points a m) (m : Machine) :
    ⟨((x >>= f) m).2, origins⟩ ∈ onward (x m) origins points := by
  rw [bind_apply]
  cases x m with
  | mk result m' =>
    cases result with
    | ok a => exact h a m'
    | error e => exact List.mem_singleton.2 rfl

/-- A run ends at one of its points, whether it fails or not. -/
theorem end_mem_points (env : Env) (s : Script α) (m : Machine) (origins : List Origin) :
    ⟨(s.run env m).2, origins⟩ ∈ s.points env m origins := by
  induction s generalizing m with
  | pure a => exact List.mem_singleton.2 rfl
  | fail fault span => exact List.mem_singleton.2 rfl
  | step s next ih => exact List.mem_cons_of_mem _ (end_mem_onward ih m)
  | inFrame body next _ ih => exact List.mem_append_right _ (end_mem_onward ih m)
  | call f args span body next _ ih => exact List.mem_append_right _ (end_mem_onward (fun _ => ih) m)

end Script

end Run

open Run

/-- The points of a run of a program. -/
def Program.points (p : Program) (registry : Registry) (world : World) (budget : Nat) : List Point :=
  let env : Env := ⟨registry, p.allFunctions⟩
  (Script.start (Script.ofEval env budget) p).points env (.start world budget) [.run]

/-- A run of a program goes from its first machine to its last one. -/
theorem Program.ends_mem_points (p : Program) (registry : Registry) (world : World) (budget : Nat) :
    ⟨.start world budget, [.run]⟩ ∈ p.points registry world budget ∧
      ⟨(Run.start (eval ⟨registry, p.allFunctions⟩ budget) p (.start world budget)).2, [.run]⟩ ∈
        p.points registry world budget := by
  refine ⟨Script.start_mem_points .., ?_⟩
  rw [← Script.run_start]
  exact Script.end_mem_points ..

end ScriptKit
