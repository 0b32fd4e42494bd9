import ScriptKit.Proofs.Run.Pairs
import ScriptKit.Proofs.Run.Simulation

/-!
# Runs side by side

Two runs of one program whose builtins differ, or whose worlds do. A run touches the world through its
builtins only, so whatever relation of worlds the builtins keep, while they give the same answers, is kept
by the whole run, and everything else about the two runs is the same: results, frames, events and budget.

`Beside W x y` compares two steps from machines whose worlds are related by `W` and which are the same
otherwise. Local steps do the same in both runs and steps compose, and `callBuiltin` is the one step that needs to
know more: the two builtins of that name have to answer alike, `Answers W`.

**Theorem (`run_beside`).** If all the builtins that a program calls answer alike, then its runs in related
worlds fail in the same way or not at all, leave the same globals and events, and end in related worlds.
-/

namespace ScriptKit.Run

open Node

variable {α β : Type} {W : World → World → Prop}

/-- Machines whose worlds are related and which are the same otherwise. -/
structure Machine.Beside (W : World → World → Prop) (m m' : Machine) : Prop where
  chain : m.chain = m'.chain
  world : W m.world m'.world
  events : m.events = m'.events
  budget : m.budget = m'.budget

/-- From machines side by side, two steps give the same result and end side by side. -/
def Beside (W : World → World → Prop) (x y : Run α) : Prop :=
  ∀ m m', m.Beside W m' → (x m).1 = (y m').1 ∧ (x m).2.Beside W (y m').2

/-- Builtins that give the same answers in related worlds and keep them related. -/
def Answers (W : World → World → Prop) (b b' : Builtin) : Prop :=
  ∀ args w w', W w w' → (b.run args w).1 = (b'.run args w').1 ∧ W (b.run args w).2 (b'.run args w').2

namespace Beside

/-! ## Sequencing -/

/-- A local step does the same in both runs. -/
theorem of_local {x : Run α} (h : Local x) : Beside W x x := by
  intro m m' hm
  obtain ⟨hresult, hmoved⟩ := h m m' hm.chain
  obtain ⟨es, hes, hes'⟩ := hmoved.events
  refine ⟨hresult, hmoved.chain, ?_, ?_, ?_⟩
  · rw [hmoved.world.1, hmoved.world.2]
    exact hm.world
  · rw [hes, hes', hm.events]
  · rw [hmoved.budget.1, hmoved.budget.2, hm.budget]

theorem bind {x y : Run α} {f g : α → Run β} (hx : Beside W x y) (hf : ∀ a, Beside W (f a) (g a)) :
    Beside W (x >>= f) (y >>= g) := by
  intro m m' hm
  obtain ⟨hresult, hafter⟩ := hx m m' hm
  rw [bind_apply, bind_apply]
  revert hresult hafter
  cases x m with
  | mk result m₁ =>
    cases y m' with
    | mk result' m₁' =>
      rintro (rfl : result = result') hafter
      cases result with
      | ok a => exact hf a m₁ m₁' hafter
      | error e => exact ⟨rfl, hafter⟩

theorem paired : Paired fun _ x y => Beside W x y := ⟨of_local, bind⟩

/-! ## Questions and builtins -/

variable {span : Span} {name : Text}

theorem check : Beside W (check span) (check span) := by
  intro m m' hm
  cases hbudget : m.budget with
  | zero =>
    rw [Sim.check_zero hbudget, Sim.check_zero (hm.budget ▸ hbudget)]
    exact ⟨rfl, hm⟩
  | succ n =>
    rw [Sim.check_succ hbudget, Sim.check_succ (hm.budget ▸ hbudget)]
    exact ⟨rfl, hm.chain, hm.world, hm.events, rfl⟩

/-- The one step that touches the world. -/
theorem callBuiltin {env env' : Env} {args : List Value}
    (h : Option.Rel (Answers W) (env.builtins.get? name) (env'.builtins.get? name)) :
    Beside W (callBuiltin env span name args) (callBuiltin env' span name args) := by
  generalize hb : env.builtins.get? name = found at h
  generalize hb' : env'.builtins.get? name = found' at h
  cases h with
  | none =>
    unfold Run.callBuiltin
    rw [hb, hb']
    exact of_local .fail
  | some hanswers =>
    intro m m' hm
    obtain ⟨hanswer, hworld⟩ := hanswers args m.world m'.world hm.world
    rw [callBuiltin_apply hb, callBuiltin_apply hb']
    refine ⟨congrArg (answered span name) hanswer, hm.chain, hworld, ?_, hm.budget⟩
    exact congrArg (List.cons _) hm.events

/-! ## Frames and calls -/

/-- What is done in a frame of its own, which is gone afterwards. -/
theorem inside {frame : Frame} {x y : Run α} (h : Beside W x y) :
    Beside W (Sim.inside frame x) (Sim.inside frame y) := by
  intro m m' hm
  obtain ⟨hresult, hafter⟩ := h { m with chain := frame :: m.chain } { m' with chain := frame :: m'.chain }
    ⟨congrArg (List.cons frame) hm.chain, hm.world, hm.events, hm.budget⟩
  exact ⟨hresult, congrArg List.tail hafter.chain, hafter.world, hafter.events, hafter.budget⟩

theorem inFrame {x y : Run α} (h : Beside W x y) : Beside W (inFrame x) (inFrame y) := inside h

theorem reportEnd {x y : Run Unit} (h : Beside W x y) :
    Beside W (reportEnd span name x) (reportEnd span name y) := by
  intro m m' hm
  obtain ⟨hresult, hafter⟩ := h m m' hm
  refine ⟨hresult, hafter.chain, hafter.world, ?_, hafter.budget⟩
  show _ :: (x m).2.events = _ :: (y m').2.events
  rw [hresult, hafter.events]

theorem callFunction {next next' : Node → Run (Option Value)} {f : Function} {args : List Value}
    (h : Beside W (statements next f.body) (statements next' f.body)) :
    Beside W (callFunction next f args span) (callFunction next' f args span) :=
  paired.ite (bind (of_local .emit) fun _ => bind (of_local .callFrame) fun _ => reportEnd (inside h))
    (of_local .fail)

/-! ## Lists and loops -/

theorem statements {next next' : Node → Run (Option Value)} {body : List Node}
    (h : ∀ s ∈ body, Beside W (next s) (next' s)) :
    Beside W (statements next body) (statements next' body) := by
  induction body with
  | nil => exact of_local .pure
  | cons s rest ih =>
    obtain ⟨hs, hrest⟩ := List.forall_mem_cons.1 h
    exact bind check fun _ => bind (paired.discard hs) fun _ => ih hrest

theorem turns {turn turn' : Run Bool} (h : Beside W turn turn') (n : Nat) :
    Beside W (turns turn n) (turns turn' n) := by
  induction n with
  | zero => exact paired.discard h
  | succ n ih => exact bind h fun _ => paired.ite ih (of_local .pure)

end Beside

/-! ## Nodes -/

/-- Environments with the same functions. `matched` are names whose builtins answer alike. -/
structure Env.Beside (W : World → World → Prop) (matched : Text → Prop) (env env' : Env) : Prop where
  functions : env.functions = env'.functions
  builtins : ∀ name, matched name →
    Option.Rel (Answers W) (env.builtins.get? name) (env'.builtins.get? name)

/-- The calls in a tree that find no function go to names that are matched. -/
def Env.Reaches (env : Env) (matched : Text → Prop) (n : Node) : Prop :=
  ∀ span name callee args, .call span name callee args ∈ n.preorder → env.target? callee = none →
    matched name

section Nodes

variable {env env' : Env} {matched : Text → Prop} {bound : Nat} {next next' : Node → Run (Option Value)}
  {n : Node}

theorem Env.Reaches.child (h : env.Reaches matched n) {c : Node} (hc : c ∈ n.children) :
    env.Reaches matched c :=
  fun span name callee args hm => h span name callee args (mem_preorder_of_child hc hm)

/-- What `next` does with statements is the same on both sides. -/
def NextBeside (W : World → World → Prop) (env : Env) (matched : Text → Prop)
    (next next' : Node → Run (Option Value)) : Prop :=
  ∀ s, env.Reaches matched s → Beside W (next s) (next' s)

/-- A node and a condition do the same on both sides. -/
structure BesideNode (W : World → World → Prop) (env env' : Env) (bound : Nat)
    (next next' : Node → Run (Option Value)) (n : Node) : Prop where
  eval : Beside W (evalWith env bound next n) (evalWith env' bound next' n)
  condition : ∀ statement,
    Beside W (evalCondition env bound next statement n) (evalCondition env' bound next' statement n)

/-- What the relation passes through. -/
theorem beside_pairs (henv : env.Beside W matched env') (hnext : NextBeside W env matched next next')
    (hbodies : ∀ f ∈ env.functions, ∀ s ∈ f.body, env.Reaches matched s) :
    Pairs env env' bound bound next next' (env.Reaches matched) fun _ x y => Beside W x y where
  paired := Beside.paired
  children _ hn _ hc := hn.child hc
  functions := henv.functions.symm
  inFrame hx := .inFrame hx
  statements _ hbody := .statements fun s hs => hnext s (hbody s hs)
  turns _ _ _ hx := .turns (.bind .check fun _ => hx) _
  callBuiltin span name callee args _ hn htarget :=
    .callBuiltin (henv.builtins name (hn span name callee args (mem_preorder_self _) htarget))
  callFunction f hf _ _ := .callFunction (.statements fun s hs => hnext s (hbodies f hf s hs))

theorem beside_evalWith (henv : env.Beside W matched env') (hnext : NextBeside W env matched next next')
    (hbodies : ∀ f ∈ env.functions, ∀ s ∈ f.body, env.Reaches matched s)
    (hn : env.Reaches matched n) : BesideNode W env env' bound next next' n := by
  obtain ⟨heval, hcondition⟩ := (beside_pairs henv hnext hbodies).evalWith hn
  exact ⟨heval, hcondition⟩

/-- Every level does the same on both sides. -/
theorem beside_eval (henv : env.Beside W matched env')
    (hbodies : ∀ f ∈ env.functions, ∀ s ∈ f.body, env.Reaches matched s) (level : Nat) :
    NextBeside W env matched (eval env level) (eval env' level) := by
  induction level with
  | zero => exact fun s hs => (beside_evalWith henv (fun _ _ => .of_local .pure) hbodies hs).eval
  | succ level ih => exact fun s hs => (beside_evalWith henv ih hbodies hs).eval

end Nodes

/-! ## Programs -/

/-- What two runs have in common: everything but their worlds, and those are related. -/
structure Outcome.Beside (W : World → World → Prop) (o o' : Outcome) : Prop where
  failure : o.failure = o'.failure
  globals : o.globals = o'.globals
  world : W o.world o'.world
  events : o.events = o'.events

/-- Runs of a program whose builtins answer alike, in related worlds. -/
theorem run_beside {p : Program} {registry registry' : Registry} (matched : Text → Prop)
    (hbuiltins : ∀ name, matched name →
      Option.Rel (Answers W) (registry.get? name) (registry'.get? name))
    (hp : Env.Reaches ⟨registry, p.allFunctions⟩ matched p.node) {world world' : World}
    (hworld : W world world') (budget : Nat) :
    (p.run registry world budget).Beside W (p.run registry' world' budget) := by
  have hbelow : ∀ s ∈ p.node.preorder, Env.Reaches ⟨registry, p.allFunctions⟩ matched s :=
    fun s hs span name callee args hcall => hp span name callee args (mem_preorder_trans hcall hs)
  have hbodies : ∀ f ∈ p.allFunctions, ∀ s ∈ f.body, Env.Reaches ⟨registry, p.allFunctions⟩ matched s :=
    fun f hf s hs => hbelow s (mem_preorder_body (mem_functions.1 hf) hs)
  have hchild : ∀ s ∈ p.node.children, s ∈ p.node.preorder := fun _ hs => mem_preorder_child hs
  have henv : Env.Beside W matched ⟨registry, p.allFunctions⟩ ⟨registry', p.allFunctions⟩ :=
    ⟨rfl, hbuiltins⟩
  have heval := beside_eval henv hbodies budget
  have hstart : Beside W (start (eval ⟨registry, p.allFunctions⟩ budget) p)
      (start (eval ⟨registry', p.allFunctions⟩ budget) p) := by
    refine Beside.paired.start (fun g hg => heval g (hbelow g (hchild g (List.mem_append_left _ hg)))) ?_
    intro f hf
    have hfunction : f.node ∈ p.node.preorder :=
      hchild _ (List.mem_append_right _ (List.mem_map_of_mem (List.mem_of_getLast? hf)))
    exact .callFunction (.statements fun s hs => heval s (hbelow s (mem_preorder_body hfunction hs)))
  -- what is left is to read the outcome off the two machines
  obtain ⟨hresult, hafter⟩ := hstart (.start world budget) (.start world' budget) ⟨rfl, hworld, rfl, rfl⟩
  refine ⟨congrArg Program.failure? hresult, ?_, hafter.world, ?_⟩
  · exact congrArg (fun c : Chain => c.getLast?.getD .root) hafter.chain
  · show _ :: (⟨_, .runEnd (isOk (start _ p _).1)⟩ :: (start _ p _).2.events).reverse = _
    rw [hresult, hafter.events]
    rfl

end ScriptKit.Run
