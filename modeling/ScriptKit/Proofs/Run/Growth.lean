import ScriptKit.Proofs.Run.Brackets
import ScriptKit.Proofs.Run.Expressions
import ScriptKit.Proofs.Run.Local
import ScriptKit.Proofs.Run.Simulation
import ScriptKit.Proofs.Scope.Growth

/-!
# What runs declare

A run declares variables in the first of its frames only, and frames that were made on the way are gone at the
end, whether a step fails or not. `Declares G x` says so of a step: the frames after it are those before it with
some declarations from `G` on top of the first one.

Expressions declare nothing, since they are made of expressions and calls, and what a call declares goes into its
own frame. Of the statements only declarations declare something, and loops whose body has no frame of its own.
`Node.declared` lists the declarations of a statement in this sense.

**Theorem (`statement_gains`).** Whatever a node of a parsed program does to the frames, and whether it fails or
not, it declares in the first frame only, and only what is among its declarations. So after a run the globals are
those of the first few global declarations, and of all of them once a function has been called.
-/

namespace ScriptKit

namespace Node

mutual

/-- The declarations that a statement makes in the frame in which it runs. The body of a `while` loop has no
frame of its own. -/
def declared : Node → List (Text × VarType)
  | .declare _ name type | .declareAs _ name type _ => [(name, type)]
  | .whileLoop _ _ _ body => declaredAll body
  | _ => []

/-- The declarations of statements that run in one frame. -/
def declaredAll : List Node → List (Text × VarType)
  | [] => []
  | n :: ns => n.declared ++ declaredAll ns

end

theorem declaredAll_eq (ns : List Node) : declaredAll ns = ns.flatMap declared := by
  induction ns with
  | nil => rfl
  | cons n ns ih => rw [declaredAll, ih, List.flatMap_cons]

end Node

namespace Run

open Node

variable {α β : Type} {G G' : Text × VarType → Prop}

/-- The frames after a step are those before it with declarations from `G` on top of the first one. -/
def Declares (G : Text × VarType → Prop) (x : Run α) : Prop :=
  ∀ m : Machine, ∃ new, (∀ d ∈ new, G d) ∧ m.chain.Gains new (x m).2.chain

/-- Declaring nothing. -/
def Nothing (_ : Text × VarType) : Prop := False

namespace Declares

variable {span : Span} {name : Text}

/-! ## Small steps -/

theorem mono {x : Run α} (h : Declares G x) (hG : ∀ d, G d → G' d) : Declares G' x := by
  intro m
  obtain ⟨new, hnew, hgains⟩ := h m
  exact ⟨new, fun d hd => hG d (hnew d hd), hgains⟩

theorem none {x : Run α} (h : Declares Nothing x) : Declares G x := h.mono fun _ hd => hd.elim

theorem headers_eq {x : Run α} (h : Declares Nothing x) (m : Machine) :
    (x m).2.chain.headers = m.chain.headers := by
  obtain ⟨new, hnew, hgains⟩ := h m
  cases new with
  | nil => exact hgains.headers.trans (Chain.grow_nil _)
  | cons d new => exact (hnew d (List.mem_cons_self ..)).elim

/-- A step after which the frames are what they were. -/
theorem idle {x : Run α} (h : ∀ m, (x m).2.chain = m.chain) : Declares G x := fun m =>
  ⟨[], by simp, (h m).symm ▸ .refl _⟩

theorem sequential : Sequential fun _ x => Declares G x := by
  refine .of_trans (R := fun m m' => ∃ new, (∀ d ∈ new, G d) ∧ m.chain.Gains new m'.chain) ?_ ?_
  · exact fun _ => ⟨[], by simp, .refl _⟩
  · rintro _ _ _ ⟨new, hnew, hgains⟩ ⟨new', hnew', hgains'⟩
    refine ⟨new' ++ new, fun d hd => ?_, hgains.trans hgains'⟩
    rcases List.mem_append.1 hd with hd | hd
    · exact hnew' d hd
    · exact hnew d hd

theorem pure {a : α} : Declares G (pure a) := sequential.pure a

theorem fail {fault : Fault} : Declares G (fail fault span : Run α) := sequential.fail fault span

theorem bind {x : Run α} {f : α → Run β} (hx : Declares G x) (hf : ∀ a, Declares G (f a)) :
    Declares G (x >>= f) := sequential.bind hx hf

theorem check : Declares G (check span) := by
  refine idle fun m => ?_
  cases hbudget : m.budget with
  | zero => rw [Sim.check_zero hbudget]
  | succ n => rw [Sim.check_succ hbudget]

theorem emit {what : Trace.Happening} : Declares G (emit span what) := idle fun _ => rfl

theorem declare {type : VarType} {value : Option Value} (h : G (name, type)) :
    Declares G (declare span name type value) := by
  intro m
  rw [declare_apply]
  cases hdeclare : m.chain.declare name type value with
  | error e => exact ⟨[], by simp, .refl _⟩
  | ok c => exact ⟨[(name, type)], by simpa using h, .declare hdeclare⟩

theorem assign {value : Value} : Declares G (assign span name value) := by
  intro m
  rw [assign_apply]
  cases hassign : m.chain.assign name (some value) with
  | error e => exact ⟨[], by simp, .refl _⟩
  | ok c => exact ⟨[], by simp, .assign hassign⟩

theorem liftScope {r : Except Scope.Error α} : Declares G (liftScope span r) := by
  cases r with
  | ok a => exact pure
  | error e => exact fail

theorem resolve : Declares G (resolve span name) := fun m => liftScope m

theorem interpolate {text : Text} :
    Declares G (do
      let filled ← Run.liftScope span (ScriptKit.interpolate (← MonadState.get).chain text)
      return some (Value.str filled)) := fun m => bind liftScope (fun _ => pure) m

theorem callBuiltin {env : Env} {args : List Value} : Declares G (callBuiltin env span name args) := by
  refine idle fun m => ?_
  cases hb : env.builtins.get? name with
  | none =>
    unfold Run.callBuiltin
    rw [hb]
    rfl
  | some b => rw [callBuiltin_apply hb]

/-! ## Frames and calls -/

/-- Whatever is declared in a frame of its own is gone with it. -/
theorem inside {frame : Frame} {x : Run α} (h : Declares (fun _ => True) x) : Declares G (Sim.inside frame x) := by
  intro m
  obtain ⟨new, -, hgains⟩ := h { m with chain := frame :: m.chain }
  exact ⟨[], by simp, hgains.pop⟩

theorem inFrame {x : Run α} (h : Declares (fun _ => True) x) : Declares G (inFrame x) := inside h

/-- The parameters of a call are declared apart from the frames of the caller. -/
theorem callFrame {f : Function} {args : List Value} : Declares G (callFrame f args) := by
  refine idle fun m => ?_
  simp only [Run.callFrame]
  cases bindParams f.params args { m with chain := {} :: m.chain.getLast?.toList } with
  | mk result m' => cases result <;> rfl

theorem reportEnd {x : Run Unit} (h : Declares G x) : Declares G (reportEnd span name x) := h

theorem callFunction {next : Node → Run (Option Value)} {f : Function} {args : List Value}
    (h : Declares (fun _ => True) (statements next f.body)) : Declares G (callFunction next f args span) :=
  sequential.ite (bind emit fun _ => bind callFrame fun _ => reportEnd (inside h)) fail

theorem statements {next : Node → Run (Option Value)} {body : List Node}
    (h : ∀ s ∈ body, Declares G (next s)) : Declares G (statements next body) := by
  induction body with
  | nil => exact pure
  | cons s rest ih =>
    obtain ⟨hs, hrest⟩ := List.forall_mem_cons.1 h
    exact bind check fun _ => bind (sequential.discard hs) fun _ => ih hrest

end Declares

/-- Every step of the evaluator declares in the first frame at most. -/
theorem declares_rules (env : Env) : Rules env fun _ x => Declares (fun _ => True) x where
  pure _ := .pure
  fail _ _ := .fail
  bind hx hf := .bind hx hf
  check _ := .check
  declare _ _ _ _ := .declare trivial
  assign _ _ _ := .assign
  resolve _ _ := .resolve
  interpolate _ _ := .interpolate
  callBuiltin _ _ _ := .callBuiltin
  inFrame hx := .inFrame hx
  callFunction _ _ _ hbody := .callFunction hbody

/-! ## Expressions and statements -/

section Nodes

variable {env : Env} {bound level : Nat} {S : Text → Prop} {C : Text → Callee → Prop} {n : Node}

/-- Expressions declare nothing: what a call declares goes into its own frame. -/
theorem declares_expr (env : Env) (bound level : Nat) :
    ExprRules env bound (below env level) C fun _ x => Declares Nothing x where
  sequential := Declares.sequential
  resolve _ _ := .resolve
  interpolate _ _ := .interpolate
  call span name callee args _ hargs := by
    have hargs := Declares.sequential.evalArgs hargs
    simp only [evalWith]
    split
    · refine Declares.sequential.ite (.bind hargs fun _ => .bind (.callFunction ?_) fun _ => .pure) .fail
      exact .statements fun s _ => (declares_rules env).below level s
    · exact .bind hargs fun _ => .callBuiltin

/-- One case for each kind of statement. -/
theorem declares_stmt (hn : IsStmt S C n)
    (hnext : ∀ s, IsStmt S C s → Declares (· ∈ s.declared) (below env level s)) :
    Declares (· ∈ n.declared) (evalWith env bound (below env level) n) := by
  have hseq : Sequential fun _ x => Declares (· ∈ n.declared) x := Declares.sequential
  have hexprs : ExprRules env bound (below env level) C fun _ x => Declares Nothing x := declares_expr ..
  have hall : ∀ c, Declares (fun _ => True) (evalWith env bound (below env level) c) ∧
      ∀ statement, Declares (fun _ => True) (evalCondition env bound (below env level) statement c) :=
    (declares_rules env).evalWith ((declares_rules env).below level)
  have hbody : ∀ body, Declares (fun _ => True) (statements (below env level) body) := fun body =>
    .statements fun s _ => (declares_rules env).below level s
  cases hn with
  | declare =>
    simp only [evalWith]
    exact .bind (.declare (by simp [declared])) fun _ => .pure
  | declareAs _ hvalue =>
    simp only [evalWith]
    refine .bind (hexprs.expr hvalue).none fun v => .bind (hseq.needValue v) fun v => ?_
    exact .bind (.declare (by simp [declared])) fun _ => .pure
  | assign _ hvalue =>
    simp only [evalWith]
    refine .bind (hexprs.expr hvalue).none fun v => .bind (hseq.needValue v) fun v => ?_
    exact .bind .assign fun _ => .pure
  | call hcall => exact (hexprs.expr hcall).none
  | function | skip =>
    simp only [evalWith]
    exact .pure
  | when hcond =>
    simp only [evalWith]
    refine .bind (hexprs.condition hcond _).none fun go => ?_
    exact hseq.ite (.bind (.inFrame (hbody _)) fun _ => .pure) .pure
  | choose hcond =>
    simp only [evalWith]
    refine .bind (hexprs.condition hcond _).none fun go => hseq.ite ?_ ?_
    all_goals exact .bind (.inFrame (hbody _)) fun _ => .pure
  | whileLoop hcond hstmts =>
    simp only [evalWith]
    refine .bind (hseq.turns (.bind .check fun _ => ?_) _) fun _ => .pure
    refine .bind (hexprs.condition hcond _).none fun go => hseq.ite (.bind ?_ fun _ => .pure) .pure
    -- the body of a while loop has no frame of its own: what it declares, the loop declares
    refine .statements fun s hs => (hnext s (hstmts s hs)).mono fun d hd => ?_
    simp only [declared, declaredAll_eq]
    exact List.mem_flatMap.2 ⟨s, hs, hd⟩
  | forLoop =>
    have hseq : Sequential fun _ x => Declares (fun _ => True) x := Declares.sequential
    simp only [evalWith]
    refine .inFrame (.bind (hseq.discard (hall _).1) fun _ => ?_)
    refine .bind (hseq.turns (.bind .check fun _ => ?_) _) fun _ => .pure
    refine .bind ((hall _).2 _) fun go => hseq.ite ?_ .pure
    exact .bind (.inFrame (hbody _)) fun _ => .bind (hseq.discard (hall _).1) fun _ => .pure

/-- A statement declares what is among its declarations, at every level. -/
theorem declares_eval (hn : IsStmt S C n) (level : Nat) : Declares (· ∈ n.declared) (eval env level n) := by
  have hbelow : ∀ level s, IsStmt S C s → Declares (· ∈ s.declared) (below env level s) := by
    intro level
    induction level with
    | zero => exact fun s _ => .pure
    | succ level ih =>
      intro s hs
      show Declares _ (eval env level s)
      rw [eval_eq]
      exact declares_stmt hs ih
  exact hbelow (level + 1) n hn

end Nodes

/-! ## Global declarations -/

/-- A step that makes the given declarations, or fails and makes none. -/
def DeclaresAll (new : List (Text × VarType)) (x : Run α) : Prop :=
  ∀ m : Machine, (∃ a, (x m).1 = .ok a ∧ m.chain.Gains new (x m).2.chain) ∨
    ∃ e, (x m).1 = .error e ∧ m.chain.Gains [] (x m).2.chain

namespace DeclaresAll

variable {new : List (Text × VarType)} {span : Span} {name : Text}

theorem declare {type : VarType} {value : Option Value} :
    DeclaresAll [(name, type)] (declare span name type value) := by
  intro m
  rw [declare_apply]
  cases hdeclare : m.chain.declare name type value with
  | error e => exact Or.inr ⟨_, rfl, .refl _⟩
  | ok c => exact Or.inl ⟨(), rfl, .declare hdeclare⟩

theorem bind_pure {x : Run α} (h : DeclaresAll new x) (b : β) : DeclaresAll new (x >>= fun _ => Pure.pure b) := by
  intro m
  have hx := h m
  rw [bind_apply]
  revert hx
  cases x m with
  | mk result m' =>
    rintro (⟨a, rfl, hgains⟩ | ⟨e, rfl, hgains⟩)
    · exact Or.inl ⟨b, rfl, hgains⟩
    · exact Or.inr ⟨e, rfl, hgains⟩

/-- What comes before the declarations makes none. -/
theorem bind {x : Run α} {f : α → Run β} (hx : Declares Nothing x) (hf : ∀ a, DeclaresAll new (f a)) :
    DeclaresAll new (x >>= f) := by
  intro m
  have hsame := Chain.Gains.same (hx.headers_eq m)
  rw [bind_apply]
  revert hsame
  cases x m with
  | mk result m' =>
    intro hsame
    cases result with
    | error e => exact Or.inr ⟨e, rfl, hsame⟩
    | ok a =>
      rcases hf a m' with ⟨b, hb, hgains⟩ | ⟨e, he, hgains⟩
      · exact Or.inl ⟨b, hb, by simpa using hsame.trans hgains⟩
      · exact Or.inr ⟨e, he, hsame.trans hgains⟩

end DeclaresAll

section Globals

variable {env : Env} {S : Text → Prop} {C : Text → Callee → Prop} {g : Node} {gs : List Node}

/-- A global declaration declares its variable, unless it fails. -/
theorem declaresAll_eval (hg : IsStmt S C g) (hdecl : g.isDeclaration = true) (level : Nat) :
    DeclaresAll g.declared (eval env level g) := by
  rw [eval_eq]
  cases hg <;> simp only [isDeclaration, Bool.false_eq_true] at hdecl
  case declare =>
    simp only [evalWith, declared]
    exact DeclaresAll.declare.bind_pure _
  case declareAs _ hvalue =>
    simp only [evalWith, declared]
    refine .bind ((declares_expr env level level).expr hvalue) fun v => ?_
    exact .bind (Declares.sequential.needValue v) fun v => DeclaresAll.declare.bind_pure _

theorem declared_of_declaration (hdecl : g.isDeclaration = true) : g.declared.reverse = g.declared := by
  cases g <;> simp only [isDeclaration, Bool.false_eq_true] at hdecl <;> rfl

/-- Global declarations are made in order, as far as they go. -/
theorem globals_gain (hgs : ∀ g ∈ gs, IsStmt S C g ∧ g.isDeclaration = true) (level : Nat) (m : Machine) :
    ∃ k, m.chain.Gains ((gs.take k).flatMap declared).reverse (globals (eval env level) gs m).2.chain ∧
      ((globals (eval env level) gs m).1 = .ok () → gs.take k = gs) := by
  induction gs generalizing m with
  | nil => exact ⟨0, .refl _, fun _ => rfl⟩
  | cons g gs ih =>
    obtain ⟨⟨hg, hdecl⟩, hgs⟩ := List.forall_mem_cons.1 hgs
    have hfirst : DeclaresAll g.declared (discard (eval env level g)) :=
      (declaresAll_eval hg hdecl level).bind_pure _
    have hstep := hfirst m
    simp only [globals]
    rw [bind_apply]
    revert hstep
    cases discard (eval env level g) m with
    | mk result m' =>
      rintro (⟨a, rfl, hgains⟩ | ⟨e, rfl, hgains⟩)
      · obtain ⟨k, hrest, hall⟩ := ih hgs m'
        refine ⟨k + 1, ?_, fun hok => ?_⟩
        · rw [List.take_succ_cons, List.flatMap_cons, List.reverse_append, declared_of_declaration hdecl]
          exact hgains.trans hrest
        · rw [List.take_succ_cons, hall hok]
      · exact ⟨0, hgains, fun hok => by cases hok⟩

end Globals

/-! ## Calls -/

/-- A step that starts no call. -/
def CallsNothing (x : Run α) : Prop :=
  ∀ m : Machine, (∀ e ∈ m.events, e.isCallStart = false) → ∀ e ∈ (x m).2.events, e.isCallStart = false

namespace CallsNothing

variable {span : Span} {name : Text}

theorem sequential : Sequential fun _ x => CallsNothing x :=
  .of_trans (R := fun m m' => (∀ e ∈ m.events, e.isCallStart = false) → ∀ e ∈ m'.events, e.isCallStart = false)
    (fun _ hm => hm) fun hmn hnk hm => hnk (hmn hm)

theorem liftScope {r : Except Scope.Error α} : CallsNothing (liftScope span r) := by
  cases r with
  | ok a => exact sequential.pure a
  | error e => exact sequential.fail _ _

theorem declare {type : VarType} {value : Option Value} : CallsNothing (declare span name type value) := by
  intro m hm
  rw [declare_apply]
  cases m.chain.declare name type value with
  | error e => exact hm
  | ok c => exact List.forall_mem_cons.2 ⟨rfl, hm⟩

theorem callBuiltin {env : Env} {args : List Value} : CallsNothing (callBuiltin env span name args) := by
  intro m hm
  cases hb : env.builtins.get? name with
  | none =>
    unfold Run.callBuiltin
    rw [hb]
    exact hm
  | some b =>
    rw [callBuiltin_apply hb]
    exact List.forall_mem_cons.2 ⟨rfl, hm⟩

end CallsNothing

section Globals

variable {env : Env} {S : Text → Prop} {g : Node} {level : Nat}

/-- An expression whose calls all go to builtins starts no call. -/
theorem callsNothing_expr (env : Env) (bound : Nat) (next : Node → Run (Option Value)) :
    ExprRules env bound next (fun _ callee => callee = .builtin) fun _ x => CallsNothing x where
  sequential := CallsNothing.sequential
  resolve _ _ := fun m => CallsNothing.liftScope m
  interpolate _ _ := fun m =>
    CallsNothing.sequential.bind CallsNothing.liftScope (fun _ => CallsNothing.sequential.pure _) m
  call span name callee args hcallee hargs := by
    subst hcallee
    simp only [evalWith, Env.target?]
    exact CallsNothing.sequential.bind (CallsNothing.sequential.evalArgs hargs) fun _ => .callBuiltin

/-- A global declaration starts no call: the functions of a program come after its globals. -/
theorem callsNothing_global (hg : IsStmt S (fun _ callee => callee = .builtin) g) (hdecl : g.isDeclaration = true) :
    CallsNothing (eval env level g) := by
  rw [eval_eq]
  have hexprs := callsNothing_expr env level (below env level)
  cases hg <;> simp only [isDeclaration, Bool.false_eq_true] at hdecl
  case declare =>
    simp only [evalWith]
    exact hexprs.sequential.bind .declare fun _ => hexprs.sequential.pure _
  case declareAs _ hvalue =>
    simp only [evalWith]
    refine hexprs.sequential.bind (hexprs.expr hvalue) fun v => ?_
    refine hexprs.sequential.bind (hexprs.sequential.needValue v) fun v => ?_
    exact hexprs.sequential.bind .declare fun _ => hexprs.sequential.pure _

/-- What a start leaves in the frame of the globals. -/
theorem start_gains {p : Program}
    (hp : ∀ g ∈ p.globals, IsStmt S (fun _ callee => callee = .builtin) g ∧ g.isDeclaration = true)
    (m : Machine) (hm : ∀ e ∈ m.events, e.isCallStart = false) :
    ∃ k, m.chain.Gains ((p.globals.take k).flatMap declared).reverse (start (eval env level) p m).2.chain ∧
      ((∃ e ∈ (start (eval env level) p m).2.events, e.isCallStart = true) → p.globals.take k = p.globals) := by
  have hnone : ∀ {events : List Trace.Event} {φ : Prop}, (∀ e ∈ events, e.isCallStart = false) →
      (∃ e ∈ events, e.isCallStart = true) → φ := by
    rintro events φ hevents ⟨e, he, hstart⟩
    rw [hevents e he] at hstart
    cases hstart
  unfold start
  split
  · exact ⟨0, .refl _, hnone hm⟩
  · obtain ⟨k, hgains, hall⟩ := globals_gain hp level m
    have hquiet : CallsNothing (globals (eval env level) p.globals) :=
      CallsNothing.sequential.globals fun g hg => callsNothing_global (hp g hg).1 (hp g hg).2
    have hevents := hquiet m hm
    show ∃ k, m.chain.Gains _ ((globals _ _ >>= _) m).2.chain ∧ ((∃ e ∈ ((globals _ _ >>= _) m).2.events, _) → _)
    rw [bind_apply]
    revert hgains hall hevents
    cases globals (eval env level) p.globals m with
    | mk result m' =>
      intro hgains hall hevents
      cases result with
      | error e => exact ⟨k, hgains, hnone hevents⟩
      | ok u =>
        refine ⟨k, ?_, fun _ => hall rfl⟩
        -- whatever comes after the globals declares nothing among them
        have hrest : ∀ x : Run Unit, Declares Nothing x →
            m.chain.Gains ((p.globals.take k).flatMap declared).reverse (x m').2.chain := fun x hx =>
          hgains.trans (.same (hx.headers_eq m'))
        apply hrest
        cases p.entry? with
        | none => exact .pure
        | some f =>
          refine Declares.sequential.ite (.callFunction ?_) .fail
          exact .statements fun s _ => (declares_rules env).eval level s

end Globals

end Run

open Run Node

/-! ## Parsed programs -/

/-- The global declarations of a parsed program are declarations, and their calls go to builtins. -/
theorem globals_of_parse {file source : Text} {builtins : Option (List Text)} {p : Program}
    (h : parse file source builtins = .ok p) :
    ∀ g ∈ p.globals, IsStmt (fun _ => True) (fun _ callee => callee = .builtin) g ∧ g.isDeclaration = true := by
  obtain ⟨s₁, s₂, hglobals, -⟩ := reads_of_parse h
  exact (hglobals.established (I := (· = [])) (fun _ _ _ => trivial) (fun _ _ htable => by rw [htable]; rfl)
    (Scanned.isSpelled_state file source) rfl Parse.registers_nil).formed

/-- The frame of a statement. Whatever node of a parsed program is evaluated, and whether that fails or not, all
frames keep their declarations, only the first one gains some, and those are among the declarations of the node:
a declaration has one, a `while` loop has those that its body reaches directly, and no other node has any. So the
globals of any run are those that the first few global declarations declare, and all of them if a function has
been called. -/
theorem statement_gains {file source : Text} {builtins : Option (List Text)} {p : Program}
    (h : parse file source builtins = .ok p) (registry : Registry) :
    (∀ n ∈ p.node.preorder, ∀ level (m : Machine), ∃ new, (∀ d ∈ new, d ∈ n.declared) ∧
      m.chain.Gains new (eval ⟨registry, p.allFunctions⟩ level n m).2.chain) ∧
    ∀ world budget, ∃ k,
      (p.run registry world budget).globals.signature.reverse = (p.globals.take k).flatMap declared ∧
      ((∃ e ∈ (p.run registry world budget).events, e.isCallStart = true) → p.globals.take k = p.globals) := by
  have hp : p.IsFormed (fun _ => True) (fun _ _ => True) :=
    formed_of_parse (I := fun _ => True) (fun _ _ _ => trivial) (fun _ _ _ => trivial) trivial
      (fun _ _ _ _ _ => trivial) h
  refine ⟨fun n hn level m => ?_, fun world budget => ?_⟩
  · rcases hp.part hn with rfl | hpart
    · rw [eval_eq]
      simp only [Program.node, evalWith]
      exact Declares.none .fail m
    · cases hpart with
      | stmt hstmt => exact declares_eval hstmt level m
      | expr hexpr =>
        rw [eval_eq]
        exact ((declares_expr ..).expr hexpr).none m
      -- a block pushes a frame, and what it declares goes with it
      | block hbody =>
        rw [eval_eq]
        simp only [evalWith]
        refine Declares.bind (.inFrame (.statements fun s _ => ?_)) (fun _ => .pure) m
        exact (declares_rules _).below level s
  · let env : Env := ⟨registry, p.allFunctions⟩
    obtain ⟨k, hgains, hall⟩ : ∃ k, Chain.Gains ((p.globals.take k).flatMap declared).reverse [.root]
        (start (eval env budget) p (.start world budget)).2.chain ∧
        ((∃ e ∈ (start (eval env budget) p (.start world budget)).2.events, e.isCallStart = true) →
          p.globals.take k = p.globals) :=
      start_gains (globals_of_parse h) (.start world budget) (by simp [Machine.start])
    refine ⟨k, ?_, fun hstarted => hall ?_⟩
    · have hroot : Frame.header (p.run registry world budget).globals =
          ⟨true, ((p.globals.take k).flatMap declared).reverse⟩ := hgains.single rfl
      have hsignature := congrArg Header.signature hroot
      rw [show (p.run registry world budget).globals.signature = _ from hsignature, List.reverse_reverse]
    · obtain ⟨e, he, hstart⟩ := hstarted
      -- the two events of the run itself are no calls
      rw [Program.events_run] at he
      simp only [List.cons_append, List.mem_cons, List.mem_append, List.mem_reverse, List.not_mem_nil,
        or_false] at he
      rcases he with rfl | he | rfl
      · cases hstart
      · exact ⟨e, he, hstart⟩
      · cases hstart

/-- A program whose second global declaration fails. -/
def failingGlobal : Text := "int a int b = c func Main() \x7b int d \x7d"

/-- The run leaves the first global, so `Main` has not been called. -/
theorem statement_gains_failing :
    ∃ p, parse "a" failingGlobal = .ok p ∧
      p.globals.flatMap Node.declared = [(Text.ofString "a", .int), (Text.ofString "b", .int)] ∧
      (p.run .default {} 9).globals.signature = [(Text.ofString "a", .int)] ∧
      ¬∃ e ∈ (p.run .default {} 9).events, e.isCallStart = true := by
  have hread : (parse "a" failingGlobal).toOption.map (fun p =>
      (p.globals.flatMap Node.declared, (p.run .default {} 9).globals.signature)) =
      some ([(Text.ofString "a", .int), (Text.ofString "b", .int)], [(Text.ofString "a", .int)]) := by
    decide +kernel
  cases hparse : parse "a" failingGlobal with
  | error e =>
    rw [hparse] at hread
    cases hread
  | ok p =>
    rw [hparse] at hread
    obtain ⟨hdeclared, hsignature⟩ := Prod.mk.inj (Option.some.inj hread)
    refine ⟨p, rfl, hdeclared, hsignature, fun hstarted => ?_⟩
    obtain ⟨k, hglobals, hall⟩ := (statement_gains hparse .default).2 {} 9
    rw [hsignature, hall hstarted, hdeclared] at hglobals
    exact absurd (congrArg List.length hglobals) (by decide)

end ScriptKit
