import ScriptKit.Proofs.Policy.Confinement
import ScriptKit.Proofs.Run.Pairs

/-!
# Interrupted runs

A run can be stopped from outside in two ways: it may not go on any more when it asks, or what it writes is not
taken any more. Either way it fails at once, and what it has written stands.

A `Limit` compares a run that is stopped in this way to one that goes on. As long as both do the same their
machines are `Abreast`: the frames and events are the same, the worlds are alike, and the second run has some
more questions to spare. When the first run stops, its world stays what it is, and whatever the second run goes
on to do keeps it `beyond` the first. `Truncates` carries both parts through a run: a step of the first run
either does what the step of the second does, or it stops, and the second step leaves the world beyond.

The two runs may be evaluated at different levels. A level is at least the budget, and every turn of a loop and
every statement begins with a question, so neither run gets to the end of its levels before that of its budget.

**Theorem (`interruption_truncates`).** A run with a smaller budget writes a prefix of what the run with a larger
one writes, and unless it is interrupted both are the same. A run of which only `k` writes are taken writes the
first `k` writes of the run without such a limit, and both are the same if those are all.
-/

namespace ScriptKit.Run

open Node

variable {α β : Type}

/-! ## Limits -/

/-- What may stop the first of two runs while the second goes on. -/
structure Limit where
  /-- How many more times the second run may go on when it asks. -/
  spare : Nat
  /-- How the worlds are related as long as both runs do the same. -/
  alike : World → World → Prop
  /-- How the worlds are related once the first run has stopped. -/
  beyond : World → World → Prop
  /-- The failures with which the first run stops. -/
  stops : Fault → Prop

namespace Limit

/-- Machines of two runs that have done the same so far. -/
structure Abreast (limit : Limit) (m m' : Machine) : Prop where
  chain : m.chain = m'.chain
  world : limit.alike m.world m'.world
  events : m.events = m'.events
  budget : m'.budget = m.budget + limit.spare

/-- Whatever a step does, the world stays beyond that of a run that has stopped. -/
def Outlives (limit : Limit) (y : Run α) : Prop :=
  ∀ (m : Machine) w, limit.beyond w m.world → limit.beyond w (y m).2.world

/-- A builtin answers both runs alike, or it fails in the first run and leaves the world of the second beyond. -/
structure Admits (limit : Limit) (b : Builtin) : Prop where
  answers : ∀ args w w', limit.alike w w' →
    ((b.run args w).1 = (b.run args w').1 ∧ limit.alike (b.run args w).2 (b.run args w').2) ∨
      ∃ fault, (b.run args w).1 = .error fault ∧ (∀ name, limit.stops (.builtin name fault)) ∧
        limit.beyond (b.run args w).2 (b.run args w').2
  outlives : ∀ args w w', limit.beyond w w' → limit.beyond w (b.run args w').2

/-- Nothing but questions and the builtins of a registry tells two runs apart. -/
structure Admissible (limit : Limit) (registry : Registry) : Prop where
  questions : limit.spare ≠ 0 → limit.stops .canceled ∧ ∀ w w', limit.alike w w' → limit.beyond w w'
  builtins : ∀ name b, registry.get? name = some b → limit.Admits b

end Limit

/-- The first step does what the second does or stops, and the second goes on whether the first has stopped or
not. -/
structure Truncates (limit : Limit) (level level' : Nat) (x y : Run α) : Prop where
  outlives : limit.Outlives y
  abreast : ∀ m m', limit.Abreast m m' → m.budget ≤ level → m'.budget ≤ level' →
    ((x m).1 = (y m').1 ∧ limit.Abreast (x m).2 (y m').2 ∧ (x m).2.budget ≤ m.budget) ∨
      ∃ f, (x m).1 = .error f ∧ limit.stops f.fault ∧ limit.beyond (x m).2.world (y m').2.world

variable {limit : Limit} {level level' : Nat} {span : Span} {name : Text}

/-! ## Going on alone -/

namespace Limit.Outlives

theorem sequential : Sequential fun _ y => limit.Outlives y :=
  .of_trans (R := fun m m' => ∀ w, limit.beyond w m.world → limit.beyond w m'.world) (fun _ _ hw => hw)
    fun hmn hnk w hw => hnk w (hmn w hw)

theorem bind {y : Run α} {g : α → Run β} (hy : limit.Outlives y) (hg : ∀ a, limit.Outlives (g a)) :
    limit.Outlives (y >>= g) := sequential.bind hy hg

theorem of_world {y : Run α} (h : ∀ m, (y m).2.world = m.world) : limit.Outlives y := by
  intro m w hm
  rw [h]
  exact hm

theorem of_local {y : Run α} (h : Local y) : limit.Outlives y := of_world fun m => (h m m rfl).2.world.1

theorem check : limit.Outlives (check span) := by
  refine of_world fun m => ?_
  cases hbudget : m.budget with
  | zero => rw [Sim.check_zero hbudget]
  | succ n => rw [Sim.check_succ hbudget]

theorem callBuiltin {env : Env} {args : List Value} (h : limit.Admissible env.builtins) :
    limit.Outlives (callBuiltin env span name args) := by
  intro m w hm
  cases hb : env.builtins.get? name with
  | none =>
    unfold Run.callBuiltin
    rw [hb]
    exact hm
  | some b =>
    rw [callBuiltin_apply hb]
    exact (h.builtins name b hb).outlives args w m.world hm

theorem inFrame {y : Run α} (hy : limit.Outlives y) : limit.Outlives (inFrame y) :=
  fun m w hm => hy { m with chain := {} :: m.chain } w hm

theorem callFunction {next : Node → Run (Option Value)} {f : Function} {args : List Value}
    (hbody : limit.Outlives (statements next f.body)) : limit.Outlives (callFunction next f args span) := by
  unfold Run.callFunction
  split
  · refine bind (of_local .emit) fun _ => bind (of_local .callFrame) fun frame => ?_
    intro m w hm
    exact hbody { m with chain := frame :: m.chain } w hm
  · exact of_local .fail

end Limit.Outlives

/-- Every step of the evaluator goes on alone. -/
theorem outlives_rules {env : Env} (h : limit.Admissible env.builtins) :
    Rules env fun _ y => limit.Outlives y where
  pure _ := .of_local .pure
  fail _ _ := .of_local .fail
  bind hy hg := .bind hy hg
  check _ := .check
  declare _ _ _ _ := .of_local .declare
  assign _ _ _ := .of_local .assign
  resolve _ _ := .of_local .resolve
  interpolate _ _ := .of_local .interpolate
  callBuiltin _ _ _ := .callBuiltin h
  inFrame hy := .inFrame hy
  callFunction _ _ _ hbody := .callFunction hbody

/-! ## Going on or stopping -/

namespace Truncates

theorem of_local {x : Run α} (h : Local x) : Truncates limit level level' x x := by
  refine ⟨.of_local h, fun m m' hm _ _ => Or.inl ?_⟩
  obtain ⟨hresult, hmoved⟩ := h m m' hm.chain
  obtain ⟨es, hes, hes'⟩ := hmoved.events
  refine ⟨hresult, ⟨hmoved.chain, ?_, ?_, ?_⟩, Nat.le_of_eq hmoved.budget.1⟩
  · rw [hmoved.world.1, hmoved.world.2]
    exact hm.world
  · rw [hes, hes', hm.events]
  · rw [hmoved.budget.1, hmoved.budget.2]
    exact hm.budget

theorem pure {a : α} : Truncates limit level level' (pure a) (pure a) := of_local .pure

theorem fail {fault : Fault} : Truncates limit level level' (fail fault span : Run α) (fail fault span) :=
  of_local .fail

theorem bind {x y : Run α} {f g : α → Run β} (hx : Truncates limit level level' x y)
    (hf : ∀ a, Truncates limit level level' (f a) (g a)) :
    Truncates limit level level' (x >>= f) (y >>= g) := by
  refine ⟨hx.outlives.bind fun a => (hf a).outlives, fun m m' hm hlevel hlevel' => ?_⟩
  have hstep := hx.abreast m m' hm hlevel hlevel'
  have hlast : ∀ w, limit.beyond w (y m').2.world → limit.beyond w ((y >>= g) m').2.world :=
    bind_onward (R := fun m m' => ∀ w, limit.beyond w m.world → limit.beyond w m'.world) (fun _ _ hw => hw)
      (fun a => (hf a).outlives) m'
  cases hrun : x m with
  | mk result n =>
    rw [hrun] at hstep
    rcases hstep with ⟨hresult, hn, hbudget⟩ | ⟨f, hf, hstops, hbeyond⟩
    · cases hrun' : y m' with
      | mk result' n' =>
        rw [hrun'] at hresult hn
        obtain rfl : result = result' := hresult
        cases result with
        | error e =>
          rw [bind_error_apply hrun, bind_error_apply hrun']
          exact Or.inl ⟨rfl, hn, hbudget⟩
        | ok a =>
          rw [bind_ok_apply hrun, bind_ok_apply hrun']
          have hspent := hm.budget
          have hspent' := hn.budget
          dsimp only at hbudget hspent'
          rcases (hf a).abreast n n' hn (by omega) (by omega) with ⟨hresult, hk, hless⟩ | hstop
          · exact Or.inl ⟨hresult, hk, Nat.le_trans hless hbudget⟩
          · exact Or.inr hstop
    · obtain rfl : result = .error f := hf
      rw [bind_error_apply hrun]
      exact Or.inr ⟨f, rfl, hstops, hlast n.world hbeyond⟩

theorem paired : Paired fun _ x y => Truncates limit level level' x y := ⟨of_local, bind⟩

/-- A lower level asks for less. -/
theorem lower {x y : Run α} (h : Truncates limit level level' x y) {low low' : Nat} (hlow : low ≤ level)
    (hlow' : low' ≤ level') : Truncates limit low low' x y :=
  ⟨h.outlives, fun m m' hm hlevel hlevel' =>
    h.abreast m m' hm (Nat.le_trans hlevel hlow) (Nat.le_trans hlevel' hlow')⟩

/-- A question on both sides. If the first run may not go on and the second one may, the first run stops. -/
theorem ask {x y : Run α} (hlimit : limit.spare ≠ 0 → limit.stops .canceled ∧
      ∀ w w', limit.alike w w' → limit.beyond w w')
    (hy : limit.Outlives y) (h : ∀ low low', level = low + 1 → level' = low' + 1 → Truncates limit low low' x y) :
    Truncates limit level level' (check span >>= fun _ => x) (check span >>= fun _ => y) := by
  refine ⟨.bind .check fun _ => hy, fun m m' hm hlevel hlevel' => ?_⟩
  have hspare := hm.budget
  cases hbudget : m.budget with
  | zero =>
    rw [bind_error_apply (Sim.check_zero hbudget)]
    cases hbudget' : m'.budget with
    | zero =>
      rw [bind_error_apply (Sim.check_zero hbudget')]
      exact Or.inl ⟨rfl, hm, Nat.le_of_eq hbudget⟩
    | succ n' =>
      obtain ⟨hstops, hbeyond⟩ := hlimit (by omega)
      rw [bind_ok_apply (Sim.check_succ hbudget')]
      exact Or.inr ⟨_, rfl, hstops, hy { m' with budget := n' } m.world (hbeyond _ _ hm.world)⟩
  | succ n =>
    obtain ⟨n', hbudget'⟩ : ∃ n', m'.budget = n' + 1 := ⟨m'.budget - 1, by omega⟩
    rw [bind_ok_apply (Sim.check_succ hbudget), bind_ok_apply (Sim.check_succ hbudget')]
    have hnext := (h (level - 1) (level' - 1) (by omega) (by omega)).abreast { m with budget := n }
      { m' with budget := n' } ⟨hm.chain, hm.world, hm.events, by dsimp only; omega⟩ (by dsimp only; omega)
      (by dsimp only; omega)
    rcases hnext with ⟨hresult, hk, hless⟩ | hstop
    · exact Or.inl ⟨hresult, hk, Nat.le_succ_of_le hless⟩
    · exact Or.inr hstop

/-! ## Builtins, frames and calls -/

theorem callBuiltin {env : Env} {args : List Value} (h : limit.Admissible env.builtins) :
    Truncates limit level level' (callBuiltin env span name args) (callBuiltin env span name args) := by
  refine ⟨.callBuiltin h, fun m m' hm _ _ => ?_⟩
  cases hb : env.builtins.get? name with
  | none =>
    unfold Run.callBuiltin
    rw [hb]
    exact Or.inl ⟨rfl, hm, Nat.le_refl _⟩
  | some b =>
    rw [callBuiltin_apply hb, callBuiltin_apply hb]
    rcases (h.builtins name b hb).answers args m.world m'.world hm.world with
      ⟨hanswer, hworld⟩ | ⟨fault, hfault, hstops, hbeyond⟩
    · refine Or.inl ⟨congrArg (answered span name) hanswer, ⟨hm.chain, hworld, ?_, hm.budget⟩, Nat.le_refl _⟩
      exact congrArg (List.cons _) hm.events
    · obtain ⟨place, hplace⟩ := answered_error span name fault
      exact Or.inr ⟨_, hfault ▸ hplace, hstops name, hbeyond⟩

/-- What is done in a frame of its own, which is gone afterwards. -/
theorem inside {frame : Frame} {x y : Run α} (h : Truncates limit level level' x y) :
    Truncates limit level level' (Sim.inside frame x) (Sim.inside frame y) := by
  refine ⟨fun m w hm => h.outlives { m with chain := frame :: m.chain } w hm, fun m m' hm hlevel hlevel' => ?_⟩
  have hstep := h.abreast { m with chain := frame :: m.chain } { m' with chain := frame :: m'.chain }
    ⟨congrArg (List.cons frame) hm.chain, hm.world, hm.events, hm.budget⟩ hlevel hlevel'
  rcases hstep with ⟨hresult, hk, hless⟩ | hstop
  · exact Or.inl ⟨hresult, ⟨congrArg List.tail hk.chain, hk.world, hk.events, hk.budget⟩, hless⟩
  · exact Or.inr hstop

theorem inFrame {x y : Run α} (h : Truncates limit level level' x y) :
    Truncates limit level level' (inFrame x) (inFrame y) := inside h

theorem reportEnd {x y : Run Unit} (h : Truncates limit level level' x y) :
    Truncates limit level level' (reportEnd span name x) (reportEnd span name y) := by
  refine ⟨h.outlives, fun m m' hm hlevel hlevel' => ?_⟩
  rcases h.abreast m m' hm hlevel hlevel' with ⟨hresult, hk, hless⟩ | hstop
  · refine Or.inl ⟨hresult, ⟨hk.chain, hk.world, ?_, hk.budget⟩, hless⟩
    show _ :: (x m).2.events = _ :: (y m').2.events
    rw [hresult, hk.events]
  · exact Or.inr hstop

theorem callFunction {next next' : Node → Run (Option Value)} {f : Function} {args : List Value}
    (h : Truncates limit level level' (statements next f.body) (statements next' f.body)) :
    Truncates limit level level' (callFunction next f args span) (callFunction next' f args span) :=
  paired.ite (bind (of_local .emit) fun _ => bind (of_local .callFrame) fun _ => reportEnd (inside h)) fail

/-! ## Lists and loops -/

section Asking

variable {env : Env} (h : limit.Admissible env.builtins)

include h

theorem statements {next next' : Node → Run (Option Value)} {body : List Node}
    (hnext' : ∀ s, limit.Outlives (next' s)) (hnext : ∀ low low', level = low + 1 → level' = low' + 1 →
      ∀ s, Truncates limit low low' (next s) (next' s)) :
    Truncates limit level level' (statements next body) (statements next' body) := by
  have hrules := outlives_rules h
  induction body with
  | nil => exact pure
  | cons s rest ih =>
    refine ask h.questions ?_ fun low low' hlow hlow' => ?_
    · exact .bind (hrules.sequential.discard (hnext' s)) fun _ => hrules.statements fun s _ => hnext' s
    · exact bind (paired.discard (hnext low low' hlow hlow' s)) fun _ => ih.lower (by omega) (by omega)

/-- A loop whose turns begin with a question. Each turn takes one from both budgets, so the bound of a loop stays
a bound of the budget. -/
theorem turns {x y : Run Bool} (hxy : Truncates limit level level' x y) :
    Truncates limit level level' (turns (check span >>= fun _ => x) level)
      (turns (check span >>= fun _ => y) level') := by
  have hrules := outlives_rules h
  have hloop : ∀ n, limit.Outlives (Run.turns (check span >>= fun _ => y) n) :=
    hrules.sequential.turns (.bind .check fun _ => hxy.outlives)
  induction level generalizing level' with
  | zero =>
    cases level' with
    | zero =>
      show Truncates limit 0 0 (Functor.discard _) (Functor.discard _)
      exact paired.discard (ask h.questions hxy.outlives fun _ _ hlow => by cases hlow)
    | succ low' =>
      show Truncates limit 0 (low' + 1) ((check span >>= fun _ => x) >>= fun _ => Pure.pure ()) _
      rw [Run.turns, bind_assoc, bind_assoc]
      refine ask h.questions (hxy.outlives.bind fun again => ?_) fun _ _ hlow => by cases hlow
      exact hrules.sequential.ite (hloop low') (hrules.pure ())
  | succ low ih =>
    cases level' with
    | zero =>
      show Truncates limit (low + 1) 0 _ ((check span >>= fun _ => y) >>= fun _ => Pure.pure ())
      rw [Run.turns, bind_assoc, bind_assoc]
      exact ask h.questions (hxy.outlives.bind fun _ => hrules.pure ()) fun _ _ _ hlow' => by cases hlow'
    | succ low' =>
      rw [Run.turns, Run.turns, bind_assoc, bind_assoc]
      refine ask h.questions (hxy.outlives.bind fun again => hrules.sequential.ite (hloop low') (hrules.pure ())) ?_
      rintro _ _ ⟨rfl⟩ ⟨rfl⟩
      have hlower := hxy.lower (Nat.le_succ low) (Nat.le_succ low')
      exact bind hlower fun again => paired.ite (ih hlower) pure

end Asking

end Truncates

/-! ## Nodes -/

section Nodes

variable {env : Env} {next next' : Node → Run (Option Value)} {n : Node}

/-- What is handed to the levels below, past a question. -/
structure TruncatesNext (limit : Limit) (level level' : Nat) (next next' : Node → Run (Option Value)) : Prop where
  outlives : ∀ s, limit.Outlives (next' s)
  below : ∀ low low', level = low + 1 → level' = low' + 1 → ∀ s, Truncates limit low low' (next s) (next' s)

/-- What the relation passes through. -/
theorem truncates_pairs (henv : limit.Admissible env.builtins) (hnext : TruncatesNext limit level level' next next') :
    Pairs env env level level' next next' (fun _ => True) fun _ x y => Truncates limit level level' x y where
  paired := Truncates.paired
  children _ _ _ _ := trivial
  functions := rfl
  inFrame hx := .inFrame hx
  statements _ _ := .statements henv hnext.outlives hnext.below
  turns _ _ _ hx := .turns henv hx
  callBuiltin _ _ _ _ _ _ _ := .callBuiltin henv
  callFunction _ _ _ _ := .callFunction (.statements henv hnext.outlives hnext.below)

/-- Evaluating a node is truncated, at any two levels. -/
theorem truncates_eval (henv : limit.Admissible env.builtins) (level level' : Nat) (n : Node) :
    Truncates limit level level' (eval env level n) (eval env level' n) := by
  induction level generalizing level' n with
  | zero =>
    rw [eval_eq, eval_eq]
    refine ((truncates_pairs henv ⟨(outlives_rules henv).below level', ?_⟩).evalWith trivial).1
    exact fun _ _ h => by cases h
  | succ level ih =>
    rw [eval_eq, eval_eq]
    refine ((truncates_pairs henv ⟨(outlives_rules henv).below level', ?_⟩).evalWith trivial).1
    rintro _ low' ⟨rfl⟩ rfl s
    exact ih low' s

end Nodes

/-! ## Programs -/

theorem truncates_start {env : Env} (henv : limit.Admissible env.builtins) (p : Program) :
    Truncates limit level level' (start (eval env level) p) (start (eval env level') p) := by
  refine Truncates.paired.start (fun g _ => truncates_eval henv level level' g) fun f _ => ?_
  refine .callFunction (.statements henv ((outlives_rules henv).eval level') ?_)
  rintro low low' rfl rfl s
  exact (truncates_eval henv (low + 1) (low' + 1) s).lower (Nat.le_succ low) (Nat.le_succ low')

/-- Two runs of a program at machines that are abreast: both come to the same, or the first one stops. -/
theorem run_truncates {registry : Registry} (h : limit.Admissible registry) (p : Program) {world world' : World}
    (hworld : limit.alike world world') {budget budget' : Nat} (hbudget : budget' = budget + limit.spare) :
    ((p.run registry world budget).Beside limit.alike (p.run registry world' budget')) ∨
      (∃ f, (p.run registry world budget).failure = some f ∧ limit.stops f.fault) ∧
        limit.beyond (p.run registry world budget).world (p.run registry world' budget').world := by
  have hstart : Truncates limit budget budget' (start (eval ⟨registry, p.allFunctions⟩ budget) p)
      (start (eval ⟨registry, p.allFunctions⟩ budget') p) := truncates_start h p
  rcases hstart.abreast (.start world budget) (.start world' budget') ⟨rfl, hworld, rfl, hbudget⟩
    (Nat.le_refl _) (Nat.le_refl _) with ⟨hresult, hafter, -⟩ | ⟨f, hf, hstops, hbeyond⟩
  · refine Or.inl ⟨congrArg Program.failure? hresult, ?_, hafter.world, ?_⟩
    · exact congrArg (fun c : Chain => c.getLast?.getD .root) hafter.chain
    · show _ :: (⟨_, .runEnd (isOk (start _ p _).1)⟩ :: (start _ p _).2.events).reverse = _
      rw [hresult, hafter.events]
      rfl
  · exact Or.inr ⟨⟨f, congrArg Program.failure? hf, hstops⟩, hbeyond⟩

/-! ## What has been written stands -/

theorem written_drawBelow (range : Nat) (w : World) : (w.drawBelow range).2.written = w.written := by
  rw [World.drawBelow_eq]

theorem written_readLine (w : World) : w.readLine.2.written = w.written := by
  rw [World.readLine_eq]

theorem written_runRandom (args : List Value) (w : World) : (Builtin.runRandom args w).2.written = w.written := by
  have hdraw : ∀ lo hi, (Builtin.drawBetween lo hi w).2.written = w.written := by
    intro lo hi
    unfold Builtin.drawBetween
    split
    · exact written_drawBelow _ w
    · rfl
  unfold Builtin.runRandom
  split
  · split
    · exact hdraw _ _
    · rfl
  · split
    · exact hdraw _ _
    · rfl
    · rfl
  · rfl

theorem written_runReadLine (args : List Value) (w : World) :
    (Builtin.runReadLine args w).2.written = w.written := by
  match args with
  | [] =>
    rw [← written_readLine w]
    simp only [Builtin.runReadLine]
    cases w.readLine with
    | mk line w' => cases line <;> rfl
  | _ :: _ => rfl

/-- Writing puts something on top of what has been written, or it leaves it alone. -/
theorem written_runWriteLine (args : List Value) (w : World) :
    w.written <:+ (Builtin.runWriteLine args w).2.written := by
  match args with
  | [v] =>
    obtain ⟨input, inputFails, written, writesLeft, draws, drawn⟩ := w
    cases writesLeft with
    | none => exact List.suffix_cons _ _
    | some left =>
      cases left with
      | zero => exact List.suffix_rfl
      | succ left => exact List.suffix_cons _ _
  | [] => exact List.suffix_rfl
  | _ :: _ :: _ => exact List.suffix_rfl

/-- No default builtin takes back what has been written. -/
theorem written_run {b : Builtin} (hb : b ∈ Registry.default.builtins) (args : List Value) (w : World) :
    w.written <:+ (b.run args w).2.written := by
  simp only [Registry.default, List.mem_cons, List.not_mem_nil, or_false] at hb
  rcases hb with rfl | rfl | rfl
  · exact written_runWriteLine args w
  · exact (written_runRandom args w) ▸ List.suffix_rfl
  · exact (written_runReadLine args w) ▸ List.suffix_rfl

/-! ## The two limits -/

namespace Limit

/-- A run that is asked to stop, beside one that may go on `spare` more times. -/
def asked (spare : Nat) : Limit where
  spare := spare
  alike := Eq
  beyond w w' := w.written <:+ w'.written
  stops fault := fault = .canceled

/-- A run whose writes fail after `k` of them, beside one whose writes never fail. Once a write has failed, the
other run has written more than `k` times. -/
def full (k : Nat) : Limit where
  spare := 0
  alike w w' := w'.writesLeft = none ∧ w'.written.length ≤ k ∧
    w = { w' with writesLeft := some (k - w'.written.length) }
  beyond w w' := w.written.length = k ∧ w.written <:+ w'.written ∧ k < w'.written.length
  stops fault := fault.code = .io

variable {registry : Registry}

theorem admissible_asked (h : ∀ b ∈ registry.builtins, b ∈ Registry.default.builtins) (spare : Nat) :
    (asked spare).Admissible registry where
  questions _ := ⟨rfl, fun _ _ hw => hw ▸ List.suffix_rfl⟩
  builtins name b hb := by
    have hb := h b (List.mem_of_find?_eq_some hb)
    refine ⟨?_, fun args _ w' hw => hw.trans (written_run hb args w')⟩
    rintro args w _ rfl
    exact Or.inl ⟨rfl, rfl⟩

/-- Where writes fail, writing is the only thing that tells the runs apart. -/
theorem admits_writeLine (k : Nat) : (full k).Admits .writeLine where
  answers args w w' hw := by
    obtain ⟨hnone, hlength, rfl⟩ := hw
    obtain ⟨input, inputFails, written, writesLeft, draws, drawn⟩ := w'
    obtain rfl : writesLeft = none := hnone
    match args with
    | [v] =>
      dsimp only at hlength
      cases hleft : k - written.length with
      | zero =>
        refine Or.inr ⟨.io "write failed", ?_, fun _ => rfl, ?_⟩
        · simp only [Builtin.writeLine, Builtin.runWriteLine, World.write]
        · simp only [Builtin.writeLine, Builtin.runWriteLine, World.write, full]
          exact ⟨by omega, List.suffix_cons _ _, by rw [List.length_cons]; omega⟩
      | succ left =>
        refine Or.inl ?_
        simp only [Builtin.writeLine, Builtin.runWriteLine, World.write, full, List.length_cons]
        refine ⟨trivial, trivial, by omega, ?_⟩
        rw [show k - (written.length + 1) = left by omega]
    | [] => exact Or.inl ⟨rfl, rfl, hlength, rfl⟩
    | _ :: _ :: _ => exact Or.inl ⟨rfl, rfl, hlength, rfl⟩
  outlives args w w' hw := by
    obtain ⟨hk, hsuffix, hmore⟩ := hw
    have hgrows := written_runWriteLine args w'
    exact ⟨hk, hsuffix.trans hgrows, Nat.lt_of_lt_of_le hmore hgrows.length_le⟩

/-- A builtin that writes nothing does the same where writes fail. -/
theorem Admits.of_answers {limit : Limit} {b : Builtin} (h : Answers limit.alike b b)
    (houtlives : ∀ args w w', limit.beyond w w' → limit.beyond w (b.run args w').2) : limit.Admits b :=
  ⟨fun args w w' hw => Or.inl (h args w w' hw), houtlives⟩

theorem admissible_full (h : ∀ b ∈ registry.builtins, b ∈ Registry.default.builtins) (k : Nat) :
    (full k).Admissible registry where
  questions hspare := absurd rfl hspare
  builtins name b hb := by
    have hb := h b (List.mem_of_find?_eq_some hb)
    simp only [Registry.default, List.mem_cons, List.not_mem_nil, or_false] at hb
    rcases hb with rfl | rfl | rfl
    · exact admits_writeLine k
    · refine .of_answers (answers_random ?_) ?_
      · rintro _ w' ⟨hnone, hlength, rfl⟩
        exact ⟨rfl, rfl, fun _ => ⟨hnone, hlength, rfl⟩⟩
      · intro args w w' hw
        show (full k).beyond w (Builtin.runRandom args w').2
        simpa only [full, written_runRandom] using hw
    · refine .of_answers (answers_readLine ?_) ?_
      · rintro _ w' ⟨hnone, hlength, rfl⟩
        exact ⟨rfl, rfl, fun _ => ⟨hnone, hlength, rfl⟩⟩
      · intro args w w' hw
        show (full k).beyond w (Builtin.runReadLine args w').2
        simpa only [full, written_runReadLine] using hw

end Limit

/-! ## Interruption -/

theorem World.output_prefix {w w' : World} (h : w.written <:+ w'.written) : w.output <+: w'.output := by
  obtain ⟨more, hmore⟩ := h
  rw [World.output, World.output, ← hmore, List.reverse_append, List.flatten_append]
  exact List.prefix_append _ _

/-- Interrupting a run only truncates it. With a smaller budget it writes a prefix of what it writes with a
larger one, and the two are the same in every respect unless the budget is used up. If writes fail after `k` of
them, exactly the first `k` writes of the run whose writes never fail are there, and if it has no more than
those, the two are the same except for the writes that are still left. -/
theorem interruption_truncates (p : Program) (registry : Registry)
    (hregistry : ∀ b ∈ registry.builtins, b ∈ Registry.default.builtins) (world : World) :
    (∀ n m, n ≤ m →
      (p.run registry world n).world.output <+: (p.run registry world m).world.output ∧
      ((∀ f, (p.run registry world n).failure = some f → f.fault.code ≠ .canceled) →
        p.run registry world m = p.run registry world n)) ∧
    (∀ k budget,
      let stopped := p.run registry { world with written := [], writesLeft := some k } budget
      let free := p.run registry { world with written := [], writesLeft := none } budget
      stopped.world.written.reverse = free.world.written.reverse.take k ∧
      (free.world.written.length ≤ k →
        stopped.failure = free.failure ∧ stopped.globals = free.globals ∧ stopped.events = free.events ∧
          stopped.world = { free.world with writesLeft := some (k - free.world.written.length) })) := by
  refine ⟨fun n m hle => ?_, fun k budget => ?_⟩
  · have hmore : m = n + (m - n) := by omega
    -- the shorter budget limits what the context is asked
    have hrun := run_truncates (Limit.admissible_asked hregistry (m - n)) p (Eq.refl world) hmore
    rcases hrun with hsame | ⟨⟨f, hf, hcanceled⟩, hbeyond⟩
    · have heq : p.run registry world m = p.run registry world n := by
        obtain ⟨hfailure, hglobals, hworld, hevents⟩ := hsame
        revert hfailure hglobals hworld hevents
        cases p.run registry world n with
        | mk failure globals w events =>
          cases p.run registry world m with
          | mk failure' globals' w' events' =>
            rintro rfl rfl rfl rfl
            rfl
      exact ⟨heq ▸ List.prefix_rfl, fun _ => heq⟩
    · exact ⟨World.output_prefix hbeyond, fun hnot => absurd (congrArg Fault.code hcanceled) (hnot f hf)⟩
  · have hworlds : (Limit.full k).alike { world with written := [], writesLeft := some k }
        { world with written := [], writesLeft := none } := ⟨rfl, Nat.zero_le k, rfl⟩
    -- the same with the writes as what is limited
    have hrun := run_truncates (Limit.admissible_full hregistry k) p hworlds (Nat.add_zero budget).symm
    intro stopped free
    rcases hrun with ⟨hfailure, hglobals, ⟨-, hlength, hworld⟩, hevents⟩ | ⟨-, hk, hsuffix, hmore⟩
    · refine ⟨?_, fun _ => ⟨hfailure, hglobals, hevents, hworld⟩⟩
      have hworld : stopped.world = { free.world with writesLeft := some (k - free.world.written.length) } := hworld
      rw [hworld, List.take_of_length_le]
      rw [List.length_reverse]
      exact hlength
    · refine ⟨?_, fun hfits => absurd hfits (Nat.not_le.2 hmore)⟩
      have hprefix : stopped.world.written.reverse <+: free.world.written.reverse := List.reverse_prefix.2 hsuffix
      have htake := List.prefix_iff_eq_take.1 hprefix
      rwa [List.length_reverse, hk] at htake

/-- A program that writes the numbers from zero up to two. -/
def counting : Text :=
  "func Main() \x7b int i while (i < 3) \x7b WriteLine(i) i = i + 1 \x7d \x7d"

/-- Stopped in the second turn it has written two of the three lines, and twelve questions are enough to end. If
only one write is taken, the first line is there. -/
theorem interruption_truncates_counting :
    ∃ p, parse "a" counting = .ok p ∧
      (p.run .default {} 7).failure.map Failure.fault = some .canceled ∧
      (p.run .default {} 7).world.output = Text.ofString "0\n1\n" ∧
      (p.run .default {} 7).world.output <+: (p.run .default {} 99).world.output ∧
      p.run .default {} 99 = p.run .default {} 12 ∧
      (p.run .default { writesLeft := some 1 } 99).world.written.reverse =
        (p.run .default {} 99).world.written.reverse.take 1 := by
  have hread : (parse "a" counting).toOption.map (fun p => ((p.run .default {} 7).failure.map Failure.fault,
      (p.run .default {} 7).world.output, (p.run .default {} 12).failure.isSome)) =
      some (some .canceled, Text.ofString "0\n1\n", false) := by decide +kernel
  cases hparse : parse "a" counting with
  | error e =>
    rw [hparse] at hread
    cases hread
  | ok p =>
    rw [hparse] at hread
    obtain ⟨hfault, hread⟩ := Prod.mk.inj (Option.some.inj hread)
    obtain ⟨houtput, hends⟩ := Prod.mk.inj hread
    obtain ⟨hbudgets, hwrites⟩ := interruption_truncates p .default (fun _ hb => hb) {}
    refine ⟨p, rfl, hfault, houtput, (hbudgets 7 99 (by decide)).1, ?_, (hwrites 1 99).1⟩
    refine (hbudgets 12 99 (by decide)).2 fun f hf => ?_
    rw [hf] at hends
    cases hends

end ScriptKit.Run
