import ScriptKit.Proofs.Run.Triple
import ScriptKit.Proofs.Tree.Core

/-!
# Simulation

Two runs are compared by what they show: their results up to the places of failures, the frames and the
world. Neither the events nor the budget count, because two runs that do the same may ask a different
number of times whether they may go on.

`Sim level x y` compares a step `x`, run with a budget of at most `level`, to a step `y` that is given for
every level. Whenever `x` ends before its budget does, `y` shows the same from every machine that shows
the same and has the budget `y` needs. What `y` needs depends on the run of `x` alone, and `y` takes
exactly that from its budget.

Steps that ask nothing are compared by `Instant`, which is simpler and implies `Sim` at every level.
-/

namespace ScriptKit.Run

variable {α β : Type}

/-! ## What a run shows -/

/-- What a machine shows: the frames and the world. -/
def Machine.view (m : Machine) : Chain × World := (m.chain, m.world)

/-- What is shown at the end of a step: its result up to the place of a failure, the frames and the
world. -/
def outlook (r : Except Failure α × Machine) : Except Fault α × Chain × World :=
  (r.1.mapError Failure.fault, r.2.view)

theorem eq_of_outlook_ok {r : Except Failure α × Machine} {a : α} {m : Machine}
    (h : outlook r = outlook (.ok a, m)) : ∃ m', r = (.ok a, m') ∧ m'.view = m.view := by
  obtain ⟨result, m'⟩ := r
  obtain ⟨hresult, hview⟩ := Prod.mk.inj h
  cases result with
  | ok a' =>
    obtain rfl : a' = a := by injection hresult
    exact ⟨m', rfl, hview⟩
  | error e => injection hresult

theorem eq_of_outlook_error {r : Except Failure α × Machine} {e : Failure} {m : Machine}
    (h : outlook r = outlook (.error e, m)) :
    ∃ e' m', r = (.error e', m') ∧ e'.fault = e.fault ∧ m'.view = m.view := by
  obtain ⟨result, m'⟩ := r
  obtain ⟨hresult, hview⟩ := Prod.mk.inj h
  cases result with
  | ok a => injection hresult
  | error e' => exact ⟨e', m', rfl, by injection hresult, hview⟩

/-- Failures are passed on by what comes after. -/
theorem outlook_error {e e' : Failure} {m m' : Machine} (hfault : e'.fault = e.fault)
    (hview : m'.view = m.view) :
    outlook ((.error e', m') : Except Failure α × Machine) = outlook (.error e, m) := by
  show (Except.error e'.fault, m'.view) = (Except.error e.fault, m.view)
  rw [hfault, hview]

theorem bind_ok_apply {x : Run α} {f : α → Run β} {a : α} {m m' : Machine} (h : x m = (.ok a, m')) :
    (x >>= f) m = f a m' := by
  rw [bind_apply, h]

theorem bind_error_apply {x : Run α} {f : α → Run β} {e : Failure} {m m' : Machine}
    (h : x m = (.error e, m')) : (x >>= f) m = (.error e, m') := by
  rw [bind_apply, h]

/-! ## Steps that ask nothing -/

/-- Two steps that leave the budget alone and show the same from machines that show the same. -/
def Instant (x y : Run α) : Prop :=
  ∀ m m', m'.view = m.view →
    outlook (y m') = outlook (x m) ∧ (x m).2.budget = m.budget ∧ (y m').2.budget = m'.budget

namespace Instant

theorem pure {a : α} : Instant (pure a) (pure a) := by
  intro m m' hview
  exact ⟨congrArg (Prod.mk _) hview, rfl, rfl⟩

theorem fail {fault : Fault} {span span' : Span} :
    Instant (fail fault span : Run α) (fail fault span') := by
  intro m m' hview
  exact ⟨outlook_error rfl hview, rfl, rfl⟩

theorem bind {x y : Run α} {f g : α → Run β} (hx : Instant x y) (hf : ∀ a, Instant (f a) (g a)) :
    Instant (x >>= f) (y >>= g) := by
  intro m m' hview
  obtain ⟨hout, hbudget, hbudget'⟩ := hx m m' hview
  cases hrun : x m with
  | mk result m₁ =>
    rw [hrun] at hout hbudget
    cases result with
    | ok a =>
      obtain ⟨m₁', hrun', hview'⟩ := eq_of_outlook_ok hout
      rw [hrun'] at hbudget'
      rw [bind_ok_apply hrun, bind_ok_apply hrun', ← hbudget, ← hbudget']
      exact hf a m₁ m₁' hview'
    | error e =>
      obtain ⟨e', m₁', hrun', hfault, hview'⟩ := eq_of_outlook_error hout
      rw [hrun'] at hbudget'
      rw [bind_error_apply hrun, bind_error_apply hrun']
      exact ⟨outlook_error hfault hview', hbudget, hbudget'⟩

/-- To look at the machine is to look at what it shows. -/
theorem get {f g : Machine → Run α} (h : ∀ m m', m'.view = m.view → Instant (f m) (g m')) :
    Instant (MonadState.get >>= f) (MonadState.get >>= g) := by
  intro m m' hview
  exact h m m' hview m m' hview

theorem modify {f g : Machine → Machine} (hview : ∀ m m', m'.view = m.view → (g m').view = (f m).view)
    (hf : ∀ m, (f m).budget = m.budget) (hg : ∀ m, (g m).budget = m.budget) :
    Instant (modify f) (modify g) := by
  intro m m' h
  exact ⟨congrArg (Prod.mk _) (hview m m' h), hf m, hg m'⟩

theorem ite {c : Prop} [Decidable c] {x x' y y' : Run α} (hx : Instant x x') (hy : Instant y y') :
    Instant (if c then x else y) (if c then x' else y') := by
  split
  · exact hx
  · exact hy

variable {span span' : Span} {name : Text}

theorem emit {what : Trace.Happening} : Instant (emit span what) (emit span' what) :=
  modify (fun _ _ h => h) (fun _ => rfl) fun _ => rfl

theorem liftScope {r : Except Scope.Error α} : Instant (liftScope span r) (liftScope span' r) := by
  cases r with
  | ok a => exact pure
  | error e => exact fail

theorem setChain {c : Chain} :
    Instant (MonadState.modifyGet fun m => (⟨⟩, { m with chain := c }) : Run PUnit)
      (MonadState.modifyGet fun m => (⟨⟩, { m with chain := c })) := by
  refine modify (fun m m' h => ?_) (fun _ => rfl) fun _ => rfl
  exact congrArg (Prod.mk c) (Prod.mk.inj h).2

theorem declare {type : VarType} {value : Option Value} :
    Instant (declare span name type value) (declare span' name type value) := by
  refine get fun m m' h => ?_
  rw [(Prod.mk.inj h).1]
  exact bind liftScope fun _ => bind setChain fun _ => emit

theorem assign {value : Value} :
    Instant (assign span name value) (assign span' name value) := by
  refine get fun m m' h => ?_
  rw [(Prod.mk.inj h).1]
  exact bind liftScope fun _ => setChain

theorem resolve : Instant (resolve span name) (resolve span' name) := by
  refine get fun m m' h => ?_
  rw [(Prod.mk.inj h).1]
  exact liftScope

theorem interpolate {text : Text} :
    Instant (do
      let filled ← Run.liftScope span (ScriptKit.interpolate (← MonadState.get).chain text)
      return some (Value.str filled))
    (do
      let filled ← Run.liftScope span' (ScriptKit.interpolate (← MonadState.get).chain text)
      return some (Value.str filled)) := by
  refine get fun m m' h => ?_
  rw [(Prod.mk.inj h).1]
  exact bind liftScope fun _ => pure

theorem applyArith {op : Arith} {l r : Int32} :
    Instant (applyArith span op l r) (applyArith span' op l r) := by
  cases op with
  | div => exact ite fail pure
  | other symbol => exact fail
  | _ => exact pure

theorem applyRelation {op : Relation} {l r : Int32} :
    Instant (applyRelation span op l r) (applyRelation span' op l r) := by
  cases op with
  | other symbol => exact fail
  | _ => exact pure

theorem callBuiltin {env env' : Env} {args : List Value}
    (h : env.builtins = env'.builtins) :
    Instant (callBuiltin env span name args) (callBuiltin env' span' name args) := by
  unfold Run.callBuiltin
  rw [← h]
  cases env.builtins.get? name with
  | none => exact fail
  | some b =>
    refine bind emit fun _ => get fun m m' hview => ?_
    obtain ⟨hchain, hworld⟩ := Prod.mk.inj hview
    rw [hworld]
    refine bind (modify (fun m m' h => ?_) (fun _ => rfl) fun _ => rfl) fun _ => ?_
    · exact congrArg (·, _) (Prod.mk.inj h).1
    · split
      · exact pure
      · exact fail
      · exact fail

theorem bindParams {params params' : List Param} {args : List Value}
    (h : params.map Param.bare = params'.map Param.bare) :
    Instant (bindParams params args) (bindParams params' args) := by
  induction params generalizing params' args with
  | nil =>
    cases params' with
    | nil => exact pure
    | cons p' params' => cases h
  | cons p params ih =>
    cases params' with
    | nil => cases h
    | cons p' params' =>
      obtain ⟨hp, hparams⟩ := List.cons.inj h
      obtain ⟨-, hname, htype⟩ := Param.mk.inj hp
      cases args with
      | nil => exact pure
      | cons v args =>
        simp only [Run.bindParams, hname, htype]
        exact bind declare fun _ => ih hparams

theorem callFrame {f f' : Function} {args : List Value}
    (h : f.params.map Param.bare = f'.params.map Param.bare) :
    Instant (callFrame f args) (callFrame f' args) := by
  intro m m' hview
  obtain ⟨hchain, hworld⟩ := Prod.mk.inj hview
  -- the frame hangs off the root, and the two runs have the same root
  have hstart : Machine.view { m' with chain := {} :: m'.chain.getLast?.toList } =
      Machine.view { m with chain := {} :: m.chain.getLast?.toList } := by
    rw [hchain]
    exact congrArg (Prod.mk _) hworld
  have hparams : Instant (Run.bindParams f.params args) (Run.bindParams f'.params args) := bindParams h
  obtain ⟨hout, hbudget, hbudget'⟩ := hparams _ _ hstart
  simp only [Run.callFrame]
  cases hrun : Run.bindParams f.params args { m with chain := {} :: m.chain.getLast?.toList } with
  | mk result m₁ =>
    rw [hrun] at hout hbudget
    cases result with
    | ok u =>
      obtain ⟨m₁', hrun', hview'⟩ := eq_of_outlook_ok hout
      obtain ⟨hchain', hworld'⟩ := Prod.mk.inj hview'
      rw [hrun'] at hbudget' ⊢
      refine ⟨?_, hbudget, hbudget'⟩
      show (Except.ok (m₁'.chain.head?.getD {}), m'.chain, m₁'.world) =
        (Except.ok (m₁.chain.head?.getD {}), m.chain, m₁.world)
      rw [hchain, hchain', hworld']
    | error e =>
      obtain ⟨e', m₁', hrun', hfault, hview'⟩ := eq_of_outlook_error hout
      rw [hrun'] at hbudget' ⊢
      refine ⟨outlook_error hfault ?_, hbudget, hbudget'⟩
      rw [Machine.view, Machine.view, hchain, (Prod.mk.inj hview').2]

end Instant

/-! ## Steps that ask -/

/-- With a budget of at most `level`, whatever `x` does before its budget ends, `y` does too if its budget
suffices. -/
def Sim (level : Nat) (x : Run α) (y : Nat → Run α) : Prop :=
  ∀ m, m.budget ≤ level → (outlook (x m)).1 ≠ .error .canceled →
    (x m).2.budget ≤ m.budget ∧
    ∃ cost, ∀ level' m', m'.view = m.view → cost ≤ m'.budget → m'.budget ≤ level' →
      outlook (y level' m') = outlook (x m) ∧ (y level' m').2.budget + cost = m'.budget

namespace Sim

variable {level : Nat} {span span' : Span} {name : Text}

theorem instant {x y : Run α} (h : Instant x y) : Sim level x fun _ => y := by
  intro m hm _
  have hbudget := (h m m rfl).2.1
  refine ⟨Nat.le_of_eq hbudget, 0, fun level' m' hview _ _ => ?_⟩
  obtain ⟨hout, -, hbudget'⟩ := h m m' hview
  exact ⟨hout, hbudget'⟩

theorem pure {a : α} : Sim level (Pure.pure a) fun _ => Pure.pure a := instant .pure

theorem bind {x : Run α} {y : Nat → Run α} {f : α → Run β} {g : Nat → α → Run β}
    (hx : Sim level x y) (hf : ∀ a, Sim level (f a) fun level' => g level' a) :
    Sim level (x >>= f) fun level' => y level' >>= g level' := by
  intro m hm hgo
  cases hrun : x m with
  | mk result m₁ =>
    have hx := hx m hm
    rw [hrun] at hx
    cases result with
    | ok a =>
      obtain ⟨hle, cost, hcost⟩ := hx (fun h => by cases h)
      rw [bind_ok_apply hrun] at hgo ⊢
      obtain ⟨hle₁, cost₁, hcost₁⟩ := hf a m₁ (Nat.le_trans hle hm) hgo
      refine ⟨Nat.le_trans hle₁ hle, cost + cost₁, fun level' m' hview henough hlevel => ?_⟩
      obtain ⟨hout, hspent⟩ := hcost level' m' hview (by omega) hlevel
      obtain ⟨m₁', hrun', hview'⟩ := eq_of_outlook_ok hout
      rw [hrun'] at hspent
      dsimp only at hspent ⊢
      rw [bind_ok_apply hrun']
      obtain ⟨hout₁, hspent₁⟩ := hcost₁ level' m₁' hview' (by omega) (by omega)
      dsimp only at hspent₁
      exact ⟨hout₁, by omega⟩
    | error e =>
      rw [bind_error_apply hrun] at hgo ⊢
      have hfault : e.fault ≠ .canceled := fun h => hgo (congrArg Except.error h)
      obtain ⟨hle, cost, hcost⟩ := hx fun h => hfault (by injection h)
      refine ⟨hle, cost, fun level' m' hview henough hlevel => ?_⟩
      obtain ⟨hout, hspent⟩ := hcost level' m' hview henough hlevel
      obtain ⟨e', m₁', hrun', hfault, hview'⟩ := eq_of_outlook_error hout
      rw [hrun'] at hspent
      dsimp only
      rw [bind_error_apply hrun']
      exact ⟨outlook_error hfault hview', hspent⟩

theorem discard {x : Run α} {y : Nat → Run α} (h : Sim level x y) :
    Sim level (discard x) fun level' => discard (y level') := by
  show Sim level (x >>= fun _ => Pure.pure PUnit.unit) fun level' =>
    y level' >>= fun _ => Pure.pure PUnit.unit
  exact bind h fun _ => pure

theorem ite {c : Prop} [Decidable c] {x x' : Run α} {y y' : Nat → Run α} (hx : Sim level x y)
    (hx' : Sim level x' y') :
    Sim level (if c then x else x') fun level' => if c then y level' else y' level' := by
  split
  · exact hx
  · exact hx'

/-- A lower level on the left asks for less, and any higher level will do on the right. -/
theorem lower {x : Run α} {y : Nat → Run α} (h : Sim level x y) {lower : Nat} (hlower : lower ≤ level)
    (more : Nat) : Sim lower x fun level' => y (level' + more) := by
  intro m hm hgo
  obtain ⟨hle, cost, hcost⟩ := h m (Nat.le_trans hm hlower) hgo
  refine ⟨hle, cost, fun level' m' hview henough hlevel => ?_⟩
  exact hcost (level' + more) m' hview henough (by omega)

/-! ### Questions -/

theorem check_zero {m : Machine} (h : m.budget = 0) :
    Run.check span m = (.error ⟨.canceled, span⟩, m) := by
  have hget : (MonadState.get : Run Machine) m = (.ok m, m) := rfl
  rw [Run.check, bind_ok_apply hget]
  simp only [h]
  rfl

theorem check_succ {m : Machine} {n : Nat} (h : m.budget = n + 1) :
    Run.check span m = (.ok ⟨⟩, { m with budget := n }) := by
  have hget : (MonadState.get : Run Machine) m = (.ok m, m) := rfl
  rw [Run.check, bind_ok_apply hget]
  simp only [h]
  rfl

/-- A step that begins with a question does not get past it without a budget. -/
theorem stopped {x : Run α} {y : Nat → Run α} : Sim 0 (Run.check span >>= fun _ => x) y := by
  intro m hm hgo
  rw [bind_error_apply (check_zero (Nat.le_zero.1 hm))] at hgo
  exact absurd rfl hgo

/-- A question on both sides. -/
theorem check {x : Run α} {y z : Nat → Run α} (span' : Span)
    (hy : ∀ level', y (level' + 1) = Run.check span' >>= fun _ => z level') (h : Sim level x z) :
    Sim (level + 1) (Run.check span >>= fun _ => x) y := by
  intro m hm hgo
  cases hbudget : m.budget with
  | zero =>
    rw [bind_error_apply (check_zero hbudget)] at hgo
    exact absurd rfl hgo
  | succ n =>
    rw [bind_ok_apply (check_succ hbudget)] at hgo ⊢
    obtain ⟨hle, cost, hcost⟩ := h { m with budget := n } (by dsimp only; omega) hgo
    refine ⟨Nat.le_succ_of_le hle, cost + 1, fun level' m' hview henough hlevel => ?_⟩
    obtain ⟨n', hbudget'⟩ : ∃ n', m'.budget = n' + 1 := ⟨m'.budget - 1, by omega⟩
    obtain ⟨l, rfl⟩ : ∃ l, level' = l + 1 := ⟨level' - 1, by omega⟩
    rw [hy, bind_ok_apply (check_succ hbudget')]
    obtain ⟨hout, hspent⟩ := hcost l { m' with budget := n' } hview (by dsimp only; omega)
      (by dsimp only; omega)
    dsimp only at hspent
    exact ⟨hout, by omega⟩

/-- A question on the left only. -/
theorem checkLeft {x : Run α} {y : Nat → Run α} (h : Sim level x y) :
    Sim level (Run.check span >>= fun _ => x) y := by
  intro m hm hgo
  cases hbudget : m.budget with
  | zero =>
    rw [bind_error_apply (check_zero hbudget)] at hgo
    exact absurd rfl hgo
  | succ n =>
    rw [bind_ok_apply (check_succ hbudget)] at hgo ⊢
    obtain ⟨hle, cost, hcost⟩ := h { m with budget := n } (by dsimp only; omega) hgo
    exact ⟨Nat.le_succ_of_le hle, cost, hcost⟩

/-- A question on the right only. -/
theorem checkRight {x : Run α} {y : Nat → Run α} (h : Sim level x y) :
    Sim level x fun level' => Run.check span' >>= fun _ => y level' := by
  intro m hm hgo
  obtain ⟨hle, cost, hcost⟩ := h m hm hgo
  refine ⟨hle, cost + 1, fun level' m' hview henough hlevel => ?_⟩
  obtain ⟨n', hbudget'⟩ : ∃ n', m'.budget = n' + 1 := ⟨m'.budget - 1, by omega⟩
  dsimp only
  rw [bind_ok_apply (check_succ hbudget')]
  obtain ⟨hout, hspent⟩ := hcost level' { m' with budget := n' } hview (by dsimp only; omega)
    (by dsimp only; omega)
  dsimp only at hspent
  exact ⟨hout, by omega⟩

/-! ### Frames and calls -/

/-- Do something in a frame, which is gone afterwards. -/
def inside (frame : Frame) (x : Run α) : Run α := fun m =>
  ((x { m with chain := frame :: m.chain }).1,
    { (x { m with chain := frame :: m.chain }).2 with
      chain := (x { m with chain := frame :: m.chain }).2.chain.tail })

theorem inside_frame {frame : Frame} {x : Run α} {y : Nat → Run α} (h : Sim level x y) :
    Sim level (inside frame x) fun level' => inside frame (y level') := by
  intro m hm hgo
  obtain ⟨hle, cost, hcost⟩ := h { m with chain := frame :: m.chain } hm hgo
  refine ⟨hle, cost, fun level' m' hview henough hlevel => ?_⟩
  obtain ⟨hchain, hworld⟩ := Prod.mk.inj hview
  have hview' : Machine.view { m' with chain := frame :: m'.chain } =
      Machine.view { m with chain := frame :: m.chain } := by
    rw [hchain]
    exact congrArg (Prod.mk _) hworld
  obtain ⟨hout, hspent⟩ := hcost level' _ hview' henough hlevel
  obtain ⟨hresult, hview₁⟩ := Prod.mk.inj hout
  obtain ⟨hchain₁, hworld₁⟩ := Prod.mk.inj hview₁
  refine ⟨?_, hspent⟩
  simp only [outlook, inside, Machine.view, hresult, hchain₁, hworld₁]

theorem inFrame {x : Run α} {y : Nat → Run α} (h : Sim level x y) :
    Sim level (Run.inFrame x) fun level' => Run.inFrame (y level') :=
  inside_frame h

theorem reportEnd {x : Run Unit} {y : Nat → Run Unit} (h : Sim level x y) :
    Sim level (Run.reportEnd span name x) fun level' => Run.reportEnd span' name (y level') := by
  intro m hm hgo
  obtain ⟨hle, cost, hcost⟩ := h m hm hgo
  exact ⟨hle, cost, hcost⟩

theorem callFunction {next : Node → Run (Option Value)} {next' : Nat → Node → Run (Option Value)}
    {f f' : Function} {args : List Value} (hname : f.name = f'.name)
    (hparams : f.params.map Param.bare = f'.params.map Param.bare)
    (hbody : Sim level (Run.statements next f.body) fun level' => Run.statements (next' level') f'.body) :
    Sim level (Run.callFunction next f args span)
      fun level' => Run.callFunction (next' level') f' args span' := by
  have hlength : f.params.length = f'.params.length := by
    simpa only [List.length_map] using congrArg List.length hparams
  unfold Run.callFunction
  rw [hname, hlength]
  refine ite ?_ (instant .fail)
  refine bind (instant .emit) fun _ => bind (instant (.callFrame hparams)) fun frame => reportEnd ?_
  exact inside_frame hbody

/-! ### Loops -/

/-- A loop whose turns begin with a question. The turns of the left run at one level, while the question
before each of them takes from the budget, so that it bounds the turns that are left. -/
theorem turnsFrom {x : Run Bool} {y : Nat → Run Bool}
    (h : ∀ lower, level = lower + 1 → Sim lower x fun level' => y (level' + 1)) (n : Nat) (hn : n ≤ level)
    (more : Nat) :
    Sim n (turns (Run.check span >>= fun _ => x) n)
      fun n' => turns (Run.check span' >>= fun _ => y (n' + more)) n' := by
  -- `more` is how far the second run is ahead of the level, which grows by one with every turn
  induction n generalizing more with
  | zero =>
    show Sim 0 ((Run.check span >>= fun _ => x) >>= fun _ => Pure.pure PUnit.unit) _
    rw [bind_assoc]
    exact stopped
  | succ n ih =>
    rw [turns, bind_assoc]
    refine check span' (z := fun n' => y (n' + 1 + more) >>= fun again =>
      if again then turns (Run.check span' >>= fun _ => y (n' + (1 + more))) n' else Pure.pure ()) ?_ ?_
    · intro n'
      rw [turns, bind_assoc, Nat.add_assoc]
    · have hturn : Sim n x fun n' => y (n' + 1 + more) := by
        obtain ⟨lower, rfl⟩ : ∃ lower, level = lower + 1 := ⟨level - 1, by omega⟩
        have hlower := (h lower rfl).lower (Nat.le_of_succ_le_succ hn) more
        simpa only [Nat.add_right_comm] using hlower
      refine bind hturn fun again => ite ?_ pure
      exact ih (Nat.le_of_succ_le hn) (1 + more)

theorem turns {x : Run Bool} {y : Nat → Run Bool}
    (h : ∀ lower, level = lower + 1 → Sim lower x fun level' => y (level' + 1)) :
    Sim level (Run.turns (Run.check span >>= fun _ => x) level)
      fun level' => Run.turns (Run.check span' >>= fun _ => y level') level' :=
  turnsFrom h level (Nat.le_refl _) 0

end Sim

end ScriptKit.Run
