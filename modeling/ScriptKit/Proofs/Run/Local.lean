import ScriptKit.Proofs.Run.Rules

/-!
# Local steps

Most steps of a run look at nothing but the frames. They change the frames and report events, and neither the
world nor the budget has to do with them. `Local x` says so of a step by comparing it with itself: from machines
with the same frames it gives the same result, leaves the same frames and reports the same events, and the rest
of each machine stays as it was.

So whatever relates two runs through their frames and their events is kept by every local step. What is left to
show of a relation is how it passes through questions, through builtins and through frames.
-/

namespace ScriptKit.Run

variable {α β : Type}

/-- What a local step leaves behind, from two machines with the same frames. -/
structure Machine.Moved (m n m' n' : Machine) : Prop where
  chain : n.chain = n'.chain
  events : ∃ es, n.events = es ++ m.events ∧ n'.events = es ++ m'.events
  world : n.world = m.world ∧ n'.world = m'.world
  budget : n.budget = m.budget ∧ n'.budget = m'.budget

theorem Machine.Moved.refl {m m' : Machine} (h : m.chain = m'.chain) : m.Moved m m' m' :=
  ⟨h, ⟨[], rfl, rfl⟩, ⟨rfl, rfl⟩, ⟨rfl, rfl⟩⟩

theorem Machine.Moved.trans {m n k m' n' k' : Machine} (h : m.Moved n m' n') (h' : n.Moved k n' k') :
    m.Moved k m' k' := by
  obtain ⟨es, hes, hes'⟩ := h.events
  obtain ⟨fs, hfs, hfs'⟩ := h'.events
  refine ⟨h'.chain, ⟨fs ++ es, ?_, ?_⟩, ⟨h'.world.1.trans h.world.1, h'.world.2.trans h.world.2⟩,
    ⟨h'.budget.1.trans h.budget.1, h'.budget.2.trans h.budget.2⟩⟩
  · rw [hfs, hes, List.append_assoc]
  · rw [hfs', hes', List.append_assoc]

/-- A step that depends on the frames alone, and that changes frames and reports events only. -/
def Local (x : Run α) : Prop :=
  ∀ m m', m.chain = m'.chain → (x m).1 = (x m').1 ∧ m.Moved (x m).2 m' (x m').2

namespace Local

variable {span : Span} {name : Text}

/-! ## Sequencing -/

theorem pure {a : α} : Local (pure a) := fun _ _ h => ⟨rfl, .refl h⟩

theorem fail {fault : Fault} : Local (fail fault span : Run α) := fun _ _ h => ⟨rfl, .refl h⟩

theorem bind {x : Run α} {f : α → Run β} (hx : Local x) (hf : ∀ a, Local (f a)) : Local (x >>= f) := by
  intro m m' h
  obtain ⟨hresult, hmoved⟩ := hx m m' h
  rw [bind_apply, bind_apply]
  revert hresult hmoved
  cases x m with
  | mk result n =>
    cases x m' with
    | mk result' n' =>
      rintro (rfl : result = result') hmoved
      cases result with
      | error e => exact ⟨rfl, hmoved⟩
      | ok a =>
        obtain ⟨hresult, hmoved'⟩ := hf a n n' hmoved.chain
        exact ⟨hresult, hmoved.trans hmoved'⟩

theorem sequential : Sequential fun _ x => Local x := ⟨fun _ => pure, fun _ _ => fail, bind⟩

/-- A local step may look at the frames of a machine. -/
theorem look {f : Machine → Run α} (hf : ∀ m m', m.chain = m'.chain → f m = f m') (h : ∀ m, Local (f m)) :
    Local (MonadState.get >>= f) := by
  intro m m' hm
  have hsame := h m m m' hm
  show (f m m).1 = (f m' m').1 ∧ m.Moved (f m m).2 m' (f m' m').2
  rwa [← hf m m' hm]

theorem setChain {c : Chain} :
    Local (MonadState.modifyGet fun m => (⟨⟩, { m with chain := c }) : Run PUnit) :=
  fun _ _ _ => ⟨rfl, rfl, ⟨[], rfl, rfl⟩, ⟨rfl, rfl⟩, ⟨rfl, rfl⟩⟩

theorem emit {what : Trace.Happening} : Local (emit span what) :=
  fun _ _ h => ⟨rfl, h, ⟨[⟨span, what⟩], rfl, rfl⟩, ⟨rfl, rfl⟩, ⟨rfl, rfl⟩⟩

/-! ## Names -/

theorem liftScope {r : Except Scope.Error α} : Local (liftScope span r) := by
  cases r with
  | ok a => exact pure
  | error e => exact fail

theorem declare {type : VarType} {value : Option Value} : Local (declare span name type value) :=
  look (fun _ _ h => by simp only [h]) fun _ => bind liftScope fun _ => bind setChain fun _ => emit

theorem assign {value : Value} : Local (assign span name value) :=
  look (fun _ _ h => by simp only [h]) fun _ => bind liftScope fun _ => setChain

theorem resolve : Local (resolve span name) := look (fun _ _ h => by simp only [h]) fun _ => liftScope

theorem interpolate {text : Text} :
    Local (do
      let filled ← Run.liftScope span (ScriptKit.interpolate (← MonadState.get).chain text)
      return some (Value.str filled)) :=
  look (fun _ _ h => by simp only [h]) fun _ => bind liftScope fun _ => pure

/-! ## Parameters -/

theorem bindParams {params : List Param} {args : List Value} : Local (bindParams params args) := by
  induction params generalizing args with
  | nil => exact pure
  | cons p params ih =>
    cases args with
    | nil => exact pure
    | cons v args => exact bind declare fun _ => ih

/-- The parameters of a call are declared apart from the frames of the caller. -/
theorem callFrame {f : Function} {args : List Value} : Local (callFrame f args) := by
  intro m m' h
  have hparams : Local (Run.bindParams f.params args) := bindParams
  obtain ⟨hresult, hmoved⟩ := hparams { m with chain := {} :: m.chain.getLast?.toList }
    { m' with chain := {} :: m'.chain.getLast?.toList } (by rw [h])
  simp only [Run.callFrame]
  revert hresult hmoved
  cases Run.bindParams f.params args { m with chain := {} :: m.chain.getLast?.toList } with
  | mk result n =>
    cases Run.bindParams f.params args { m' with chain := {} :: m'.chain.getLast?.toList } with
    | mk result' n' =>
      rintro (rfl : result = result') hmoved
      have hrestored : m.Moved { n with chain := m.chain } m' { n' with chain := m'.chain } :=
        ⟨h, hmoved.events, hmoved.world, hmoved.budget⟩
      cases result with
      | error e => exact ⟨rfl, hrestored⟩
      | ok u =>
        refine ⟨?_, hrestored⟩
        exact congrArg (fun c : Chain => Except.ok (c.head?.getD {})) hmoved.chain

end Local

/-! ## Computed steps -/

theorem declare_apply (span : Span) (name : Text) (type : VarType) (value : Option Value) (m : Machine) :
    declare span name type value m =
      match m.chain.declare name type value with
      | .ok c => (.ok (), { m with chain := c, events := ⟨span, .declared name type c.depth⟩ :: m.events })
      | .error e => (.error ⟨.scope e, span⟩, m) := by
  show (liftScope span (m.chain.declare name type value) >>= _) m = _
  cases m.chain.declare name type value <;> rfl

theorem assign_apply (span : Span) (name : Text) (value : Value) (m : Machine) :
    assign span name value m =
      match m.chain.assign name (some value) with
      | .ok c => (.ok (), { m with chain := c })
      | .error e => (.error ⟨.scope e, span⟩, m) := by
  show (liftScope span (m.chain.assign name (some value)) >>= _) m = _
  cases m.chain.assign name (some value) <;> rfl

/-! ## Builtins -/

/-- What the answer of a builtin comes to in a run. A failure that names no place concerns the call. -/
def answered (span : Span) (name : Text) : Except Builtin.Fault (Option Value) → Except Failure (Option Value)
  | .ok v => .ok v
  | .error (.raised code message place context) =>
    .error ⟨.builtin name (.raised code message place context), place.getD span⟩
  | .error fault => .error ⟨.builtin name fault, span⟩

/-- Each failure of a builtin is one of the run. -/
theorem answered_error (span : Span) (name : Text) (fault : Builtin.Fault) :
    ∃ place, answered span name (.error fault) = .error ⟨.builtin name fault, place⟩ := by
  cases fault with
  | raised code message place context => exact ⟨place.getD span, rfl⟩
  | _ => exact ⟨span, rfl⟩

/-- A call of a builtin is the only step that touches the world. -/
theorem callBuiltin_apply {env : Env} {span : Span} {name : Text} {b : Builtin}
    (h : env.builtins.get? name = some b) (args : List Value) (m : Machine) :
    callBuiltin env span name args m = (answered span name (b.run args m.world).1,
      { m with
        world := (b.run args m.world).2
        events := ⟨span, .builtinCall name args.length⟩ :: m.events }) := by
  unfold callBuiltin
  rw [h]
  show (match (b.run args m.world).1 with
    | .ok v => pure v
    | .error (.raised code message place context) =>
      fail (.builtin name (.raised code message place context)) (place.getD span)
    | .error fault => fail (.builtin name fault) span : Run (Option Value)) _ = _
  cases (b.run args m.world).1 with
  | ok v => rfl
  | error fault => cases fault <;> rfl

end ScriptKit.Run
