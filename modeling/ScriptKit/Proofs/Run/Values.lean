import ScriptKit.Proofs.Run.Local
import ScriptKit.Tree.Parse

/-!
# Evaluating for a value

An expression is evaluated for its value where it initialises a variable or is assigned to one, where it is an
operand or an argument, and where it is a side of a condition. Calls may stand anywhere in it, and a function that is
called can change every variable its caller sees. But a call of a function has no value, and neither has a statement,
so an evaluation that has run a function fails, at the latest when the function has ended. What succeeds has called
builtins at most.

`Harmless K x y` says of a step `x` that whenever it gives a result that satisfies `K`, it has spared the machine and
`y` gives the same. Here `y` is the same code with another way to run statements: if it does not matter how
statements are run, none has been run.

**Theorem (`value_spares_variables`).** An evaluation that succeeds with a value leaves all frames as they were and
runs no statement of any function.
-/

namespace ScriptKit

/-- Whether an event is the call of a builtin. -/
def Trace.Event.isBuiltinCall (e : Trace.Event) : Bool :=
  match e.what with
  | .builtinCall _ _ => true
  | _ => false

namespace Run

open Node

variable {α β : Type} {K : α → Prop} {L : β → Prop}

/-- Evaluate a node where a value is needed. -/
def valueOf (env : Env) (level : Nat) (n : Node) : Run Value := do
  needValue n (← eval env level n)

/-- Steps that give a result one after the other have each given one. -/
theorem ok_of_bind {x : Run α} {f : α → Run β} {m m' : Machine} {b : β} (h : (x >>= f) m = (.ok b, m')) :
    ∃ a m₁, x m = (.ok a, m₁) ∧ f a m₁ = (.ok b, m') := by
  rw [bind_apply] at h
  cases hx : x m with
  | mk result m₁ =>
    rw [hx] at h
    cases result with
    | ok a => exact ⟨a, m₁, rfl, h⟩
    | error e => cases h

/-! ## Steps that spare the machine -/

/-- Between two machines nothing has happened but calls of builtins: the frames and the budget are the same, and no
other event was reported. -/
structure Machine.Spared (m m' : Machine) : Prop where
  chain : m'.chain = m.chain
  budget : m'.budget = m.budget
  events : ∃ calls, m'.events = calls ++ m.events ∧ ∀ e ∈ calls, e.isBuiltinCall = true

theorem Machine.Spared.refl (m : Machine) : m.Spared m := ⟨rfl, rfl, [], rfl, by simp⟩

theorem Machine.Spared.trans {m m' m'' : Machine} (h : m.Spared m') (h' : m'.Spared m'') : m.Spared m'' := by
  obtain ⟨calls, hcalls, hall⟩ := h.events
  obtain ⟨calls', hcalls', hall'⟩ := h'.events
  refine ⟨h'.chain.trans h.chain, h'.budget.trans h.budget, calls' ++ calls, ?_, ?_⟩
  · rw [hcalls', hcalls, List.append_assoc]
  · exact List.forall_mem_append.2 ⟨hall', hall⟩

/-- Whenever `x` gives a result that satisfies `K`, it has spared the machine, and `y` gives the same. -/
def Harmless (K : α → Prop) (x y : Run α) : Prop :=
  ∀ m a m', x m = (.ok a, m') → K a → m.Spared m' ∧ y m = (.ok a, m')

/-- Whatever the result is. -/
def Any (_ : α) : Prop := True

/-- The result is a value. -/
def IsValue (v : Option Value) : Prop := v ≠ none

namespace Harmless

variable {x y : Run α} {f g : α → Run β} {span : Span} {name : Text} {n : Node}

theorem of_any (h : Harmless Any x y) : Harmless K x y := fun m a m' hx _ => h m a m' hx trivial

/-- What gives no result that satisfies `K` is harmless. -/
theorem void (h : ∀ m a m', x m = (.ok a, m') → ¬K a) : Harmless K x y :=
  fun m a m' hx ha => absurd ha (h m a m' hx)

theorem pure {a : α} : Harmless K (pure a) (pure a) := by
  rintro m _ _ ⟨rfl, rfl⟩ -
  exact ⟨.refl m, rfl⟩

theorem fail {fault : Fault} : Harmless K (fail fault span : Run α) (fail fault span) :=
  void fun _ _ _ h => by cases h

/-- What follows a step may count on `K` if it gives nothing that satisfies `L` without it. -/
theorem bind (hx : Harmless K x y) (hf : ∀ a, Harmless L (f a) (g a))
    (hK : ∀ m a b m', f a m = (.ok b, m') → L b → K a) : Harmless L (x >>= f) (y >>= g) := by
  intro m b m' h hb
  obtain ⟨a, m₁, hxm, hfm⟩ := ok_of_bind h
  obtain ⟨hspared, hy⟩ := hx m a m₁ hxm (hK m₁ a b m' hfm hb)
  obtain ⟨hspared', hg⟩ := hf a m₁ b m' hfm hb
  refine ⟨hspared.trans hspared', ?_⟩
  rw [bind_apply, hy]
  exact hg

/-- Steps that are harmless whatever they give follow one another. -/
theorem andThen (hx : Harmless Any x y) (hf : ∀ a, Harmless L (f a) (g a)) : Harmless L (x >>= f) (y >>= g) :=
  hx.bind hf fun _ _ _ _ _ _ => trivial

theorem sequential : Sequential fun _ x => Harmless Any x x := ⟨fun _ => pure, fun _ _ => fail, andThen⟩

/-! ## Reading and calling -/

theorem liftScope {r : Except Scope.Error α} : Harmless K (liftScope span r) (Run.liftScope span r) := by
  cases r with
  | ok a => exact pure
  | error e => exact fail

theorem resolve {K : Option Value → Prop} : Harmless K (resolve span name) (Run.resolve span name) :=
  fun m => liftScope m

theorem interpolate {K : Option Value → Prop} {text : Text} :
    Harmless K (do
      let filled ← Run.liftScope span (ScriptKit.interpolate (← MonadState.get).chain text)
      return some (Value.str filled)) (do
      let filled ← Run.liftScope span (ScriptKit.interpolate (← MonadState.get).chain text)
      return some (Value.str filled)) := fun m => andThen liftScope (fun _ => pure) m

/-- A call of a builtin is reported and changes nothing but the world. -/
theorem callBuiltin {K : Option Value → Prop} {env : Env} {args : List Value} :
    Harmless K (callBuiltin env span name args) (Run.callBuiltin env span name args) := by
  intro m v m' h _
  refine ⟨?_, h⟩
  cases hb : env.builtins.get? name with
  | none =>
    unfold Run.callBuiltin at h
    rw [hb] at h
    cases h
  | some b =>
    rw [callBuiltin_apply hb] at h
    obtain ⟨-, rfl⟩ := Prod.mk.inj h
    exact ⟨rfl, rfl, [_], rfl, by simp [Trace.Event.isBuiltinCall]⟩

/-! ## Values that are needed -/

/-- A step whose values are harmless is harmless where a value is needed. -/
theorem value {x y : Run (Option Value)} (hx : Harmless IsValue x y) :
    Harmless Any (x >>= needValue n) (y >>= needValue n) := by
  refine hx.bind (fun v => sequential.needValue v) ?_
  rintro m _ b m' h - rfl
  cases h

theorem operand {x y : Run (Option Value)} {symbol : Text} {k k' : Int32 → Run α} (hx : Harmless IsValue x y)
    (hk : ∀ i, Harmless K (k i) (k' i)) :
    Harmless K (x >>= fun v => needValue n v >>= fun v => needInt n symbol v >>= k)
      (y >>= fun v => needValue n v >>= fun v => needInt n symbol v >>= k') := by
  simp only [← bind_assoc]
  exact andThen (andThen hx.value fun v => sequential.needInt symbol v) hk

end Harmless

/-! ## Steps without a value -/

/-- A step that may fail or end, but gives no value. -/
def Valueless (x : Run (Option Value)) : Prop := ∀ m v m', x m = (.ok v, m') → v = none

namespace Valueless

variable {x y : Run (Option Value)} {span : Span}

theorem none : Valueless (pure none) := by
  rintro m _ _ ⟨rfl, -⟩
  rfl

theorem fail {fault : Fault} : Valueless (fail fault span) := fun _ _ _ h => by cases h

theorem bind {z : Run α} {f : α → Run (Option Value)} (hf : ∀ a, Valueless (f a)) : Valueless (z >>= f) := by
  intro m v m' h
  obtain ⟨a, m₁, -, hfm⟩ := ok_of_bind h
  exact hf a m₁ v m' hfm

theorem ite {c : Prop} [Decidable c] (hx : Valueless x) (hy : Valueless y) : Valueless (if c then x else y) := by
  split
  · exact hx
  · exact hy

theorem inFrame (h : Valueless x) : Valueless (inFrame x) := by
  intro m v m' hrun
  obtain ⟨hresult, -⟩ := Prod.mk.inj hrun
  exact h _ v _ (Prod.ext hresult rfl)

theorem harmless (h : Valueless x) : Harmless IsValue x y := .void fun m v m' hx hv => hv (h m v m' hx)

end Valueless

end Run

/-- Whether a node may have a value. Statements have none. -/
def Node.mayHaveValue : Node → Bool
  | .number .. | .str .. | .bool .. | .use .. | .arith .. | .compare .. | .sign .. | .call .. => true
  | _ => false

namespace Run

open Node

section Nodes

variable {env : Env} {bound : Nat} {next next' : Node → Run (Option Value)} {n : Node}

/-- A statement gives no value. -/
theorem valueless_statement (h : n.mayHaveValue = false) : Valueless (evalWith env bound next n) := by
  cases n <;> simp only [mayHaveValue, Bool.true_eq_false] at h <;> simp only [evalWith]
  case function | skip => exact .none
  case declare | block | whileLoop => exact .bind fun _ => .none
  case declareAs | assign => exact .bind fun _ => .bind fun _ => .bind fun _ => .none
  case when => exact .bind fun _ => .ite (.bind fun _ => .none) .none
  case choose => exact .bind fun _ => .ite (.bind fun _ => .none) (.bind fun _ => .none)
  case forLoop => exact .inFrame (.bind fun _ => .bind fun _ => .none)
  case program => exact .fail

/-- Arguments are harmless if their values are. -/
theorem harmless_evalArgs {args : List Node}
    (hargs : ∀ a ∈ args, Harmless IsValue (evalWith env bound next a) (evalWith env bound next' a)) :
    Harmless Any (evalArgs env bound next args) (evalArgs env bound next' args) := by
  induction args with
  | nil =>
    simp only [evalArgs]
    exact .pure
  | cons a args ih =>
    obtain ⟨ha, hargs⟩ := List.forall_mem_cons.1 hargs
    simp only [evalArgs, ← bind_assoc]
    exact .andThen ha.value fun v => .andThen (ih hargs) fun vs => .pure

/-- A call has a value only if it is the call of a builtin. -/
theorem harmless_call {span : Span} {name : Text} {callee : Callee} {args : List Node}
    (hargs : ∀ a ∈ args, Harmless IsValue (evalWith env bound next a) (evalWith env bound next' a)) :
    Harmless IsValue (evalWith env bound next (.call span name callee args))
      (evalWith env bound next' (.call span name callee args)) := by
  simp only [evalWith]
  cases env.target? callee with
  | none => exact .andThen (harmless_evalArgs hargs) fun _ => .callBuiltin
  | some f => exact (Valueless.ite (.bind fun _ => .bind fun _ => .none) .fail).harmless

/-- The value of a node is given by the calls of builtins in it alone. -/
theorem harmless_eval (n : Node) :
    Harmless IsValue (evalWith env bound next n) (evalWith env bound next' n) := by
  induction n using induction_children with
  | step n ih =>
    cases n with
    | number | bool =>
      simp only [evalWith]
      exact .pure
    | str =>
      simp only [evalWith]
      exact .interpolate
    | use =>
      simp only [evalWith]
      exact .resolve
    | arith =>
      simp only [evalWith]
      refine .operand (ih _ (by simp [children])) fun l => .operand (ih _ (by simp [children])) fun r => ?_
      exact .of_any (Harmless.sequential.applyArith _ _ l r)
    | compare =>
      simp only [evalWith]
      refine .operand (ih _ (by simp [children])) fun l => .operand (ih _ (by simp [children])) fun r => ?_
      exact .andThen (Harmless.sequential.applyRelation _ _ l r) fun _ => .pure
    | sign =>
      simp only [evalWith]
      exact .of_any (Harmless.sequential.applySign _ _)
    | call => exact harmless_call ih
    -- a statement gives no value, so that there is nothing to show of it
    | _ => exact (valueless_statement rfl).harmless

end Nodes

/-- Evaluating any node of any program succeeds with a value only if nothing but builtins has been called: all frames
hold the same variables with the same values, no statement was reached, no other event than the call of a builtin
was reported, and the same value would have come out whatever running a statement did. -/
theorem value_spares_variables {env : Env} {level : Nat} {n : Node} {m m' : Machine} {v : Value}
    (h : valueOf env level n m = (.ok v, m')) :
    m'.chain = m.chain ∧ m'.budget = m.budget ∧
      (∃ calls, m'.events = calls ++ m.events ∧ ∀ e ∈ calls, e.isBuiltinCall = true) ∧
      ∀ next, (evalWith env level next n >>= needValue n) m = (.ok v, m') := by
  have hvalue : ∀ next, m.Spared m' ∧ (evalWith env level next n >>= needValue n) m = (.ok v, m') := by
    intro next
    have hharmless : Harmless Any (evalWith env level (below env level) n >>= needValue n)
        (evalWith env level next n >>= needValue n) := (harmless_eval n).value
    refine hharmless m v m' ?_ trivial
    rw [← eval_eq]
    exact h
  obtain ⟨hchain, hbudget, hevents⟩ := (hvalue (below env level)).1
  exact ⟨hchain, hbudget, hevents, fun next => (hvalue next).2⟩

/-- A program that reads a line in the middle of an expression. -/
def readingText : Text := "int a = 6 func F() \x7b a = 7 \x7d func Main() \x7b F() int b = 3 + ReadLine() * a \x7d"

/-- A machine in the middle of its run, with a line to read. -/
def readingMachine : Machine :=
  ⟨[{}, { isRoot := true, vars := [("a", ⟨.int, some (.int 7)⟩)] }], { input := "5\n" }, [], 3⟩

/-- The sum in it has a value, and takes no more than the line. -/
theorem value_spares_variables_reading :
    ∃ p, parse "a" readingText = .ok p ∧ ∃ n ∈ p.node.preorder, ∃ m',
      valueOf ⟨.default, p.allFunctions⟩ 3 n readingMachine = (.ok (.int 38), m') ∧
      m'.chain = readingMachine.chain ∧ ∀ e ∈ m'.events, e.isBuiltinCall = true := by
  have hread : (parse "a" readingText).toOption.bind (fun p =>
      (p.node.preorder.find? (·.kind == ("Binary" : Text))).bind fun n =>
        (valueOf ⟨.default, p.allFunctions⟩ 3 n readingMachine).1.toOption) = some (.int 38) := by
    decide +kernel
  obtain ⟨p, hp, hread⟩ := Option.bind_eq_some_iff.1 hread
  obtain ⟨n, hn, hvalue⟩ := Option.bind_eq_some_iff.1 hread
  have hparse : parse "a" readingText = .ok p := by
    cases h : parse "a" readingText with
    | error e => simp [h, Except.toOption] at hp
    | ok q => simpa [h, Except.toOption] using hp
  refine ⟨p, hparse, n, List.mem_of_find?_eq_some hn, ?_⟩
  cases hrun : valueOf ⟨.default, p.allFunctions⟩ 3 n readingMachine with
  | mk result m' =>
    rw [hrun] at hvalue
    cases result with
    | error e => cases hvalue
    | ok v =>
      obtain rfl : v = .int 38 := Option.some.inj hvalue
      obtain ⟨hchain, -, ⟨calls, hevents, hcalls⟩, -⟩ := value_spares_variables hrun
      refine ⟨m', rfl, hchain, ?_⟩
      simpa [hevents, readingMachine] using hcalls

end Run

end ScriptKit
