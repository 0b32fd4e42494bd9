import ScriptKit.Proofs.Run.Simulation

/-!
# Runs without a bound

The evaluator is bounded by the budget of its machine. Here runs are described without a bound, and with any
supervision: a context answers the questions whether the run may go on, each as it likes.

`Plan` is what a run has to do. To evaluate a node is an instruction of its own (`Plan.eval`), which stands for
the plan of the node (`Plan.node`), so that calls may lead back to where they come from, and a loop is repeated
until a turn of it answers no. `Executes` says how a plan comes to an end, in finitely many steps: a rule for each
way it can. A plan that goes on for ever comes to no end.

**Theorem (`Executes.unique`).** Under one context there is at most one end.

**Theorem (`Executes.asks`).** Once a question has been answered no, no other is asked, and the run fails as
interrupted at the node where it was asked.
-/

namespace ScriptKit

namespace Run

variable {α β : Type}

/-! ## Plans -/

/-- What a run has to do. -/
inductive Plan : Type → Type 1
  /-- A step of the machine that asks no question. -/
  | step {α : Type} (x : Run α) : Plan α
  /-- Ask, at a node, whether the run may go on. -/
  | ask (n : Node) : Plan Unit
  | eval (n : Node) : Plan (Option Value)
  | bind {α β : Type} (x : Plan α) (f : α → Plan β) : Plan β
  /-- Repeat a turn as long as it answers yes. -/
  | loop (turn : Plan Bool) : Plan Unit
  /-- What is done in a frame, which is gone afterwards. -/
  | inside {α : Type} (frame : Frame) (body : Plan α) : Plan α
  /-- Report the end of a call once its body has ended. -/
  | reportEnd (span : Span) (name : Text) (body : Plan Unit) : Plan Unit

namespace Plan

instance : Monad Plan where
  pure a := .step (Pure.pure a)
  bind := .bind

/-- Run statements one after the other, asking before each whether the run may go on. -/
def statements : List Node → Plan Unit
  | [] => return ()
  | s :: rest => do
    ask s
    discard (eval s)
    statements rest

/-- Call a function. -/
def callFunction (f : Function) (args : List Value) (span : Span) : Plan Unit :=
  if args.length = f.params.length then do
    step (emit span (.callStart f.name))
    let frame ← step (callFrame f args)
    reportEnd span f.name (inside frame (statements f.body))
  else step (fail (.arity f.name f.params.length args.length) span)

/-- Evaluate a condition, which must be a comparison. -/
def condition (statement : Text) : Node → Plan Bool
  | .compare span left op right => do
    let l ← step (needInt left op.symbol (← step (needValue left (← eval left))))
    let r ← step (needInt right op.symbol (← step (needValue right (← eval right))))
    step (applyRelation span op l r)
  | n => step (fail (.condition statement n.kind) n.span)

/-- Evaluate arguments from left to right. -/
def arguments : List Node → Plan (List Value)
  | [] => return []
  | n :: rest => do
    let v ← step (needValue n (← eval n))
    return v :: (← arguments rest)

/-- What has to be done to evaluate a node. -/
def node (env : Env) : Node → Plan (Option Value)
  | .number _ n => return some (.int n)
  | .bool _ b => return some (.bool b)
  | .str span t => step (do
      let filled ← liftScope span (interpolate (← get).chain t)
      return some (.str filled))
  | .use span name => step (resolve span name)
  | .declare span name type => do
    step (declare span name type none)
    return none
  | .declareAs span name type value => do
    let v ← step (needValue value (← eval value))
    step (declare span name type (some v))
    return none
  | .assign span name value => do
    let v ← step (needValue value (← eval value))
    step (assign span name v)
    return none
  | .arith span left op right => do
    let l ← step (needInt left op.symbol (← step (needValue left (← eval left))))
    let r ← step (needInt right op.symbol (← step (needValue right (← eval right))))
    step (applyArith span op l r)
  | .compare span left op right => do
    let l ← step (needInt left op.symbol (← step (needValue left (← eval left))))
    let r ← step (needInt right op.symbol (← step (needValue right (← eval right))))
    return some (.bool (← step (applyRelation span op l r)))
  | .sign span op operand => step (applySign span op operand)
  | .block _ body => do
    inside {} (statements body)
    return none
  | .function .. => return none
  | .call span name callee args =>
    match env.target? callee with
    | some f => do
      if args.length = f.params.length then
        let values ← arguments args
        callFunction f values span
        return none
      else step (fail (.arity f.name f.params.length args.length) span)
    | none => do
      let values ← arguments args
      step (callBuiltin env span name values)
  | .when _ cond _ yes => do
    if ← condition "if" cond then inside {} (statements yes)
    return none
  | .choose _ cond _ yes _ no => do
    if ← condition "if" cond then inside {} (statements yes)
    else inside {} (statements no)
    return none
  | n@(.whileLoop _ cond _ body) => do
    loop (do
      ask n
      if ← condition "while" cond then
        statements body
        return true
      else return false)
    return none
  | n@(.forLoop _ init cond last _ body) =>
    inside {} (do
      discard (eval init)
      loop (do
        ask n
        if ← condition "for" cond then
          inside {} (statements body)
          discard (eval last)
          return true
        else return false)
      return none)
  | .skip .. => return none
  | n@(.program span _ _) => step (fail (.unhandled n.kind) span)

/-- Evaluate global declarations in order. -/
def globals : List Node → Plan Unit
  | [] => return ()
  | g :: rest => do
    discard (eval g)
    globals rest

/-- Evaluate the globals of a program and call its `Main`. -/
def start (p : Program) : Plan Unit := do
  if p.globals.isEmpty && p.functions.isEmpty then step (fail .emptyProgram p.span)
  globals p.globals
  match p.entry? with
  | none => return ()
  | some f =>
    if f.name = ("Main" : Text) then callFunction f [] f.span else step (fail (.entryName f.name) f.span)

end Plan

/-! ## Executions -/

/-- A question whether the run may go on: where it is asked, and the answer. -/
structure Question where
  node : Node
  goesOn : Bool

/-- How far a run has come: its machine, whose budget nobody looks at, and the questions asked, the latest first. -/
structure Stage where
  machine : Machine
  asked : List Question

namespace Stage

/-- The stage after a step of the machine. -/
def perform (s : Stage) (x : Run α) : Stage := { s with machine := (x s.machine).2 }

/-- The stage after a question. -/
def ask (s : Stage) (n : Node) (goesOn : Bool) : Stage := { s with asked := ⟨n, goesOn⟩ :: s.asked }

/-- The stage inside another frame. -/
def enter (s : Stage) (frame : Frame) : Stage :=
  { s with machine := { s.machine with chain := frame :: s.machine.chain } }

/-- The stage outside the innermost frame. -/
def leave (s : Stage) : Stage := { s with machine := { s.machine with chain := s.machine.chain.tail } }

/-- The stage after an event. -/
def report (s : Stage) (e : Trace.Event) : Stage :=
  { s with machine := { s.machine with events := e :: s.machine.events } }

end Stage

/-- Under a context, a plan leads from a stage to a result and another stage. The context answers the first
question by `context 0`, the next one by `context 1`, and so on. -/
inductive Executes (env : Env) (context : Nat → Bool) :
    {α : Type} → Plan α → Stage → Except Failure α → Stage → Prop
  | step {α : Type} {x : Run α} {s : Stage} : Executes env context (.step x) s (x s.machine).1 (s.perform x)
  | goesOn {n : Node} {s : Stage} : context s.asked.length = true →
      Executes env context (.ask n) s (.ok ()) (s.ask n true)
  | stops {n : Node} {s : Stage} : context s.asked.length = false →
      Executes env context (.ask n) s (.error ⟨.canceled, n.span⟩) (s.ask n false)
  | eval {n : Node} {s s' : Stage} {r : Except Failure (Option Value)} :
      Executes env context (Plan.node env n) s r s' → Executes env context (.eval n) s r s'
  | bindOk {α β : Type} {x : Plan α} {f : α → Plan β} {a : α} {s s₁ s' : Stage} {r : Except Failure β} :
      Executes env context x s (.ok a) s₁ → Executes env context (f a) s₁ r s' →
      Executes env context (.bind x f) s r s'
  | bindFails {α β : Type} {x : Plan α} {f : α → Plan β} {e : Failure} {s s' : Stage} :
      Executes env context x s (.error e) s' → Executes env context (.bind x f) s (.error e) s'
  | loopAgain {turn : Plan Bool} {s s₁ s' : Stage} {r : Except Failure Unit} :
      Executes env context turn s (.ok true) s₁ → Executes env context (.loop turn) s₁ r s' →
      Executes env context (.loop turn) s r s'
  | loopDone {turn : Plan Bool} {s s' : Stage} :
      Executes env context turn s (.ok false) s' → Executes env context (.loop turn) s (.ok ()) s'
  | loopFails {turn : Plan Bool} {e : Failure} {s s' : Stage} :
      Executes env context turn s (.error e) s' → Executes env context (.loop turn) s (.error e) s'
  | inside {α : Type} {frame : Frame} {body : Plan α} {s s' : Stage} {r : Except Failure α} :
      Executes env context body (s.enter frame) r s' →
      Executes env context (.inside frame body) s r s'.leave
  | reportEnd {span : Span} {name : Text} {body : Plan Unit} {s s' : Stage} {r : Except Failure Unit} :
      Executes env context body s r s' →
      Executes env context (.reportEnd span name body) s r (s'.report ⟨span, .callEnd name (isOk r)⟩)

/-- How a plan can come to an end, by its form. -/
def Plan.Ends (env : Env) (context : Nat → Bool) :
    {α : Type} → Plan α → Stage → Except Failure α → Stage → Prop
  | _, .step x, s, r, s' => r = (x s.machine).1 ∧ s' = s.perform x
  | _, .ask n, s, r, s' =>
    (context s.asked.length = true ∧ r = .ok () ∧ s' = s.ask n true) ∨
      (context s.asked.length = false ∧ r = .error ⟨.canceled, n.span⟩ ∧ s' = s.ask n false)
  | _, .eval n, s, r, s' => Executes env context (Plan.node env n) s r s'
  | _, .bind x f, s, r, s' =>
    (∃ a s₁, Executes env context x s (.ok a) s₁ ∧ Executes env context (f a) s₁ r s') ∨
      ∃ e, Executes env context x s (.error e) s' ∧ r = .error e
  | _, .loop turn, s, r, s' =>
    (∃ s₁, Executes env context turn s (.ok true) s₁ ∧ Executes env context (.loop turn) s₁ r s') ∨
      (Executes env context turn s (.ok false) s' ∧ r = .ok ()) ∨
      ∃ e, Executes env context turn s (.error e) s' ∧ r = .error e
  | _, .inside frame body, s, r, s' => ∃ s₁, Executes env context body (s.enter frame) r s₁ ∧ s' = s₁.leave
  | _, .reportEnd span name body, s, r, s' =>
    ∃ s₁, Executes env context body s r s₁ ∧ s' = s₁.report ⟨span, .callEnd name (isOk r)⟩

namespace Executes

variable {env : Env} {context : Nat → Bool} {c : Plan α} {s s' s'' : Stage} {r r' : Except Failure α}

theorem ends (h : Executes env context c s r s') : c.Ends env context s r s' := by
  cases h with
  | step => exact ⟨rfl, rfl⟩
  | goesOn hyes => exact Or.inl ⟨hyes, rfl, rfl⟩
  | stops hno => exact Or.inr ⟨hno, rfl, rfl⟩
  | eval hn => exact hn
  | bindOk hx hf => exact Or.inl ⟨_, _, hx, hf⟩
  | bindFails hx => exact Or.inr ⟨_, hx, rfl⟩
  | loopAgain hturn hloop => exact Or.inl ⟨_, hturn, hloop⟩
  | loopDone hturn => exact Or.inr (Or.inl ⟨hturn, rfl⟩)
  | loopFails hturn => exact Or.inr (Or.inr ⟨_, hturn, rfl⟩)
  | inside hbody => exact ⟨_, hbody, rfl⟩
  | reportEnd hbody => exact ⟨_, hbody, rfl⟩

/-- Under one context a plan comes to one end only. -/
theorem unique (h : Executes env context c s r s') (h' : Executes env context c s r' s'') :
    r' = r ∧ s'' = s' := by
  -- The other execution ends in one of the ways its command can, `h'.ends`. Where it is another way, the two
  -- disagree on a part they share.
  induction h generalizing s'' with
  | step => exact h'.ends
  | goesOn hyes =>
    rcases h'.ends with ⟨-, hr, hs⟩ | ⟨hno, -⟩
    · exact ⟨hr, hs⟩
    · exact absurd (hyes.symm.trans hno) (by simp)
  | stops hno =>
    rcases h'.ends with ⟨hyes, -⟩ | ⟨-, hr, hs⟩
    · exact absurd (hyes.symm.trans hno) (by simp)
    · exact ⟨hr, hs⟩
  | eval _ ih => exact ih h'.ends
  | bindOk _ _ ih ih' =>
    rcases h'.ends with ⟨a, s₁, hx, hf⟩ | ⟨e, hx, -⟩
    · obtain ⟨hok, rfl⟩ := ih hx
      cases hok
      exact ih' hf
    · cases (ih hx).1
  | bindFails _ ih =>
    rcases h'.ends with ⟨a, s₁, hx, -⟩ | ⟨e, hx, rfl⟩
    · cases (ih hx).1
    · obtain ⟨herror, rfl⟩ := ih hx
      cases herror
      exact ⟨rfl, rfl⟩
  | loopAgain _ _ ih ih' =>
    rcases h'.ends with ⟨s₁, hturn, hloop⟩ | ⟨hturn, -⟩ | ⟨e, hturn, -⟩
    · obtain ⟨-, rfl⟩ := ih hturn
      exact ih' hloop
    · cases (ih hturn).1
    · cases (ih hturn).1
  | loopDone _ ih =>
    rcases h'.ends with ⟨s₁, hturn, -⟩ | ⟨hturn, rfl⟩ | ⟨e, hturn, -⟩
    · cases (ih hturn).1
    · exact ⟨rfl, (ih hturn).2⟩
    · cases (ih hturn).1
  | loopFails _ ih =>
    rcases h'.ends with ⟨s₁, hturn, -⟩ | ⟨hturn, -⟩ | ⟨e, hturn, rfl⟩
    · cases (ih hturn).1
    · cases (ih hturn).1
    · obtain ⟨herror, rfl⟩ := ih hturn
      cases herror
      exact ⟨rfl, rfl⟩
  | inside _ ih =>
    obtain ⟨s₁, hbody, rfl⟩ := h'.ends
    obtain ⟨rfl, rfl⟩ := ih hbody
    exact ⟨rfl, rfl⟩
  | reportEnd _ ih =>
    obtain ⟨s₁, hbody, rfl⟩ := h'.ends
    obtain ⟨rfl, rfl⟩ := ih hbody
    exact ⟨rfl, rfl⟩

/-! ### Questions -/

/-- What was asked between two stages on the way to a result: all questions were answered yes, or the last one was
answered no and the result is a failure at its node. -/
def Asks (r : Except Failure α) (s s' : Stage) : Prop :=
  ∃ new, s'.asked = new ++ s.asked ∧
    ((∀ q ∈ new, q.goesOn = true) ∨
      ∃ n before, new = ⟨n, false⟩ :: before ∧ (∀ q ∈ before, q.goesOn = true) ∧ r = .error ⟨.canceled, n.span⟩)

namespace Asks

theorem none (h : s'.asked = s.asked) : Asks r s s' := ⟨[], h, Or.inl (by simp)⟩

/-- What was asked on the way to a failure stays the same where the failure is passed on. -/
theorem error {e : Failure} (h : Asks (.error e : Except Failure α) s s') :
    Asks (.error e : Except Failure β) s s' := by
  obtain ⟨new, hnew, hyes | ⟨n, before, hno, hbefore, he⟩⟩ := h
  · exact ⟨new, hnew, Or.inl hyes⟩
  · cases he
    exact ⟨new, hnew, Or.inr ⟨n, before, hno, hbefore, rfl⟩⟩

/-- On the way to a value all questions were answered yes, so more can be asked. -/
theorem trans {a : β} (h : Asks (.ok a : Except Failure β) s s') (h' : Asks r s' s'') : Asks r s s'' := by
  obtain ⟨new, hnew, hyes | ⟨_, _, _, _, he⟩⟩ := h
  · obtain ⟨more, hmore, hcases⟩ := h'
    refine ⟨more ++ new, by rw [hmore, hnew, List.append_assoc], hcases.imp ?_ ?_⟩
    · exact fun hall q hq => (List.mem_append.1 hq).elim (hall q) (hyes q)
    · rintro ⟨n, before, rfl, hbefore, he⟩
      refine ⟨n, before ++ new, rfl, ?_, he⟩
      exact fun q hq => (List.mem_append.1 hq).elim (hbefore q) (hyes q)
  · cases he

/-- A question that was answered no is the latest one. -/
theorem latest {n : Node} {before after : List Question} (h : Asks r s s') (hs : s.asked = [])
    (hasked : s'.asked = after ++ ⟨n, false⟩ :: before) :
    after = [] ∧ (∀ q ∈ before, q.goesOn = true) ∧ r = .error ⟨.canceled, n.span⟩ := by
  obtain ⟨new, hnew, hcases⟩ := h
  rw [hs, List.append_nil, hasked] at hnew
  subst hnew
  rcases hcases with hyes | ⟨n', before', hlast, hyes, hr⟩
  · cases hyes ⟨n, false⟩ (List.mem_append_right after List.mem_cons_self)
  · cases after with
    | nil =>
      obtain ⟨hn, rfl⟩ := List.cons.inj hlast
      cases hn
      exact ⟨rfl, hyes, hr⟩
    | cons q after =>
      obtain ⟨-, rfl⟩ := List.cons.inj hlast
      cases hyes ⟨n, false⟩ (List.mem_append_right after List.mem_cons_self)

end Asks

/-- Once a question has been answered no, no other is asked, and the plan fails at its node. -/
theorem asks (h : Executes env context c s r s') : Asks r s s' := by
  induction h with
  | step => exact .none rfl
  | @goesOn n =>
    refine ⟨[⟨n, true⟩], rfl, Or.inl ?_⟩
    rintro q hq
    rw [List.mem_singleton.1 hq]
  | @stops n => exact ⟨[⟨n, false⟩], rfl, Or.inr ⟨n, [], rfl, by simp, rfl⟩⟩
  | eval _ ih => exact ih
  | bindOk _ _ ih ih' => exact ih.trans ih'
  | bindFails _ ih => exact ih.error
  | loopAgain _ _ ih ih' => exact ih.trans ih'
  | loopDone _ ih => exact ih.trans (.none rfl)
  | loopFails _ ih => exact ih.error
  | inside _ ih => exact ih
  | reportEnd _ ih => exact ih

/-- The questions are answered by the context, in the order in which they are asked. -/
def Answered (context : Nat → Bool) (asked : List Question) : Prop :=
  asked.reverse.map Question.goesOn = (List.range asked.length).map context

theorem Answered.cons {asked : List Question} {n : Node} {b : Bool} (h : Answered context asked)
    (hb : context asked.length = b) : Answered context (⟨n, b⟩ :: asked) := by
  subst hb
  simp only [Answered, List.reverse_cons, List.map_append, List.length_cons, List.range_succ] at h ⊢
  rw [h]
  rfl

theorem answered (h : Executes env context c s r s') (hs : Answered context s.asked) :
    Answered context s'.asked := by
  induction h with
  | step => exact hs
  | goesOn hyes => exact hs.cons hyes
  | stops hno => exact hs.cons hno
  | eval _ ih => exact ih hs
  | bindOk _ _ ih ih' => exact ih' (ih hs)
  | bindFails _ ih => exact ih hs
  | loopAgain _ _ ih ih' => exact ih' (ih hs)
  | loopDone _ ih => exact ih hs
  | loopFails _ ih => exact ih hs
  | inside _ ih => exact ih hs
  | reportEnd _ ih => exact ih hs

end Executes

end Run

/-! ## Programs -/

namespace Program

open Run

/-- How a run of a program ends, once its result is there. -/
def outcome (p : Program) (r : Except Failure Unit) (m : Machine) : Outcome where
  failure := failure? r
  globals := (m.chain.getLast?).getD .root
  world := m.world
  events := ⟨p.span, .runStart⟩ :: (⟨p.span, .runEnd (isOk r)⟩ :: m.events).reverse

theorem run_eq_outcome (p : Program) (builtins : Registry) (world : World) (budget : Nat) :
    p.run builtins world budget =
      p.outcome (Run.start (eval ⟨builtins, p.allFunctions⟩ budget) p (.start world budget)).1
        (Run.start (eval ⟨builtins, p.allFunctions⟩ budget) p (.start world budget)).2 := rfl

/-- A program comes to an outcome in a world, with the questions it has asked, in order. -/
def Executes (p : Program) (env : Env) (context : Nat → Bool) (world : World) (asked : List Question)
    (o : Outcome) : Prop :=
  ∃ r s, Run.Executes env context (Plan.start p) ⟨.start world 0, []⟩ r s ∧ s.asked.reverse = asked ∧
    p.outcome r s.machine = o

end Program

end ScriptKit
