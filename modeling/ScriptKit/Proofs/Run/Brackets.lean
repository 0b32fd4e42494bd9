import ScriptKit.Proofs.Run.Rules
import ScriptKit.Trace.Summary
import ScriptKit.Tree.Parse

/-!
# The trace of a run

A run reports its calls of functions at their start and at their end, and whatever happens in between belongs
to the call: the trace has the shape of the calls. A `Log` is that shape. It lists what happened, and a call in
it comes with its arguments and the machine from which it was made, so that it can be made again: its events are
those that the call adds to what was reported before, and its end says whether the call fails.

The report of the end is made whichever way the body of a function ends. It is not made for a call whose
parameters cannot be declared, because two of them, or one and a global variable, have the same name. Such a call
ends the run, and the run fails as the call does.

**Theorem (`trace_bracketed`).** The trace of a run is that of its calls between the start and the end of the
run. The starts and ends of calls match like brackets if and only if the parameters of every call were declared,
and the summary of the trace counts the calls that failed with their parameters declared. A call that fails ends
the run with its failure.
-/

namespace ScriptKit

namespace Trace

/-! ## Brackets -/

/-- Whether an event is neither the start nor the end of a run or a call. -/
def Happening.isLocal : Happening → Bool
  | .builtinCall .. | .declared .. => true
  | _ => false

/-- Whether an event is the start or the end of a run. -/
def Happening.isRun : Happening → Bool
  | .runStart | .runEnd _ => true
  | _ => false

/-- Whether the starts and ends of calls match like brackets where some calls are open, the innermost first. A
call is known by its place and the name of its function. -/
def closes : List (Span × Text) → List Event → Bool
  | calls, [] => calls.isEmpty
  | calls, ⟨span, .callStart function⟩ :: events => closes ((span, function) :: calls) events
  | [], ⟨_, .callEnd _ _⟩ :: _ => false
  | call :: calls, ⟨span, .callEnd function _⟩ :: events => call == (span, function) && closes calls events
  | calls, _ :: events => closes calls events

theorem closes_of_other {e : Event} (hstart : ∀ function, e.what ≠ .callStart function)
    (hend : ∀ function ok, e.what ≠ .callEnd function ok) (calls : List (Span × Text)) (events : List Event) :
    closes calls (e :: events) = closes calls events := by
  obtain ⟨span, what⟩ := e
  cases what with
  | callStart function => exact absurd rfl (hstart function)
  | callEnd function ok => exact absurd rfl (hend function ok)
  | _ => cases calls <;> rfl

/-- Whether an event is the start of a call. -/
def Event.isCallStart (e : Event) : Bool :=
  match e.what with
  | .callStart _ => true
  | _ => false

/-- Whether an event is the end of a call. -/
def Event.isCallEnd (e : Event) : Bool :=
  match e.what with
  | .callEnd _ _ => true
  | _ => false

/-- Where starts and ends match, there are as many ends as starts and open calls. -/
theorem countP_of_closes {events : List Event} {calls : List (Span × Text)} (h : closes calls events = true) :
    events.countP Event.isCallStart + calls.length = events.countP Event.isCallEnd := by
  induction events generalizing calls with
  | nil => rw [List.isEmpty_iff.1 h]; rfl
  | cons e events ih =>
    obtain ⟨span, what⟩ := e
    cases what with
    | callStart function =>
      have := ih (show closes ((span, function) :: calls) events = true from h)
      simp only [List.countP_cons, Event.isCallStart, Event.isCallEnd, List.length_cons] at this ⊢
      simp only [Bool.false_eq_true, if_false, if_true]
      omega
    | callEnd function ok =>
      cases calls with
      | nil => cases h
      | cons call calls =>
        have := ih (Bool.and_eq_true_iff.1 h).2
        simp only [List.countP_cons, Event.isCallStart, Event.isCallEnd, List.length_cons] at this ⊢
        simp only [Bool.false_eq_true, if_false, if_true]
        omega
    | _ =>
      rw [closes_of_other (by simp) (by simp)] at h
      simpa [Event.isCallStart, Event.isCallEnd] using ih h

/-! ## Counting failures -/

/-- Whether an event is the end of a call that failed. -/
def Event.isFailedCall (e : Event) : Bool :=
  match e.what with
  | .callEnd _ ok => !ok
  | _ => false

/-- An event as it is read back from its line. -/
def Event.record (time run : Text) (e : Event) : Record :=
  { time := time, run := run, event := e.what.name, data := e.what.data.reverse }

theorem Summary.failures_add (s : Summary) (time run : Text) (e : Event) :
    (s.add (e.record time run)).failures = s.failures + if e.isFailedCall then 1 else 0 := by
  obtain ⟨span, what⟩ := e
  cases what with
  | callEnd function ok => cases ok <;> rfl
  | _ => rfl

/-- The summary of some events counts the ends of calls that failed. -/
theorem Summary.failures_ofRecords (time run : Text) (events : List Event) :
    (ofRecords (events.map (Event.record time run))).failures = events.countP Event.isFailedCall := by
  have hfold : ∀ s : Summary, ((events.map (Event.record time run)).foldl add s).failures =
      s.failures + events.countP Event.isFailedCall := by
    induction events with
    | nil => exact fun s => rfl
    | cons e events ih =>
      intro s
      rw [List.map_cons, List.foldl_cons, ih, failures_add, List.countP_cons, Nat.add_assoc,
        Nat.add_comm (List.countP _ _)]
  rw [ofRecords, hfold]
  exact Nat.zero_add _

end Trace

namespace Run

open Trace

/-! ## Logs -/

/-- A call of a function as it was made. -/
structure Call where
  level : Nat
  function : Function
  args : List Value
  span : Span
  machine : Machine

namespace Call

/-- The machine once the start of a call is reported. -/
def begun (c : Call) : Machine :=
  { c.machine with events := ⟨c.span, .callStart c.function.name⟩ :: c.machine.events }

/-- Whether the parameters of a call can be declared. -/
def binds (c : Call) : Bool := isOk (callFrame c.function c.args c.begun).1

/-- How a call ends, and the machine it leaves behind. -/
def outcome (env : Env) (c : Call) : Except Failure Unit × Machine :=
  callFunction (below env c.level) c.function c.args c.span c.machine

/-- Whether a call ends without a failure. -/
def succeeds (env : Env) (c : Call) : Bool := isOk (c.outcome env).1

/-- The report of the end of a call, which is made if the parameters were declared. -/
def ending (env : Env) (c : Call) : List Event :=
  if c.binds then [⟨c.span, .callEnd c.function.name (c.succeeds env)⟩] else []

theorem events_begun (c : Call) :
    c.begun.events.reverse = c.machine.events.reverse ++ [⟨c.span, .callStart c.function.name⟩] :=
  List.reverse_cons

section Outcome

variable {env : Env} {c : Call} {m : Machine}

/-- A call with the right number of arguments, once its start is reported. -/
theorem outcome_eq (harity : c.args.length = c.function.params.length) :
    c.outcome env = (callFrame c.function c.args >>= fun frame =>
      reportEnd c.span c.function.name (callBody (below env c.level) c.function frame)) c.begun := by
  unfold outcome callFunction
  rw [if_pos harity, bind_apply]
  rfl

/-- A call whose parameters cannot be declared fails without a report of its end. -/
theorem outcome_of_error {e : Failure} (harity : c.args.length = c.function.params.length)
    (hframe : callFrame c.function c.args c.begun = (.error e, m)) :
    c.binds = false ∧ c.outcome env = (.error e, m) := by
  constructor
  · rw [binds, hframe]
    rfl
  · rw [outcome_eq harity, bind_apply, hframe]

/-- A call whose parameters are declared runs its body and reports the end. -/
theorem outcome_of_ok {frame : Frame} (harity : c.args.length = c.function.params.length)
    (hframe : callFrame c.function c.args c.begun = (.ok frame, m)) :
    c.binds = true ∧
      c.outcome env = reportEnd c.span c.function.name (callBody (below env c.level) c.function frame) m := by
  constructor
  · rw [binds, hframe]
    rfl
  · rw [outcome_eq harity, bind_apply, hframe]

/-- A call fails if its parameters cannot be declared. -/
theorem fails_of_unbound (harity : c.args.length = c.function.params.length) (hbinds : c.binds = false) :
    ∃ f, (c.outcome env).1 = .error f := by
  cases hframe : callFrame c.function c.args c.begun with
  | mk result m =>
    cases result with
    | error e => exact ⟨e, by rw [(outcome_of_error harity hframe).2]⟩
    | ok frame =>
      obtain ⟨hbound, -⟩ : c.binds = true ∧ c.outcome env = _ := outcome_of_ok harity hframe
      rw [hbound] at hbinds
      cases hbinds

end Outcome

end Call

/-- What happened, in order: single events, and calls with what happened in them. -/
inductive Log where
  | done
  | event (e : Event) (rest : Log)
  | call (c : Call) (inner rest : Log)

namespace Log

/-- The events of a log. -/
def events (env : Env) : Log → List Event
  | done => []
  | event e rest => e :: rest.events env
  | call c inner rest =>
    ⟨c.span, .callStart c.function.name⟩ :: (inner.events env ++ (c.ending env ++ rest.events env))

/-- The calls of a log, in the order in which they start. -/
def calls : Log → List Call
  | done => []
  | event _ rest => rest.calls
  | call c inner rest => c :: (inner.calls ++ rest.calls)

/-- One log after another. -/
def append : Log → Log → Log
  | done, l => l
  | event e rest, l => event e (rest.append l)
  | call c inner rest, l => call c inner (rest.append l)

/-- The log is one of what can happen after the events `before`: each of its calls is made by a machine that has
reported what stands before it, with the right number of arguments, and reports what stands in the log. -/
inductive Happens (env : Env) : List Event → Log → Prop
  | done {before : List Event} : Happens env before .done
  | event {before : List Event} {e : Event} {rest : Log} :
      e.what.isLocal = true → Happens env (before ++ [e]) rest → Happens env before (.event e rest)
  | call {before : List Event} {c : Call} {inner rest : Log} :
      c.function ∈ env.functions → c.args.length = c.function.params.length →
      c.machine.events.reverse = before →
      (c.outcome env).2.events.reverse = before ++ (Log.call c inner .done).events env →
      Happens env (before ++ [⟨c.span, .callStart c.function.name⟩]) inner →
      Happens env (before ++ (Log.call c inner .done).events env) rest →
      Happens env before (.call c inner rest)

section Log

variable {env : Env} {before : List Event} {l l' : Log}

theorem events_append (l l' : Log) : (l.append l').events env = l.events env ++ l'.events env := by
  induction l with
  | done => rfl
  | event e rest ih => exact congrArg (e :: ·) ih
  | call c inner rest _ ih => simp only [append, events, ih, List.cons_append, List.append_assoc]

theorem calls_append (l l' : Log) : (l.append l').calls = l.calls ++ l'.calls := by
  induction l with
  | done => rfl
  | event e rest ih => exact ih
  | call c inner rest _ ih => simp only [append, calls, ih, List.cons_append, List.append_assoc]

theorem events_call (c : Call) (inner rest : Log) :
    (Log.call c inner rest).events env = (Log.call c inner .done).events env ++ rest.events env := by
  simp only [events, List.cons_append, List.append_assoc, List.append_nil]

theorem Happens.append (h : Happens env before l) (h' : Happens env (before ++ l.events env) l') :
    Happens env before (l.append l') := by
  induction h with
  | done =>
    rw [events, List.append_nil] at h'
    exact h'
  | event hlocal _ ih =>
    refine .event hlocal (ih ?_)
    rwa [List.append_assoc, List.singleton_append]
  | call hmem harity hmachine hevents hinner _ _ ih =>
    refine .call hmem harity hmachine hevents hinner (ih ?_)
    rwa [List.append_assoc, ← events_call]

/-- The start and the end of a run are not part of a log. -/
theorem Happens.not_run (h : Happens env before l) : ∀ e ∈ l.events env, e.what.isRun = false := by
  induction h with
  | done => simp [events]
  | @event _ e _ hlocal _ ih =>
    refine List.forall_mem_cons.2 ⟨?_, ih⟩
    cases hwhat : e.what <;> first | rfl | simp [hwhat, Happening.isLocal] at hlocal
  | @call _ c _ _ _ _ _ _ _ _ ih ih' =>
    refine List.forall_mem_cons.2 ⟨rfl, List.forall_mem_append.2 ⟨ih, List.forall_mem_append.2 ⟨?_, ih'⟩⟩⟩
    rw [Call.ending]
    split
    · exact List.forall_mem_singleton.2 rfl
    · exact List.forall_mem_nil _

/-- Every call is started, and those whose parameters are declared are ended. -/
theorem Happens.counts (h : Happens env before l) :
    (l.events env).countP Event.isCallStart = l.calls.length ∧
      (l.events env).countP Event.isCallEnd = l.calls.countP Call.binds := by
  induction h with
  | done => exact ⟨rfl, rfl⟩
  | @event _ e _ hlocal _ ih =>
    have hnot : e.isCallStart = false ∧ e.isCallEnd = false := by
      cases hwhat : e.what <;> simp [hwhat, Happening.isLocal, Event.isCallStart, Event.isCallEnd] at hlocal ⊢
    simpa [events, calls, hnot] using ih
  | @call _ c inner rest _ _ _ _ _ _ ih ih' =>
    rw [events, calls, List.countP_cons, List.countP_cons, List.countP_append, List.countP_append,
      List.countP_append, List.countP_append, ih.1, ih.2, ih'.1, ih'.2, List.length_cons, List.length_append,
      List.countP_cons, List.countP_append]
    cases hbinds : c.binds with
    | false => simp [Call.ending, hbinds, Event.isCallStart, Event.isCallEnd]
    | true =>
      simp [Call.ending, hbinds, Event.isCallStart, Event.isCallEnd]
      omega

/-- A call whose parameters cannot be declared is one that fails. -/
theorem Happens.fails_of_unbound (h : Happens env before l) :
    ∀ c ∈ l.calls, c.binds = false → ∃ f, (c.outcome env).1 = .error f := by
  induction h with
  | done => exact List.forall_mem_nil _
  | event _ _ ih => exact ih
  | call _ harity _ _ _ _ ih ih' =>
    exact List.forall_mem_cons.2 ⟨Call.fails_of_unbound harity, List.forall_mem_append.2 ⟨ih, ih'⟩⟩

/-- What is open before a log is open after it, if the parameters of all its calls were declared. -/
theorem Happens.closes (h : Happens env before l) (hbinds : ∀ c ∈ l.calls, c.binds = true)
    (calls : List (Span × Text)) (rest : List Event) :
    Trace.closes calls (l.events env ++ rest) = Trace.closes calls rest := by
  induction h generalizing calls rest with
  | done => rfl
  | @event _ e _ hlocal _ ih =>
    rw [events, List.cons_append, closes_of_other, ih hbinds]
    · intro function hwhat
      simp [hwhat, Happening.isLocal] at hlocal
    · intro function ok hwhat
      simp [hwhat, Happening.isLocal] at hlocal
  | @call _ c inner _ _ _ _ _ _ _ ih ih' =>
    obtain ⟨hc, hcalls⟩ := List.forall_mem_cons.1 hbinds
    obtain ⟨hinner, hrest⟩ := List.forall_mem_append.1 hcalls
    rw [events, Call.ending, if_pos hc, List.cons_append, List.append_assoc, List.append_assoc,
      List.singleton_append]
    simp only [Trace.closes, ih hinner, ih' hrest, beq_self_eq_true, Bool.true_and]

/-- The failed ends of calls are those of the calls that failed with their parameters declared. -/
theorem Happens.failures (h : Happens env before l) :
    (l.events env).countP Event.isFailedCall = l.calls.countP fun c => c.binds && !c.succeeds env := by
  induction h with
  | done => rfl
  | @event _ e _ hlocal _ ih =>
    have hnot : e.isFailedCall = false := by
      cases hwhat : e.what <;> simp [hwhat, Happening.isLocal, Event.isFailedCall] at hlocal ⊢
    rw [events, List.countP_cons, ih, hnot]
    rfl
  | @call _ c inner rest _ _ _ _ _ _ ih ih' =>
    have hending : (c.ending env).countP Event.isFailedCall =
        if (c.binds && !c.succeeds env) = true then 1 else 0 := by
      cases hbinds : c.binds <;> cases hsucceeds : c.succeeds env <;>
        simp [Call.ending, hbinds, hsucceeds, Event.isFailedCall]
    simp only [events, calls, List.countP_cons, List.countP_append, ih, ih', hending]
    simp only [Event.isFailedCall, Bool.false_eq_true, if_false]
    omega

end Log

end Log

/-! ## Steps and their logs -/

/-- From the machine `m` a step reports what the log `l` says, and fails as any call in it that fails. -/
structure Log.Tells (env : Env) {α : Type} (l : Log) (x : Run α) (m : Machine) : Prop where
  happens : l.Happens env m.events.reverse
  events : (x m).2.events.reverse = m.events.reverse ++ l.events env
  fails : ∀ c ∈ l.calls, ∀ f, (c.outcome env).1 = .error f → (x m).1 = .error f

theorem Log.Tells.not_fails {env : Env} {α : Type} {l : Log} {x : Run α} {m m' : Machine} {a : α}
    (h : l.Tells env x m) (hok : x m = (.ok a, m')) : ∀ c ∈ l.calls, ∀ f, (c.outcome env).1 ≠ .error f := by
  intro c hc f hf
  have hfails := h.fails c hc f hf
  rw [hok] at hfails
  cases hfails

/-- What a step reports is always told by a log. -/
def Logged (env : Env) {α : Type} (x : Run α) : Prop := ∀ m, ∃ l : Log, l.Tells env x m

namespace Logged

variable {env : Env} {α β : Type} {span : Span} {name : Text}

/-- A step that reports nothing. -/
theorem quiet {x : Run α} (h : ∀ m, (x m).2.events = m.events) : Logged env x := by
  refine fun m => ⟨.done, .done, ?_, List.forall_mem_nil _⟩
  rw [h, Log.events, List.append_nil]

theorem pure {a : α} : Logged env (pure a) := quiet fun _ => rfl

theorem fail {fault : Fault} : Logged env (fail fault span : Run α) := quiet fun _ => rfl

theorem modify {f : Machine → Machine} (h : ∀ m, (f m).events = m.events) :
    Logged env (modify f : Run PUnit) := quiet h

theorem get {f : Machine → Run α} (h : ∀ m, Logged env (f m)) : Logged env (MonadState.get >>= f) :=
  fun m =>
    let ⟨l, hl⟩ := h m m
    ⟨l, hl.happens, hl.events, hl.fails⟩

theorem bind {x : Run α} {f : α → Run β} (hx : Logged env x) (hf : ∀ a, Logged env (f a)) :
    Logged env (x >>= f) := by
  intro m
  obtain ⟨l, hl⟩ := hx m
  have hevents := hl.events
  cases hrun : x m with
  | mk result m₁ =>
    rw [hrun] at hevents
    cases result with
    | error e =>
      have hbind : (x >>= f) m = (.error e, m₁) := by rw [bind_apply, hrun]
      refine ⟨l, hl.happens, by rw [hbind]; exact hevents, fun c hc g hg => ?_⟩
      have hfails := hl.fails c hc g hg
      rw [hrun] at hfails
      cases hfails
      rw [hbind]
    | ok a =>
      obtain ⟨l', hl'⟩ := hf a m₁
      have hbind : (x >>= f) m = f a m₁ := by rw [bind_apply, hrun]
      have hhappens' := hl'.happens
      rw [hevents] at hhappens'
      refine ⟨l.append l', hl.happens.append hhappens', ?_, ?_⟩
      · rw [hbind, hl'.events, hevents, Log.events_append, List.append_assoc]
      · rw [hbind, Log.calls_append]
        exact List.forall_mem_append.2 ⟨fun c hc g hg => absurd hg (hl.not_fails hrun c hc g), hl'.fails⟩

/-- A step that is another one from a machine that has reported the same. -/
theorem inside {x : Run α} {y : Run β} (hx : Logged env x)
    (h : ∀ m, ∃ m₁, m₁.events = m.events ∧ (y m).2.events = (x m₁).2.events ∧
      ∀ f, (x m₁).1 = .error f → (y m).1 = .error f) : Logged env y := by
  intro m
  obtain ⟨m₁, hbefore, hafter, hresult⟩ := h m
  obtain ⟨l, hl⟩ := hx m₁
  refine ⟨l, hbefore ▸ hl.happens, by rw [hafter, hl.events, hbefore], fun c hc f hf => ?_⟩
  exact hresult f (hl.fails c hc f hf)

theorem emit {what : Happening} (h : what.isLocal = true) : Logged env (emit span what) := by
  intro m
  exact ⟨.event ⟨span, what⟩ .done, .event h .done, List.reverse_cons, List.forall_mem_nil _⟩

theorem check : Logged env (check span) := by
  refine get fun m => ?_
  cases m.budget with
  | zero => exact fail
  | succ n => exact modify fun _ => rfl

theorem liftScope {r : Except Scope.Error α} : Logged env (liftScope span r) := by
  cases r with
  | ok a => exact pure
  | error e => exact fail

theorem declare {type : VarType} {value : Option Value} : Logged env (declare span name type value) :=
  get fun _ => bind liftScope fun _ => bind (modify fun _ => rfl) fun _ => emit rfl

theorem assign {value : Value} : Logged env (assign span name value) :=
  get fun _ => bind liftScope fun _ => modify fun _ => rfl

theorem callBuiltin {args : List Value} : Logged env (callBuiltin env span name args) := by
  unfold Run.callBuiltin
  split
  · exact fail
  · refine bind (emit rfl) fun _ => get fun m => bind (modify fun _ => rfl) fun _ => ?_
    split
    · exact pure
    · exact fail
    · exact fail

theorem inFrame {x : Run α} (hx : Logged env x) : Logged env (inFrame x) :=
  hx.inside fun m => ⟨{ m with chain := {} :: m.chain }, rfl, rfl, fun _ hf => hf⟩

theorem bindParams {params : List Param} {args : List Value} : Logged env (bindParams params args) := by
  induction params generalizing args with
  | nil => exact pure
  | cons p params ih =>
    cases args with
    | nil => exact pure
    | cons v args => exact bind declare fun _ => ih

theorem callFrame {f : Function} {args : List Value} : Logged env (callFrame f args) := by
  have hparams : Logged env (Run.bindParams f.params args) := bindParams
  refine hparams.inside fun m => ⟨{ m with chain := {} :: m.chain.getLast?.toList }, rfl, ?_, ?_⟩
  all_goals
    simp only [Run.callFrame]
    cases Run.bindParams f.params args { m with chain := {} :: m.chain.getLast?.toList } with
    | mk result m' =>
      cases result with
      | ok u => simp
      | error e => simp

theorem callBody {next : Node → Run (Option Value)} {f : Function} {frame : Frame}
    (h : Logged env (statements next f.body)) : Logged env (callBody next f frame) :=
  h.inside fun m => ⟨{ m with chain := frame :: m.chain }, rfl, rfl, fun _ hf => hf⟩

theorem result_reportEnd (x : Run Unit) (m : Machine) : (reportEnd span name x m).1 = (x m).1 := rfl

theorem events_reportEnd (x : Run Unit) (m : Machine) :
    (reportEnd span name x m).2.events = ⟨span, .callEnd name (isOk (x m).1)⟩ :: (x m).2.events := rfl

/-- The log of a call from the log of what it does. -/
theorem tells_call {c : Call} {l : Log} (hf : c.function ∈ env.functions)
    (harity : c.args.length = c.function.params.length)
    (hhappens : l.Happens env (c.machine.events.reverse ++ [⟨c.span, .callStart c.function.name⟩]))
    (hevents : (c.outcome env).2.events.reverse =
      c.machine.events.reverse ++ (Log.call c l .done).events env)
    (hfails : ∀ c' ∈ l.calls, ∀ f, (c'.outcome env).1 = .error f → (c.outcome env).1 = .error f) :
    (Log.call c l .done).Tells env (Run.callFunction (below env c.level) c.function c.args c.span) c.machine where
  happens := .call hf harity rfl hevents hhappens .done
  events := hevents
  fails := by
    rw [Log.calls, Log.calls, List.append_nil]
    exact List.forall_mem_cons.2 ⟨fun f hf => hf, hfails⟩

/-- A call whose parameters cannot be declared reports its start and the parameters before the one that fails. -/
theorem call_of_error {c : Call} {e : Failure} {m : Machine} (hf : c.function ∈ env.functions)
    (harity : c.args.length = c.function.params.length)
    (hframe : Run.callFrame c.function c.args c.begun = (.error e, m)) :
    ∃ l : Log, l.Tells env (Run.callFunction (below env c.level) c.function c.args c.span) c.machine := by
  obtain ⟨hbinds, houtcome⟩ : c.binds = false ∧ c.outcome env = _ := Call.outcome_of_error harity hframe
  have hparams : Logged env (Run.callFrame c.function c.args) := callFrame
  obtain ⟨l, hl⟩ := hparams c.begun
  have hhappens := hl.happens
  have hevents := hl.events
  rw [c.events_begun] at hhappens hevents
  rw [hframe] at hevents
  have hlog : (c.outcome env).2.events.reverse =
      c.machine.events.reverse ++ (Log.call c l .done).events env := by
    rw [houtcome, hevents]
    simp [Log.events, Call.ending, hbinds]
  refine ⟨_, tells_call hf harity hhappens hlog fun c' hc' g hg => ?_⟩
  have hfails := hl.fails c' hc' g hg
  rw [hframe] at hfails
  cases hfails
  rw [houtcome]

/-- A call whose parameters are declared reports its start, what the parameters and the body do, and its end. -/
theorem call_of_ok {c : Call} {frame : Frame} {m : Machine} (hf : c.function ∈ env.functions)
    (harity : c.args.length = c.function.params.length)
    (hframe : Run.callFrame c.function c.args c.begun = (.ok frame, m))
    (hbody : Logged env (Run.statements (below env c.level) c.function.body)) :
    ∃ l : Log, l.Tells env (Run.callFunction (below env c.level) c.function c.args c.span) c.machine := by
  obtain ⟨hbinds, houtcome⟩ : c.binds = true ∧ c.outcome env = _ := Call.outcome_of_ok harity hframe
  have hparams : Logged env (Run.callFrame c.function c.args) := callFrame
  have hinner : Logged env (Run.callBody (below env c.level) c.function frame) := callBody hbody
  obtain ⟨l, hl⟩ := hparams c.begun
  obtain ⟨l', hl'⟩ := hinner m
  have hhappens := hl.happens
  have hevents := hl.events
  have hhappens' := hl'.happens
  rw [c.events_begun] at hhappens hevents
  rw [hframe] at hevents
  rw [hevents] at hhappens'
  have hsucceeds : c.succeeds env = isOk (Run.callBody (below env c.level) c.function frame m).1 := by
    rw [Call.succeeds, houtcome, result_reportEnd]
  have hlog : (c.outcome env).2.events.reverse =
      c.machine.events.reverse ++ (Log.call c (l.append l') .done).events env := by
    rw [houtcome, events_reportEnd, List.reverse_cons, hl'.events, hevents, ← hsucceeds]
    simp [Log.events, Log.events_append, Call.ending, hbinds]
  refine ⟨_, tells_call hf harity (hhappens.append hhappens') hlog ?_⟩
  rw [Log.calls_append, houtcome, result_reportEnd]
  exact List.forall_mem_append.2 ⟨fun c' hc' g hg => absurd hg (hl.not_fails hframe c' hc' g), hl'.fails⟩

theorem callFunction {level : Nat} {f : Function} {args : List Value} (hf : f ∈ env.functions)
    (h : Logged env (Run.statements (below env level) f.body)) :
    Logged env (Run.callFunction (below env level) f args span) := by
  by_cases harity : args.length = f.params.length
  · intro m
    cases hframe : Run.callFrame f args (Call.begun ⟨level, f, args, span, m⟩) with
    | mk result m₁ =>
      cases result with
      | error e => exact call_of_error (c := ⟨level, f, args, span, m⟩) hf harity hframe
      | ok frame => exact call_of_ok (c := ⟨level, f, args, span, m⟩) hf harity hframe h
  · unfold Run.callFunction
    rw [if_neg harity]
    exact fail

end Logged

/-- Every step of the evaluator has a log. -/
theorem logged_rules (env : Env) : Rules env fun _ x => Logged env x where
  pure _ := .pure
  fail _ _ := .fail
  bind hx hf := .bind hx hf
  check _ := .check
  declare _ _ _ _ := .declare
  assign _ _ _ := .assign
  resolve _ _ := .get fun _ => .liftScope
  interpolate _ _ := .get fun _ => .bind .liftScope fun _ => .pure
  callBuiltin _ _ _ := .callBuiltin
  inFrame hx := .inFrame hx
  callFunction _ _ hf hbody := .callFunction hf hbody

end Run

open Run Trace

/-- The events of a run are those of its steps between its start and its end. -/
theorem Program.events_run {p : Program} {registry : Registry} {world : World} {budget : Nat} :
    (p.run registry world budget).events = ⟨p.span, .runStart⟩ ::
      (start (eval ⟨registry, p.allFunctions⟩ budget) p (.start world budget)).2.events.reverse ++
        [⟨p.span, .runEnd (p.run registry world budget).failure.isNone⟩] := by
  have hended : ∀ r : Except Failure Unit, isOk r = (failure? r).isNone := by
    rintro (_ | _) <;> rfl
  show _ :: (_ :: _).reverse = _
  rw [List.reverse_cons, hended]
  rfl

/-- The trace of a run: its calls, each with the end it had, between the start and the end of the run. The starts
and ends of calls match like brackets if and only if the parameters of all calls were declared. The run fails as
any of its calls does. -/
theorem trace_bracketed (p : Program) (registry : Registry) (world : World) (budget : Nat) (time run : Text) :
    ∃ l : Log, l.Happens ⟨registry, p.allFunctions⟩ [] ∧
      (p.run registry world budget).events = ⟨p.span, .runStart⟩ :: l.events ⟨registry, p.allFunctions⟩ ++
        [⟨p.span, .runEnd (p.run registry world budget).failure.isNone⟩] ∧
      (∀ e ∈ l.events ⟨registry, p.allFunctions⟩, e.what.isRun = false) ∧
      (closes [] (p.run registry world budget).events = true ↔ ∀ c ∈ l.calls, c.binds = true) ∧
      (Summary.ofRecords ((p.run registry world budget).events.map (Event.record time run))).failures =
        l.calls.countP (fun c => c.binds && !c.succeeds ⟨registry, p.allFunctions⟩) ∧
      ∀ c ∈ l.calls, (c.binds = false → ∃ f, (c.outcome ⟨registry, p.allFunctions⟩).1 = .error f) ∧
        ∀ f, (c.outcome ⟨registry, p.allFunctions⟩).1 = .error f →
          (p.run registry world budget).failure = some f := by
  obtain ⟨l, htells⟩ :=
    (logged_rules ⟨registry, p.allFunctions⟩).start rfl budget (.start world budget)
  have hl : l.Happens ⟨registry, p.allFunctions⟩ [] := htells.happens
  have hevents : (p.run registry world budget).events = _ := p.events_run
  have hsteps : (start (eval ⟨registry, p.allFunctions⟩ budget) p (.start world budget)).2.events.reverse =
      l.events ⟨registry, p.allFunctions⟩ := htells.events
  rw [hsteps] at hevents
  -- a call that cannot bind opens a bracket and never closes it, so closing is a matter of counting
  refine ⟨l, hl, hevents, hl.not_run, ⟨fun hcloses => ?_, fun hbinds => ?_⟩, ?_,
    fun c hc => ⟨hl.fails_of_unbound c hc, fun f hf => ?_⟩⟩
  · have hcount := countP_of_closes hcloses
    rw [hevents] at hcount
    simp only [List.cons_append, List.countP_cons, List.countP_append, hl.counts.1, hl.counts.2] at hcount
    exact List.countP_eq_length.1 hcount.symm
  · rw [hevents]
    show closes [] (l.events _ ++ _) = true
    rw [hl.closes hbinds]
    rfl
  · rw [Summary.failures_ofRecords, hevents, ← hl.failures]
    simp [Event.isFailedCall]
  · have hfailure : (p.run registry world budget).failure = Program.failure?
        (start (eval ⟨registry, p.allFunctions⟩ budget) p (.start world budget)).1 := rfl
    rw [hfailure, htells.fails c hc f hf]
    rfl

/-- A program that calls a function with a parameter named like a global variable. -/
def globalParam : Text := "int x func F(int x) \x7b \x7d func Main() \x7b F(1) \x7d"

/-- The end of a call whose parameters cannot be declared is not reported: two calls are started and fail, and one
failure is counted. -/
theorem trace_left_open :
    ∃ p, parse "a" globalParam = .ok p ∧ closes [] (p.run .default {} 10).events = false ∧
      (p.run .default {} 10).events.countP Event.isCallStart = 2 ∧
      (p.run .default {} 10).failure = some ⟨.scope ⟨.declare, "x", .redeclared⟩, ⟨"a", ⟨1, 14⟩, ⟨1, 19⟩⟩⟩ ∧
      (Summary.ofRecords ((p.run .default {} 10).events.map (Event.record "t" "r"))).failures = 1 := by
  have hrun : (parse "a" globalParam).toOption.map (fun p =>
      (closes [] (p.run .default {} 10).events, (p.run .default {} 10).events.countP Event.isCallStart,
        (p.run .default {} 10).failure,
        (Summary.ofRecords ((p.run .default {} 10).events.map (Event.record "t" "r"))).failures)) =
      some (false, 2, some ⟨.scope ⟨.declare, "x", .redeclared⟩, ⟨"a", ⟨1, 14⟩, ⟨1, 19⟩⟩⟩, 1) := by decide +kernel
  cases hparse : parse "a" globalParam with
  | error e => rw [hparse] at hrun; cases hrun
  | ok p =>
    rw [hparse] at hrun
    obtain ⟨hcloses, hrest⟩ := Prod.mk.inj (Option.some.inj hrun)
    obtain ⟨hstarts, hrest⟩ := Prod.mk.inj hrest
    exact ⟨p, rfl, hcloses, hstarts, Prod.mk.inj hrest⟩

end ScriptKit
