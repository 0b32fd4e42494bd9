import ScriptKit.Proofs.Run.Shadowing
import ScriptKit.Proofs.Run.Summaries

/-!
# The depths of declarations

A declaration reports how many frames are above the one it is made in. The frame of a call changes its place, though:
the parameters are declared while only the root is above it, and then it is put on top of the frames of the caller.

A `Room` is a frame that a run makes, with its declarations in both places. The rooms are read off the script of the
run, in which blocks and calls are nodes. `Account.Covers` relates an account of them to the machines before and after:
nothing else was declared, and every frame holds what its room says. A step declares in the first frame only
(`Machine.Plain`), a block makes a room out of the account of its body (`covers_inFrame`), and so does a call, with the
parameters in front (`covers_body`).

**Theorem (`depths_of_declarations`).** Declarations by statements report the depth of the frame where its statements
run, those of parameters report 1, and the deepest scope in the summary of a trace file is the largest of these.
-/

namespace ScriptKit

open Trace

/-- The variable that an event says is declared, with its type. -/
def Trace.Event.variable? (e : Event) : Option (Text × VarType) :=
  match e.what with
  | .declared name type _ => some (name, type)
  | _ => none

namespace Run

variable {α β : Type}

/-! ## Rooms -/

/-- The parameters of a call; other frames have none. -/
def Origin.params : Origin → List Param
  | .call f => f.params
  | _ => []

/-- A frame that a run has made. -/
structure Room where
  origin : Origin
  /-- The frames above it where its statements run. -/
  above : Chain
  /-- The declarations of parameters, before the frame was put there. -/
  params : List Event
  /-- The declarations by statements. -/
  locals : List Event
  /-- The frame as it was left. -/
  frame : Frame

/-- All declarations of a frame, in order. -/
def Room.declared (r : Room) : List Event := r.params ++ r.locals

/-- The declarations of a frame and of the frames made while it was the first one. -/
structure Account where
  own : List Event := []
  rooms : List Room := []

namespace Account

/-- One account after the other. -/
def append (a b : Account) : Account := ⟨a.own ++ b.own, a.rooms ++ b.rooms⟩

/-- All declarations of an account. -/
def declared (a : Account) : List Event := a.own ++ a.rooms.flatMap Room.declared

end Account

/-- The declarations reported between two machines of a run. -/
def Machine.declaredUpTo (m m' : Machine) : List Event :=
  ((m'.events.take (m'.events.length - m.events.length)).filter Event.isDeclaration).reverse

/-- The account of what follows a step; nothing follows a failure. -/
def follow (r : Except Failure α × Machine) (account : α → Machine → Account) : Account :=
  match r with
  | (.ok a, m) => account a m
  | (.error _, _) => {}

/-- The machine in which the parameters of a call are declared. -/
def Machine.atParams (m : Machine) (f : Function) (span : Span) : Machine :=
  { m.entered f span with chain := {} :: m.chain.getLast?.toList }

/-- The rooms of a call: its own one and those made in it. The parameters are declared where only the root is above
them, and then the frame is put on top of the frames of the caller. -/
def callRooms (f : Function) (args : List Value) (span : Span) (body : Run Unit) (account : Machine → Account)
    (m : Machine) : List Room :=
  match bindParams f.params args (m.atParams f span) with
  | (.ok _, m') =>
    let inside := { m' with chain := m'.chain.head?.getD {} :: m.chain }
    ⟨.call f, m.chain, (m.atParams f span).declaredUpTo m', (account inside).own,
      (body inside).2.chain.head?.getD {}⟩ :: (account inside).rooms
  | (.error _, m') => [⟨.call f, m.chain, (m.atParams f span).declaredUpTo m', [], m'.chain.head?.getD {}⟩]

namespace Script

/-- What a script declares, in the frame it runs in and in those it makes. -/
def account (env : Env) {α : Type} : Script α → Machine → Account
  | .pure _, _ => {}
  | .fail _ _, _ => {}
  | .step s next, m =>
    .append ⟨m.declaredUpTo (s.run env m).2, []⟩ (follow (s.run env m) fun b m' => (next b).account env m')
  | .inFrame body next, m =>
    let inside := { m with chain := {} :: m.chain }
    let inner := body.account env inside
    .append ⟨[], ⟨.block, m.chain, [], inner.own, (body.run env inside).2.chain.head?.getD {}⟩ :: inner.rooms⟩
      (follow (Run.inFrame (body.run env) m) fun b m' => (next b).account env m')
  | .call f args span body next, m =>
    .append ⟨[], callRooms f args span (body.run env) (fun m' => body.account env m') m⟩
      (follow (runCall f args span (body.run env) m) fun _ m' => next.account env m')

end Script

/-! ## Sound accounts -/

/-- A frame holds what was declared in it, and the depths of its declarations are those of the place where they were
made: that of its statements for a local variable, right above the root for a parameter. -/
structure Room.Sound (r : Room) : Prop where
  held : r.frame.signature = (r.declared.filterMap Event.variable?).reverse
  /-- Only parameters of the call are declared as such, in their order, up to the first one that clashes. -/
  bound : r.params.filterMap Event.variable? <+: r.origin.params.map fun p => (p.name, p.type)
  locals : ∀ e ∈ r.locals, e.depth? = some r.above.length
  params : ∀ e ∈ r.params, e.depth? = some 1

/-- An account of what a run does between two machines. -/
structure Account.Covers (a : Account) (m m' : Machine) : Prop where
  events : ∃ new, m'.events = new ++ m.events ∧ (new.filter Event.isDeclaration).Perm a.declared
  gains : m.chain.Gains (a.own.filterMap Event.variable?).reverse m'.chain
  depth : ∀ e ∈ a.own, e.depth? = some m.chain.depth
  rooms : ∀ r ∈ a.rooms, r.Sound

namespace Account.Covers

variable {a b : Account} {m m' m'' : Machine}

theorem refl (m : Machine) : Account.Covers {} m m where
  events := ⟨[], rfl, .refl _⟩
  gains := .refl _
  depth := List.forall_mem_nil _
  rooms := List.forall_mem_nil _

theorem trans (h : a.Covers m m') (h' : b.Covers m' m'') : (a.append b).Covers m m'' where
  events := by
    obtain ⟨new, hnew, hperm⟩ := h.events
    obtain ⟨new', hnew', hperm'⟩ := h'.events
    refine ⟨new' ++ new, by rw [hnew', hnew, List.append_assoc], ?_⟩
    rw [List.filter_append]
    refine List.perm_append_comm.trans ((hperm.append hperm').trans ?_)
    simp only [declared, append, List.flatMap_append, List.append_assoc]
    exact (List.perm_append_comm_assoc ..).append_left a.own
  gains := by
    simp only [Account.append, List.filterMap_append, List.reverse_append]
    exact h.gains.trans h'.gains
  depth := by
    refine List.forall_mem_append.2 ⟨h.depth, ?_⟩
    have hdepth : m'.chain.depth = m.chain.depth := congrArg (· - 1) h.gains.length_eq
    rw [← hdepth]
    exact h'.depth
  rooms := List.forall_mem_append.2 ⟨h.rooms, h'.rooms⟩

/-- What follows a step. -/
theorem bind {x : Run α} {k : α → Run β} {account : α → Machine → Account} (hx : a.Covers m (x m).2)
    (hk : ∀ c, (account c (x m).2).Covers (x m).2 (k c (x m).2).2) :
    (a.append (follow (x m) account)).Covers m ((x >>= k) m).2 := by
  rw [bind_apply]
  revert hx hk
  cases x m with
  | mk result m' =>
    intro hx hk
    cases result with
    | ok c => exact hx.trans (hk c)
    | error e => exact hx.trans (.refl m')

end Account.Covers

/-! ## Steps in one frame -/

theorem Machine.declaredUpTo_eq {m m' : Machine} (new : List Event) (h : m'.events = new ++ m.events) :
    m.declaredUpTo m' = (new.filter Event.isDeclaration).reverse := by
  rw [Machine.declaredUpTo, h, List.length_append, Nat.add_sub_cancel, List.take_left]

/-- Whatever is declared between two machines is declared in the first frame, and no frame is made. -/
def Machine.Plain (m m' : Machine) : Prop := Account.Covers ⟨m.declaredUpTo m', []⟩ m m'

namespace Machine.Plain

variable {m m' m'' : Machine}

theorem declaredUpTo_trans (h : m.Plain m') (h' : m'.Plain m'') :
    m.declaredUpTo m'' = m.declaredUpTo m' ++ m'.declaredUpTo m'' := by
  obtain ⟨new, hnew, -⟩ := h.events
  obtain ⟨new', hnew', -⟩ := h'.events
  have hevents : m''.events = (new' ++ new) ++ m.events := by rw [hnew', hnew, List.append_assoc]
  rw [declaredUpTo_eq _ hnew, declaredUpTo_eq _ hnew', declaredUpTo_eq _ hevents, List.filter_append,
    List.reverse_append]

theorem trans (h : m.Plain m') (h' : m'.Plain m'') : m.Plain m'' := by
  unfold Machine.Plain
  rw [declaredUpTo_trans h h']
  exact Account.Covers.trans h h'

/-- A step that declares nothing. -/
theorem of_none (new : List Event) (hevents : m'.events = new ++ m.events) (hnone : new.filter Event.isDeclaration = [])
    (hgains : m.chain.Gains [] m'.chain) : m.Plain m' := by
  unfold Machine.Plain
  rw [declaredUpTo_eq _ hevents, hnone]
  exact ⟨⟨new, hevents, by rw [hnone]; exact .refl _⟩, hgains, List.forall_mem_nil _, List.forall_mem_nil _⟩

theorem refl (m : Machine) : m.Plain m := of_none [] rfl rfl (.refl _)

theorem declare (span : Span) (name : Text) (type : VarType) (value : Option Value) (m : Machine) :
    m.Plain (Run.declare span name type value m).2 := by
  rw [declare_apply]
  cases hdeclare : m.chain.declare name type value with
  | error e => exact refl m
  | ok c =>
    have hgains := Chain.Gains.declare hdeclare
    have hdepth : c.depth = m.chain.depth := congrArg (· - 1) hgains.length_eq
    have hevent : m.declaredUpTo { m with chain := c, events := ⟨span, .declared name type c.depth⟩ :: m.events } =
        [⟨span, .declared name type c.depth⟩] := by
      rw [declaredUpTo_eq [⟨span, .declared name type c.depth⟩] rfl]
      rfl
    unfold Machine.Plain
    rw [hevent]
    refine ⟨⟨[⟨span, .declared name type c.depth⟩], rfl, .refl _⟩, hgains, ?_, List.forall_mem_nil _⟩
    exact List.forall_mem_singleton.2 (congrArg some hdepth)

theorem step (env : Env) (s : Step α) (m : Machine) : m.Plain (s.run env m).2 := by
  cases s with
  | look x h => exact (h m).symm ▸ refl m
  | declare span name type value => exact declare span name type value m
  | check span =>
    show m.Plain (Run.check span m).2
    cases hbudget : m.budget with
    | zero =>
      rw [Sim.check_zero hbudget]
      exact refl m
    | succ n =>
      rw [Sim.check_succ hbudget]
      exact of_none [] rfl rfl (.refl _)
  | assign span name value =>
    show m.Plain (Run.assign span name value m).2
    rw [assign_apply]
    cases hassign : m.chain.assign name (some value) with
    | error e => exact refl m
    | ok c => exact of_none [] rfl rfl (.assign hassign)
  | callBuiltin span name args =>
    show m.Plain (Run.callBuiltin env span name args m).2
    cases hb : env.builtins.get? name with
    | none =>
      unfold Run.callBuiltin
      rw [hb]
      exact refl m
    | some b =>
      rw [callBuiltin_apply hb]
      exact of_none [⟨span, .builtinCall name args.length⟩] rfl rfl (.refl _)

theorem bindParams (params : List Param) (args : List Value) (m : Machine) :
    m.Plain (Run.bindParams params args m).2 := by
  have hseq : Sequential fun _ x => ∀ m : Machine, m.Plain (x m).2 := .of_trans refl trans
  induction params generalizing args m with
  | nil => exact refl m
  | cons p params ih =>
    cases args with
    | nil => exact refl m
    | cons v args => exact hseq.bind (declare p.span p.name p.type (some v)) (fun _ => ih args) m

end Machine.Plain

theorem Machine.declaredUpTo_self (m : Machine) : m.declaredUpTo m = [] := Machine.declaredUpTo_eq [] rfl

/-- What `bindParams` declares are the parameters, up to the first one that clashes. -/
theorem bindParams_prefix (params : List Param) (args : List Value) (m : Machine) :
    (m.declaredUpTo (bindParams params args m).2).filterMap Event.variable? <+:
      params.map fun p => (p.name, p.type) := by
  have hnothing : ∀ (m : Machine) (all : List (Text × VarType)),
      (m.declaredUpTo m).filterMap Event.variable? <+: all := by
    intro m all
    rw [Machine.declaredUpTo_self]
    exact List.nil_prefix
  induction params generalizing args m with
  | nil => exact hnothing m _
  | cons p params ih =>
    cases args with
    | nil => exact hnothing m _
    | cons v args =>
      show (m.declaredUpTo ((declare p.span p.name p.type (some v) >>= fun _ => bindParams params args) m).2).filterMap
        Event.variable? <+: _
      have hfirst := Machine.Plain.declare p.span p.name p.type (some v) m
      rw [bind_apply]
      revert hfirst
      rw [declare_apply]
      cases m.chain.declare p.name p.type (some v) with
      | error e => exact fun _ => hnothing m _
      | ok c =>
        intro hfirst
        have hrest := Machine.Plain.bindParams params args
          { m with chain := c, events := ⟨p.span, .declared p.name p.type c.depth⟩ :: m.events }
        rw [Machine.Plain.declaredUpTo_trans hfirst hrest,
          Machine.declaredUpTo_eq [⟨p.span, .declared p.name p.type c.depth⟩] rfl]
        exact List.cons_prefix_cons.2 ⟨rfl, ih args _⟩

/-! ## Frames -/

/-- The first frame has its new variables on top of those it had. -/
theorem signature_of_gains {new : List (Text × VarType)} {f : Frame} {c c' : Chain}
    (h : Chain.Gains new (f :: c) c') : (c'.head?.getD {}).signature = new ++ f.signature := by
  have hheaders := h.headers
  cases c' with
  | nil => cases hheaders
  | cons f' outer => exact congrArg Header.signature (List.cons.inj hheaders).1

section Frames

variable {m m' : Machine} {inner : Account}

/-- What is done in a frame of its own. -/
theorem covers_inFrame (h : inner.Covers { m with chain := {} :: m.chain } m') :
    Account.Covers ⟨[], ⟨.block, m.chain, [], inner.own, m'.chain.head?.getD {}⟩ :: inner.rooms⟩ m
      { m' with chain := m'.chain.tail } where
  events := h.events
  gains := h.gains.pop
  depth := List.forall_mem_nil _
  rooms := by
    refine List.forall_mem_cons.2 ⟨⟨?_, List.nil_prefix, h.depth, List.forall_mem_nil _⟩, h.rooms⟩
    exact (signature_of_gains h.gains).trans (List.append_nil _)

theorem runCall_apply (f : Function) (args : List Value) (span : Span) (body : Run Unit) (m : Machine) :
    (Script.runCall f args span body m).2 =
      match bindParams f.params args (m.atParams f span) with
      | (.ok _, m') =>
        let after := body { m' with chain := m'.chain.head?.getD {} :: m.chain }
        { after.2 with
          chain := after.2.chain.tail
          events := ⟨span, .callEnd f.name (isOk after.1)⟩ :: after.2.events }
      | (.error _, m') => { m' with chain := m.chain } := by
  show ((callFrame f args >>= fun frame => reportEnd span f.name (Sim.inside frame body)) (m.entered f span)).2 = _
  rw [bind_apply]
  simp only [callFrame]
  have hparams : ({ m.entered f span with chain := {} :: (m.entered f span).chain.getLast?.toList } : Machine) =
      m.atParams f span := rfl
  rw [hparams]
  cases bindParams f.params args (m.atParams f span) with
  | mk result m' => cases result <;> rfl

/-- The declarations of parameters, whether they come to an end or not. -/
structure ParamsBound (f : Function) (m m' : Machine) (params : List Event) : Prop where
  events : ∃ new, m'.events = new ++ m.events ∧ (new.filter Event.isDeclaration).Perm params
  held : (m'.chain.head?.getD {}).signature = (params.filterMap Event.variable?).reverse
  depth : ∀ e ∈ params, e.depth? = some 1
  bound : params.filterMap Event.variable? <+: f.params.map fun p => (p.name, p.type)

theorem paramsBound (hne : m.chain ≠ []) (f : Function) (args : List Value) (span : Span) :
    ParamsBound f m (bindParams f.params args (m.atParams f span)).2
      ((m.atParams f span).declaredUpTo (bindParams f.params args (m.atParams f span)).2) := by
  have hplain := Machine.Plain.bindParams f.params args (m.atParams f span)
  obtain ⟨new, hnew, hperm⟩ := hplain.events
  obtain ⟨root, hroot⟩ : ∃ root, m.chain.getLast? = some root := ⟨_, List.getLast?_eq_some_getLast hne⟩
  have hdepth : (m.atParams f span).chain.depth = 1 := by
    show Chain.depth ({} :: m.chain.getLast?.toList) = 1
    rw [hroot]
    rfl
  refine ⟨⟨new ++ [⟨span, .callStart f.name⟩], ?_, ?_⟩, ?_, fun e he => hdepth ▸ hplain.depth e he,
    bindParams_prefix ..⟩
  · rw [hnew, List.append_assoc]
    rfl
  · rw [List.filter_append]
    exact (List.append_nil _).symm ▸ hperm.trans (.of_eq (List.append_nil _))
  · exact (signature_of_gains hplain.gains).trans (List.append_nil _)

/-- The body of a call in the frame of its parameters, up to the report of its end. -/
theorem covers_body {f : Function} {params : List Event} {m₁ m₂ : Machine} {e : Event}
    (hbound : ParamsBound f m m₁ params)
    (h : inner.Covers { m₁ with chain := m₁.chain.head?.getD {} :: m.chain } m₂) (he : e.isDeclaration = false) :
    Account.Covers ⟨[], ⟨.call f, m.chain, params, inner.own, m₂.chain.head?.getD {}⟩ :: inner.rooms⟩ m
      { m₂ with chain := m₂.chain.tail, events := e :: m₂.events } where
  events := by
    obtain ⟨new, hnew, hperm⟩ := hbound.events
    obtain ⟨more, hmore, hperm'⟩ := h.events
    refine ⟨e :: (more ++ new), ?_, ?_⟩
    · rw [hmore, hnew, List.cons_append, List.append_assoc]
    · rw [List.filter_cons_of_neg (by simp [he]), List.filter_append]
      refine List.perm_append_comm.trans ((hperm.append hperm').trans (.of_eq ?_))
      simp [Account.declared, Room.declared]
  gains := h.gains.pop
  depth := List.forall_mem_nil _
  rooms := by
    refine List.forall_mem_cons.2 ⟨⟨?_, hbound.bound, h.depth, hbound.depth⟩, h.rooms⟩
    rw [Room.declared, List.filterMap_append, List.reverse_append, ← hbound.held]
    exact signature_of_gains h.gains

theorem covers_call (hne : m.chain ≠ []) {f : Function} {args : List Value} {span : Span} {body : Run Unit}
    {account : Machine → Account} (h : ∀ m' : Machine, m'.chain ≠ [] → (account m').Covers m' (body m').2) :
    Account.Covers ⟨[], callRooms f args span body account m⟩ m (Script.runCall f args span body m).2 := by
  have hbound := paramsBound hne f args span
  revert hbound
  unfold callRooms
  rw [runCall_apply]
  cases bindParams f.params args (m.atParams f span) with
  | mk result m₁ =>
    intro hbound
    cases result with
    | ok u => exact covers_body hbound (h _ (List.cons_ne_nil _ _)) rfl
    | error e =>
      -- the frame of a call whose parameters clash is left as it is, and the call ends there
      obtain ⟨new, hnew, hperm⟩ := hbound.events
      refine ⟨⟨new, hnew, hperm.trans (.of_eq ?_)⟩, .refl _, List.forall_mem_nil _, ?_⟩
      · simp [Account.declared, Room.declared]
      · refine List.forall_mem_singleton.2 ⟨?_, hbound.bound, List.forall_mem_nil _, hbound.depth⟩
        rw [Room.declared, List.append_nil]
        exact hbound.held

end Frames

/-! ## Scripts -/

/-- The account of a script covers what the script does. -/
theorem covers_script (env : Env) (s : Script α) {m : Machine} (hne : m.chain ≠ []) :
    (s.account env m).Covers m (s.run env m).2 := by
  have hkeep : ∀ {a : Account} {m m' : Machine}, m.chain ≠ [] → a.Covers m m' → m'.chain ≠ [] := by
    intro a m m' hne h hnil
    have hlength := h.gains.length_eq
    rw [hnil, List.length_nil, eq_comm, List.length_eq_zero_iff] at hlength
    exact hne hlength
  induction s generalizing m with
  | pure a => exact .refl m
  | fail fault span => exact .refl m
  | step s next ih =>
    have hstep := Machine.Plain.step env s m
    exact hstep.bind fun b => ih b (hkeep hne hstep)
  | inFrame body next hbody ih =>
    have hframe := covers_inFrame (m := m) (hbody (List.cons_ne_nil _ _))
    exact hframe.bind fun b => ih b (hkeep hne hframe)
  | call f args span body next hbody ih =>
    have hcall : Account.Covers ⟨[], callRooms f args span (body.run env) (fun m' => body.account env m') m⟩ m
        (Script.runCall f args span (body.run env) m).2 := covers_call hne fun m' hne' => hbody hne'
    exact hcall.bind fun _ => ih (hkeep hne hcall)

end Run

/-! ## Programs -/

open Run

/-- The frames that a run of a program makes: that of the globals, and those for blocks and calls. -/
def Program.rooms (p : Program) (registry : Registry) (world : World) (budget : Nat) : List Room :=
  let env : Env := ⟨registry, p.allFunctions⟩
  let account := (Script.start (Script.ofEval env budget) p).account env (.start world budget)
  ⟨.run, [], [], account.own, (p.run registry world budget).globals⟩ :: account.rooms

/-- A depth is that of a frame in which a statement has declared a variable, or 1 if a parameter was declared. -/
def Run.Room.Reports (r : Room) (depth : Nat) : Prop :=
  (r.locals ≠ [] ∧ depth = r.above.length) ∨ (r.params ≠ [] ∧ depth = 1)

/-- The declarations a run reports are those of its frames. -/
theorem Program.rooms_sound (p : Program) (registry : Registry) (world : World) (budget : Nat) :
    ((p.run registry world budget).events.filter Event.isDeclaration).Perm
        ((p.rooms registry world budget).flatMap Room.declared) ∧
      ∀ r ∈ p.rooms registry world budget, r.Sound := by
  have hcovers := covers_script ⟨registry, p.allFunctions⟩
    (Script.start (Script.ofEval ⟨registry, p.allFunctions⟩ budget) p) (m := .start world budget) (List.cons_ne_nil _ _)
  rw [Script.run_start] at hcovers
  constructor
  · obtain ⟨new, hnew, hperm⟩ := hcovers.events
    have hmachine : (start (eval ⟨registry, p.allFunctions⟩ budget) p (.start world budget)).2.events = new :=
      hnew.trans (List.append_nil new)
    show (List.filter Event.isDeclaration (⟨p.span, .runStart⟩ :: (⟨p.span, .runEnd _⟩ ::
      (start (eval ⟨registry, p.allFunctions⟩ budget) p (.start world budget)).2.events).reverse)).Perm _
    rw [hmachine, List.filter_cons_of_neg (by simp [Event.isDeclaration]), List.filter_reverse,
      List.filter_cons_of_neg (by simp [Event.isDeclaration])]
    exact (List.reverse_perm _).trans hperm
  · refine List.forall_mem_cons.2 ⟨⟨?_, List.nil_prefix, hcovers.depth, List.forall_mem_nil _⟩, hcovers.rooms⟩
    exact congrArg Header.signature (hcovers.gains.single rfl)

theorem foldl_max_spec (depths : List Nat) :
    (∀ n ∈ depths, n ≤ depths.foldl max 0) ∧ (depths.foldl max 0 = 0 ∨ depths.foldl max 0 ∈ depths) := by
  rw [List.foldl_max, Nat.zero_max]
  cases hmax : depths.max? with
  | none =>
    rw [List.max?_eq_none_iff.1 hmax]
    exact ⟨List.forall_mem_nil _, .inl rfl⟩
  | some d =>
    obtain ⟨hmem, hle⟩ := List.max?_eq_some_iff.1 hmax
    exact ⟨hle, .inr hmem⟩

/-- The depths that are reported are those that the frames report. -/
theorem mem_depths_iff {p : Program} {registry : Registry} {world : World} {budget n : Nat} :
    n ∈ (p.run registry world budget).events.filterMap Event.depth? ↔
      ∃ r ∈ p.rooms registry world budget, r.Reports n := by
  obtain ⟨hperm, hsound⟩ := p.rooms_sound registry world budget
  -- only a declaration reports a depth, and every declaration belongs to one room
  have hdeclared : ∀ e : Event, ∀ n, e.depth? = some n → e.isDeclaration = true := by
    intro e n he
    obtain ⟨span, what⟩ := e
    cases what with
    | declared name type depth => rfl
    | _ => cases he
  rw [List.mem_filterMap]
  constructor
  · intro hn
    obtain ⟨e, he, hdepth⟩ := hn
    have hmem := hperm.mem_iff.1 (List.mem_filter.2 ⟨he, hdeclared e n hdepth⟩)
    obtain ⟨r, hr, her⟩ := List.mem_flatMap.1 hmem
    refine ⟨r, hr, ?_⟩
    rcases List.mem_append.1 her with hparam | hlocal
    · rw [(hsound r hr).params e hparam] at hdepth
      exact .inr ⟨List.ne_nil_of_mem hparam, (Option.some.inj hdepth).symm⟩
    · rw [(hsound r hr).locals e hlocal] at hdepth
      exact .inl ⟨List.ne_nil_of_mem hlocal, (Option.some.inj hdepth).symm⟩
  · intro hn
    obtain ⟨r, hr, hreports⟩ := hn
    have hfound : ∃ e ∈ r.declared, e.depth? = some n := by
      rcases hreports with ⟨hne, rfl⟩ | ⟨hne, rfl⟩
      · obtain ⟨e, he⟩ := List.exists_mem_of_ne_nil _ hne
        exact ⟨e, List.mem_append_right _ he, (hsound r hr).locals e he⟩
      · obtain ⟨e, he⟩ := List.exists_mem_of_ne_nil _ hne
        exact ⟨e, List.mem_append_left _ he, (hsound r hr).params e he⟩
    obtain ⟨e, he, hdepth⟩ := hfound
    have hmem := hperm.mem_iff.2 (List.mem_flatMap.2 ⟨r, hr, he⟩)
    exact ⟨e, (List.mem_filter.1 hmem).1, hdepth⟩

/-- The depths in a trace. Each declaration belongs to a frame, which holds what was declared in it. Those by statements
report how many frames are above it where its statements run, those of parameters report 1, and the deepest scope
in the summary of a trace file is the largest of these depths, or 0 if nothing was declared. -/
theorem depths_of_declarations {file source : Text} {builtins : Option (List Text)} {p : Program}
    (h : parse file source builtins = .ok p) (registry : Registry) (world : World) (budget : Nat) :
    ((p.run registry world budget).events.filter Event.isDeclaration).Perm
        ((p.rooms registry world budget).flatMap Room.declared) ∧
      (∀ r ∈ p.rooms registry world budget, r.Sound) ∧
      ∀ run t, IsFile run (p.run registry world budget).events t →
        (∀ e ∈ (p.run registry world budget).events, e.Fits) →
        (∀ line ∈ lines t, line.toBytes.length < lineLimit) →
        ∃ (s : Summary) (d : Nat), summarize t = some s ∧ s.maxDepth = d ∧
          (∀ r ∈ p.rooms registry world budget, ∀ n, r.Reports n → n ≤ d) ∧
          (d = 0 ∨ ∃ r ∈ p.rooms registry world budget, r.Reports d) := by
  obtain ⟨hperm, hsound⟩ := p.rooms_sound registry world budget
  refine ⟨hperm, hsound, ?_⟩
  intro run t hfile hfits hlimit
  have hnamed := p.named_events h registry world budget
  obtain ⟨s, hs, hcounts⟩ := Summary.counts_of_isFile hfile (fun e he => ⟨hfits e he, hnamed e he⟩) hlimit
  obtain ⟨hall, hmem⟩ := foldl_max_spec ((p.run registry world budget).events.filterMap Event.depth?)
  refine ⟨s, _, hs, hcounts.maxDepth, fun r hr n hn => hall n (mem_depths_iff.2 ⟨r, hr, hn⟩), ?_⟩
  exact hmem.imp_right mem_depths_iff.1

/-- The source of a program in which a call is made by a function with a parameter. -/
def nestedCalls : Text := "func G(int a) \x7b \x7d func F(int b) \x7b int c G(1) \x7d func Main() \x7b F(1) \x7d"

/-- Its trace file. -/
def nestedFile (p : Program) : Text := (p.run .default {} 20).events.flatMap (Event.line "now" "r")

theorem depths_of_declarations_nested :
    ∃ p, parse "a" nestedCalls = .ok p ∧ (∀ r ∈ p.rooms .default {} 20, r.Sound) ∧
      ∃ (s : Summary) (d : Nat), summarize (nestedFile p) = some s ∧ s.maxDepth = d ∧
        (∀ r ∈ p.rooms .default {} 20, ∀ n, r.Reports n → n ≤ d) ∧
        (d = 0 ∨ ∃ r ∈ p.rooms .default {} 20, r.Reports d) := by
  obtain ⟨p, hparse, hfits, hlimit⟩ : ∃ p, parse "a" nestedCalls = .ok p ∧
      (∀ e ∈ (p.run .default {} 20).events, e.Fits) ∧
      ∀ line ∈ lines (nestedFile p), line.toBytes.length < lineLimit := exists_parsed (by decide +kernel)
  obtain ⟨-, hsound, hdepths⟩ := depths_of_declarations hparse .default {} 20
  exact ⟨p, hparse, hsound, hdepths "r" _ (isFile_flatMap "now" "r" _) hfits hlimit⟩

/-- Two declarations in the frame of a call differ in their depths, and the summary knows no frame as deep as that of
the innermost call, in which a parameter is declared. -/
theorem depths_differ :
    ∃ p, parse "a" nestedCalls = .ok p ∧
      (∃ r ∈ p.rooms .default {} 20, ∃ e ∈ r.declared, ∃ e' ∈ r.declared, e.depth? ≠ e'.depth?) ∧
      ∃ r ∈ p.rooms .default {} 20, r.declared ≠ [] ∧
        ∀ s ∈ summarize (nestedFile p), s.maxDepth < r.above.length :=
  exists_parsed (by decide +kernel)

end ScriptKit
