import ScriptKit.Eval

/-!
# Triples

`Triple P x Q E` says what a step `x` of a run can do from a machine that satisfies `P`: if it gives a
result, the result and the machine after it satisfy `Q`, and if it fails, the failure satisfies `E`.
Triples of steps compose along sequencing, and there is one rule for each of the small steps the
evaluator is made of.
-/

namespace ScriptKit.Run

variable {α β : Type} {P P' : Machine → Prop} {Q Q' : α → Machine → Prop} {R : β → Machine → Prop}
  {E E' : Failure → Prop}

/-- From a machine that satisfies `P`, the results of `x` satisfy `Q` and its failures `E`. -/
def Triple (P : Machine → Prop) (x : Run α) (Q : α → Machine → Prop) (E : Failure → Prop) : Prop :=
  ∀ m, P m →
    match x m with
    | (.ok a, m') => Q a m'
    | (.error f, _) => E f

/-- The failures of `x` satisfy `E`, whatever the machine. -/
def Fails (E : Failure → Prop) (x : Run α) : Prop := Triple (fun _ => True) x (fun _ _ => True) E

/-! ## Sequencing -/

theorem bind_apply (x : Run α) (f : α → Run β) (m : Machine) :
    (x >>= f) m =
      match x m with
      | (.ok a, m') => f a m'
      | (.error e, m') => (.error e, m') := by
  show ExceptT.bindCont f (x m).1 (x m).2 = _
  cases x m with
  | mk result m' => cases result <;> rfl

namespace Triple

theorem mono {x : Run α} (h : Triple P x Q E) (hP : ∀ m, P' m → P m) (hQ : ∀ a m, Q a m → Q' a m)
    (hE : ∀ f, E f → E' f) : Triple P' x Q' E' := by
  intro m hm
  have hx := h m (hP m hm)
  revert hx
  cases x m with
  | mk result m' =>
    cases result with
    | ok a => exact hQ a m'
    | error f => exact hE f

theorem pure {a : α} (h : ∀ m, P m → Q a m) : Triple P (pure a) Q E := h

theorem bind {x : Run α} {f : α → Run β} (hx : Triple P x Q E) (hf : ∀ a, Triple (Q a) (f a) R E) :
    Triple P (x >>= f) R E := by
  intro m hm
  have hx := hx m hm
  rw [bind_apply]
  revert hx
  cases x m with
  | mk result m' =>
    cases result with
    | ok a => exact fun hx => hf a m' hx
    | error e => exact fun hx => hx

theorem discard {x : Run α} {R : PUnit → Machine → Prop} (h : Triple P x (fun _ => R ⟨⟩) E) :
    Triple P (discard x) R E := by
  show Triple P (x >>= fun _ => Pure.pure PUnit.unit) R E
  exact bind h fun _ => pure fun _ h => h

theorem fail {fault : Fault} {span : Span} (h : E ⟨fault, span⟩) :
    Triple P (fail fault span : Run α) Q E := fun _ _ => h

theorem get {Q : Machine → Machine → Prop} (h : ∀ m, P m → Q m m) :
    Triple P (MonadState.get : Run Machine) Q E := h

theorem modify {Q : PUnit → Machine → Prop} {f : Machine → Machine} (h : ∀ m, P m → Q ⟨⟩ (f m)) :
    Triple P (modify f : Run PUnit) Q E := h

theorem ite {c : Prop} [Decidable c] {x y : Run α} (hx : c → Triple P x Q E)
    (hy : ¬c → Triple P y Q E) : Triple P (if c then x else y) Q E := by
  split
  · exact hx ‹_›
  · exact hy ‹_›

/-! ## Steps of the evaluator -/

theorem check {span : Span} {Q : PUnit → Machine → Prop}
    (hgo : ∀ m n, P m → Q ⟨⟩ { m with budget := n }) (hstop : E ⟨.canceled, span⟩) :
    Triple P (check span) Q E := by
  refine bind (Q := fun m m' => m = m' ∧ P m) (get fun m hm => ⟨rfl, hm⟩) fun m => ?_
  cases hbudget : m.budget with
  | zero => exact fail hstop
  | succ n =>
    refine modify ?_
    rintro _ ⟨rfl, hm⟩
    exact hgo m n hm

theorem emit {span : Span} {what : Trace.Happening} {Q : PUnit → Machine → Prop}
    (h : ∀ m es, P m → Q ⟨⟩ { m with events := es }) : Triple P (emit span what) Q E :=
  modify fun m hm => h m _ hm

theorem inFrame {x : Run α}
    (h : Triple (fun m => ∃ m₀, P m₀ ∧ m = { m₀ with chain := {} :: m₀.chain }) x
      (fun a m => Q a { m with chain := m.chain.tail }) E) : Triple P (inFrame x) Q E := by
  intro m hm
  have hx := h _ ⟨m, hm, rfl⟩
  simp only [Run.inFrame]
  revert hx
  cases x { m with chain := {} :: m.chain } with
  | mk result m' => cases result <;> exact fun hx => hx

theorem liftScope {span : Span} {r : Except Scope.Error α} (hok : ∀ a, r = .ok a → ∀ m, P m → Q a m)
    (herror : ∀ e, r = .error e → E ⟨.scope e, span⟩) : Triple P (liftScope span r) Q E := by
  cases r with
  | ok a => exact pure (hok a rfl)
  | error e => exact fail (herror e rfl)

theorem needValue {n : Node} {v : Option Value} (h : E ⟨noValue n, n.span⟩) :
    Triple P (needValue n v) (fun _ => P) E := by
  cases v with
  | none => exact fail h
  | some v => exact pure fun _ h => h

theorem needInt {n : Node} {symbol : Text} {v : Value} (h : E ⟨.operand symbol v, n.span⟩) :
    Triple P (needInt n symbol v) (fun _ => P) E := by
  unfold Run.needInt
  split
  · exact pure fun _ h => h
  · exact fail h

theorem applyArith {span : Span} {op : Arith} {l r : Int32} (hzero : E ⟨.divisionByZero, span⟩)
    (hother : ∀ symbol, E ⟨.arithmeticOperator symbol, span⟩) :
    Triple P (applyArith span op l r) (fun _ => P) E := by
  cases op with
  | div => exact ite (fun _ => fail hzero) fun _ => pure fun _ h => h
  | other symbol => exact fail (hother symbol)
  | _ => exact pure fun _ h => h

theorem applyRelation {span : Span} {op : Relation} {l r : Int32}
    (hother : ∀ symbol, E ⟨.comparisonOperator symbol, span⟩) :
    Triple P (applyRelation span op l r) (fun _ => P) E := by
  cases op with
  | other symbol => exact fail (hother symbol)
  | _ => exact pure fun _ h => h

/-- Evaluating an operand, and then going on with the integer it counts as. -/
theorem operand {x : Run (Option Value)} {n : Node} {symbol : Text} {k : Int32 → Run α}
    (hx : Triple P x (fun _ => P') E) (hnone : E ⟨noValue n, n.span⟩)
    (hint : ∀ v, E ⟨.operand symbol v, n.span⟩) (hk : ∀ i, Triple P' (k i) Q E) :
    Triple P (x >>= fun v => Run.needValue n v >>= fun v => Run.needInt n symbol v >>= k) Q E := by
  refine bind hx fun v => ?_
  refine bind (needValue hnone) fun v => ?_
  exact bind (needInt (hint v)) hk

/-! ## Invariants of lists and loops -/

/-- What every statement of a list keeps is kept by the list. -/
theorem statements {next : Node → Run (Option Value)} {body : List Node}
    (hbudget : ∀ m n, P m → P { m with budget := n }) (hstop : ∀ s ∈ body, E ⟨.canceled, s.span⟩)
    (h : ∀ s ∈ body, Triple P (next s) (fun _ => P) E) :
    Triple P (statements next body) (fun _ => P) E := by
  induction body with
  | nil => exact pure fun _ h => h
  | cons s rest ih =>
    obtain ⟨hs, hrest⟩ := List.forall_mem_cons.1 h
    obtain ⟨hstop, hstops⟩ := List.forall_mem_cons.1 hstop
    refine bind (Q := fun _ => P) (check hbudget hstop) fun _ => ?_
    exact bind (discard hs) fun _ => ih hstops hrest

/-- What every turn of a loop keeps is kept by the loop. -/
theorem turns {turn : Run Bool} (h : Triple P turn (fun _ => P) E) (n : Nat) :
    Triple P (turns turn n) (fun _ => P) E := by
  induction n with
  | zero => exact discard h
  | succ n ih =>
    refine bind h fun again => ?_
    exact ite (fun _ => ih) fun _ => pure fun _ h => h

end Triple

/-! ## What holds of the frames -/

/-- The frames of a machine satisfy `J`. -/
def OnChain (J : Chain → Prop) (m : Machine) : Prop := J m.chain

namespace Triple

variable {J K : Chain → Prop} {span : Span} {name : Text}

theorem declare {type : VarType} {value : Option Value}
    (hok : ∀ c c', J c → c.declare name type value = .ok c' → K c')
    (herror : ∀ c e, J c → c.declare name type value = .error e → E ⟨.scope e, span⟩) :
    Triple (OnChain J) (declare span name type value) (fun _ => OnChain K) E := by
  refine bind (Q := fun m m' => m = m' ∧ J m.chain) (get fun m hm => ⟨rfl, hm⟩) fun m => ?_
  refine bind (Q := fun c _ => K c) ?_ fun c => ?_
  · intro m' hm
    obtain ⟨rfl, hJ⟩ := hm
    exact liftScope (P := fun _ => True) (fun c hc _ _ => hok _ c hJ hc) (fun e he => herror _ e hJ he) m
      trivial
  · exact bind (Q := fun _ => OnChain K) (modify fun _ hc => hc) fun _ => emit fun _ _ hc => hc

theorem assign {value : Value} (hok : ∀ c c', J c → c.assign name (some value) = .ok c' → K c')
    (herror : ∀ c e, J c → c.assign name (some value) = .error e → E ⟨.scope e, span⟩) :
    Triple (OnChain J) (assign span name value) (fun _ => OnChain K) E := by
  refine bind (Q := fun m m' => m = m' ∧ J m.chain) (get fun m hm => ⟨rfl, hm⟩) fun m => ?_
  refine bind (Q := fun c _ => K c) ?_ fun c => modify fun _ hc => hc
  intro m' hm
  obtain ⟨rfl, hJ⟩ := hm
  exact liftScope (P := fun _ => True) (fun c hc _ _ => hok _ c hJ hc) (fun e he => herror _ e hJ he) m
    trivial

theorem resolve (herror : ∀ c e, J c → c.resolve name = .error e → E ⟨.scope e, span⟩) :
    Triple (OnChain J) (resolve span name) (fun _ => OnChain J) E := by
  refine bind (Q := fun m m' => m = m' ∧ J m.chain) (get fun m hm => ⟨rfl, hm⟩) fun m => ?_
  intro m' hm
  obtain ⟨rfl, hJ⟩ := hm
  exact liftScope (P := fun m' => m' = m) (fun _ _ m' hm => hm ▸ hJ) (fun e he => herror _ e hJ he) m rfl

theorem callBuiltin {env : Env} {args : List Value} (hunknown : E ⟨.unknownFunction name, span⟩)
    (hfault : ∀ b w fault, env.builtins.get? name = some b → (b.run args w).1 = .error fault →
      ∀ place, E ⟨.builtin name fault, place⟩) :
    Triple (OnChain J) (callBuiltin env span name args) (fun _ => OnChain J) E := by
  unfold Run.callBuiltin
  split
  · exact fail hunknown
  · next b hb =>
    refine bind (Q := fun _ => OnChain J) (emit fun _ _ hc => hc) fun _ => ?_
    refine bind (Q := fun _ => OnChain J) (get fun _ hc => hc) fun m => ?_
    refine bind (Q := fun _ => OnChain J) (modify fun _ hc => hc) fun _ => ?_
    split
    · exact pure fun _ hc => hc
    · next hresult => exact fail (hfault b m.world _ hb hresult _)
    · next hresult => exact fail (hfault b m.world _ hb hresult _)

theorem bindParams {params : List Param} {args : List Value}
    (hok : ∀ p ∈ params, ∀ v c c', J c → c.declare p.name p.type (some v) = .ok c' → J c')
    (herror : ∀ p ∈ params, ∀ v c e, J c → c.declare p.name p.type (some v) = .error e →
      E ⟨.scope e, p.span⟩) :
    Triple (OnChain J) (bindParams params args) (fun _ => OnChain J) E := by
  induction params generalizing args with
  | nil => exact pure fun _ h => h
  | cons p params ih =>
    obtain ⟨hokp, hok⟩ := List.forall_mem_cons.1 hok
    obtain ⟨herrorp, herror⟩ := List.forall_mem_cons.1 herror
    cases args with
    | nil => exact pure fun _ h => h
    | cons v args => exact bind (declare (hokp v) (herrorp v)) fun _ => ih hok herror

/-- The frame of a call is made apart from the frames of the caller. -/
theorem callFrame {f : Function} {args : List Value}
    (herror : ∀ p ∈ f.params, ∀ e, E ⟨.scope e, p.span⟩) :
    Triple (OnChain J) (callFrame f args) (fun _ => OnChain J) E := by
  intro m hm
  have hparams : Triple (OnChain fun _ => True) (Run.bindParams f.params args)
      (fun _ => OnChain fun _ => True) E :=
    bindParams (fun _ _ _ _ _ _ _ => trivial) fun p hp _ _ e _ _ => herror p hp e
  have hrun := hparams { m with chain := {} :: m.chain.getLast?.toList } trivial
  simp only [Run.callFrame]
  revert hrun
  cases Run.bindParams f.params args { m with chain := {} :: m.chain.getLast?.toList } with
  | mk result m' =>
    cases result with
    | ok u => exact fun _ => hm
    | error e => exact fun he => he

theorem callBody {next : Node → Run (Option Value)} {f : Function} {frame : Frame}
    (h : Triple (OnChain fun c => ∃ c₀, J c₀ ∧ c = frame :: c₀) (Run.statements next f.body)
      (fun _ => OnChain fun c => K c.tail) E) :
    Triple (OnChain J) (callBody next f frame) (fun _ => OnChain K) E := by
  intro m hm
  have hx := h { m with chain := frame :: m.chain } ⟨m.chain, hm, rfl⟩
  simp only [Run.callBody]
  revert hx
  cases Run.statements next f.body { m with chain := frame :: m.chain } with
  | mk result m' => cases result <;> exact fun hx => hx

theorem reportEnd {body : Run Unit} (h : Triple (OnChain J) body (fun _ => OnChain K) E) :
    Triple (OnChain J) (reportEnd span name body) (fun _ => OnChain K) E := by
  intro m hm
  have hx := h m hm
  simp only [Run.reportEnd]
  revert hx
  cases body m with
  | mk result m' => cases result <;> exact fun hx => hx

/-- A program that is not empty evaluates its globals and then calls `Main`, if it has a function at all. -/
theorem start {next : Node → Run (Option Value)} {p : Program} {M : Machine → Prop}
    {R : Unit → Machine → Prop} (hempty : E ⟨.emptyProgram, p.span⟩)
    (hglobals : (p.globals.isEmpty && p.functions.isEmpty) = false →
      Triple P (globals next p.globals) (fun _ => M) E)
    (hnone : p.entry? = none → ∀ m, M m → R () m)
    (hname : ∀ f, p.entry? = some f → f.name ≠ "Main" → E ⟨.entryName f.name, f.span⟩)
    (hmain : ∀ f, p.entry? = some f → f.name = "Main" → Triple M (callFunction next f [] f.span) R E) :
    Triple P (Run.start next p) R E := by
  unfold Run.start
  refine ite (fun _ => ?_) fun hsome => bind (hglobals (by simpa using hsome)) fun _ => ?_
  · exact bind (Q := fun _ _ => False) (fail hempty) fun _ _ h => h.elim
  · cases hentry : p.entry? with
    | none => exact pure (hnone hentry)
    | some f => exact ite (hmain f hentry) fun hf => fail (hname f hentry hf)

end Triple

/-- What the failures of a start satisfy, the failure of a run satisfies. -/
theorem failure_of_triple {p : Program} {registry : Registry} {world : World} {budget : Nat}
    {Q : Unit → Machine → Prop} {f : Failure}
    (h : Triple (· = .start world budget) (start (eval ⟨registry, p.allFunctions⟩ budget) p) Q E)
    (hfailure : (p.run registry world budget).failure = some f) : E f := by
  have hstart := h _ rfl
  simp only [Program.run] at hfailure
  revert hfailure hstart
  cases start (eval ⟨registry, p.allFunctions⟩ budget) p (.start world budget) with
  | mk result m =>
    cases result with
    | ok u => exact fun hfailure => by cases hfailure
    | error g =>
      intro hfailure hg
      cases hfailure
      exact hg

/-- What the results of a start satisfy holds if a run does not fail. -/
theorem success_of_triple {p : Program} {registry : Registry} {world : World} {budget : Nat}
    {Q : Unit → Machine → Prop}
    (h : Triple (· = .start world budget) (start (eval ⟨registry, p.allFunctions⟩ budget) p) Q E)
    (hsuccess : (p.run registry world budget).failure = none) : ∃ m, Q () m := by
  have hstart := h _ rfl
  simp only [Program.run] at hsuccess
  revert hsuccess hstart
  cases start (eval ⟨registry, p.allFunctions⟩ budget) p (.start world budget) with
  | mk result m =>
    cases result with
    | ok u => exact fun _ hm => ⟨m, hm⟩
    | error g => exact fun hsuccess => by cases hsuccess

end ScriptKit.Run
