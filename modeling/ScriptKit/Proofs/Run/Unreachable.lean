import ScriptKit.Proofs.Policy.Widening
import ScriptKit.Proofs.Run.Local
import ScriptKit.Proofs.Run.Wording
import ScriptKit.Proofs.Scope.Names

/-!
# Failures that no program meets

The evaluator has an answer for every tree and every machine, and some of these answers report a defect: a node of
a kind that is not handled, an operator outside the language, an expression without a value, a builtin that does
not exist, a chain of frames without a root. No source leads to them.

Trees that are read contain none of these nodes and operators. The calls that have no target are those for which
the registry had a name when the source was read, and the registry of the run is the same. The frames of a run
always end with the root, and their variables always have a value; `Chain.Settled` says so, and `Safe` says of a
step that it leaves such frames if it finds them, and that all its failures are foreseen.

**Theorem (`internal_failures_unreachable`).** Whatever a session with the default builtins runs, and whenever it
is interrupted, if the run fails then the failure is an ordinary one at a node of the program.
-/

namespace ScriptKit

/-! ## Settled frames -/

/-- All variables of a frame have a value. -/
def Frame.Valued (f : Frame) : Prop := ∀ entry ∈ f.vars, entry.2.value ≠ none

/-- A chain of frames as a run has it: it ends with the root, and all variables have a value. -/
structure Chain.Settled (depth : Nat) (c : Chain) : Prop where
  length : c.length = depth + 1
  rooted : c.Rooted
  valued : ∀ f ∈ c, f.Valued

namespace Chain

variable {depth : Nat} {c c' : Chain} {f : Frame} {name : Text} {type : VarType} {v : Option Value} {e : Scope.Error}

theorem settled_start : Settled 0 [.root] := ⟨rfl, ⟨.root, rfl, rfl⟩, by simp [Frame.Valued, Frame.root]⟩

namespace Settled

theorem shows (h : Settled depth c) : Shows c.names c := ⟨rfl, h.rooted⟩

theorem push (h : Settled depth c) (hf : f.Valued) : Settled (depth + 1) (f :: c) :=
  ⟨congrArg (· + 1) h.length, rooted_cons h.rooted, List.forall_mem_cons.2 ⟨hf, h.valued⟩⟩

theorem pop (h : Settled (depth + 1) c) : Settled depth c.tail := by
  obtain ⟨hlength, ⟨root, hlast, hroot⟩, hvalued⟩ := h
  match c with
  | f :: g :: outer =>
    refine ⟨by simpa using hlength, ⟨root, by simpa using hlast, hroot⟩, ?_⟩
    exact (List.forall_mem_cons.1 hvalued).2

/-- The frames among which the parameters of a call are declared. -/
theorem parameters (h : Settled depth c) : Settled 1 ({} :: c.getLast?.toList) := by
  obtain ⟨root, hlast, hroot⟩ := h.rooted
  rw [hlast]
  refine ⟨rfl, ⟨root, rfl, hroot⟩, ?_⟩
  have hvalued := h.valued root (List.mem_of_getLast? hlast)
  simpa [Frame.Valued] using hvalued

/-! ## Names -/

theorem find_valued (h : Settled depth c) {found : Variable} (hfound : c.find name = .ok found) :
    found.value ≠ none := by
  have hvalued := h.valued
  clear h
  induction c with
  | nil => cases hfound
  | cons f outer ih =>
    obtain ⟨hf, houter⟩ := List.forall_mem_cons.1 hvalued
    unfold find at hfound
    split at hfound
    · next hlookup =>
      cases hfound
      obtain ⟨before, after, hvars, -⟩ := List.lookup_eq_some_iff.1 hlookup
      exact hf (name, found) (by rw [hvars]; simp)
    · split at hfound
      · cases hfound
      · exact ih hfound houter

theorem resolve (h : Settled depth c) (hv : c.resolve name = .ok v) : v ≠ none := by
  unfold Chain.resolve at hv
  split at hv
  · next hfound =>
    cases hv
    exact h.find_valued hfound
  · cases hv

theorem declare (h : Settled depth c) (hc : c.declare name type v = .ok c') : Settled depth c' := by
  have hrooted := (h.shows.declare_ok hc).2.rooted
  unfold Chain.declare at hc
  split at hc
  · cases hc
  · cases hc
    refine ⟨h.length, hrooted, ?_⟩
    obtain ⟨hf, houter⟩ := List.forall_mem_cons.1 h.valued
    exact List.forall_mem_cons.2 ⟨List.forall_mem_cons.2 ⟨by simp, hf⟩, houter⟩
  · cases hc

theorem update (h : Settled depth c) (name : Text) {value : Value} :
    Settled depth (c.update name (some value)) := by
  have hframe : ∀ f : Frame, f.Valued → (f.update name (some value)).Valued := by
    intro f hf entry hentry
    obtain ⟨⟨key, found⟩, hmem, rfl⟩ := List.mem_map.1 hentry
    by_cases hkey : key = name
    · simp [hkey]
    · simpa [hkey] using hf _ hmem
  have hall : ∀ c : Chain, (∀ f ∈ c, f.Valued) → (c.update name (some value)).length = c.length ∧
      ∀ f ∈ c.update name (some value), f.Valued := by
    intro c hc
    induction c with
    | nil => exact ⟨rfl, hc⟩
    | cons f outer ih =>
      obtain ⟨hf, houter⟩ := List.forall_mem_cons.1 hc
      unfold Chain.update
      split
      · exact ⟨rfl, List.forall_mem_cons.2 ⟨hframe f hf, houter⟩⟩
      · exact ⟨congrArg (· + 1) (ih houter).1, List.forall_mem_cons.2 ⟨hf, (ih houter).2⟩⟩
  obtain ⟨hlength, hvalued⟩ := hall c h.valued
  exact ⟨hlength.trans h.length, rooted_update h.rooted name _, hvalued⟩

theorem assign (h : Settled depth c) {value : Value} (hc : c.assign name (some value) = .ok c') :
    Settled depth c' := by
  unfold Chain.assign at hc
  split at hc
  · cases hc
    exact h.update name
  · cases hc

theorem declare_cause (h : Settled depth c) (he : c.declare name type v = .error e) : e.cause ≠ .noRoot := by
  rw [(h.shows.declare_error he).2]
  simp

theorem assign_cause (h : Settled depth c) (he : c.assign name v = .error e) : e.cause ≠ .noRoot := by
  rw [(h.shows.assign_error he).2]
  simp

theorem resolve_cause (h : Settled depth c) (he : c.resolve name = .error e) : e.cause ≠ .noRoot := by
  rw [(h.shows.resolve_error he).2]
  simp

theorem interpolate_cause (h : Settled depth c) {text : Text} (he : interpolate c text = .error e) :
    e.cause ≠ .noRoot := by
  obtain ⟨name, -, -, rfl⟩ := h.shows.interpolate_error he
  simp

end Settled

end Chain

/-- A registry has a default builtin under a name. -/
def Registry.Offers (r : Registry) (name : Text) : Prop := ∃ b ∈ default.builtins, r.get? name = some b

namespace Run

open Node

/-! ## Foreseen failures -/

/-- An ordinary failure at a node of a program. -/
def Foreseen (p : Program) (f : Failure) : Prop := Ordinary f.fault ∧ ∃ n ∈ p.node.preorder, f.span = n.span

variable {p : Program} {α β : Type} {Q R : α → Prop}

/-- A step that leaves settled frames behind and a result that satisfies `Q`, unless it fails in a foreseen
way. -/
def Safe (p : Program) (Q : α → Prop) (x : Run α) : Prop :=
  ∀ depth, Triple (OnChain (Chain.Settled depth)) x (fun a m => OnChain (Chain.Settled depth) m ∧ Q a) (Foreseen p)

/-- Any result. -/
def Anything (_ : α) : Prop := True

/-- The result of a node that has a value, or that fails in a foreseen way where one is needed. -/
def Valued (p : Program) (n : Node) (v : Option Value) : Prop := v = none → Foreseen p ⟨noValue n, n.span⟩

namespace Safe

variable {span : Span} {name : Text} {n : Node}

/-! ## Small steps -/

theorem of_triple {x : Run α}
    (h : ∀ depth, Triple (OnChain (Chain.Settled depth)) x (fun _ => OnChain (Chain.Settled depth)) (Foreseen p)) :
    Safe p Anything x := fun depth =>
  (h depth).mono (fun _ hm => hm) (fun _ _ hm => ⟨hm, trivial⟩) fun _ hf => hf

theorem triple {x : Run α} (h : Safe p Q x) (depth : Nat) :
    Triple (OnChain (Chain.Settled depth)) x (fun _ => OnChain (Chain.Settled depth)) (Foreseen p) :=
  (h depth).mono (fun _ hm => hm) (fun _ _ hm => hm.1) fun _ hf => hf

theorem mono {x : Run α} (h : Safe p Q x) (hQ : ∀ a, Q a → R a) : Safe p R x := fun depth =>
  (h depth).mono (fun _ hm => hm) (fun a _ hm => ⟨hm.1, hQ a hm.2⟩) fun _ hf => hf

theorem anything {x : Run α} (h : Safe p Q x) : Safe p Anything x := h.mono fun _ _ => trivial

theorem pure {a : α} (h : Q a) : Safe p Q (pure a) := fun _ => Triple.pure fun _ hm => ⟨hm, h⟩

theorem fail {fault : Fault} (h : Ordinary fault) (hspan : ∃ n ∈ p.node.preorder, span = n.span) :
    Safe p Q (fail fault span : Run α) := fun _ => Triple.fail ⟨h, hspan⟩

theorem bind {x : Run α} {f : α → Run β} {R : β → Prop} (hx : Safe p Q x) (hf : ∀ a, Q a → Safe p R (f a)) :
    Safe p R (x >>= f) := fun depth =>
  Triple.bind (hx depth) fun a m hm => hf a hm.2 depth m hm.1

theorem discard {x : Run α} (h : Safe p Q x) : Safe p Anything (discard x) :=
  bind h fun _ _ => pure trivial

theorem ite {c : Prop} [Decidable c] {x y : Run α} (hx : c → Safe p Q x) (hy : ¬c → Safe p Q y) :
    Safe p Q (if c then x else y) := by
  split
  · exact hx ‹_›
  · exact hy ‹_›

theorem check (hn : n ∈ p.node.preorder) : Safe p Anything (check n.span) :=
  of_triple fun _ => Triple.check (fun _ _ hm => hm) ⟨.canceled, n, hn, rfl⟩

theorem emit {what : Trace.Happening} : Safe p Anything (emit span what) :=
  of_triple fun _ => Triple.emit fun _ _ hm => hm

theorem declare {type : VarType} {value : Option Value} (hspan : ∃ n ∈ p.node.preorder, span = n.span) :
    Safe p Anything (declare span name type value) :=
  of_triple fun _ => Triple.declare (fun _ _ hc hdeclare => hc.declare hdeclare) fun _ _ hc he =>
    ⟨.scope (hc.declare_cause he), hspan⟩

theorem assign {value : Value} (hspan : ∃ n ∈ p.node.preorder, span = n.span) :
    Safe p Anything (assign span name value) :=
  of_triple fun _ => Triple.assign (fun _ _ hc hassign => hc.assign hassign) fun _ _ hc he =>
    ⟨.scope (hc.assign_cause he), hspan⟩

theorem resolve (hspan : ∃ n ∈ p.node.preorder, span = n.span) : Safe p (· ≠ none) (resolve span name) := by
  intro depth m hm
  have hok : ∀ v, m.chain.resolve name = .ok v → v ≠ none := fun v hv => Chain.Settled.resolve hm hv
  have herror : ∀ e, m.chain.resolve name = .error e → Foreseen p ⟨.scope e, span⟩ := fun e he =>
    ⟨.scope (Chain.Settled.resolve_cause hm he), hspan⟩
  exact Triple.liftScope (P := OnChain (Chain.Settled depth)) (fun v hv _ hm => ⟨hm, hok v hv⟩) herror m hm

theorem interpolate {text : Text} (hspan : ∃ n ∈ p.node.preorder, span = n.span) :
    Safe p (· ≠ none) (do
      let filled ← Run.liftScope span (ScriptKit.interpolate (← MonadState.get).chain text)
      return some (Value.str filled)) := by
  intro depth m hm
  refine Triple.bind (P := OnChain (Chain.Settled depth)) (Q := fun _ => OnChain (Chain.Settled depth))
    (Triple.liftScope (fun _ _ _ hm => hm) fun e he => ?_) (fun t => Triple.pure fun _ hm => ⟨hm, by simp⟩) m hm
  exact ⟨.scope (Chain.Settled.interpolate_cause hm he), hspan⟩

/-! ## Operators -/

theorem needValue {v : Option Value} (h : Valued p n v) : Safe p Anything (needValue n v) := by
  cases v with
  | none => exact fun _ => Triple.fail (h rfl)
  | some v => exact pure trivial

theorem needInt (hn : n ∈ p.node.preorder) (symbol : Text) (v : Value) :
    Safe p Anything (needInt n symbol v) := by
  unfold Run.needInt
  split
  · exact pure trivial
  · exact fail .operand ⟨n, hn, rfl⟩

theorem applyArith (hn : n ∈ p.node.preorder) {op : Arith} (hop : ∀ symbol, op ≠ .other symbol) (l r : Int32) :
    Safe p (· ≠ none) (applyArith n.span op l r) := by
  cases op with
  | div => exact ite (fun _ => fail .divisionByZero ⟨n, hn, rfl⟩) fun _ => pure (by simp)
  | other symbol => exact absurd rfl (hop symbol)
  | _ => exact pure (by simp)

theorem applyRelation {op : Relation} (hop : ∀ symbol, op ≠ .other symbol) (l r : Int32) :
    Safe p Anything (applyRelation span op l r) := by
  cases op with
  | other symbol => exact absurd rfl (hop symbol)
  | _ => exact pure trivial

theorem applySign (hspan : ∃ n ∈ p.node.preorder, span = n.span) {op : Sign} (hop : ∀ symbol, op ≠ .other symbol)
    (n : Node) : Safe p (· ≠ none) (applySign span op n) := by
  unfold Run.applySign
  split
  · exact pure (by simp)
  · exact pure (by simp)
  · next symbol => exact absurd rfl (hop symbol)
  · exact fail (.unaryOperand hop) hspan

theorem value {x : Run (Option Value)} {k : Value → Run α} (hx : Safe p (Valued p n) x)
    (hk : ∀ v, Safe p Q (k v)) : Safe p Q (x >>= fun v => Run.needValue n v >>= k) :=
  bind hx fun _ hv => bind (needValue hv) fun v _ => hk v

theorem operand {x : Run (Option Value)} {symbol : Text} {k : Int32 → Run α} (hn : n ∈ p.node.preorder)
    (hx : Safe p (Valued p n) x) (hk : ∀ i, Safe p Q (k i)) :
    Safe p Q (x >>= fun v => Run.needValue n v >>= fun v => Run.needInt n symbol v >>= k) :=
  value hx fun v => bind (needInt hn symbol v) fun i _ => hk i

/-! ## Lists, loops and frames -/

theorem statements {next : Node → Run (Option Value)} {body : List Node}
    (h : ∀ s ∈ body, s ∈ p.node.preorder ∧ Safe p Anything (next s)) : Safe p Anything (statements next body) :=
  of_triple fun depth => Triple.statements (fun _ _ hm => hm) (fun s hs => ⟨.canceled, s, (h s hs).1, rfl⟩)
    fun s hs => (h s hs).2.triple depth

theorem turns {turn : Run Bool} (h : Safe p Anything turn) (k : Nat) : Safe p Anything (turns turn k) :=
  of_triple fun depth => Triple.turns (h.triple depth) k

theorem inFrame {x : Run α} (h : Safe p Q x) : Safe p Q (inFrame x) := fun depth =>
  Triple.inFrame ((h (depth + 1)).mono (fun _ ⟨_, hm, he⟩ => he ▸ hm.push (by simp [Frame.Valued]))
    (fun _ _ hm => ⟨hm.1.pop, hm.2⟩) fun _ hf => hf)

/-! ## Calls -/

theorem bindParams {params : List Param} (hparams : ∀ q ∈ params, q.node ∈ p.node.preorder) (args : List Value) :
    Safe p Anything (bindParams params args) :=
  of_triple fun _ => Triple.bindParams (fun _ _ _ _ _ hc hdeclare => hc.declare hdeclare)
    fun q hq _ _ _ hc he => ⟨.scope (hc.declare_cause he), q.node, hparams q hq, rfl⟩

/-- The variables in the frame of a call have values. -/
theorem callFrame {f : Function} (hf : f.node ∈ p.node.preorder) (args : List Value) :
    Safe p Frame.Valued (callFrame f args) := by
  intro depth m hm
  have hparams : Safe p Anything (Run.bindParams f.params args) := bindParams (fun q hq =>
    mem_preorder_trans (mem_preorder_child (List.mem_append_left _ (List.mem_map_of_mem hq))) hf) args
  have hrun := hparams.triple 1 { m with chain := {} :: m.chain.getLast?.toList } (Chain.Settled.parameters hm)
  simp only [Run.callFrame]
  revert hrun
  cases Run.bindParams f.params args { m with chain := {} :: m.chain.getLast?.toList } with
  | mk result m' =>
    cases result with
    | error e => exact fun he => he
    | ok u =>
      intro hchain
      refine ⟨hm, ?_⟩
      cases hhead : m'.chain.head? with
      | none =>
        have hlength := Chain.Settled.length hchain
        rw [List.head?_eq_none_iff.1 hhead] at hlength
        cases hlength
      | some frame => exact Chain.Settled.valued hchain frame (List.mem_of_head? hhead)

theorem callFunction {next : Node → Run (Option Value)} {f : Function} (hf : f.node ∈ p.node.preorder)
    (hspan : ∃ n ∈ p.node.preorder, span = n.span) (args : List Value)
    (hbody : Safe p Anything (Run.statements next f.body)) : Safe p Anything (callFunction next f args span) := by
  refine ite (fun _ => bind emit fun _ _ => bind (callFrame hf args) fun frame hframe => ?_) fun _ => fail .arity hspan
  refine of_triple fun depth => Triple.reportEnd (Triple.callBody ?_)
  exact (hbody.triple (depth + 1)).mono (fun _ ⟨_, hc, he⟩ => show Chain.Settled _ _ from he ▸ hc.push hframe)
    (fun _ _ hm => hm.pop) fun _ hf => hf

/-- A default builtin refuses in one of its ways, and at the call. -/
theorem callBuiltin {env : Env} {b : Builtin} (hb : env.builtins.get? name = some b)
    (hdefault : b ∈ Registry.default.builtins) (hspan : ∃ n ∈ p.node.preorder, span = n.span) (args : List Value) :
    Safe p Anything (callBuiltin env span name args) := by
  have hname : b.name = name := by simpa using List.find?_some hb
  intro depth m hm
  rw [callBuiltin_apply hb]
  cases hresult : (b.run args m.world).1 with
  | ok v => exact ⟨hm, trivial⟩
  | error fault =>
    have hrefusal := Registry.refusal_default hdefault hresult
    have hanswer : answered span name (.error fault) = .error ⟨.builtin name fault, span⟩ := by
      cases hrefusal <;> rfl
    rw [hanswer]
    exact ⟨hname ▸ .builtin hdefault hrefusal, hspan⟩

end Safe

/-! ## Nodes -/

/-- What a run works with fits the program: its functions are those of the program, and calls that find none of
them go to default builtins. -/
structure Fits (S : Text → Prop) (C : Text → Callee → Prop) (p : Program) (env : Env) : Prop where
  formed : p.IsFormed S C
  functions : env.functions = p.allFunctions
  calls : env.Reaches env.builtins.Offers p.node

section Nodes

variable {env : Env} {bound level : Nat} {next : Node → Run (Option Value)} {S : Text → Prop}
  {C : Text → Callee → Prop} {n c : Node}

theorem mem_child (hn : n ∈ p.node.preorder) (hc : c ∈ n.children) : c ∈ p.node.preorder :=
  mem_preorder_trans (mem_preorder_child hc) hn

/-- What runs the statements of a program is safe. -/
def SafeNext (S : Text → Prop) (C : Text → Callee → Prop) (p : Program) (next : Node → Run (Option Value)) : Prop :=
  ∀ s ∈ p.node.preorder, IsPart S C s → Safe p Anything (next s)

/-- The statements of a block that stands in a program. -/
theorem safe_body (hnext : SafeNext S C p next) (braces : Braces) {body : List Node}
    (hmem : .block braces body ∈ p.node.preorder) (hbody : IsPart S C (.block braces body)) :
    Safe p Anything (statements next body) :=
  .statements fun s hs => ⟨mem_child hmem hs, hnext s (mem_child hmem hs) (hbody.child hs)⟩

variable (h : Fits S C p env) (hnext : SafeNext S C p next)

include h hnext

theorem safe_callFunction {f : Function} {span : Span} (hf : f.node ∈ p.node.preorder)
    (hspan : ∃ n ∈ p.node.preorder, span = n.span) (args : List Value) :
    Safe p Anything (callFunction next f args span) := by
  have hblock : IsPart S C (.block f.braces f.body) := by
    rcases h.formed.part hf with heq | hpart
    · cases heq
    · exact hpart.child (block_mem_children f)
  exact .callFunction hf hspan args (safe_body hnext f.braces (mem_child hf (block_mem_children f)) hblock)

theorem safe_call {span : Span} {name : Text} {callee : Callee} {args : List Node} (hname : IsName name)
    (hmem : .call span name callee args ∈ p.node.preorder)
    (hargs : ∀ a ∈ args, Safe p (Valued p a) (evalWith env bound next a)) :
    Safe p (Valued p (.call span name callee args)) (evalWith env bound next (.call span name callee args)) := by
  have hspan : ∃ n ∈ p.node.preorder, span = n.span := ⟨_, hmem, rfl⟩
  have hvalues : Safe p Anything (evalArgs env bound next args) := by
    clear hmem hspan
    induction args with
    | nil =>
      simp only [evalArgs]
      exact .pure trivial
    | cons a args ih =>
      obtain ⟨ha, hargs⟩ := List.forall_mem_cons.1 hargs
      simp only [evalArgs]
      exact .value ha fun v => .bind (ih hargs) fun vs _ => .pure trivial
  -- a call may have no value, and then what needs one fails as foreseen
  refine Safe.mono (Q := Anything) ?_ fun v _ _ => ⟨.noReturn hname, _, hmem, rfl⟩
  simp only [evalWith]
  cases htarget : env.target? callee with
  | none =>
    obtain ⟨b, hdefault, hb⟩ := h.calls span name callee args hmem htarget
    exact .bind hvalues fun values _ => .callBuiltin hb hdefault hspan values
  | some f =>
    have hf : f.node ∈ p.node.preorder := by
      cases callee with
      | builtin => cases htarget
      | function number =>
        refine mem_functions.1 ?_
        have hfunction : f ∈ p.allFunctions := h.functions ▸ List.mem_of_getElem? htarget
        exact hfunction
    refine .ite (fun _ => .bind hvalues fun values _ => ?_) fun _ => .fail .arity hspan
    exact .bind (safe_callFunction h hnext hf hspan values) fun _ _ => .pure trivial

/-- An expression is safe, and it has a value unless it is a call. -/
theorem safe_expr (hn : IsExpr S C n) (hmem : n ∈ p.node.preorder) :
    Safe p (Valued p n) (evalWith env bound next n) := by
  have hvalue : ∀ n (v : Option Value), v ≠ none → Valued p n v := fun _ _ hv hnone => absurd hnone hv
  induction hn with
  | number | bool =>
    simp only [evalWith]
    exact .pure (hvalue _ _ (by simp))
  | str =>
    simp only [evalWith]
    exact (Safe.interpolate ⟨_, hmem, rfl⟩).mono (hvalue _)
  | use =>
    simp only [evalWith]
    exact (Safe.resolve ⟨_, hmem, rfl⟩).mono (hvalue _)
  | call hname _ _ ih => exact safe_call h hnext hname hmem fun a ha => ih a ha (mem_child hmem ha)
  | sign hop _ =>
    simp only [evalWith]
    exact (Safe.applySign ⟨_, hmem, rfl⟩ hop _).mono (hvalue _)
  | arith hop _ _ ihl ihr =>
    have hl := mem_child hmem (List.mem_cons_self ..)
    have hr := mem_child hmem (List.mem_cons_of_mem _ (List.mem_cons_self ..))
    simp only [evalWith]
    refine .operand hl (ihl hl) fun l => .operand hr (ihr hr) fun r => ?_
    exact (Safe.applyArith hmem hop l r).mono (hvalue _)
  | compare hop _ _ ihl ihr =>
    have hl := mem_child hmem (List.mem_cons_self ..)
    have hr := mem_child hmem (List.mem_cons_of_mem _ (List.mem_cons_self ..))
    simp only [evalWith]
    refine .operand hl (ihl hl) fun l => .operand hr (ihr hr) fun r => ?_
    exact .bind (Safe.applyRelation hop l r) fun b _ => .pure (hvalue _ _ (by simp))

theorem safe_condition (hn : IsExpr S C n) (hmem : n ∈ p.node.preorder) {statement : Text}
    (hstatement : statement ∈ [("if" : Text), "while", "for"]) :
    Safe p Anything (evalCondition env bound next statement n) := by
  cases hn with
  | compare hop hleft hright =>
    have hl := mem_child hmem (List.mem_cons_self ..)
    have hr := mem_child hmem (List.mem_cons_of_mem _ (List.mem_cons_self ..))
    simp only [evalCondition]
    refine .operand hl (safe_expr h hnext hleft hl) fun l => .operand hr (safe_expr h hnext hright hr) fun r => ?_
    exact Safe.applyRelation hop l r
  | _ =>
    simp only [evalCondition]
    exact .fail (.condition hstatement) ⟨_, hmem, rfl⟩

/-- One case for each kind of statement. -/
theorem safe_stmt (hn : IsStmt S C n) (hmem : n ∈ p.node.preorder) :
    Safe p Anything (evalWith env bound next n) := by
  have hdone : Safe p Anything (pure none : Run (Option Value)) := .pure trivial
  induction hn with
  | declare =>
    simp only [evalWith]
    exact .bind (.declare ⟨_, hmem, rfl⟩) fun _ _ => hdone
  | declareAs _ hvalue =>
    simp only [evalWith]
    refine .value (safe_expr h hnext hvalue (mem_child hmem (List.mem_cons_self ..))) fun v => ?_
    exact .bind (.declare ⟨_, hmem, rfl⟩) fun _ _ => hdone
  | assign _ hvalue =>
    simp only [evalWith]
    refine .value (safe_expr h hnext hvalue (mem_child hmem (List.mem_cons_self ..))) fun v => ?_
    exact .bind (.assign ⟨_, hmem, rfl⟩) fun _ _ => hdone
  | call hcall => exact (safe_expr h hnext hcall hmem).anything
  | function | skip =>
    simp only [evalWith]
    exact hdone
  | @when _ _ braces _ hcond hyes =>
    have hbody := safe_body hnext braces (mem_child hmem (by simp [children])) (.block hyes)
    simp only [evalWith]
    refine .bind (safe_condition h hnext hcond (mem_child hmem (by simp [children])) (by simp)) fun go _ => ?_
    exact .ite (fun _ => .bind (.inFrame hbody) fun _ _ => hdone) fun _ => hdone
  | @choose _ _ braces braces' _ _ hcond hyes hno =>
    have hbody := safe_body hnext braces (mem_child hmem (by simp [children])) (.block hyes)
    have hbody' := safe_body hnext braces' (mem_child hmem (by simp [children])) (.block hno)
    simp only [evalWith]
    refine .bind (safe_condition h hnext hcond (mem_child hmem (by simp [children])) (by simp)) fun go _ => ?_
    exact .ite (fun _ => .bind (.inFrame hbody) fun _ _ => hdone) fun _ =>
      .bind (.inFrame hbody') fun _ _ => hdone
  | @whileLoop _ _ braces _ hcond hstmts =>
    have hbody := safe_body hnext braces (mem_child hmem (by simp [children])) (.block hstmts)
    simp only [evalWith]
    refine .bind (.turns (.bind (.check hmem) fun _ _ => ?_) _) fun _ _ => hdone
    refine .bind (safe_condition h hnext hcond (mem_child hmem (by simp [children])) (by simp)) fun go _ => ?_
    exact .ite (fun _ => .bind hbody fun _ _ => .pure trivial) fun _ => .pure trivial
  | @forLoop _ _ _ _ braces _ _ _ hcond _ _ _ hstmts ihinit ihstep =>
    have hbody := safe_body hnext braces (mem_child hmem (by simp [children])) (.block hstmts)
    simp only [evalWith]
    refine .inFrame (.bind (.discard (ihinit (mem_child hmem (by simp [children])))) fun _ _ => ?_)
    refine .bind (.turns (.bind (.check hmem) fun _ _ => ?_) _) fun _ _ => hdone
    refine .bind (safe_condition h hnext hcond (mem_child hmem (by simp [children])) (by simp)) fun go _ => ?_
    refine .ite (fun _ => .bind (.inFrame hbody) fun _ _ => ?_) fun _ => .pure trivial
    exact .bind (.discard (ihstep (mem_child hmem (by simp [children])))) fun _ _ => .pure trivial

theorem safe_part (hn : IsPart S C n) (hmem : n ∈ p.node.preorder) :
    Safe p Anything (evalWith env bound next n) := by
  cases hn with
  | expr hexpr => exact (safe_expr h hnext hexpr hmem).anything
  | stmt hstmt => exact safe_stmt h hnext hstmt hmem
  | block hbody =>
    simp only [evalWith]
    exact .bind (.inFrame (safe_body hnext _ hmem (.block hbody))) fun _ _ => .pure trivial

end Nodes

/-! ## Runs -/

section Runs

variable {env : Env} {S : Text → Prop} {C : Text → Callee → Prop}

/-- Statements are safe at every level. -/
theorem safe_below (h : Fits S C p env) (level : Nat) : SafeNext S C p (below env level) := by
  induction level with
  | zero => exact fun s _ _ => .pure trivial
  | succ level ih =>
    intro s hmem hs
    show Safe p Anything (eval env level s)
    rw [eval_eq]
    exact safe_part h ih hs hmem

/-- Starting a program that reads as one fails in a foreseen way only. -/
theorem safe_start (h : Fits S C p env) (level : Nat) : Safe p Anything (start (eval env level) p) := by
  have hnext : SafeNext S C p (eval env level) := safe_below h (level + 1)
  have hglobals : ∀ gs : List Node, (∀ g ∈ gs, g ∈ p.globals) → Safe p Anything (globals (eval env level) gs) := by
    intro gs hgs
    induction gs with
    | nil => exact .pure trivial
    | cons g gs ih =>
      obtain ⟨hg, hgs⟩ := List.forall_mem_cons.1 hgs
      have hmem : g ∈ p.node.preorder := mem_preorder_child (List.mem_append_left _ hg)
      exact .bind (.discard (hnext g hmem (.stmt (h.formed.globals g hg).1))) fun _ _ => ih hgs
  have hentry : ∀ f, p.entry? = some f → f.node ∈ p.node.preorder ∧ IsName f.name := by
    intro f hf
    have hfunction : f ∈ p.functions := List.mem_of_getLast? hf
    refine ⟨mem_preorder_child (List.mem_append_right _ (List.mem_map_of_mem hfunction)), ?_⟩
    cases h.formed.functions f hfunction with
    | function hname => exact hname
  have hmain : ∀ f, p.entry? = some f → ∃ n ∈ p.node.preorder, f.span = n.span := fun f hf =>
    ⟨f.node, (hentry f hf).1, rfl⟩
  intro depth
  refine Triple.start ⟨.emptyProgram, p.node, mem_preorder_self _, rfl⟩
    (fun _ => (hglobals p.globals fun _ hg => hg).triple depth) (fun _ _ hm => ⟨hm, trivial⟩) ?_ ?_
  · exact fun f hf _ => ⟨.entryName (hentry f hf).2, hmain f hf⟩
  · exact fun f hf _ => safe_callFunction h hnext (hentry f hf).1 (hmain f hf) [] depth

end Runs

end Run

open Run

/-! ## Sessions with the default builtins -/

section Sessions

variable {policy : Policy} {file source : Text} {p : Program}

/-- The names that a policy leaves are those of default builtins. -/
theorem Registry.offers_of_mem {name : Text} (h : name ∈ (Registry.default.filter policy).names) :
    (Registry.default.filter policy).Offers name := by
  obtain ⟨b, hb, rfl⟩ := Registry.mem_names.1 h
  obtain ⟨hdefault, hpermits⟩ := List.mem_filter.1 hb
  exact ⟨b, hdefault, Registry.distinct_default.get?_filter hdefault hpermits⟩

/-- What a program is run with fits it, since it was read against the same builtins. -/
theorem fits_of_parse (h : Session.parse { policy := policy } file source = .ok p) :
    Fits (fun _ => True) (fun _ _ => True) p ⟨Registry.default.filter policy, p.allFunctions⟩ where
  formed :=
    formed_of_parse (I := fun _ => True) (fun _ _ _ => trivial) (fun _ _ _ => trivial) trivial
      (fun _ _ _ _ _ => trivial) h
  functions := rfl
  calls := by
    obtain ⟨hread, hknown⟩ := parse_known_ok h
    intro span name callee args hcall htarget
    exact Registry.offers_of_mem (hknown name (reaches_untargeted hread _ span name callee args hcall htarget))

end Sessions

/-- Failures of the evaluator that report a defect are unreachable. If a session with the default builtins, under
any policy, accepts a source and the run fails, whatever the world is and whenever the run is interrupted, then
the failure concerns the structure of the program, a name, a type, input and output, or the interruption; it is
not that frames have no root, it does not have the wording of an internal failure, and it has the span of a node
of the program. -/
theorem internal_failures_unreachable (policy : Policy) (file source : Text) (world : World) (budget : Nat)
    {o : Outcome} {f : Failure} (h : Session.run { policy := policy } file source world budget = .ok o)
    (hf : o.failure = some f) :
    f.diagnostic.code ∈ [Code.programStructure, .scope, .type, .io, .canceled] ∧
    (∀ error, f.fault = .scope error → error.cause ≠ .noRoot) ∧ ¬InternalWording f.diagnostic.message ∧
    ∃ p, Session.parse { policy := policy } file source = .ok p ∧
      ∃ n ∈ p.node.preorder, f.diagnostic.span = some n.span := by
  unfold Session.run at h
  cases hparse : Session.parse { policy := policy } file source with
  | error e =>
    rw [hparse] at h
    cases h
  | ok p =>
    rw [hparse] at h
    obtain rfl : p.run (Registry.default.filter policy) world budget = o := Except.ok.inj h
    have hstart := (safe_start (fits_of_parse hparse) budget).triple 0
    obtain ⟨hordinary, n, hn, hspan⟩ : Foreseen p f :=
      failure_of_triple (hstart.mono (fun _ hm => hm ▸ Chain.settled_start) (fun _ _ hm => hm) fun _ hf => hf) hf
    refine ⟨hordinary.code_mem, fun error hfault => ?_, hordinary.not_internal, p, rfl, n, hn, congrArg some hspan⟩
    rw [hfault] at hordinary
    cases hordinary with
    | scope hcause => exact hcause

/-- A program that needs the value of a call of a function. -/
def valueOfFunction : Text := "func F() { } func Main() { int x = F() }"

/-- The run fails because `F` returns nothing, which is an ordinary failure. -/
theorem internal_failures_unreachable_value :
    ∃ o f, Session.run {} "a" valueOfFunction {} 9 = .ok o ∧ o.failure = some f ∧ f.fault = .noReturn "F" ∧
      ¬InternalWording f.diagnostic.message ∧ ∃ p, Session.parse {} "a" valueOfFunction = .ok p ∧
        ∃ n ∈ p.node.preorder, f.diagnostic.span = some n.span := by
  have hrun : (Session.run {} "a" valueOfFunction {} 9).toOption.bind (fun o => o.failure.map Failure.fault) =
      some (.noReturn "F") := by
    decide +kernel
  cases hresult : Session.run {} "a" valueOfFunction {} 9 with
  | error e =>
    rw [hresult] at hrun
    cases hrun
  | ok o =>
    rw [hresult] at hrun
    obtain ⟨f, hf, hfault⟩ := Option.map_eq_some_iff.1 (show o.failure.map Failure.fault = _ from hrun)
    obtain ⟨-, -, hwording, hplace⟩ :=
      internal_failures_unreachable .allowAll "a" valueOfFunction {} 9 hresult hf
    exact ⟨o, f, rfl, hf, hfault, hwording, hplace⟩

end ScriptKit
