import ScriptKit.Proofs.Check.Reports
import ScriptKit.Proofs.Run.Frames
import ScriptKit.Proofs.Tree.Laid

/-!
# The check follows the names of a run

The check walks through `Main` once, in the order of the text, and a run takes its own way through it: it
leaves out branches, repeats loops and goes off into functions. Still, whenever the run gets to a statement of
`Main`, the names in its frames are those the check had at that statement, provided that no variable is
declared directly in the body of a `while` loop. Such a body has no frame of its own, so that a second turn
would meet the names of the first one, and without any turn the names would be missing. `Node.isTidy` excludes
this.

At every point, then, an action on a name that fails is one the check has reported, and where a statement of
`Main` has been run, the check has nothing to report about the parts of it that are always run, which are
listed by `needed`. This is the invariant along the evaluator, with one case for each kind of statement in
`traced_stmt`. The functions that are called on the way run on top of the frames of `Main` and leave the names
in them alone; they are told apart by where they stand.

**Theorem (`Program.traced_start`).** A run of a whole program fails because of a name only where the check
reports it or in a function that was called, and a run that ends well leaves nothing reported about what every
run goes through (`Program.Clean`).
-/

namespace ScriptKit

open Run Chain

/-- No variable is declared directly in the body of a `while` loop. -/
def Node.isTidy : Node → Bool
  | .whileLoop _ _ _ body => body.all fun s => !s.isDeclaration
  | _ => true

namespace Check

/-! ## The names after a statement -/

section Names

variable {S : Text → Prop} {C : Text → Callee → Prop} {known : Known} {n : Node}

theorem declare_names (block : List Text) (outer : Names) (name : Text) (span : Span) :
    ∃ block', (declare (block :: outer) name span).2 = block' :: outer := by
  unfold declare
  split
  · exact ⟨block, rfl⟩
  · exact ⟨name :: block, rfl⟩

theorem stmts_names {ns : List Node} {outer : Names}
    (h : ∀ n ∈ ns, ∀ block, ∃ block', (stmt known (block :: outer) n).2 = block' :: outer)
    (block : List Text) : ∃ block', (stmts known (block :: outer) ns).2 = block' :: outer := by
  induction ns generalizing block with
  | nil => exact ⟨block, by simp [stmts]⟩
  | cons n ns ih =>
    obtain ⟨hn, hns⟩ := List.forall_mem_cons.1 h
    obtain ⟨block₁, hblock₁⟩ := hn block
    simp only [stmts, hblock₁]
    exact ih hns block₁

/-- A statement adds names to the innermost block at most. -/
theorem stmt_names (hn : IsStmt S C n) (block : List Text) (outer : Names) :
    ∃ block', (stmt known (block :: outer) n).2 = block' :: outer := by
  induction hn generalizing block with
  | declare =>
    simp only [stmt]
    exact declare_names ..
  | declareAs =>
    simp only [stmt]
    exact declare_names ..
  | whileLoop _ _ ih =>
    simp only [stmt]
    exact stmts_names ih block
  | _ =>
    simp only [stmt]
    exact ⟨block, rfl⟩

theorem stmts_names_eq {ns : List Node} {names : Names} (h : ∀ n ∈ ns, (stmt known names n).2 = names) :
    (stmts known names ns).2 = names := by
  induction ns with
  | nil => simp [stmts]
  | cons n ns ih =>
    obtain ⟨hn, hns⟩ := List.forall_mem_cons.1 h
    simp only [stmts, hn]
    exact ih hns

/-- A statement that declares nothing, neither itself nor in its loops, leaves the names as they are. -/
theorem stmt_names_eq (hn : IsStmt S C n) (hdecl : n.isDeclaration = false)
    (htidy : ∀ m ∈ n.own, m.isTidy = true) (names : Names) : (stmt known names n).2 = names := by
  induction hn with
  | declare => cases hdecl
  | declareAs => cases hdecl
  | @whileLoop span cond braces body _ _ ih =>
    have hbody := List.all_eq_true.1 (htidy _ (Node.mem_own_self _))
    simp only [stmt]
    refine stmts_names_eq fun s hs => ih s hs (by simpa using hbody s hs) fun m hm => htidy m ?_
    exact Node.mem_own_of_body braces rfl (by simp [Node.children]) hs hm
  | _ => simp only [stmt]

theorem stmt_names_assign (h : n.isAssignment = true) (names : Names) : (stmt known names n).2 = names := by
  cases n with
  | assign => simp only [stmt]
  | _ => cases h

end Names

/-! ## What is needed of a statement -/

/-- What the check reports about the part of a statement that is run whenever the statement is. -/
def needed (known : Known) (names : Names) : Node → List Diagnostic
  | .when _ cond _ _ | .choose _ cond _ _ _ _ => condition known names "if" cond
  | .whileLoop _ cond _ _ => condition known names "while" cond
  | .forLoop _ init cond _ _ _ =>
    (stmt known ([] :: names) init).1 ++ condition known (stmt known ([] :: names) init).2 "for" cond
  | .block .. | .function .. => []
  | n => (stmt known names n).1

/-- What is needed of statements that are run one after the other. -/
def neededAll (known : Known) : Names → List Node → List Diagnostic
  | _, [] => []
  | names, n :: rest => needed known names n ++ neededAll known (stmt known names n).2 rest

/-! ## The setting -/

/-- A failure because of a name is in the report or happened at one of the spots. -/
def Foreseen (D : List Diagnostic) (Spot : Span → Prop) (f : Failure) : Prop :=
  f.fault.code = .scope → f.diagnostic ∈ D ∨ Spot f.span

/-- What the check knows fits what a run works with. -/
structure Fits (known : Known) (env : Env) (Spot : Span → Prop) : Prop where
  functions : known.functions = env.functions
  strict : known.strict = true
  builtins : env.FailsAt Spot

section Setting

variable {D : List Diagnostic} {Spot : Span → Prop} {In : Node → Prop} {S : Text → Prop}
  {C : Text → Callee → Prop} {known : Known} {env : Env} {level : Nat} {next : Node → Run (Option Value)}
  {names : Names} {n : Node} {span : Span} {name : Text}

theorem foreseen_of_code {fault : Fault} (h : fault.code ≠ .scope) : Foreseen D Spot ⟨fault, span⟩ :=
  fun hcode => absurd hcode h

theorem foreseen_noValue : Foreseen D Spot ⟨noValue n, span⟩ :=
  foreseen_of_code (by cases n <;> simp [noValue, Fault.code])

/-- What leaves all names alone does so in `Main`. -/
theorem triple_of_leavesAll {α : Type} {x : Run α} (h : LeavesAll (ScopedAt Spot) level x) :
    Triple (Within level (Shows names)) x (fun _ => Within level (Shows names)) (Foreseen D Spot) :=
  (h names).mono (fun _ hm => hm) (fun _ _ hm => hm) fun _ hf hcode => Or.inr (hf hcode)

theorem triple_of_ne_nil {α : Type} {x : Run α} {Q : α → Machine → Prop} {E : Failure → Prop}
    (h : names ≠ [] → Triple (Within level (Shows names)) x Q E) :
    Triple (Within level (Shows names)) x Q E := fun m hm => h hm.2.ne_nil m hm

theorem use_eq_nil (hhas : names.has name = true) : use known names name span = [] := by
  simp [use, hhas]

/-- A name that is not there is reported where it is used. -/
theorem foreseen_use (hstrict : known.strict = true) (hhas : names.has name = false)
    (hsub : use known names name span ⊆ D) {e : Scope.Error} (haction : e.name = name)
    (hcause : e.cause = .notFound) : Foreseen D Spot ⟨.scope e, span⟩ := by
  intro _
  refine Or.inl (hsub ?_)
  obtain ⟨action, name', cause⟩ := e
  cases haction
  cases hcause
  simp [use, hstrict, hhas, report, Failure.diagnostic, Fault.code, Fault.message, Scope.Error.message]

/-! ## Expressions -/

/-- Looking at the frames, where what is found there decides about failure. -/
theorem traced_look {α : Type} {f : Chain → Except Scope.Error α} {φ : Prop}
    (hok : ∀ c a, Shows names c → f c = .ok a → φ)
    (herror : ∀ c e, Shows names c → f c = .error e → Foreseen D Spot ⟨.scope e, span⟩) :
    Triple (Within level (Shows names)) (MonadState.get >>= fun m : Machine => liftScope span (f m.chain))
      (fun _ m => Within level (Shows names) m ∧ φ) (Foreseen D Spot) := by
  refine Triple.bind (Q := fun m m' => m = m' ∧ Within level (Shows names) m)
    (Triple.get fun m hm => ⟨rfl, hm⟩) fun m => ?_
  rintro _ ⟨rfl, hm⟩
  refine Triple.liftScope (P := fun m' => m' = m) (fun a ha m' hm' => ?_) (fun e he => ?_) m rfl
  · rw [hm']
    exact ⟨hm, hok _ a hm.2 ha⟩
  · exact herror _ e hm.2 he

theorem traced_operand {α : Type} {symbol : Text} {k : Int32 → Run α} {Q : α → Machine → Prop} {φ : Prop}
    (hn : Triple (Within level (Shows names)) (evalWith env level next n)
      (fun _ m => Within level (Shows names) m ∧ φ) (Foreseen D Spot))
    (hk : φ → ∀ i, Triple (Within level (Shows names)) (k i) Q (Foreseen D Spot)) :
    Triple (Within level (Shows names)) (evalWith env level next n >>= fun v => needValue n v >>= fun v =>
      needInt n symbol v >>= k) Q (Foreseen D Spot) :=
  Triple.operand hn foreseen_noValue (fun _ => foreseen_of_code (by simp [Fault.code])) fun i =>
    Triple.assume fun hφ => hk hφ i

theorem traced_args {args : List Node}
    (h : ∀ a ∈ args, Triple (Within level (Shows names)) (evalWith env level next a)
      (fun _ m => Within level (Shows names) m ∧ expr known names a = []) (Foreseen D Spot)) :
    Triple (Within level (Shows names)) (evalArgs env level next args)
      (fun _ m => Within level (Shows names) m ∧ exprs known names args = []) (Foreseen D Spot) := by
  induction args with
  | nil =>
    simp only [evalArgs]
    exact Triple.pure fun _ hm => ⟨hm, by simp [exprs]⟩
  | cons a args ih =>
    obtain ⟨ha, hargs⟩ := List.forall_mem_cons.1 h
    simp only [evalArgs]
    refine Triple.bind ha fun v => Triple.assume fun hclean => ?_
    refine Triple.bind (Triple.needValue foreseen_noValue) fun v => ?_
    refine Triple.bind (ih hargs) fun vs => Triple.pure fun m hm => ⟨hm.1, ?_⟩
    simp [exprs, hclean, hm.2]

/-- An expression that has been evaluated has nothing reported, and a name it fails for is reported. -/
theorem traced_expr (hfits : Fits known env Spot) (hnext : NextLeaves Spot In level next) (hn : IsExpr S C n)
    (hcalls : CallsInto env.functions Spot In n) (hsub : expr known names n ⊆ D) :
    Triple (Within level (Shows names)) (evalWith env level next n)
      (fun _ m => Within level (Shows names) m ∧ expr known names n = []) (Foreseen D Spot) := by
  induction hn with
  | number | bool =>
    simp only [evalWith]
    exact Triple.pure fun _ hm => ⟨hm, by simp [expr]⟩
  | @str span t _ =>
    simp only [expr] at hsub ⊢
    simp only [evalWith]
    -- to read the chain and to fill in the text is one step, which fails at the first missing name
    rw [← bind_assoc]
    refine Triple.bind (traced_look (f := fun c => interpolate c t) (fun c filled hc hfilled => ?_)
      fun c e hc he => ?_) fun _ => Triple.pure fun _ hm => hm
    · exact List.flatMap_eq_nil_iff.2 fun name hname => use_eq_nil (hc.interpolate_ok hfilled name hname)
    · obtain ⟨name, hname, hhas, rfl⟩ := hc.interpolate_error he
      refine foreseen_use hfits.strict hhas (fun d hd => hsub ?_) rfl rfl
      exact List.mem_flatMap.2 ⟨name, hname, hd⟩
  | @use span name _ =>
    simp only [expr] at hsub ⊢
    simp only [evalWith]
    refine traced_look (f := fun c => c.resolve name) (fun c v hc hv => ?_) fun c e hc he => ?_
    · exact use_eq_nil (hc.resolve_ok hv)
    · obtain ⟨hhas, rfl⟩ := hc.resolve_error he
      exact foreseen_use hfits.strict hhas hsub rfl rfl
  | @call span name callee args _ _ _ ih =>
    simp only [expr, List.append_subset] at hsub
    rw [exprs_eq] at hsub
    have hargs := traced_args fun a ha =>
      ih a ha (hcalls.child ha) fun d hd => hsub.1 (List.mem_flatMap.2 ⟨a, ha, hd⟩)
    have htarget : known.target? callee = env.target? callee := by
      cases callee <;> simp [Known.target?, Env.target?, hfits.functions]
    simp only [evalWith]
    cases hf : env.target? callee with
    | none =>
      refine Triple.bind hargs fun values => Triple.assume fun hclean => ?_
      refine (triple_of_leavesAll (leavesAll_callBuiltin hfits.builtins)).mono (fun _ hm => hm)
        (fun _ _ hm => ⟨hm, ?_⟩) fun _ h => h
      simp [expr, arity, htarget, hf, hclean]
    | some f =>
      cases callee with
      | builtin => cases hf
      | function k =>
        obtain ⟨hparams, hbody⟩ := hcalls span name k args f (Node.mem_preorder_self _) hf
        refine Triple.ite (fun hlength => ?_) fun _ => Triple.fail (foreseen_of_code (by simp [Fault.code]))
        refine Triple.bind hargs fun values => Triple.assume fun hclean => ?_
        refine Triple.bind (triple_of_leavesAll (leavesAll_callFunction hnext hparams hbody)) fun _ => ?_
        exact Triple.pure fun _ hm => ⟨hm, by simp [expr, arity, htarget, hf, hclean, hlength]⟩
  | @sign span op n _ _ _ =>
    simp only [evalWith, applySign]
    split
    · exact Triple.pure fun _ hm => ⟨hm, by simp [expr, operand]⟩
    · exact Triple.pure fun _ hm => ⟨hm, by simp [expr, operand]⟩
    · exact Triple.fail (foreseen_of_code (by simp [Fault.code]))
    · exact Triple.fail (foreseen_of_code (by simp [Fault.code]))
  | @arith span left right op _ _ _ ihl ihr =>
    simp only [expr, List.append_subset] at hsub
    simp only [evalWith]
    refine traced_operand (ihl (hcalls.child (by simp [Node.children])) hsub.1) fun hl l => ?_
    refine traced_operand (ihr (hcalls.child (by simp [Node.children])) hsub.2) fun hr r => ?_
    refine (Triple.applyArith ?_ fun _ => ?_).mono (fun _ hm => hm) (fun _ _ hm => ⟨hm, ?_⟩) fun _ h => h
    · exact foreseen_of_code (by simp [Fault.code])
    · exact foreseen_of_code (by simp [Fault.code])
    · simp [expr, hl, hr]
  | @compare span left right op _ _ _ ihl ihr =>
    simp only [expr, List.append_subset] at hsub
    simp only [evalWith]
    refine traced_operand (ihl (hcalls.child (by simp [Node.children])) hsub.1) fun hl l => ?_
    refine traced_operand (ihr (hcalls.child (by simp [Node.children])) hsub.2) fun hr r => ?_
    refine Triple.bind (Triple.applyRelation fun _ => foreseen_of_code (by simp [Fault.code])) fun _ => ?_
    exact Triple.pure fun _ hm => ⟨hm, by simp [expr, hl, hr]⟩

theorem traced_condition {statement : Text} (hfits : Fits known env Spot)
    (hnext : NextLeaves Spot In level next) (hn : IsExpr S C n) (hcalls : CallsInto env.functions Spot In n)
    (hsub : condition known names statement n ⊆ D) :
    Triple (Within level (Shows names)) (evalCondition env level next statement n)
      (fun _ m => Within level (Shows names) m ∧ condition known names statement n = []) (Foreseen D Spot) := by
  simp only [condition, List.append_subset] at hsub
  cases hn with
  | compare _ hl hr =>
    simp only [expr, List.append_subset] at hsub
    simp only [evalCondition]
    have hleft := traced_expr hfits hnext hl (hcalls.child (by simp [Node.children])) hsub.2.1
    have hright := traced_expr hfits hnext hr (hcalls.child (by simp [Node.children])) hsub.2.2
    refine traced_operand hleft fun hl l => traced_operand hright fun hr r => ?_
    refine (Triple.applyRelation fun _ => foreseen_of_code (by simp [Fault.code])).mono (fun _ hm => hm)
      (fun _ _ hm => ⟨hm, ?_⟩) fun _ h => h
    simp [condition, Node.isComparison, expr, hl, hr]
  | _ =>
    simp only [evalCondition]
    exact Triple.fail (foreseen_of_code (by simp [Fault.code]))

/-! ## Statements -/

theorem traced_declare {type : VarType} {value : Option Value} (hsub : (declare names name span).1 ⊆ D) :
    Triple (Within level (Shows names)) (Run.declare span name type value)
      (fun _ m => Within level (Shows (declare names name span).2) m ∧ (declare names name span).1 = [])
      (Foreseen D Spot) := by
  have hdone : ∀ c c', Shows names c → c.declare name type value = .ok c' →
      Shows (declare names name span).2 c' ∧ (declare names name span).1 = [] := by
    intro c c' hc hok
    obtain ⟨hhas, hshows⟩ := hc.declare_ok hok
    simp only [declare, hhas, Bool.false_eq_true, if_false]
    exact ⟨hshows, trivial⟩
  refine (Triple.within .declare (Triple.declare hdone fun c e hc he _ => ?_)).mono (fun _ hm => hm)
    (fun _ m hm => ⟨⟨hm.1, hm.2.1⟩, hm.2.2⟩) fun _ h => h
  obtain ⟨hhas, rfl⟩ := hc.declare_error he
  exact Or.inl (hsub (by simp [declare, hhas, report]))

theorem traced_assign {value : Value} (hstrict : known.strict = true)
    (hsub : use known names name span ⊆ D) :
    Triple (Within level (Shows names)) (Run.assign span name value)
      (fun _ m => Within level (Shows names) m ∧ use known names name span = []) (Foreseen D Spot) := by
  have hdone : ∀ c c', Shows names c → c.assign name (some value) = .ok c' →
      Shows names c' ∧ use known names name span = [] := by
    intro c c' hc hok
    obtain ⟨hhas, hshows⟩ := hc.assign_ok hok
    exact ⟨hshows, use_eq_nil hhas⟩
  refine (Triple.within .assign (Triple.assign hdone fun c e hc he => ?_)).mono (fun _ hm => hm)
    (fun _ m hm => ⟨⟨hm.1, hm.2.1⟩, hm.2.2⟩) fun _ h => h
  obtain ⟨hhas, rfl⟩ := hc.assign_error he
  exact foreseen_use hstrict hhas hsub rfl rfl

/-- What is done in a frame of its own is gone with the frame. -/
theorem traced_inFrame {α : Type} {x : Run α} {φ : Prop} {E : Failure → Prop} (block : List Text)
    (h : Triple (Within level (Shows ([] :: names))) x
      (fun _ m => Within level (Shows (block :: names)) m ∧ φ) E) :
    Triple (Within level (Shows names)) (inFrame x) (fun _ m => Within level (Shows names) m ∧ φ) E := by
  refine triple_of_ne_nil fun hne => Triple.inFrame (h.mono ?_ (fun _ m hm => ?_) fun _ h => h)
  · rintro _ ⟨m, hm, rfl⟩
    exact ⟨hm.1, hm.2.push⟩
  · exact ⟨⟨hm.1.1, hm.1.2.pop hne⟩, hm.2⟩

/-- A statement of `Main` itself: its loops are tidy and the functions it calls belong to a region. -/
structure Owned (fns : List Function) (Spot : Span → Prop) (In : Node → Prop) (n : Node) : Prop where
  stmt : IsStmt (fun _ => True) (Named fns) n
  tidy : ∀ m ∈ n.own, m.isTidy = true
  calls : CallsInto fns Spot In n

theorem Owned.body {fns : List Function} (h : Owned fns Spot In n) (hfunction : n.function? = none)
    (braces : Braces) {body : List Node} (hblock : .block braces body ∈ n.children)
    (hbody : ∀ s ∈ body, IsStmt (fun _ => True) (Named fns) s) : ∀ s ∈ body, Owned fns Spot In s :=
  fun s hs => ⟨hbody s hs, fun m hm => h.tidy m (Node.mem_own_of_body braces hfunction hblock hs hm),
    (h.calls.child hblock).child hs⟩

/-- One level lower, the statements of `Main` go on with the names of the check. -/
def NextTraced (D : List Diagnostic) (Spot : Span → Prop) (In : Node → Prop) (known : Known) (env : Env)
    (level : Nat) (next : Node → Run (Option Value)) : Prop :=
  ∀ lower, level = lower + 1 → ∀ names s, Owned env.functions Spot In s → (stmt known names s).1 ⊆ D →
    Triple (Within lower (Shows names)) (next s)
      (fun _ m => Within level (Shows (stmt known names s).2) m ∧ needed known names s = []) (Foreseen D Spot)

theorem traced_statements (hnext : NextTraced D Spot In known env level next) {body : List Node}
    (hbody : ∀ s ∈ body, Owned env.functions Spot In s) (hsub : (stmts known names body).1 ⊆ D) :
    Triple (Within level (Shows names)) (statements next body)
      (fun _ m => Within level (Shows (stmts known names body).2) m ∧ neededAll known names body = [])
      (Foreseen D Spot) := by
  induction body generalizing names with
  | nil => exact Triple.pure fun _ hm => ⟨by simpa [stmts] using hm, rfl⟩
  | cons s rest ih =>
    obtain ⟨hs, hrest⟩ := List.forall_mem_cons.1 hbody
    simp only [stmts, List.append_subset] at hsub ⊢
    refine Triple.bind (Triple.check_within (foreseen_of_code (by simp [Fault.code]))) fun _ => ?_
    rintro m ⟨lower, hlevel, hm⟩
    refine Triple.bind (Triple.discard (R := fun _ m => Within level (Shows (stmt known names s).2) m ∧
      needed known names s = []) (hnext lower hlevel names s hs hsub.1)) (fun _ => ?_) m hm
    refine Triple.assume fun hclean => (ih hrest hsub.2).mono (fun _ hm => hm) (fun _ _ hm => ?_) fun _ h => h
    exact ⟨hm.1, by simp [neededAll, hclean, hm.2]⟩

/-- The statements of a block, in a frame of their own. -/
theorem traced_block (hnext : NextTraced D Spot In known env level next) {body : List Node}
    (hbody : ∀ s ∈ body, Owned env.functions Spot In s) (hsub : (stmts known ([] :: names) body).1 ⊆ D) :
    Triple (Within level (Shows names)) (inFrame (statements next body))
      (fun _ m => Within level (Shows names) m ∧ neededAll known ([] :: names) body = [])
      (Foreseen D Spot) := by
  have hrun := traced_statements hnext hbody hsub
  obtain ⟨block, hblock⟩ : ∃ block, (stmts known ([] :: names) body).2 = block :: names :=
    stmts_names (fun s hs block => stmt_names (hbody s hs).stmt block names) []
  rw [hblock] at hrun
  exact traced_inFrame block hrun

/-- A loop in whose turns the condition comes first. -/
theorem traced_turns {cond body : Run Bool} {J : Chain → Prop} {φ : Prop} {E : Failure → Prop} (bound : Nat)
    (hstop : E ⟨.canceled, span⟩)
    (hcond : Triple (Within level J) cond (fun _ m => Within level J m ∧ φ) E)
    (hbody : Triple (Within level J) body (fun _ => Within level J) E) :
    Triple (Within level J) (turns (do
      Run.check span
      if ← cond then body
      else return false) bound) (fun _ m => Within level J m ∧ φ) E := by
  refine Triple.turns_within (Triple.bind (Triple.ask hstop) fun _ => ?_) bound
  refine Triple.bind hcond fun go => Triple.assume fun hφ => Triple.ite (fun _ => ?_) fun _ => ?_
  · exact hbody.mono (fun _ hm => hm) (fun _ _ hm => ⟨hm, hφ⟩) fun _ h => h
  · exact Triple.pure fun _ hm => ⟨hm, hφ⟩

/-- Declarations and assignments, all of which is needed. -/
theorem traced_simple (hfits : Fits known env Spot) (hnext : NextLeaves Spot In level next) (hn : IsStmt S C n)
    (hsimple : (n.isDeclaration || n.isAssignment) = true) (hcalls : CallsInto env.functions Spot In n)
    (hsub : (stmt known names n).1 ⊆ D) :
    Triple (Within level (Shows names)) (evalWith env level next n)
      (fun _ m => Within level (Shows (stmt known names n).2) m ∧ (stmt known names n).1 = [])
      (Foreseen D Spot) := by
  cases hn with
  | declare =>
    simp only [stmt] at hsub ⊢
    simp only [evalWith]
    exact Triple.bind (traced_declare hsub) fun _ => Triple.pure fun _ hm => hm
  | @declareAs span name type value _ hvalue =>
    simp only [stmt, List.append_subset] at hsub ⊢
    simp only [evalWith]
    have hcalls' := hcalls.child (c := value) (by simp [Node.children])
    refine Triple.bind (traced_expr hfits hnext hvalue hcalls' hsub.1) fun v => Triple.assume fun hclean => ?_
    refine Triple.bind (Triple.needValue foreseen_noValue) fun v => ?_
    refine Triple.bind (traced_declare hsub.2) fun _ => Triple.pure fun _ hm => ⟨hm.1, ?_⟩
    rw [hclean, hm.2, List.append_nil]
  | @assign span name value _ hvalue =>
    simp only [stmt, List.append_subset] at hsub ⊢
    simp only [evalWith]
    have hcalls' := hcalls.child (c := value) (by simp [Node.children])
    refine Triple.bind (traced_expr hfits hnext hvalue hcalls' hsub.1) fun v => Triple.assume fun hclean => ?_
    refine Triple.bind (Triple.needValue foreseen_noValue) fun v => ?_
    refine Triple.bind (traced_assign hfits.strict hsub.2) fun _ => Triple.pure fun _ hm => ⟨hm.1, ?_⟩
    rw [hclean, hm.2, List.append_nil]
  | _ => simp [Node.isDeclaration, Node.isAssignment] at hsimple

/-- A statement of `Main` itself takes the names of the check along, fails because of a name only where
the check reports it, and has nothing reported about what is needed of it once it has been run. -/
theorem traced_stmt (hfits : Fits known env Spot) (hleaves : NextLeaves Spot In level next)
    (hnext : NextTraced D Spot In known env level next) (hn : Owned env.functions Spot In n)
    (hsub : (stmt known names n).1 ⊆ D) :
    Triple (Within level (Shows names)) (evalWith env level next n)
      (fun _ m => Within level (Shows (stmt known names n).2) m ∧ needed known names n = [])
      (Foreseen D Spot) := by
  have hcanceled : ∀ span, Foreseen D Spot ⟨.canceled, span⟩ := fun _ => foreseen_of_code (by simp [Fault.code])
  -- What is needed of a statement was evaluated when it ended, and so its report is empty. A branch that was
  -- not taken says nothing about its report, and none of it is needed.
  cases hstmt : hn.stmt with
  | declare | declareAs | assign =>
    exact traced_simple hfits hleaves hn.stmt rfl hn.calls hsub
  | call hcall =>
    simp only [stmt, needed] at hsub ⊢
    exact traced_expr hfits hleaves hcall hn.calls hsub
  | function | skip =>
    simp only [stmt, needed, evalWith]
    exact Triple.pure fun _ hm => ⟨hm, trivial⟩
  | @when span cond braces yes hcond hyes =>
    simp only [stmt, List.append_subset] at hsub ⊢
    simp only [evalWith, needed]
    have hrun := traced_condition hfits hleaves hcond (hn.calls.child (by simp [Node.children])) hsub.1
    have howned := hn.body rfl braces (by simp [Node.children]) hyes
    refine Triple.bind hrun fun go => Triple.assume fun hclean => Triple.ite (fun _ => ?_) fun _ => ?_
    · refine Triple.bind (traced_block hnext howned hsub.2) fun _ => ?_
      exact Triple.pure fun _ hm => ⟨hm.1, hclean⟩
    · exact Triple.pure fun _ hm => ⟨hm, hclean⟩
  | @choose span cond braces braces' yes no hcond hyes hno =>
    simp only [stmt, List.append_subset] at hsub ⊢
    simp only [evalWith, needed]
    have hrun := traced_condition hfits hleaves hcond (hn.calls.child (by simp [Node.children])) hsub.1.1
    have howned := hn.body rfl braces (by simp [Node.children]) hyes
    have howned' := hn.body rfl braces' (by simp [Node.children]) hno
    refine Triple.bind hrun fun go => Triple.assume fun hclean => Triple.ite (fun _ => ?_) fun _ => ?_
    · refine Triple.bind (traced_block hnext howned hsub.1.2) fun _ => ?_
      exact Triple.pure fun _ hm => ⟨hm.1, hclean⟩
    · refine Triple.bind (traced_block hnext howned' hsub.2) fun _ => ?_
      exact Triple.pure fun _ hm => ⟨hm.1, hclean⟩
  | @whileLoop span cond braces body hcond hbody =>
    have howned := hn.body rfl braces (by simp [Node.children]) hbody
    have htidy := List.all_eq_true.1 (hn.tidy _ (Node.mem_own_self _))
    -- a tidy body declares nothing, so that every turn ends with the names it began with
    have hnames : (stmts known names body).2 = names := stmts_names_eq fun s hs =>
      stmt_names_eq (howned s hs).stmt (by simpa using htidy s hs) (howned s hs).tidy names
    simp only [stmt, List.append_subset] at hsub ⊢
    simp only [evalWith, needed, hnames]
    have hrun := traced_condition hfits hleaves hcond (hn.calls.child (by simp [Node.children])) hsub.1
    refine Triple.bind (traced_turns _ (hcanceled span) hrun ?_) fun _ => Triple.pure fun _ hm => hm
    have hturn := traced_statements hnext howned hsub.2
    rw [hnames] at hturn
    exact Triple.bind hturn fun _ => Triple.pure fun _ hm => hm.1
  | @forLoop span init cond step braces body hinit hkind hcond _ hstep hassign hbody =>
    have howned := hn.body rfl braces (by simp [Node.children]) hbody
    simp only [stmt, List.append_subset] at hsub ⊢
    obtain ⟨⟨⟨hsubinit, hsubcond⟩, hsubbody⟩, hsubstep⟩ := hsub
    have hfirst := traced_simple hfits hleaves hinit hkind
      (hn.calls.child (by simp [Node.children])) hsubinit
    simp only [evalWith, needed]
    -- the header has a block of its own, on top of the names outside
    obtain ⟨block, hinner⟩ : ∃ block, (stmt known ([] :: names) init).2 = block :: names :=
      stmt_names hinit [] names
    rw [hinner] at hfirst hsubcond hsubbody hsubstep ⊢
    have hrun := traced_condition hfits hleaves hcond
      (hn.calls.child (by simp [Node.children])) hsubcond
    have hafter := traced_simple hfits hleaves hstep (by simp [hassign])
      (hn.calls.child (by simp [Node.children])) hsubstep
    rw [stmt_names_assign hassign] at hafter
    refine traced_inFrame block ?_
    refine Triple.bind (Triple.discard (R := fun _ m => Within level (Shows (block :: names)) m ∧
      (stmt known ([] :: names) init).1 = []) hfirst) fun _ => Triple.assume fun hclean => ?_
    refine Triple.bind (traced_turns _ (hcanceled span) hrun ?_) fun _ => Triple.pure fun _ hm => ?_
    · refine Triple.bind (traced_block hnext howned hsubbody) fun _ => Triple.assume fun _ => ?_
      refine Triple.bind (Triple.discard (R := fun _ => Within level (Shows (block :: names))) ?_) fun _ => ?_
      · exact hafter.mono (fun _ hm => hm) (fun _ _ hm => hm.1) fun _ h => h
      · exact Triple.pure fun _ hm => hm
    · exact ⟨hm.1, by rw [hclean, hm.2, List.append_nil]⟩

/-- However deep a run goes, the statements of `Main` take the names of the check along. -/
theorem traced_below (hfits : Fits known env Spot) (hregion : Region env.functions Spot In) (level : Nat) :
    NextTraced D Spot In known env level (below env level) := by
  induction level with
  | zero =>
    intro lower hlower
    cases hlower
  | succ level ih =>
    intro lower hlower names s hs hsub
    cases hlower
    show Triple _ (eval env level s) _ _
    rw [eval_eq]
    have hleaves := (leaves_eval hfits.builtins hregion level).2
    refine (traced_stmt hfits hleaves ih hs hsub).mono (fun _ hm => hm) (fun _ _ hm => ?_) fun _ h => h
    exact ⟨hm.1.weaken (Nat.le_succ level), hm.2⟩

/-! ## Programs -/

/-- Global declarations are all needed. -/
theorem traced_globals (level : Nat) (hfits : Fits known env Spot) (hregion : Region env.functions Spot In)
    {gs : List Node} (hgs : ∀ g ∈ gs, IsStmt S C g ∧ g.isDeclaration = true)
    (hcalls : ∀ g ∈ gs, CallsInto env.functions Spot In g) (hsub : (stmts known names gs).1 ⊆ D) :
    Triple (Within level (Shows names)) (Run.globals (eval env level) gs)
      (fun _ m => Within level (Shows (stmts known names gs).2) m ∧ (stmts known names gs).1 = [])
      (Foreseen D Spot) := by
  induction gs generalizing names with
  | nil => exact Triple.pure fun _ hm => ⟨by simpa [stmts] using hm, by simp [stmts]⟩
  | cons g gs ih =>
    obtain ⟨⟨hstmt, hdecl⟩, hgs⟩ := List.forall_mem_cons.1 hgs
    obtain ⟨hcall, hcalls⟩ := List.forall_mem_cons.1 hcalls
    simp only [stmts, List.append_subset] at hsub ⊢
    have hg := traced_simple hfits (leaves_eval hfits.builtins hregion level).2 hstmt (by simp [hdecl]) hcall
      hsub.1
    rw [← eval_eq] at hg
    refine Triple.bind (Triple.discard (R := fun _ m => Within level (Shows (stmt known names g).2) m ∧
      (stmt known names g).1 = []) hg) fun _ => Triple.assume fun hclean => ?_
    refine (ih hgs hcalls hsub.2).mono (fun _ hm => hm) (fun _ _ hm => ⟨hm.1, ?_⟩) fun _ h => h
    rw [hclean, hm.2, List.append_nil]

theorem callFrame_nil {f : Function} (h : f.params = []) : callFrame f [] = pure {} := by
  funext m
  simp only [callFrame, h]
  rfl

/-- Calling `Main`, which takes no arguments. -/
theorem traced_main (hnext : NextTraced D Spot In known env level next) {f : Function}
    (hbody : ∀ s ∈ f.body, Owned env.functions Spot In s)
    (hsub : f.params = [] → (stmts known ([] :: names) f.body).1 ⊆ D) :
    Triple (Within level (Shows names)) (callFunction next f [] span)
      (fun _ m => Within level (Shows names) m ∧ f.params = [] ∧ neededAll known ([] :: names) f.body = [])
      (Foreseen D Spot) := by
  unfold callFunction
  refine Triple.ite (fun hlength => ?_) fun _ => Triple.fail (foreseen_of_code (by simp [Fault.code]))
  have hparams : f.params = [] := List.eq_nil_of_length_eq_zero hlength.symm
  simp only [callFrame_nil hparams, pure_bind]
  refine Triple.bind (Q := fun _ => Within level (Shows names)) ?_ fun _ => ?_
  · exact Triple.within .emit (Triple.emit fun _ _ hm => hm)
  refine (Triple.reportEnd_within (traced_block hnext hbody (hsub hparams))).mono (fun _ hm => hm) ?_ fun _ h => h
  exact fun _ _ hm => ⟨hm.1, hparams, hm.2⟩

end Setting

/-- The last function is checked strictly if it is `Main`. -/
theorem function_subset_functions (known : Known) (names : Names) {fs : List Function} {f : Function}
    (h : fs.getLast? = some f) :
    function { known with strict := f.name == "Main" } names f ⊆ functions known names fs := by
  induction fs with
  | nil => cases h
  | cons g rest ih =>
    cases rest with
    | nil =>
      cases h
      exact List.Subset.refl _
    | cons g' rest =>
      simp only [functions]
      exact List.subset_append_of_subset_right _ (ih (by simpa using h))

end Check

namespace Program

open Check

/-- The nodes of `Main` that are not inside a function declared there. -/
def mainNodes (p : Program) : List Node := p.entry?.toList.flatMap fun f => f.body.flatMap Node.own

/-- Nothing is reported about what every run goes through. -/
structure Clean (p : Program) : Prop where
  nonempty : (p.globals.isEmpty && p.functions.isEmpty) = false
  globals : (stmts p.known [[]] p.globals).1 = []
  main : ∀ f, p.entry? = some f →
    f.name = "Main" ∧ f.params = [] ∧ neededAll p.known ([] :: p.visible) f.body = []

variable {p : Program} {Spot : Span → Prop} {In : Node → Prop} {f : Function}

theorem globals_subset_check : (stmts p.known [[]] p.globals).1 ⊆ p.check :=
  fun _ hd => mem_check.2 (Or.inl (Or.inl (Or.inr hd)))

/-- The check goes through the body of `Main` with the names of the globals. -/
theorem body_subset_check (hentry : p.entry? = some f) (hname : f.name = "Main") (hparams : f.params = []) :
    (stmts p.known ([] :: p.visible) f.body).1 ⊆ p.check := by
  intro d hd
  have hmain := function_subset_functions p.known p.visible hentry
  refine mem_check.2 (Or.inl (Or.inr (hmain ?_)))
  simp only [function, hparams, declareParams, hname, beq_self_eq_true]
  exact hd

theorem mem_mainNodes (hentry : p.entry? = some f) {m : Node} :
    m ∈ p.mainNodes ↔ ∃ s ∈ f.body, m ∈ s.own := by
  simp [mainNodes, hentry]

theorem mem_children_of_entry (hentry : p.entry? = some f) : f.node ∈ p.node.children :=
  List.mem_append_right _ (List.mem_map_of_mem (List.mem_of_getLast? hentry))

/-- The statements of `Main` are its own. -/
theorem owned_main (hformed : p.IsFormed (fun _ => True) (Named p.allFunctions))
    (hcalls : CallsInto p.allFunctions Spot In p.node) (htidy : ∀ m ∈ p.mainNodes, m.isTidy = true)
    (hentry : p.entry? = some f) : ∀ s ∈ f.body, Owned p.allFunctions Spot In s := by
  intro s hs
  refine ⟨?_, fun m hm => htidy m ((mem_mainNodes hentry).2 ⟨s, hs, hm⟩), ?_⟩
  · cases hformed.functions f (List.mem_of_getLast? hentry) with
    | function _ _ hbody => exact hbody s hs
  · exact ((hcalls.child (mem_children_of_entry hentry)).child (Node.block_mem_children f)).child hs

/-- A run of a program takes the names of the check along, fails because of a name only where the check
reports it, and has nothing reported about what it went through once it is over. -/
theorem traced_start {registry : Registry} (world : World) (budget : Nat)
    (hformed : p.IsFormed (fun _ => True) (Named p.allFunctions))
    (hbuiltins : Env.FailsAt ⟨registry, p.allFunctions⟩ Spot) (hregion : Region p.allFunctions Spot In)
    (hcalls : CallsInto p.allFunctions Spot In p.node) (htidy : ∀ m ∈ p.mainNodes, m.isTidy = true) :
    Triple (· = .start world budget) (Run.start (eval ⟨registry, p.allFunctions⟩ budget) p)
      (fun _ _ => p.Clean) (Foreseen p.check Spot) := by
  have hfits : Fits p.known ⟨registry, p.allFunctions⟩ Spot := ⟨rfl, rfl, hbuiltins⟩
  refine Triple.start (M := fun m => Within (budget + 1) (Shows p.visible) m ∧
    (p.globals.isEmpty && p.functions.isEmpty) = false ∧ (stmts p.known [[]] p.globals).1 = []) ?_ ?_ ?_ ?_ ?_
  · exact foreseen_of_code (by simp [Fault.code])
  · intro hsome
    have hglobals := traced_globals budget hfits hregion hformed.globals
      (fun g hg => hcalls.child (List.mem_append_left _ hg)) globals_subset_check
    refine hglobals.mono ?_ (fun _ _ hm => ?_) fun _ h => h
    · rintro _ rfl
      exact ⟨Nat.le_refl budget, rfl, _, rfl, rfl⟩
    · exact ⟨hm.1.weaken (Nat.le_succ budget), hsome, hm.2⟩
  · intro hnone m hm
    exact ⟨hm.2.1, hm.2.2, fun f hf => by simp [hnone] at hf⟩
  · exact fun f _ _ => foreseen_of_code (by simp [Fault.code])
  · intro f hentry hname
    refine Triple.assume fun hclean => ?_
    have hbody := owned_main hformed hcalls htidy hentry
    have hsub := body_subset_check hentry hname
    refine (traced_main (traced_below hfits hregion (budget + 1)) hbody hsub).mono (fun _ hm => hm)
      (fun _ _ hm => ⟨hclean.1, hclean.2, fun f' hf' => ?_⟩) fun _ h => h
    rw [hentry] at hf'
    cases hf'
    exact ⟨hname, hm.2⟩

end Program

end ScriptKit
