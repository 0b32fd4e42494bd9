import ScriptKit.Proofs.Check.Traced
import ScriptKit.Proofs.Grammar.Placed

/-!
# Alarms about code that is run

The check is meant to report what a run would reject once it got there. Some code is got to in every run that
ends well: the globals, and of the statements of `Main` those that are no branches or loops, the conditions of
the others and what a `for` loop begins with (`Program.mustRun`). A report about such code is a false alarm if a
run ends well.

**Theorem (`check_raises_no_alarm`).** Let no variable of `Main` be declared directly in the body of a `while`
loop. If a run ends without failure, then the check reports nothing about the program as a whole and nothing
about code that every run gets to.

Without the condition on `while` loops the check does raise false alarms. It takes the variables that are
declared in the body of a loop for declared after the loop, which they are not if the loop makes no turn.
-/

namespace ScriptKit

open Run Check

/-- A report about something within a stretch of a source. -/
def Diagnostic.LiesIn (d : Diagnostic) (span : Span) : Prop :=
  ∃ s, d.span = some s ∧ span.start ≤ s.start ∧ s.stop ≤ span.stop

/-- The parts of a statement that are run whenever the statement is. -/
def Node.mustRun : Node → List Node
  | n@(.declare ..) | n@(.declareAs ..) | n@(.assign ..) | n@(.call ..) => [n]
  | .when _ cond _ _ | .choose _ cond _ _ _ _ | .whileLoop _ cond _ _ => [cond]
  | .forLoop _ init cond _ _ _ => [init, cond]
  | _ => []

/-- The code that every run gets to which ends well. -/
def Program.mustRun (p : Program) : List Node :=
  p.globals ++ p.entry?.toList.flatMap fun f => f.body.flatMap Node.mustRun

/-! ## Statements that have been run -/

namespace Check

variable {known : Known} {names : Names} {c n s : Node} {d : Diagnostic}

/-- A report about a node is not about anything that stands before or after the node. -/
theorem About.not_liesIn (h : About c d) (hlaid : c.Laid)
    (hapart : n.span.stop ≤ c.span.start ∨ c.span.stop ≤ n.span.start) : ¬d.LiesIn n.span := by
  obtain ⟨fault, -, m, hm, rfl⟩ := h
  rintro ⟨span, hspan, hstart, hstop⟩
  obtain rfl : m.span = span := Option.some.inj hspan
  have hin := hlaid.inside hm
  grind

theorem mem_preorder_of_mustRun (h : n ∈ s.mustRun) : n ∈ s.preorder := by
  cases s with
  | declare | declareAs | assign | call =>
    rw [List.mem_singleton.1 h]
    exact Node.mem_preorder_self _
  | when | choose | whileLoop =>
    rw [List.mem_singleton.1 h]
    exact Node.mem_preorder_child (by simp [Node.children])
  | forLoop =>
    simp only [Node.mustRun, List.mem_cons, List.not_mem_nil, or_false] at h
    rcases h with rfl | rfl
    · exact Node.mem_preorder_child (by simp [Node.children])
    · exact Node.mem_preorder_child (by simp [Node.children])
  | _ => cases h

/-- If nothing is reported about what is needed of statements, whatever is reported about them is reported
about one of which nothing is needed. -/
theorem mem_stmts_of_neededAll {ns : List Node} (h : neededAll known names ns = [])
    (hd : d ∈ (stmts known names ns).1) :
    ∃ s ∈ ns, ∃ names', needed known names' s = [] ∧ d ∈ (stmt known names' s).1 := by
  induction ns generalizing names with
  | nil => simp [stmts] at hd
  | cons s rest ih =>
    obtain ⟨hs, hrest⟩ := List.append_eq_nil_iff.1 h
    simp only [stmts, List.mem_append] at hd
    rcases hd with hd | hd
    · exact ⟨s, List.mem_cons_self .., names, hs, hd⟩
    · obtain ⟨s', hs', hd⟩ := ih hrest hd
      exact ⟨s', List.mem_cons_of_mem _ hs', hd⟩

/-- Where nothing is reported about what is needed of a statement, no report is about code that must be run. -/
theorem not_liesIn_mustRun (hlaid : s.Laid) (hneeded : needed known names s = [])
    (hd : d ∈ (stmt known names s).1) (hn : n ∈ s.mustRun) : ¬d.LiesIn n.span := by
  obtain ⟨hbox, hchildren⟩ := Node.laid_iff.1 hlaid
  have hrow := hbox.row
  have hblock : ∀ braces body known names, .block braces body ∈ s.children → d ∈ (stmts known names body).1 →
      n.span.stop ≤ (Node.block braces body).span.start → ¬d.LiesIn n.span := by
    intro braces body known names hb hd hafter
    have habout : About (.block braces body) d := (about_stmt _).2 known names d hd
    exact habout.not_liesIn (hchildren _ hb) (Or.inl hafter)
  -- A report that is not needed comes from a block, or from the last part of a for loop, and both lie behind
  -- all that must run.
  cases s with
  | declare | declareAs | assign | call =>
    simp only [needed] at hneeded
    rw [hneeded] at hd
    cases hd
  | when span cond braces yes =>
    obtain rfl := List.mem_singleton.1 hn
    simp only [needed] at hneeded
    simp only [stmt, hneeded, List.nil_append] at hd
    exact hblock braces yes _ _ (by simp [Node.children]) hd hrow.2.2.1
  | choose span cond braces yes braces' no =>
    obtain rfl := List.mem_singleton.1 hn
    obtain ⟨-, -, hyes, hne, hno, -⟩ := hrow
    simp only [needed] at hneeded
    simp only [stmt, hneeded, List.nil_append, List.mem_append] at hd
    rcases hd with hd | hd
    · exact hblock braces yes _ _ (by simp [Node.children]) hd hyes
    · exact hblock braces' no _ _ (by simp [Node.children]) hd (by grind)
  | whileLoop span cond braces body =>
    obtain rfl := List.mem_singleton.1 hn
    simp only [needed] at hneeded
    simp only [stmt, hneeded, List.nil_append] at hd
    exact hblock braces body _ _ (by simp [Node.children]) hd hrow.2.2.1
  | forLoop span init cond step braces body =>
    obtain ⟨-, -, hcond, hne, hstep, hne', hbody, -⟩ := hrow
    have hbefore : n.span.stop ≤ step.span.start := by
      simp only [Node.mustRun, List.mem_cons, List.not_mem_nil, or_false] at hn
      rcases hn with rfl | rfl
      · grind
      · exact hstep
    simp only [needed, List.append_eq_nil_iff] at hneeded
    simp only [stmt, hneeded.1, hneeded.2, List.nil_append, List.mem_append] at hd
    rcases hd with hd | hd
    · exact hblock braces body _ _ (by simp [Node.children]) hd (by grind)
    · have habout : About step d := (about_stmt step).1 _ _ d hd
      exact habout.not_liesIn (hchildren step (by simp [Node.children])) (Or.inl hbefore)
  | _ => cases hn

end Check

/-! ## Programs -/

namespace Program

variable {p : Program} {ended : List (Function × Nat)} {f : Function} {n c : Node} {d : Diagnostic}

theorem callsInto_preorder (p : Program) :
    CallsInto p.allFunctions (fun _ => True) (· ∈ p.node.preorder) p.node := fun _ _ _ _ _ _ hf =>
  ⟨fun _ _ => trivial, fun _ hs => Node.mem_preorder_body (mem_preorder_of_function? hf) hs⟩

theorem region_preorder (p : Program) : Region p.allFunctions (fun _ => True) (· ∈ p.node.preorder) where
  child _ _ hn hc := Node.mem_preorder_trans (Node.mem_preorder_child hc) hn
  spot _ _ := trivial
  calls _ hn span name k args f hcall := callsInto_preorder p span name k args f (Node.mem_preorder_trans hcall hn)

/-- A run that ends well has met nothing that the check reports about code that must be run. -/
theorem clean_of_run {registry : Registry} {world : World} {budget : Nat}
    (hformed : p.IsFormed (fun _ => True) (Named p.allFunctions)) (htidy : ∀ m ∈ p.mainNodes, m.isTidy = true)
    (hsuccess : (p.run registry world budget).failure = none) : p.Clean := by
  have hbuiltins : Env.FailsAt ⟨registry, p.allFunctions⟩ fun _ => True := fun _ _ _ _ _ _ _ _ _ => trivial
  have hstart := traced_start world budget hformed hbuiltins (region_preorder p) (callsInto_preorder p) htidy
  obtain ⟨m, hclean⟩ := success_of_triple hstart hsuccess
  exact hclean

theorem Clean.entryPoint_eq_nil (h : p.Clean) : entryPoint p = [] := by
  unfold entryPoint
  rw [h.nonempty]
  cases hentry : p.entry? with
  | none => rfl
  | some f => simp [(h.main f hentry).1]

theorem Clean.entryArity_eq_nil (h : p.Clean) : entryArity p = [] := by
  unfold entryArity
  cases hentry : p.entry? with
  | none => rfl
  | some f => simp [(h.main f hentry).2.1]

theorem mem_mustRun : n ∈ p.mustRun ↔
    n ∈ p.globals ∨ ∃ f, p.entry? = some f ∧ ∃ s ∈ f.body, n ∈ s.mustRun := by
  cases hentry : p.entry? <;> simp [mustRun, hentry]

theorem Placed.before_main (hp : p.Placed ended) (hentry : p.entry? = some f)
    (hc : c ∈ p.globals ++ p.functions.dropLast.map Function.node) : c.span.stop ≤ f.span.start := by
  obtain ⟨stop, hrow⟩ := hp.row
  have hchildren : p.node.children = (p.globals ++ p.functions.dropLast.map Function.node) ++ [f.node] := by
    obtain ⟨others, hfunctions⟩ := List.getLast?_eq_some_iff.1 hentry
    show p.globals ++ p.functions.map Function.node = _
    rw [hfunctions, List.dropLast_concat, List.map_append, List.append_assoc]
    rfl
  rw [hchildren] at hrow
  obtain ⟨middle, hbefore, hmain⟩ := hrow.split
  have hwithin := hbefore.within hc
  have hstart := (row_singleton.1 hmain).1
  have hspan : f.node.span = f.span := rfl
  grind

theorem mem_preorder_of_body {s : Node} (hs : s ∈ f.body) : s ∈ f.node.preorder :=
  Node.mem_preorder_body (Node.mem_preorder_self f.node) hs

theorem Placed.not_liesIn_of_other (hp : p.Placed ended)
    (hformed : p.IsFormed (fun _ => True) (Named p.allFunctions)) {g : Function} (hg : g ∈ p.functions.dropLast)
    (hd : About g.node d) (hn : n ∈ p.mustRun) : ¬d.LiesIn n.span := by
  have hchild : g.node ∈ p.node.children :=
    List.mem_append_right _ (List.mem_map_of_mem ((List.dropLast_sublist _).subset hg))
  refine hd.not_liesIn (hp.laid _ hchild) ?_
  rcases mem_mustRun.1 hn with hn | ⟨f, hentry, s, hs, hn⟩
  · obtain ⟨stop, hrow⟩ := hp.row
    rcases hrow.apart (List.mem_append_left _ hn) hchild with rfl | hapart
    · cases (hformed.globals _ hn).2
    · exact hapart
  · have hbefore := hp.before_main hentry (List.mem_append_right _ (List.mem_map_of_mem hg))
    have hbelow := Node.mem_preorder_trans (mem_preorder_of_mustRun hn) (mem_preorder_of_body hs)
    have hin := (hp.laid _ (mem_children_of_entry hentry)).inside hbelow
    have hspan : f.node.span = f.span := rfl
    exact Or.inr (by grind)

/-- A report about a statement of `Main` is not about code that must be run if nothing is reported about what is
needed of the statement. -/
theorem Placed.not_liesIn_of_main (hp : p.Placed ended) (hentry : p.entry? = some f) {s : Node}
    (hs : s ∈ f.body) {names : Names} (hneeded : needed p.known names s = []) (hd : d ∈ (stmt p.known names s).1)
    (hn : n ∈ p.mustRun) : ¬d.LiesIn n.span := by
  have hlaid := hp.laid _ (mem_children_of_entry hentry)
  have hbelow : s ∈ f.node.preorder := mem_preorder_of_body hs
  have habout : About s d := (about_stmt s).1 _ _ d hd
  rcases mem_mustRun.1 hn with hn | ⟨f', hentry', s', hs', hn⟩
  · have hbefore := hp.before_main hentry (List.mem_append_left _ hn)
    have hin := hlaid.inside hbelow
    have hspan : f.node.span = f.span := rfl
    exact habout.not_liesIn (hlaid.below hbelow) (Or.inl (by grind))
  · obtain rfl : f = f' := Option.some.inj (hentry.symm.trans hentry')
    have hblock := hlaid.below (Node.mem_preorder_child (Node.block_mem_children f))
    have hrow := (Node.laid_iff.1 hblock).1.row
    rcases hrow.apart hs hs' with rfl | hapart
    · exact not_liesIn_mustRun (hlaid.below hbelow) hneeded hd hn
    · have hin := (hlaid.below (mem_preorder_of_body hs')).inside (mem_preorder_of_mustRun hn)
      exact habout.not_liesIn (hlaid.below hbelow) (by grind)

/-- What the check reports although a run ends well is not about code that must be run. -/
theorem Placed.not_liesIn (hp : p.Placed ended) (hformed : p.IsFormed (fun _ => True) (Named p.allFunctions))
    (hclean : p.Clean) (hd : d ∈ p.check) :
    d.code ≠ .programStructure ∧ ∀ n ∈ p.mustRun, ¬d.LiesIn n.span := by
  rw [mem_check, hclean.entryPoint_eq_nil, hclean.globals, hclean.entryArity_eq_nil] at hd
  simp only [List.not_mem_nil, or_false, false_or] at hd
  rcases mem_functions hd with ⟨g, hg, hd⟩ | ⟨f, hentry, hd⟩
  · exact ⟨hd.code_ne, fun n hn => hp.not_liesIn_of_other hformed hg hd hn⟩
  · obtain ⟨hname, hparams, hneeded⟩ := hclean.main f hentry
    simp only [function, hparams, declareParams, hname, beq_self_eq_true, List.nil_append] at hd
    obtain ⟨s, hs, names, hneeded, hd⟩ := mem_stmts_of_neededAll hneeded hd
    exact ⟨((about_stmt s).1 _ _ d hd).code_ne, fun n hn => hp.not_liesIn_of_main hentry hs hneeded hd hn⟩

end Program

/-! ## Alarms -/

/-- If a run ends well, nothing is reported about code that it must have gone through. -/
theorem check_raises_no_alarm {file source : Text} {builtins : Option (List Text)} {p : Program}
    {registry : Registry} {world : World} {budget : Nat} (hparse : parse file source builtins = .ok p)
    (htidy : ∀ m ∈ p.mainNodes, m.isTidy = true)
    (hsuccess : (p.run registry world budget).failure = none) :
    ∀ d ∈ p.check, d.code ≠ .programStructure ∧ ∀ n ∈ p.mustRun, ¬d.LiesIn n.span := by
  have hformed := named_of_parse hparse
  obtain ⟨ended, hp⟩ := placed_of_parse hparse
  exact fun d hd => hp.not_liesIn hformed (Program.clean_of_run hformed htidy hsuccess) hd

/-- A program with a branch that is never taken, in which a name is used that is not declared. -/
def idleBranch : Text :=
  "func Main() \x7b int i while (i < 2) \x7b if (i < 0) \x7b z = i \x7d i = i + 1 \x7d int z \x7d"

/-- An alarm about a branch that is never taken, and none about what is run. -/
theorem check_raises_no_alarm_loop :
    ∃ p, parse "a" idleBranch = .ok p ∧
      (∀ m ∈ p.mainNodes, m.isTidy = true) ∧ (p.run .default {} 30).failure = none ∧ p.check ≠ [] ∧
      ∀ d ∈ p.check, d.code ≠ .programStructure ∧ ∀ n ∈ p.mustRun, ¬d.LiesIn n.span := by
  have hrun : (parse "a" idleBranch).toOption.map
      (fun p => ((p.run .default {} 30).failure, p.mainNodes.all Node.isTidy, p.check.length)) =
        some (none, true, 1) := by decide +kernel
  cases hparse : parse "a" idleBranch with
  | error e => rw [hparse] at hrun; cases hrun
  | ok p =>
    rw [hparse] at hrun
    obtain ⟨hsuccess, hrest⟩ := Prod.mk.inj (Option.some.inj hrun)
    obtain ⟨htidy, hlength⟩ := Prod.mk.inj hrest
    have htidy := List.all_eq_true.1 htidy
    exact ⟨p, rfl, htidy, hsuccess, List.ne_nil_of_length_pos (by rw [hlength]; decide),
      check_raises_no_alarm hparse htidy hsuccess⟩

/-- A program that declares a variable in a loop that makes no turn, and again after the loop. -/
def idleLoop : Text := "func Main() \x7b while (1 > 2) \x7b int x \x7d int x \x7d"

/-- A variable of a loop that makes no turn is not declared after it, and the check says that it is. -/
theorem check_raises_alarm :
    ∃ p d n, parse "a" idleLoop = .ok p ∧ (p.run .default {} 10).failure = none ∧
      d ∈ p.check ∧ d.message = "variable x already declared" ∧ n ∈ p.mustRun ∧ d.LiesIn n.span := by
  have hrun : (parse "a" idleLoop).toOption.map
      (fun p => ((p.run .default {} 10).failure, p.check,
        p.mustRun.any fun n => n.span = ⟨"a", ⟨1, 39⟩, ⟨1, 44⟩⟩)) =
      some (none, [⟨.scope, "variable x already declared", some ⟨"a", ⟨1, 39⟩, ⟨1, 44⟩⟩, []⟩], true) := by
    decide +kernel
  cases hparse : parse "a" idleLoop with
  | error e => rw [hparse] at hrun; cases hrun
  | ok p =>
    rw [hparse] at hrun
    obtain ⟨hsuccess, hrest⟩ := Prod.mk.inj (Option.some.inj hrun)
    obtain ⟨hcheck, hmem⟩ := Prod.mk.inj hrest
    obtain ⟨n, hn, hspan⟩ := List.any_eq_true.1 hmem
    refine ⟨p, _, n, rfl, hsuccess, hcheck ▸ List.mem_singleton.2 rfl, rfl, hn, _, rfl, ?_⟩
    rw [of_decide_eq_true hspan]
    exact ⟨Std.le_refl _, Std.le_refl _⟩

end ScriptKit
