import ScriptKit.Proofs.Check.Traced
import ScriptKit.Proofs.Grammar.Placed
import ScriptKit.Proofs.Run.Wording

/-!
# The check predicts failures because of a name

A name that is used without being visible and a name that is declared twice are failures of a run. The check
looks for them in the globals and in `Main`, and any other function may be called from anywhere, so that what
is visible in it is not known.

**Theorem (`check_predicts_scope`).** Let no variable of `Main` be declared directly in the body of a `while`
loop. If a run with the default builtins fails because of a name, in a global declaration or in `Main`
itself, then the check reports it with the same code, the same message and the same span.

That the check keeps up with the names of a run is `Program.traced_start`. What is left to show is that a
failure in a function that was called cannot be taken for one in `Main`: calls go to functions that end before
`Main` does, and whatever stands in such a function stands nowhere else (`Placed.not_called_main`).
-/

namespace ScriptKit

open Run Check

namespace Program

variable {p : Program} {ended : List (Function × Nat)} {f : Function} {m n : Node}

/-! ## Code that can be called -/

/-- Inside a function that ends before the one the program starts with. -/
def Called (p : Program) (span : Span) : Prop :=
  ∃ g : Function, g.node ∈ p.node.preorder ∧ (∀ f, p.entry? = some f → g.span.stop < f.span.stop) ∧
    g.span.start < span.start ∧ span.stop ≤ g.span.stop

/-- Code that stands inside such functions. -/
def CalledCode (p : Program) (n : Node) : Prop := ∀ m ∈ n.preorder, m ∈ p.node.preorder ∧ p.Called m.span

theorem getLast?_children (hentry : p.entry? = some f) : p.node.children.getLast? = some f.node := by
  have hlast : (p.functions.map Function.node).getLast? = some f.node := by
    rw [List.getLast?_map]
    exact congrArg (Option.map Function.node) hentry
  show (p.globals ++ p.functions.map Function.node).getLast? = some f.node
  rw [List.getLast?_append, hlast]
  rfl

theorem Placed.stop_le (hp : p.Placed ended) (hentry : p.entry? = some f) {c : Node}
    (hc : c ∈ p.node.children) (hm : m ∈ c.preorder) : m.span.stop ≤ f.span.stop := by
  obtain ⟨stop, hrow⟩ := hp.row
  have hlast := hrow.last (getLast?_children hentry) hc
  have hin := (hp.laid c hc).inside hm
  have hspan : f.node.span = f.span := rfl
  grind

theorem Placed.called (hp : p.Placed ended) {span : Span} {name : Text} {k : Nat} {args : List Node}
    (hcall : .call span name (.function k) args ∈ p.node.preorder) (hf : p.function? k = some f) {c : Node}
    (hc : c ∈ f.node.children) : p.CalledCode c := by
  intro m hm
  obtain ⟨g, hg, -, hend, -⟩ := hp.target hcall
  obtain rfl : f = g := Option.some.inj (hf.symm.trans hg)
  have hfunction := mem_preorder_of_function? hf
  have hin := (hp.laid_function hfunction).inside_function hc hm
  refine ⟨Node.mem_preorder_trans (Node.mem_preorder_of_child hc hm) hfunction, f, hfunction, ?_, hin⟩
  intro main hentry
  rcases Node.mem_preorder.1 hcall with hcall | ⟨c', hc', hcall⟩
  · cases hcall
  · have hbefore := hp.stop_le hentry hc' hcall
    have hnonempty := (hp.laid c' hc').inside hcall
    have hspan : (Node.call span name (.function k) args).span = span := rfl
    grind

theorem Placed.callsInto (hp : p.Placed ended) :
    CallsInto p.allFunctions p.Called p.CalledCode p.node := by
  intro span name k args f hcall hf
  constructor
  · intro q hq
    have hnode : q.node ∈ f.node.children := List.mem_append_left _ (List.mem_map_of_mem hq)
    exact (hp.called hcall hf hnode q.node (Node.mem_preorder_self _)).2
  · intro s hs m hm
    exact hp.called hcall hf (Node.block_mem_children f) m (Node.mem_preorder_of_child hs hm)

theorem Placed.region (hp : p.Placed ended) : Region p.allFunctions p.Called p.CalledCode where
  child _ _ hn hc m hm := hn m (Node.mem_preorder_of_child hc hm)
  spot n hn := (hn n (Node.mem_preorder_self n)).2
  calls _ hn span name k args f hcall := hp.callsInto span name k args f (hn _ hcall).1

/-- A function around something stands in the same global or function of the program. -/
theorem Placed.around (hp : p.Placed ended) {g : Function} {c : Node} (hc : c ∈ p.node.children)
    (hm : m ∈ c.preorder) (hg : g.node ∈ p.node.preorder) (hstart : g.span.start < m.span.start)
    (hstop : m.span.stop ≤ g.span.stop) : g.node ∈ c.preorder := by
  rcases Node.mem_preorder.1 hg with hg | ⟨c', hc', hg⟩
  · cases hg
  · obtain ⟨stop, hrow⟩ := hp.row
    obtain rfl := Node.Row.owner hrow hp.laid hc hc' hm hg (Std.le_of_lt hstart) hstop
    exact hg

theorem Placed.not_called_global (hp : p.Placed ended)
    (hformed : p.IsFormed (fun _ => True) (Named p.allFunctions)) (hn : n ∈ p.globals) (hm : m ∈ n.preorder) : ¬p.Called m.span := by
  rintro ⟨g, hg, -, hstart, hstop⟩
  have hin := hp.around (List.mem_append_left _ hn) hm hg hstart hstop
  obtain ⟨hstmt, hdecl⟩ := hformed.globals n hn
  have hnone := hstmt.functions (by simp [hdecl])
  simpa [hnone] using Node.mem_functions.2 hin

/-- What is in `Main` itself is in no function that ends before `Main`. -/
theorem Placed.not_called_main (hp : p.Placed ended) (hm : m ∈ p.mainNodes) : ¬p.Called m.span := by
  rintro ⟨g, hg, hbefore, hstart, hstop⟩
  cases hentry : p.entry? with
  | none => simp [mainNodes, hentry] at hm
  | some f =>
    obtain ⟨s, hs, hm⟩ := (mem_mainNodes hentry).1 hm
    have hbefore := hbefore f hentry
    have hmain := mem_children_of_entry hentry
    have hblock := Node.block_mem_children f
    obtain ⟨hbox, hlaid⟩ := Node.laid_iff.1 (hp.laid _ hmain)
    have hown : m ∈ (Node.block f.braces f.body).own := Node.mem_own_of_child rfl hs hm
    have hin := Node.mem_preorder_of_own hown
    rcases Node.mem_preorder.1 (hp.around hmain (Node.mem_preorder_of_child hblock hin) hg hstart hstop) with
      hself | ⟨c, hc, hg⟩
    · have hspan : g.span = f.span := congrArg Node.span hself
      rw [hspan] at hbefore
      grind
    · obtain rfl := Node.Row.owner hbox.row hlaid hblock hc hin hg (Std.le_of_lt hstart) hstop
      have hnonempty := (hlaid _ hblock).inside hin
      rcases (hlaid _ hblock).apart hown hg with hafter | hfirst | haround
      all_goals grind

end Program

/-! ## Prediction -/

/-- The check reports every failure because of a name in the globals and in `Main` itself. -/
theorem check_predicts_scope {file source : Text} {builtins : Option (List Text)} {p : Program}
    {registry : Registry} {world : World} {budget : Nat} {f : Failure} {m : Node}
    (hparse : parse file source builtins = .ok p)
    (hregistry : ∀ b ∈ registry.builtins, b ∈ Registry.default.builtins)
    (htidy : ∀ m ∈ p.mainNodes, m.isTidy = true)
    (hfailure : (p.run registry world budget).failure = some f) (hscope : f.fault.code = .scope)
    (hm : m ∈ p.mainNodes ∨ ∃ g ∈ p.globals, m ∈ g.preorder) (hspan : f.span = m.span) :
    f.diagnostic ∈ p.check ∧ ∃ name : Text, f.fault.message = "variable " ++ name ++ " not found" ∨
      f.fault.message = "variable " ++ name ++ " already declared" := by
  have hformed := named_of_parse hparse
  obtain ⟨ended, hp⟩ := placed_of_parse hparse
  have hbuiltins : Env.FailsAt ⟨registry, p.allFunctions⟩ p.Called := by
    intro name b args w fault hb hfault place hcode
    have hdefault := code_refusal (Registry.refusal_default (hregistry b (List.mem_of_find?_eq_some hb)) hfault) name
    rw [show (Fault.builtin name fault).code = .scope from hcode] at hdefault
    simp at hdefault
  have hstart := Program.traced_start world budget hformed hbuiltins hp.region hp.callsInto htidy
  have hreported : f.diagnostic ∈ p.check := by
    rcases failure_of_triple hstart hfailure hscope with hreported | hcalled
    · exact hreported
    · rw [hspan] at hcalled
      rcases hm with hm | ⟨g, hg, hm⟩
      · exact absurd hcalled (hp.not_called_main hm)
      · exact absurd hcalled (hp.not_called_global hformed hg hm)
  obtain ⟨n, hn⟩ := Program.about_of_scope hreported hscope
  exact ⟨hreported, hn.message hscope⟩

/-- A program in which a function and a branch declare the same name, each for itself. -/
def twoBlocks : Text :=
  "func F() \x7b int y \x7d func Main() \x7b int i while (i < 2) \x7b if (i < 1) \x7b int y \x7d F() i = i + 1 \x7d y = 2 \x7d"

/-- A name of a branch and of a function that is gone when it is assigned to after the loop. -/
theorem check_predicts_scope_after_loop :
    ∃ p f, parse "a" twoBlocks = .ok p ∧
      (∀ m ∈ p.mainNodes, m.isTidy = true) ∧ (p.run .default {} 30).failure = some f ∧
      f.fault = .scope ⟨.assign, "y", .notFound⟩ ∧ (∃ m ∈ p.mainNodes, f.span = m.span) ∧
      f.diagnostic ∈ p.check := by
  have hrun : (parse "a" twoBlocks).toOption.map (fun p =>
      ((p.run .default {} 30).failure, p.mainNodes.all Node.isTidy,
        p.mainNodes.any fun m => m.span = ⟨"a", ⟨1, 93⟩, ⟨1, 98⟩⟩)) =
      some (some ⟨.scope ⟨.assign, "y", .notFound⟩, ⟨"a", ⟨1, 93⟩, ⟨1, 98⟩⟩⟩, true, true) := by decide +kernel
  cases hparse : parse "a" twoBlocks with
  | error e => rw [hparse] at hrun; cases hrun
  | ok p =>
    rw [hparse] at hrun
    obtain ⟨hfailure, hrest⟩ := Prod.mk.inj (Option.some.inj hrun)
    obtain ⟨htidy, hmem⟩ := Prod.mk.inj hrest
    obtain ⟨m, hm, hspan⟩ := List.any_eq_true.1 hmem
    have htidy := List.all_eq_true.1 htidy
    have hspan := (of_decide_eq_true hspan).symm
    refine ⟨p, _, rfl, htidy, hfailure, rfl, ⟨m, hm, hspan⟩, ?_⟩
    exact (check_predicts_scope hparse (fun _ hb => hb) htidy hfailure rfl (Or.inl hm) hspan).1

end ScriptKit
