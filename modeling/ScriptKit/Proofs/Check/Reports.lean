import ScriptKit.Proofs.Check.Static

/-!
# What the check reports

The check goes through a program and reports failures that a run would meet. Apart from what it says about the
program as a whole, each of its reports is about some node: it has the span of the node, and it is of one of
five kinds (`Foreseeable`). `About n d` says that `d` is such a report about a node of the tree `n`.

**Theorem (`about_stmt`).** What is reported when a statement is checked, whatever is known and whichever names
are visible, is about the statement.
-/

namespace ScriptKit

open Run

namespace Check

/-- The failures that the check looks for in expressions and statements. -/
inductive Foreseeable : Fault → Prop
  | notFound {name : Text} : Foreseeable (.scope ⟨.resolve, name, .notFound⟩)
  | redeclared {name : Text} : Foreseeable (.scope ⟨.declare, name, .redeclared⟩)
  | condition {statement kind : Text} : Foreseeable (.condition statement kind)
  | unaryOperand {symbol kind : Text} : Foreseeable (.unaryOperand symbol kind)
  | arity {function : Text} {expected got : Nat} : Foreseeable (.arity function expected got)

/-- A report about a node of a tree. -/
def About (n : Node) (d : Diagnostic) : Prop :=
  ∃ fault, Foreseeable fault ∧ ∃ m ∈ n.preorder, d = report fault m.span

variable {known : Known} {names : Names} {n c : Node} {d : Diagnostic} {name : Text}

theorem Foreseeable.about {fault : Fault} (h : Foreseeable fault) : About n (report fault n.span) :=
  ⟨fault, h, n, Node.mem_preorder_self n, rfl⟩

theorem About.of_child (h : About c d) (hc : c ∈ n.children) : About n d := by
  obtain ⟨fault, hfault, m, hm, rfl⟩ := h
  exact ⟨fault, hfault, m, Node.mem_preorder_of_child hc hm, rfl⟩

/-- A report about a node is not about the program as a whole. -/
theorem About.code_ne (h : About n d) : d.code ≠ .programStructure := by
  obtain ⟨fault, hfault, m, -, rfl⟩ := h
  cases hfault <;> simp [report, Failure.diagnostic, Fault.code]

/-- The wording of a report about a name. -/
theorem About.message (h : About n d) (hcode : d.code = .scope) :
    ∃ name : Text, d.message = "variable " ++ name ++ " not found" ∨
      d.message = "variable " ++ name ++ " already declared" := by
  obtain ⟨fault, hfault, m, -, rfl⟩ := h
  cases hfault with
  | @notFound name => exact ⟨name, Or.inl (List.append_assoc ..)⟩
  | @redeclared name => exact ⟨name, Or.inr (List.append_assoc ..)⟩
  | _ => cases hcode

/-! ## Expressions -/

theorem about_use (h : d ∈ use known names name n.span) : About n d := by
  unfold use at h
  split at h
  · rw [List.mem_singleton.1 h]
    exact Foreseeable.notFound.about
  · cases h

theorem about_declare (h : d ∈ (declare names name n.span).1) : About n d := by
  unfold declare at h
  split at h
  · rw [List.mem_singleton.1 h]
    exact Foreseeable.redeclared.about
  · cases h

theorem about_expr (h : d ∈ expr known names n) : About n d := by
  induction n using Node.induction_children with
  | step n ih =>
    cases n with
    | str span t =>
      simp only [expr] at h
      obtain ⟨name, -, h⟩ := List.mem_flatMap.1 h
      exact about_use h
    | use =>
      simp only [expr] at h
      exact about_use h
    | arith _ left _ right =>
      simp only [expr, List.mem_append] at h
      rcases h with h | h
      · exact (ih left (by simp [Node.children]) h).of_child (by simp [Node.children])
      · exact (ih right (by simp [Node.children]) h).of_child (by simp [Node.children])
    | compare _ left _ right =>
      simp only [expr, List.mem_append] at h
      rcases h with h | h
      · exact (ih left (by simp [Node.children]) h).of_child (by simp [Node.children])
      · exact (ih right (by simp [Node.children]) h).of_child (by simp [Node.children])
    | sign span op operand =>
      simp only [expr, Check.operand] at h
      split at h
      · cases h
      · rw [List.mem_singleton.1 h]
        exact Foreseeable.unaryOperand.about
    | call span name callee args =>
      simp only [expr, exprs_eq, List.mem_append] at h
      rcases h with h | h
      · obtain ⟨a, ha, h⟩ := List.mem_flatMap.1 h
        exact (ih a ha h).of_child ha
      · unfold arity at h
        split at h
        · cases h
        · split at h
          · cases h
          · rw [List.mem_singleton.1 h]
            exact Foreseeable.arity.about
    | _ => simp [expr] at h

theorem about_condition {statement : Text} (h : d ∈ condition known names statement n) : About n d := by
  unfold condition at h
  rcases List.mem_append.1 h with h | h
  · split at h
    · cases h
    · rw [List.mem_singleton.1 h]
      exact Foreseeable.condition.about
  · exact about_expr h

/-! ## Statements -/

theorem about_declareParams {params : List Param} (h : d ∈ (declareParams names params).1) :
    ∃ p ∈ params, About p.node d := by
  induction params generalizing names with
  | nil => cases h
  | cons p params ih =>
    simp only [declareParams, List.mem_append] at h
    rcases h with h | h
    · exact ⟨p, List.mem_cons_self .., about_declare (n := p.node) h⟩
    · obtain ⟨q, hq, hd⟩ := ih h
      exact ⟨q, List.mem_cons_of_mem _ hq, hd⟩

theorem mem_stmts {ns : List Node} (h : d ∈ (stmts known names ns).1) :
    ∃ n ∈ ns, ∃ names', d ∈ (stmt known names' n).1 := by
  induction ns generalizing names with
  | nil => simp [stmts] at h
  | cons n ns ih =>
    simp only [stmts, List.mem_append] at h
    rcases h with h | h
    · exact ⟨n, List.mem_cons_self .., names, h⟩
    · obtain ⟨m, hm, hd⟩ := ih h
      exact ⟨m, List.mem_cons_of_mem _ hm, hd⟩

/-- What is reported about a statement, and about the statements of a block, is about a node of it. -/
theorem about_stmt (n : Node) :
    (∀ known names d, d ∈ (stmt known names n).1 → About n d) ∧
      ∀ known names d, d ∈ (stmts known names n.children).1 → About n d := by
  -- The second part is for a block, whose statements are checked without the block itself.
  induction n using Node.induction_children with
  | step n ih =>
    have hchildren : ∀ known names d, d ∈ (stmts known names n.children).1 → About n d := by
      intro known names d h
      obtain ⟨c, hc, names', h⟩ := mem_stmts h
      exact ((ih c hc).1 known names' d h).of_child hc
    refine ⟨?_, hchildren⟩
    intro known names d h
    have hblock : ∀ braces body, .block braces body ∈ n.children → ∀ known names,
        d ∈ (stmts known names body).1 → About n d := fun braces body hb known names h =>
      ((ih _ hb).2 known names d h).of_child hb
    cases n with
    | declare =>
      simp only [stmt] at h
      exact about_declare h
    | declareAs span name type value =>
      simp only [stmt, List.mem_append] at h
      rcases h with h | h
      · exact (about_expr h).of_child (by simp [Node.children])
      · exact about_declare h
    | assign span name value =>
      simp only [stmt, List.mem_append] at h
      rcases h with h | h
      · exact (about_expr h).of_child (by simp [Node.children])
      · exact about_use h
    | block braces body =>
      simp only [stmt] at h
      exact hchildren known _ d h
    | when span cond braces yes =>
      simp only [stmt, List.mem_append] at h
      rcases h with h | h
      · exact (about_condition h).of_child (by simp [Node.children])
      · exact hblock braces yes (by simp [Node.children]) _ _ h
    | choose span cond braces yes braces' no =>
      simp only [stmt, List.mem_append] at h
      rcases h with (h | h) | h
      · exact (about_condition h).of_child (by simp [Node.children])
      · exact hblock braces yes (by simp [Node.children]) _ _ h
      · exact hblock braces' no (by simp [Node.children]) _ _ h
    | whileLoop span cond braces body =>
      simp only [stmt, List.mem_append] at h
      rcases h with h | h
      · exact (about_condition h).of_child (by simp [Node.children])
      · exact hblock braces body (by simp [Node.children]) _ _ h
    | forLoop span init cond step braces body =>
      simp only [stmt, List.mem_append] at h
      rcases h with ((h | h) | h) | h
      · exact ((ih init (by simp [Node.children])).1 _ _ d h).of_child (by simp [Node.children])
      · exact (about_condition h).of_child (by simp [Node.children])
      · exact hblock braces body (by simp [Node.children]) _ _ h
      · exact ((ih step (by simp [Node.children])).1 _ _ d h).of_child (by simp [Node.children])
    | function span name params braces body =>
      simp only [stmt, List.mem_append] at h
      rcases h with h | h
      · obtain ⟨p, hp, hd⟩ := about_declareParams h
        exact hd.of_child (List.mem_append_left _ (List.mem_map_of_mem hp))
      · exact hblock braces body (by simp [Node.children]) _ _ h
    | skip => simp [stmt] at h
    | _ =>
      simp only [stmt] at h
      exact about_expr h

/-! ## Programs -/

theorem about_function {f : Function} (h : d ∈ function known names f) : About f.node d := by
  simp only [function, List.mem_append] at h
  rcases h with h | h
  · obtain ⟨p, hp, hd⟩ := about_declareParams h
    exact hd.of_child (List.mem_append_left _ (List.mem_map_of_mem hp))
  · exact ((about_stmt (.block f.braces f.body)).2 _ _ d h).of_child (Node.block_mem_children f)

/-- Only the last function can be checked strictly. -/
theorem mem_functions {fs : List Function} (h : d ∈ functions known names fs) :
    (∃ f ∈ fs.dropLast, About f.node d) ∨
      ∃ f, fs.getLast? = some f ∧ d ∈ function { known with strict := f.name == "Main" } names f := by
  induction fs with
  | nil => simp [functions] at h
  | cons f rest ih =>
    cases rest with
    | nil => exact Or.inr ⟨f, rfl, h⟩
    | cons g rest =>
      simp only [functions, List.mem_append] at h
      rcases h with h | h
      · exact Or.inl ⟨f, by simp, about_function h⟩
      · rcases ih h with ⟨f', hf', hd⟩ | ⟨f', hlast, hd⟩
        · exact Or.inl ⟨f', List.mem_cons_of_mem _ hf', hd⟩
        · exact Or.inr ⟨f', by simpa using hlast, hd⟩

end Check

namespace Program

open Check

/-- What the check knows in the globals and in `Main`. -/
def known (p : Program) : Known := ⟨p.allFunctions, true⟩

/-- The names of the globals, as the check has them at the beginning of each function. -/
def visible (p : Program) : Names := (stmts p.known [[]] p.globals).2

/-- The places where a report about a program can come from. -/
theorem mem_check {p : Program} {d : Diagnostic} : d ∈ p.check ↔
    ((d ∈ entryPoint p ∨ d ∈ (stmts p.known [[]] p.globals).1) ∨
      d ∈ Check.functions p.known p.visible p.functions) ∨ d ∈ entryArity p := by
  simp only [Program.check, List.mem_append]
  rfl

/-- A report about a name is a report about a node. -/
theorem about_of_scope {p : Program} {d : Diagnostic} (h : d ∈ p.check) (hcode : d.code = .scope) :
    ∃ n, About n d := by
  rcases mem_check.1 h with ((h | h) | h) | h
  · exfalso
    unfold entryPoint at h
    split at h
    · rw [List.mem_singleton.1 h] at hcode
      cases hcode
    · split at h
      · cases h
      · split at h
        · cases h
        · rw [List.mem_singleton.1 h] at hcode
          cases hcode
  · obtain ⟨g, -, names, h⟩ := mem_stmts h
    exact ⟨g, (about_stmt g).1 _ _ d h⟩
  · rcases Check.mem_functions h with ⟨f, -, hd⟩ | ⟨f, -, hd⟩
    · exact ⟨f.node, hd⟩
    · exact ⟨f.node, about_function hd⟩
  · exfalso
    unfold entryArity at h
    split at h
    · cases h
    · split at h
      · rw [List.mem_singleton.1 h] at hcode
        cases hcode
      · cases h

end Program

end ScriptKit
