import ScriptKit.Proofs.Tree.Formed

/-!
# Functions of one name

A function is refused if its name is in the table that resolves calls, and it is entered there when its
closing brace has been taken. So what is refused is a name that was entered: while a function is open it is
not in the table, and a function may be declared inside another one of the same name. Nothing else is
possible.

`Enters table table' fs` says what reading the functions `fs` does to the table: their names are new to
`table` and are entered in `table'`, and of two functions of one name the later one is nested in the earlier.
The table passes from one phrase to the next (`Enters.append`), and around the body of a function it grows by
that function (`Enters.function`).

**Theorem (`same_name_nested`).** In a parsed program, two functions have the same name only if one is declared
inside the other, and so the names are distinct if and only if no function has the name of one around it.
-/

namespace ScriptKit

namespace Node

theorem preorder_sublist {m n : Node} (h : m ∈ n.preorder) : m.preorder.Sublist n.preorder := by
  induction n using induction_children with
  | step n ih =>
    rcases mem_preorder.1 h with rfl | ⟨c, hc, hm⟩
    · exact List.Sublist.refl _
    · rw [preorder_eq n]
      have hchild : c.preorder.Sublist (n.children.flatMap preorder) := by
        rw [List.flatMap_def]
        exact List.sublist_flatten_of_mem (List.mem_map_of_mem hc)
      exact ((ih c hc hm).trans hchild).trans (List.sublist_cons_self _ _)

theorem functions_sublist {f : Function} {n : Node} (h : f ∈ n.functions) :
    (f :: f.body.flatMap functions).Sublist n.functions := by
  rw [← functions_function]
  exact (preorder_sublist (mem_functions.1 h)).filterMap _

end Node

namespace Parse

/-! ## Entering functions -/

/-- The names in a table of functions. -/
def names (table : List (Text × Nat)) : List Text := table.map Prod.fst

theorem lookup_eq_none {table : List (Text × Nat)} {name : Text} :
    table.lookup name = none ↔ name ∉ names table := by
  simp only [names, List.lookup_eq_none_iff, List.mem_map, not_exists, not_and, bne_iff_ne, ne_eq]
  exact forall₂_congr fun entry _ => not_congr eq_comm

/-- Reading the functions `fs` makes `table'` of `table`. -/
structure Enters (table table' : List (Text × Nat)) (fs : List Function) : Prop where
  entered : ∀ name, name ∈ names table' ↔ name ∈ names table ∨ name ∈ fs.map Function.name
  fresh : ∀ f ∈ fs, f.name ∉ names table
  nested : fs.Pairwise fun f g => f.name = g.name → g ∈ f.body.flatMap Node.functions

section Enters

variable {table table₁ table' : List (Text × Nat)} {f : Function} {fs gs : List Function}

theorem Enters.refl (table : List (Text × Nat)) : Enters table table [] where
  entered := by simp
  fresh := by simp
  nested := .nil

/-- One part of a source after another. What the first one enters is no longer fresh to the second. -/
theorem Enters.append (h : Enters table table₁ fs) (h' : Enters table₁ table' gs) :
    Enters table table' (fs ++ gs) where
  entered name := by rw [h'.entered, h.entered, List.map_append, List.mem_append, or_assoc]
  fresh := by
    refine List.forall_mem_append.2 ⟨h.fresh, fun g hg hold => ?_⟩
    exact h'.fresh g hg ((h.entered g.name).2 (Or.inl hold))
  nested := by
    refine List.pairwise_append.2 ⟨h.nested, h'.nested, fun f hf g hg hname => ?_⟩
    have hentered : f.name ∈ names table₁ := (h.entered f.name).2 (Or.inr (List.mem_map_of_mem hf))
    exact absurd (hname ▸ hentered) (h'.fresh g hg)

/-- A function around its body. Its own name is not looked at before the body has been read. -/
theorem Enters.function (hnew : f.name ∉ names table)
    (hbody : Enters table table' (f.body.flatMap Node.functions)) (number : Nat) :
    Enters table ((f.name, number) :: table') f.node.functions where
  entered name := by
    have hname : name ∈ names ((f.name, number) :: table') ↔ name = f.name ∨ name ∈ names table' :=
      List.mem_cons
    rw [hname, hbody.entered, functions_function, List.map_cons, List.mem_cons]
    exact or_left_comm
  fresh := by
    rw [functions_function]
    exact List.forall_mem_cons.2 ⟨hnew, hbody.fresh⟩
  nested := by
    rw [functions_function]
    exact List.pairwise_cons.2 ⟨fun g hg _ => hg, hbody.nested⟩

/-- The names are distinct if and only if no function has the name of one around it. -/
theorem Enters.nodup_iff (h : Enters table table' fs)
    (hbelow : ∀ f ∈ fs, (f :: f.body.flatMap Node.functions).Sublist fs) :
    (fs.map Function.name).Nodup ↔ ∀ f ∈ fs, ∀ g ∈ f.body.flatMap Node.functions, g.name ≠ f.name := by
  constructor
  · intro hnodup f hf g hg hname
    have hsub := ((hbelow f hf).map Function.name).nodup hnodup
    rw [List.map_cons, List.nodup_cons] at hsub
    exact hsub.1 (hname ▸ List.mem_map_of_mem hg)
  · intro hdistinct
    rw [List.Nodup, List.pairwise_map]
    refine h.nested.imp_of_mem fun {f g} hf _ hnested hname => ?_
    exact hdistinct f hf g (hnested hname) hname.symm

end Enters

/-! ## What is read -/

theorem Reads.formed {known : Option (List Text)} {source : Text} {φ : Phrase} {s s' : State}
    (h : Reads known φ s s') (hs : s.IsSpelled source) : φ.Formed (fun _ => True) fun _ _ => True :=
  (h.established (I := fun _ => True) (fun _ _ _ => trivial) (fun _ _ _ => trivial) hs trivial
    fun _ _ _ _ _ => trivial).formed

theorem Reads.enters {known : Option (List Text)} {source : Text} {φ : Phrase} {s s' : State}
    (h : Reads known φ s s') (hs : s.IsSpelled source) : Enters s.functions s'.functions φ.declared := by
  -- A flat phrase holds no statements and enters nothing, which leaves the others to the induction.
  cases hφ : φ.isFlat with
  | true =>
    have hnone : φ.declared = [] := by cases φ <;> first | rfl | cases hφ
    rw [hnone, h.functions_flat hφ]
    exact .refl _
  | false =>
    induction h with
    | block hl _ hr ih =>
      rw [hr.functions, ← hl.functions]
      exact ih (hl.isSpelled hs) rfl
    | @function place t name l r ps braces body s s₁ s₂ s₃ s₄ s₅ s' ht hname hnone hl hps hr hbody _ ih =>
      have hs₃ := hl.isSpelled (hname.isSpelled (ht.isSpelled hs))
      have hsame : s₅.functions = s.functions := by
        rw [hr.functions, hps.functions_flat rfl, hl.functions, State.functions_begin, hname.functions,
          ht.functions]
      have hbody := ih (hr.isSpelled (hps.isSpelled hs₃)) rfl
      rw [hsame] at hbody
      -- the name is looked up before the body is read, and entered behind what the body has entered
      exact Enters.function (f := ⟨t.span.upTo s'.prev, name.value, ps, braces, body⟩) (lookup_eq_none.1 hnone)
        hbody s.begun
    | stmtFunction _ ih => exact ih hs rfl
    | stmtDeclaration hn =>
      obtain ⟨hstmt, hdecl⟩ := hn.formed hs
      show Enters _ _ (Node.functions _)
      rw [hn.functions_flat rfl, hstmt.functions (by simp [hdecl])]
      exact .refl _
    | stmtAssignment hn =>
      obtain ⟨hstmt, hassign⟩ := hn.formed hs
      show Enters _ _ (Node.functions _)
      rw [hn.functions_flat rfl, hstmt.functions (by simp [hassign])]
      exact .refl _
    | stmtCall hn =>
      show Enters _ _ (Node.functions _)
      rw [hn.functions_flat rfl, (hn.formed hs).1.functions]
      exact .refl _
    | when ht hcond _ _ _ ih =>
      have hs₁ := ht.isSpelled hs
      show Enters _ _ (Node.functions _)
      rw [functions_when (hcond.formed hs₁).functions, ← ht.functions, ← hcond.functions_flat rfl]
      exact ih (hcond.isSpelled hs₁) rfl
    | choose ht hcond hyes he _ _ ih ih' =>
      have hs₁ := ht.isSpelled hs
      have hs₂ := hcond.isSpelled hs₁
      have hno := ih' (he.isSpelled (hyes.isSpelled hs₂)) rfl
      rw [he.functions] at hno
      show Enters _ _ (Node.functions _)
      rw [functions_choose (hcond.formed hs₁).functions, ← ht.functions, ← hcond.functions_flat rfl]
      exact (ih hs₂ rfl).append hno
    | whileLoop ht hcond _ _ ih =>
      have hs₁ := ht.isSpelled hs
      show Enters _ _ (Node.functions _)
      rw [functions_whileLoop (hcond.formed hs₁).functions, ← ht.functions, ← hcond.functions_flat rfl]
      exact ih (hcond.isSpelled hs₁) rfl
    | forLoop ht hl hinit hc hcond _ hc' hstep hr _ _ _ _ ih =>
      have hs₂ := hl.isSpelled (ht.isSpelled hs)
      have hs₄ := hc.isSpelled (hinit.isSpelled hs₂)
      have hs₆ := hc'.isSpelled (hcond.isSpelled hs₄)
      obtain ⟨hinitStmt, hkind⟩ := hinit.formed hs₂
      obtain ⟨hstepStmt, hassign⟩ := hstep.formed hs₆
      show Enters _ _ (Node.functions _)
      rw [functions_forLoop (hinitStmt.functions hkind) (hcond.formed hs₄).functions
        (hstepStmt.functions (by simp [hassign]))]
      rw [← ht.functions, ← hl.functions, ← hinit.functions_flat rfl, ← hc.functions,
        ← hcond.functions_flat rfl, ← hc'.functions, ← hstep.functions_flat rfl, ← hr.functions]
      exact ih (hr.isSpelled (hstep.isSpelled hs₆)) rfl
    | skip ht =>
      show Enters _ _ (Node.functions _)
      rw [ht.functions, functions_skip]
      exact .refl _
    | stmtsNil | functionsNil => exact .refl _
    | stmtsCons _ _ hn _ ih ih' =>
      exact (ih hs rfl).append (ih' (hn.isSpelled hs) rfl)
    | functionsCons hf _ ih ih' =>
      exact (ih hs rfl).append (ih' (hf.isSpelled hs) rfl)
    | _ => cases hφ

end Parse

/-! ## Parsed programs -/

open Parse

theorem enters_of_parse {file source : Text} {builtins : Option (List Text)} {p : Program}
    (h : parse file source builtins = .ok p) : ∃ table, Enters [] table p.allFunctions := by
  obtain ⟨s₁, s₂, hglobals, hfunctions⟩ := reads_of_parse h
  have hs := Scanned.isSpelled_state file source
  have hshape : p.IsFormed (fun _ => True) fun _ _ => True :=
    ⟨hglobals.formed hs, hfunctions.formed (hglobals.isSpelled hs)⟩
  have henters := hfunctions.enters (hglobals.isSpelled hs)
  rw [hglobals.functions_flat rfl] at henters
  rw [Program.allFunctions_eq hshape]
  exact ⟨s₂.functions, henters⟩

/-- In a parsed program a function has the name of an earlier one only inside that one. -/
theorem same_name_nested {file source : Text} {builtins : Option (List Text)} {p : Program}
    (h : parse file source builtins = .ok p) :
    p.allFunctions.Pairwise (fun f g => f.name = g.name → g ∈ f.body.flatMap Node.functions) ∧
      ((p.allFunctions.map Function.name).Nodup ↔
        ∀ f ∈ p.allFunctions, ∀ g ∈ f.body.flatMap Node.functions, g.name ≠ f.name) := by
  obtain ⟨table, henters⟩ := enters_of_parse h
  exact ⟨henters.nested, henters.nodup_iff fun f hf => Node.functions_sublist hf⟩

/-- A function inside another one of its name. -/
def innerTwin : Text := "func A() \x7b func A() \x7b \x7d \x7d func Main() \x7b A() \x7d"

/-- A program with two functions of one name, one inside the other. -/
theorem same_name_nested_inner :
    ∃ p, parse "a" innerTwin (some ["WriteLine"]) = .ok p ∧
      p.allFunctions.map Function.name = (["A", "A", "Main"] : List Text) ∧
      p.allFunctions.Pairwise (fun f g => f.name = g.name → g ∈ f.body.flatMap Node.functions) ∧
      ((p.allFunctions.map Function.name).Nodup ↔
        ∀ f ∈ p.allFunctions, ∀ g ∈ f.body.flatMap Node.functions, g.name ≠ f.name) := by
  have hnames : (parse "a" innerTwin (some ["WriteLine"])).toOption.map
      (fun p => p.allFunctions.map Function.name) = some (["A", "A", "Main"] : List Text) := by decide +kernel
  cases hparse : parse "a" innerTwin (some ["WriteLine"]) with
  | error e => rw [hparse] at hnames; cases hnames
  | ok p =>
    rw [hparse] at hnames
    exact ⟨p, rfl, Option.some.inj hnames, same_name_nested hparse⟩

/-- The parser accepts a function inside another one of its name. -/
theorem parse_accepts_inner_twin :
    ∃ p, parse "a" innerTwin = .ok p ∧ ¬(p.allFunctions.map Function.name).Nodup := by
  have hnames : (parse "a" innerTwin).toOption.map (fun p => p.allFunctions.map Function.name) =
      some (["A", "A", "Main"] : List Text) := by decide +kernel
  cases hparse : parse "a" innerTwin with
  | error e => rw [hparse] at hnames; cases hnames
  | ok p =>
    rw [hparse] at hnames
    have hnames : p.allFunctions.map Function.name = (["A", "A", "Main"] : List Text) := Option.some.inj hnames
    refine ⟨p, rfl, ?_⟩
    rw [hnames]
    decide

end ScriptKit
