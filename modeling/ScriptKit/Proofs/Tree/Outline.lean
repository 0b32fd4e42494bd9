import ScriptKit.Proofs.Text.Quoted
import ScriptKit.Proofs.Tree.Core
import ScriptKit.Tree.Shape

/-!
# Outlines

The outline of a node is its structure without places: its kind, its label and the outlines of its
children. `Node.shape` writes it down. The outline does not say which function a call was resolved to, nor
whether a label is a number or a name, but on well-formed trees it fixes the canonical text.

**Theorem (`Node.shape_eq_write`).** The shape of a node is its outline, written down.

**Theorem (`IsStmt.formatStmt_eq`).** Statements with the same outline have the same canonical text.
-/

namespace ScriptKit

/-- The structure of a node: its kind, its label and the outlines of its children. -/
inductive Outline where
  | mk (kind label : Text) (children : List Outline)

namespace Outline

mutual

/-- An outline in parentheses. -/
def write : Outline → Text
  | ⟨kind, label, children⟩ => Node.shapeOf kind label (writeAll children)

/-- Several outlines, each after a space. -/
def writeAll : List Outline → Text
  | [] => []
  | o :: rest => " " ++ o.write ++ writeAll rest

end

end Outline

namespace Node

/-- The outline of a node. -/
def outline (n : Node) : Outline := ⟨n.kind, n.label, n.children.attach.map fun c => c.1.outline⟩
termination_by sizeOf n
decreasing_by exact sizeOf_lt_of_mem_children c.2

theorem outline_eq (n : Node) : n.outline = ⟨n.kind, n.label, n.children.map outline⟩ := by
  rw [outline, List.map_attach_eq_pmap, List.pmap_eq_map]

theorem outline_inj {n n' : Node} (h : n.outline = n'.outline) :
    n.kind = n'.kind ∧ n.label = n'.label ∧ n.children.map outline = n'.children.map outline := by
  rw [outline_eq, outline_eq n'] at h
  exact Outline.mk.inj h

/-! ## Shapes are written outlines -/

theorem paramShapes_eq (params : List Param) : paramShapes params = shapes (params.map Param.node) := by
  induction params with
  | nil => rfl
  | cons p params ih =>
    rw [paramShapes, List.flatMap_cons, List.map_cons, shapes, ← ih]
    rfl

theorem shapes_append (ns ms : List Node) : shapes (ns ++ ms) = shapes ns ++ shapes ms := by
  induction ns with
  | nil => rfl
  | cons n ns ih => simp [shapes, ih]

theorem shape_eq (n : Node) : n.shape = shapeOf n.kind n.label (shapes n.children) := by
  cases n <;> simp [shape, shapes, children, paramShapes_eq, shapes_append, kind, label]

/-- The shape of a node is its outline, written down. -/
theorem shape_eq_write (n : Node) : n.shape = n.outline.write := by
  induction n using induction_children with
  | step n ih =>
    have hall : ∀ ns : List Node, (∀ c ∈ ns, c.shape = c.outline.write) →
        shapes ns = Outline.writeAll (ns.map outline) := by
      intro ns hns
      induction ns with
      | nil => rfl
      | cons c ns ih' =>
        rw [shapes, List.map_cons, Outline.writeAll, hns c (List.mem_cons_self ..),
          ih' fun d hd => hns d (List.mem_cons_of_mem _ hd)]
    rw [shape_eq, outline_eq, Outline.write, hall n.children ih]

/-! ## Places do not matter -/

theorem label_bare (n : Node) : n.bare.label = n.label := by
  cases n with
  | call _ _ callee _ => cases callee <;> rfl
  | _ => rfl

/-- The outline does not depend on places. -/
theorem outline_bare (n : Node) : n.bare.outline = n.outline := by
  induction n using induction_children with
  | step n ih =>
    rw [outline_eq, outline_eq n, kind_bare, label_bare, children_bare, List.map_map]
    exact congrArg _ (List.map_congr_left ih)

end Node

/-! ## What labels say -/

theorem Text.ofString_inj {s t : String} : Text.ofString s = Text.ofString t ↔ s = t := by
  constructor
  · intro h
    exact String.toList_inj.1 ((List.map_inj_right fun _ _ => Glyph.char.inj).1 h)
  · rintro rfl
    rfl

section Labels

variable {S : Text → Prop} {C : Text → Callee → Prop} {n n' : Node}

theorem Node.isComparison_eq (n : Node) : n.isComparison = decide (n.kind = "Comparison") := by
  cases n <;> simp [isComparison, kind, Text.ofString_inj]

theorem Node.isOperation_eq (n : Node) :
    n.isOperation = decide (n.kind = "Binary" ∨ n.kind = "Comparison") := by
  cases n <;> simp [isOperation, kind, Text.ofString_inj]

theorem Node.isSkip_eq (n : Node) : n.isSkip = decide (n.kind = "NoOp") := by
  cases n <;> simp [isSkip, kind, Text.ofString_inj]

theorem IsExpr.isAdditive_eq (h : IsExpr S C n) :
    n.isAdditive = decide (n.kind = "Binary" ∧ (n.label = "+" ∨ n.label = "-")) := by
  cases h with
  | @arith span left right op hop =>
    cases op with
    | other symbol => exact absurd rfl (hop symbol)
    | _ => simp [Node.isAdditive, Arith.isAdditive, Node.kind, Node.label, Arith.symbol, Text.ofString_inj]
  | _ => simp [Node.isAdditive, Node.kind, Text.ofString_inj]

/-- A name holds no blank, so it is told from one that is marked as a builtin. -/
theorem IsName.ne_append {name name' : Text} (h : IsName name') (t : Text) :
    name ++ .char ' ' :: t ≠ name' := by
  rintro rfl
  have hblank := h.parts (.char ' ') (by simp)
  revert hblank
  decide

theorem label_call_inj {span span' : Span} {name name' : Text} {callee callee' : Callee}
    {args args' : List Node} (h : IsName name) (h' : IsName name')
    (heq : (Node.call span name callee args).label = (Node.call span' name' callee' args').label) :
    name = name' := by
  cases callee <;> cases callee'
  · exact List.append_cancel_right heq
  · exact absurd heq (h'.ne_append _)
  · exact absurd heq.symm (h.ne_append _)
  · exact heq

end Labels

/-! ## The canonical text is fixed by the outline -/

theorem map_eq_of_map_eq {α β γ : Type} {f : α → β} {g : α → γ} {l l' : List α}
    (h : ∀ a ∈ l, ∀ b ∈ l', f a = f b → g a = g b) (heq : l.map f = l'.map f) : l.map g = l'.map g := by
  induction l generalizing l' with
  | nil =>
    rw [List.map_nil, eq_comm, List.map_eq_nil_iff] at heq
    rw [heq]
  | cons a l ih =>
    cases l' with
    | nil => cases heq
    | cons b l' =>
      obtain ⟨hab, hrest⟩ := List.cons.inj heq
      rw [List.map_cons, List.map_cons, h a (List.mem_cons_self ..) b (List.mem_cons_self ..) hab,
        ih (fun a ha b hb => h a (List.mem_cons_of_mem _ ha) b (List.mem_cons_of_mem _ hb)) hrest]

section Canonical

variable {S : Text → Prop} {C : Text → Callee → Prop} {n n' : Node}

/-- Expressions with the same outline need parentheses in the same places. -/
theorem IsExpr.flags_eq (h : IsExpr S C n) (h' : IsExpr S C n') (heq : n.outline = n'.outline) :
    n.isAdditive = n'.isAdditive ∧ n.isComparison = n'.isComparison ∧ n.isOperation = n'.isOperation := by
  obtain ⟨hkind, hlabel, -⟩ := Node.outline_inj heq
  refine ⟨?_, ?_, ?_⟩
  · rw [h.isAdditive_eq, h'.isAdditive_eq, hkind, hlabel]
  · rw [Node.isComparison_eq, Node.isComparison_eq n', hkind]
  · rw [Node.isOperation_eq, Node.isOperation_eq n', hkind]

/-- Expressions with the same outline have the same canonical text. -/
theorem IsExpr.formatExpr_eq (hS : ∀ v, S v → v.Settled) (h : IsExpr S C n) (h' : IsExpr S C n')
    (heq : n.outline = n'.outline) : n.formatExpr = n'.formatExpr := by
  induction h generalizing n' with
  | number | bool | use =>
    obtain ⟨hkind, hlabel, -⟩ := Node.outline_inj heq
    cases h' <;> simp [Node.kind, Text.ofString_inj] at hkind
    exact hlabel
  | @str span v hv =>
    obtain ⟨hkind, hlabel, -⟩ := Node.outline_inj heq
    cases h' with
    | @str span' v' hv' =>
      have hvalue : v = v' := Text.quoted_injective (hS v hv).isRead (hS v' hv').isRead hlabel
      rw [Node.formatExpr, Node.formatExpr, hvalue]
    | _ => simp [Node.kind, Text.ofString_inj] at hkind
  | @call span name callee args hname _ hargs ih =>
    obtain ⟨hkind, hlabel, hchildren⟩ := Node.outline_inj heq
    cases h' with
    | call hname' _ hargs' =>
      have hformat := map_eq_of_map_eq (fun a ha b hb hab => ih a ha (hargs' b hb) hab) hchildren
      rw [Node.formatExpr, Node.formatExpr, label_call_inj hname hname' hlabel, Node.formatArgs_eq_map,
        Node.formatArgs_eq_map, hformat]
    | _ => simp [Node.kind, Text.ofString_inj] at hkind
  | @sign span op n hop hn ih =>
    obtain ⟨hkind, hlabel, hchildren⟩ := Node.outline_inj heq
    cases h' with
    | @sign span' op' m hop' hm =>
      have hoperand : n.outline = m.outline := by simpa [Node.children] using hchildren
      have hsymbol : op.symbol = op'.symbol := hlabel
      rw [Node.formatExpr, Node.formatExpr, hsymbol, ih hm hoperand, (hn.flags_eq hm hoperand).2.2]
    | _ => simp [Node.kind, Text.ofString_inj] at hkind
  | @arith span left right op hop hl hr ihl ihr =>
    obtain ⟨hkind, hlabel, hchildren⟩ := Node.outline_inj heq
    have hadditive := (IsExpr.arith hop hl hr).flags_eq h' heq
    cases h' with
    | @arith span' left' right' op' hop' hl' hr' =>
      obtain ⟨hleft, hright⟩ : left.outline = left'.outline ∧ right.outline = right'.outline := by
        simpa [Node.children] using hchildren
      have hsymbol : op.symbol = op'.symbol := hlabel
      have hop : op.isAdditive = op'.isAdditive := hadditive.1
      obtain ⟨hla, hlc, -⟩ := hl.flags_eq hl' hleft
      obtain ⟨hra, -, hro⟩ := hr.flags_eq hr' hright
      rw [Node.formatExpr, Node.formatExpr, hop, hsymbol, ihl hl' hleft, ihr hr' hright, hla, hlc, hra, hro]
    | _ => simp [Node.kind, Text.ofString_inj] at hkind
  | @compare span left right op hop hl hr ihl ihr =>
    obtain ⟨hkind, hlabel, hchildren⟩ := Node.outline_inj heq
    cases h' with
    | @compare span' left' right' op' hop' hl' hr' =>
      obtain ⟨hleft, hright⟩ : left.outline = left'.outline ∧ right.outline = right'.outline := by
        simpa [Node.children] using hchildren
      have hsymbol : op.symbol = op'.symbol := hlabel
      obtain ⟨hla, hlc, -⟩ := hl.flags_eq hl' hleft
      obtain ⟨-, -, hro⟩ := hr.flags_eq hr' hright
      rw [Node.formatExpr, Node.formatExpr, hsymbol, ihl hl' hleft, ihr hr' hright, hla, hlc, hro]
    | _ => simp [Node.kind, Text.ofString_inj] at hkind

/-- Bodies with the same outlines have the same lines. -/
theorem formatBody_eq {ns ns' : List Node} (level : Nat)
    (h : ∀ n ∈ ns, ∀ {n'}, IsStmt S C n' → n.outline = n'.outline → ∀ level,
      n.formatStmt level = n'.formatStmt level)
    (h' : ∀ n' ∈ ns', IsStmt S C n') (heq : ns.map Node.outline = ns'.map Node.outline) :
    Node.formatBody level ns = Node.formatBody level ns' := by
  induction ns generalizing ns' with
  | nil =>
    rw [List.map_nil, eq_comm, List.map_eq_nil_iff] at heq
    rw [heq]
  | cons n ns ih =>
    cases ns' with
    | nil => cases heq
    | cons n' ns' =>
      obtain ⟨hn, hrest⟩ := List.cons.inj heq
      have hskip : n.isSkip = n'.isSkip := by
        rw [Node.isSkip_eq, Node.isSkip_eq n', (Node.outline_inj hn).1]
      rw [Node.formatBody_cons, Node.formatBody_cons, hskip,
        h n (List.mem_cons_self ..) (h' n' (List.mem_cons_self ..)) hn level,
        ih (fun a ha => h a (List.mem_cons_of_mem _ ha)) (fun b hb => h' b (List.mem_cons_of_mem _ hb)) hrest]

/-- Blocks with the same outline have the same text between their braces. -/
theorem braced_eq {ns ns' : List Node} {braces braces' : Braces} (level : Nat)
    (h : ∀ n ∈ ns, ∀ {n'}, IsStmt S C n' → n.outline = n'.outline → ∀ level,
      n.formatStmt level = n'.formatStmt level)
    (h' : ∀ n' ∈ ns', IsStmt S C n')
    (heq : (Node.block braces ns).outline = (Node.block braces' ns').outline) :
    Node.braced level (Node.formatBody (level + 1) ns) =
      Node.braced level (Node.formatBody (level + 1) ns') :=
  congrArg _ (formatBody_eq (level + 1) h h' (Node.outline_inj heq).2.2)

/-- Parameters with the same outlines are written in the same way. -/
theorem header_eq {name : Text} {params params' : List Param}
    (h : (params.map Param.node).map Node.outline = (params'.map Param.node).map Node.outline) :
    Node.header name params = Node.header name params' := by
  rw [List.map_map, List.map_map] at h
  have hlabel : ∀ p ∈ params, ∀ q ∈ params', (Node.outline ∘ Param.node) p = (Node.outline ∘ Param.node) q →
      p.type.name ++ " " ++ p.name = q.type.name ++ " " ++ q.name :=
    fun p _ q _ hpq => (Node.outline_inj hpq).2.1
  rw [Node.header, Node.header, map_eq_of_map_eq hlabel h]

/-- Statements with the same outline have the same canonical text. -/
theorem IsStmt.formatStmt_eq (hS : ∀ v, S v → v.Settled) (h : IsStmt S C n) (h' : IsStmt S C n')
    (heq : n.outline = n'.outline) (level : Nat) : n.formatStmt level = n'.formatStmt level := by
  -- Equal outlines have one kind, one label and one list of children, and the printer reads nothing else.
  induction h generalizing n' level with
  | @declare span name type =>
    obtain ⟨hkind, hlabel, -⟩ := Node.outline_inj heq
    cases h' <;> simp [Node.kind, Text.ofString_inj] at hkind
    simpa [Node.formatStmt, Node.label] using hlabel
  | @declareAs span name type value hvar hvalue =>
    obtain ⟨hkind, hlabel, hchildren⟩ := Node.outline_inj heq
    cases h' with
    | @declareAs span' name' type' value' hvar' hvalue' =>
      have hformat : value.formatExpr = value'.formatExpr :=
        hvalue.formatExpr_eq hS hvalue' (by simpa [Node.children] using hchildren)
      -- type and name stand in one label, which is printed as it stands
      have hname : type.name ++ " " ++ name = type'.name ++ " " ++ name' := hlabel
      simp only [Node.formatStmt, hformat]
      rw [List.append_assoc (Node.indent level), List.append_assoc (Node.indent level), hname]
      simp
    | _ => simp [Node.kind, Text.ofString_inj] at hkind
  | @assign span name value hname hvalue =>
    obtain ⟨hkind, hlabel, hchildren⟩ := Node.outline_inj heq
    cases h' with
    | @assign span' name' value' hname' hvalue' =>
      have hformat : value.formatExpr = value'.formatExpr :=
        hvalue.formatExpr_eq hS hvalue' (by simpa [Node.children] using hchildren)
      have hsame : name = name' := hlabel
      rw [Node.formatStmt, Node.formatStmt, hsame, hformat]
    | _ => simp [Node.kind, Text.ofString_inj] at hkind
  | @call span name callee args hcall =>
    have hkind := (Node.outline_inj heq).1
    cases h' with
    | call hcall' => exact congrArg (Node.indent level ++ ·) (hcall.formatExpr_eq hS hcall' heq)
    | _ => simp [Node.kind, Text.ofString_inj] at hkind
  | @function span name params braces body hname hparams hbody ih =>
    obtain ⟨hkind, hlabel, hchildren⟩ := Node.outline_inj heq
    cases h' with
    | @function span' name' params' braces' body' hname' hparams' hbody' =>
      have hsame : name = name' := hlabel
      simp only [Node.children, List.map_append, List.map_cons, List.map_nil] at hchildren
      obtain ⟨hheader, hblock⟩ := List.append_inj' hchildren rfl
      rw [Node.formatStmt, Node.formatStmt, hsame, header_eq hheader,
        braced_eq level ih hbody' (List.cons.inj hblock).1]
    | _ => simp [Node.kind, Text.ofString_inj] at hkind
  | @when span cond braces yes hcond hyes ih =>
    obtain ⟨hkind, -, hchildren⟩ := Node.outline_inj heq
    cases h' with
    | @when span' cond' braces' yes' hcond' hyes' =>
      obtain ⟨hc, hblock⟩ : cond.outline = cond'.outline ∧
          (Node.block braces yes).outline = (Node.block braces' yes').outline := by
        simpa [Node.children] using hchildren
      rw [Node.formatStmt, Node.formatStmt, hcond.formatExpr_eq hS hcond' hc,
        braced_eq level ih hyes' hblock]
    | choose => simp [Node.children] at hchildren
    | _ => simp [Node.kind, Text.ofString_inj] at hkind
  | @choose span cond braces braces₂ yes no hcond hyes hno ihyes ihno =>
    obtain ⟨hkind, -, hchildren⟩ := Node.outline_inj heq
    cases h' with
    | @choose span' cond' braces' braces₂' yes' no' hcond' hyes' hno' =>
      obtain ⟨hc, hblock, hblock'⟩ : cond.outline = cond'.outline ∧
          (Node.block braces yes).outline = (Node.block braces' yes').outline ∧
          (Node.block braces₂ no).outline = (Node.block braces₂' no').outline := by
        simpa [Node.children] using hchildren
      rw [Node.formatStmt, Node.formatStmt, hcond.formatExpr_eq hS hcond' hc,
        braced_eq level ihyes hyes' hblock, braced_eq level ihno hno' hblock']
    | when => simp [Node.children] at hchildren
    | _ => simp [Node.kind, Text.ofString_inj] at hkind
  | @whileLoop span cond braces body hcond hbody ih =>
    obtain ⟨hkind, -, hchildren⟩ := Node.outline_inj heq
    cases h' with
    | @whileLoop span' cond' braces' body' hcond' hbody' =>
      obtain ⟨hc, hblock⟩ : cond.outline = cond'.outline ∧
          (Node.block braces body).outline = (Node.block braces' body').outline := by
        simpa [Node.children] using hchildren
      rw [Node.formatStmt, Node.formatStmt, hcond.formatExpr_eq hS hcond' hc,
        braced_eq level ih hbody' hblock]
    | _ => simp [Node.kind, Text.ofString_inj] at hkind
  | @forLoop span init cond step braces body hinit _ hcond _ hstep _ hbody ihinit ihstep ih =>
    obtain ⟨hkind, -, hchildren⟩ := Node.outline_inj heq
    cases h' with
    | @forLoop span' init' cond' step' braces' body' hinit' _ hcond' _ hstep' _ hbody' =>
      obtain ⟨hi, hc, hs, hblock⟩ : init.outline = init'.outline ∧ cond.outline = cond'.outline ∧
          step.outline = step'.outline ∧
          (Node.block braces body).outline = (Node.block braces' body').outline := by
        simpa [Node.children] using hchildren
      rw [Node.formatStmt, Node.formatStmt, ihinit hinit' hi 0, ihstep hstep' hs 0,
        hcond.formatExpr_eq hS hcond' hc, braced_eq level ih hbody' hblock]
    | _ => simp [Node.kind, Text.ofString_inj] at hkind
  | skip =>
    have hkind := (Node.outline_inj heq).1
    cases h' <;> simp [Node.kind, Text.ofString_inj] at hkind
    rfl

end Canonical

end ScriptKit
