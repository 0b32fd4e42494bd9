import ScriptKit.Proofs.Format.Skipped

/-!
# Shapes tell programs apart

A shape shows a program without places, and two programs are compared by their shapes. So a shape must not be that of
two programs that differ in anything else, whatever their literals hold.

**What a node says** (`Node.said`). The node without places, in which a call knows whether it calls a builtin, but not
which function it calls. Everything else is kept: kinds, names, types, operators, values, the texts of what was passed
over, alternatives and parameters.

**The way back.** The labels of what was parsed are legible, so the shape fixes the outline (`Outline.Legible`). And on
well-formed nodes the kind, the label and what the children say fix what the node says (`IsPart.said_of_children`): a
label tells a number, a literal, a variable, an operator, or a name and whether it is a builtin.

**Theorem (`shape_tells_programs_apart`).** Two programs that were parsed from bytes have shapes of the same bytes
exactly if they say the same.
-/

namespace ScriptKit

/-! ## Forgetting what calls are linked to -/

/-- What a call calls, without the number of a function. -/
def Callee.unlinked : Callee → Callee
  | .builtin => .builtin
  | .function _ => .function 0

namespace Node

mutual

/-- A node in which calls know whether they call a builtin, but not which function they call. -/
def unlinked : Node → Node
  | .declareAs span name type value => .declareAs span name type value.unlinked
  | .assign span name value => .assign span name value.unlinked
  | .arith span left op right => .arith span left.unlinked op right.unlinked
  | .compare span left op right => .compare span left.unlinked op right.unlinked
  | .sign span op operand => .sign span op operand.unlinked
  | .block braces body => .block braces (unlinkedAll body)
  | .function span name params braces body => .function span name params braces (unlinkedAll body)
  | .call span name callee args => .call span name callee.unlinked (unlinkedAll args)
  | .when span cond braces yes => .when span cond.unlinked braces (unlinkedAll yes)
  | .choose span cond yesBraces yes noBraces no =>
    .choose span cond.unlinked yesBraces (unlinkedAll yes) noBraces (unlinkedAll no)
  | .whileLoop span cond braces body => .whileLoop span cond.unlinked braces (unlinkedAll body)
  | .forLoop span init cond step braces body =>
    .forLoop span init.unlinked cond.unlinked step.unlinked braces (unlinkedAll body)
  | .program span globals functions => .program span (unlinkedAll globals) (unlinkedAll functions)
  | n => n

/-- Nodes in which calls do not know which functions they call. -/
def unlinkedAll : List Node → List Node
  | [] => []
  | n :: rest => n.unlinked :: unlinkedAll rest

end

/-- What a node says, apart from where it stands and which functions its calls are linked to. -/
def said (n : Node) : Node := n.bare.unlinked

theorem unlinkedAll_eq_map (ns : List Node) : unlinkedAll ns = ns.map unlinked := by
  induction ns with
  | nil => rfl
  | cons n ns ih => rw [unlinkedAll, ih, List.map_cons]

theorem saidAll_eq_map (ns : List Node) : unlinkedAll (bareAll ns) = ns.map said := by
  rw [bareAll_eq_map, unlinkedAll_eq_map, List.map_map]
  rfl

section Said

variable (span : Span) (name text : Text) (left right cond init step value : Node) (body no args : List Node)
  (braces braces' : Braces)

@[simp] theorem said_number (v : Int32) : (number span v).said = .number default v := rfl

@[simp] theorem said_str : (str span text).said = .str default text := rfl

@[simp] theorem said_bool (b : Bool) : (bool span b).said = .bool default b := rfl

@[simp] theorem said_use : (use span name).said = .use default name := rfl

@[simp] theorem said_declare (type : VarType) : (declare span name type).said = .declare default name type := rfl

@[simp] theorem said_declareAs (type : VarType) :
    (declareAs span name type value).said = .declareAs default name type value.said := rfl

@[simp] theorem said_assign : (assign span name value).said = .assign default name value.said := rfl

@[simp] theorem said_arith (op : Arith) :
    (arith span left op right).said = .arith default left.said op right.said := rfl

@[simp] theorem said_compare (op : Relation) :
    (compare span left op right).said = .compare default left.said op right.said := rfl

@[simp] theorem said_sign (op : Sign) : (sign span op value).said = .sign default op value.said := rfl

@[simp] theorem said_block : (block braces body).said = .block default (body.map said) :=
  congrArg (block default) (saidAll_eq_map body)

@[simp] theorem said_function (params : List Param) : (function span name params braces body).said =
    .function default name (params.map Param.bare) default (body.map said) :=
  congrArg (function default name (params.map Param.bare) default) (saidAll_eq_map body)

@[simp] theorem said_call (callee : Callee) :
    (call span name callee args).said = .call default name callee.unlinked (args.map said) :=
  congrArg (call default name callee.unlinked) (saidAll_eq_map args)

@[simp] theorem said_when :
    (when span cond braces body).said = .when default cond.said default (body.map said) :=
  congrArg (when default cond.said default) (saidAll_eq_map body)

@[simp] theorem said_choose : (choose span cond braces body braces' no).said =
    .choose default cond.said default (body.map said) default (no.map said) := by
  rw [← saidAll_eq_map body, ← saidAll_eq_map no]
  rfl

@[simp] theorem said_whileLoop :
    (whileLoop span cond braces body).said = .whileLoop default cond.said default (body.map said) :=
  congrArg (whileLoop default cond.said default) (saidAll_eq_map body)

@[simp] theorem said_forLoop : (forLoop span init cond step braces body).said =
    .forLoop default init.said cond.said step.said default (body.map said) :=
  congrArg (forLoop default init.said cond.said step.said default) (saidAll_eq_map body)

@[simp] theorem said_skip : (skip span text).said = .skip default text := rfl

@[simp] theorem said_program (globals functions : List Node) :
    (program span globals functions).said = .program default (globals.map said) (functions.map said) := by
  rw [← saidAll_eq_map globals, ← saidAll_eq_map functions]
  rfl

end Said

theorem children_unlinked (n : Node) : n.unlinked.children = n.children.map unlinked := by
  cases n <;> simp [unlinked, children, unlinkedAll_eq_map, Param.node]

theorem kind_unlinked (n : Node) : n.unlinked.kind = n.kind := by cases n <;> rfl

theorem label_unlinked (n : Node) : n.unlinked.label = n.label := by
  cases n with
  | call _ _ callee _ => cases callee <;> rfl
  | _ => rfl

/-- The outline of a node says nothing about the functions its calls are linked to. -/
theorem outline_unlinked (n : Node) : n.unlinked.outline = n.outline := by
  induction n using induction_children with
  | step n ih =>
    rw [outline_eq, outline_eq n, kind_unlinked, label_unlinked, children_unlinked, List.map_map]
    exact congrArg _ (List.map_congr_left ih)

theorem outline_said (n : Node) : n.said.outline = n.outline := by
  rw [said, outline_unlinked, outline_bare]

end Node

/-! ## What outlines tell -/

/-- A variable is told by its type and its name. -/
theorem variable_inj {name name' : Text} {type type' : VarType} (h : IsVariable name type)
    (h' : IsVariable name' type') (heq : type.name ++ " " ++ name = type'.name ++ " " ++ name') :
    type = type' ∧ name = name' := by
  have hhead := congrArg List.head? heq
  cases type <;> cases type' <;>
    first
      | exact absurd rfl h.type
      | exact absurd rfl h'.type
      | exact ⟨rfl, List.append_cancel_left heq⟩
      | cases hhead

theorem sign_inj {op op' : Sign} (h : ∀ symbol, op ≠ .other symbol) (h' : ∀ symbol, op' ≠ .other symbol)
    (heq : op.symbol = op'.symbol) : op = op' := by
  cases op <;> cases op' <;>
    first
      | rfl
      | exact absurd rfl (h _)
      | exact absurd rfl (h' _)
      | cases heq

theorem arith_inj {op op' : Arith} (h : ∀ symbol, op ≠ .other symbol) (h' : ∀ symbol, op' ≠ .other symbol)
    (heq : op.symbol = op'.symbol) : op = op' := by
  cases op <;> cases op' <;>
    first
      | rfl
      | exact absurd rfl (h _)
      | exact absurd rfl (h' _)
      | cases heq

theorem relation_inj {op op' : Relation} (h : ∀ symbol, op ≠ .other symbol) (h' : ∀ symbol, op' ≠ .other symbol)
    (heq : op.symbol = op'.symbol) : op = op' := by
  cases op <;> cases op' <;>
    first
      | rfl
      | exact absurd rfl (h _)
      | exact absurd rfl (h' _)
      | cases heq

/-- The label of a call tells its name and whether it calls a builtin. -/
theorem call_inj {span span' : Span} {name name' : Text} {callee callee' : Callee} {args args' : List Node}
    (h : IsName name) (h' : IsName name')
    (heq : (Node.call span name callee args).label = (Node.call span' name' callee' args').label) :
    name = name' ∧ callee.unlinked = callee'.unlinked := by
  obtain rfl := label_call_inj h h' heq
  refine ⟨rfl, ?_⟩
  cases callee <;> cases callee' <;>
    first
      | rfl
      | exact absurd heq (h.ne_append _)
      | exact absurd heq.symm (h.ne_append _)

section Outlines

variable {S : Text → Prop} {C : Text → Callee → Prop} {n n' : Node}

theorem params_of_said {params params' : List Param}
    (h : (params.map Param.node).map Node.said = (params'.map Param.node).map Node.said) :
    params.map Param.bare = params'.map Param.bare := by
  rw [List.map_map, List.map_map] at h
  refine map_eq_of_map_eq (fun p _ q _ hpq => ?_) h
  obtain ⟨-, hname, htype⟩ := Node.declare.inj hpq
  rw [Param.bare, Param.bare, hname, htype]

/-! Literals, variables, operators and calls of a program are those of an expression or of a statement. -/

section Inversion

variable {span : Span} {name v : Text} {type : VarType} {left right value : Node} {callee : Callee} {args : List Node}

theorem IsPart.literal (h : IsPart S C (.str span v)) : S v := by
  rcases h with h | h
  · cases h
    assumption
  · cases h

theorem IsPart.declared (h : IsPart S C (.declare span name type)) : IsVariable name type := by
  rcases h with h | h
  · cases h
  · cases h
    assumption

theorem IsPart.initialized (h : IsPart S C (.declareAs span name type value)) : IsVariable name type := by
  rcases h with h | h
  · cases h
  · cases h
    assumption

theorem IsPart.arith {op : Arith} (h : IsPart S C (.arith span left op right)) (symbol : Text) :
    op ≠ .other symbol := by
  rcases h with h | h
  · cases h with
    | arith hop => exact hop symbol
  · cases h

theorem IsPart.relation {op : Relation} (h : IsPart S C (.compare span left op right)) (symbol : Text) :
    op ≠ .other symbol := by
  rcases h with h | h
  · cases h with
    | compare hop => exact hop symbol
  · cases h

theorem IsPart.sign {op : Sign} (h : IsPart S C (.sign span op value)) (symbol : Text) : op ≠ .other symbol := by
  rcases h with h | h
  · cases h with
    | sign hop => exact hop symbol
  · cases h

theorem IsPart.called (h : IsPart S C (.call span name callee args)) : IsName name := by
  have hexpr : ∀ {n : Node}, n = .call span name callee args → IsExpr S C n → IsName name := by
    rintro _ rfl h
    cases h
    assumption
  rcases h with h | h
  · exact hexpr rfl h
  · cases h with
    | call h => exact hexpr rfl h

end Inversion

/-- A node says what its kind, its label and its children say. -/
theorem IsPart.said_of_children (hS : ∀ v, S v → v.IsRead) (h : IsPart S C n) (h' : IsPart S C n')
    (hskip : ∀ span text, n = .skip span text → text.IsRead)
    (hskip' : ∀ span text, n' = .skip span text → text.IsRead) (hkind : n.kind = n'.kind)
    (hlabel : n.label = n'.label) (hchildren : n.children.map Node.said = n'.children.map Node.said) :
    n.said = n'.said := by
  -- Nodes of two kinds are excluded by `hkind`. Of one kind, the label gives what the node holds by itself, and
  -- `hchildren` the rest.
  cases n with
  | number span v =>
    cases n' with
    | number span' v' =>
      have hvalue : Text.ofInt v.toInt = Text.ofInt v'.toInt := hlabel
      -- the label is the number in decimal, which is read back as the number
      have hread := congrArg Text.readInt32 hvalue
      rw [Text.readInt32_ofInt, Text.readInt32_ofInt] at hread
      rw [Node.said_number, Node.said_number, Option.some.inj hread]
    | _ => simp [Node.kind, Text.ofString_inj] at hkind
  | str span v =>
    cases n' with
    | str span' v' =>
      -- quoting tells two texts apart where both were read from a source
      obtain rfl := Text.quoted_injective (hS v h.literal) (hS v' h'.literal) hlabel
      rfl
    | _ => simp [Node.kind, Text.ofString_inj] at hkind
  | bool span b =>
    cases n' with
    | bool span' b' =>
      cases b <;> cases b' <;> first | rfl | cases hlabel
    | _ => simp [Node.kind, Text.ofString_inj] at hkind
  | use span name =>
    cases n' with
    | use span' name' =>
      obtain rfl : name = name' := hlabel
      rfl
    | _ => simp [Node.kind, Text.ofString_inj] at hkind
  | declare span name type =>
    cases n' with
    | declare span' name' type' =>
      obtain ⟨rfl, rfl⟩ := variable_inj h.declared h'.declared hlabel
      rfl
    | _ => simp [Node.kind, Text.ofString_inj] at hkind
  | declareAs span name type value =>
    cases n' with
    | declareAs span' name' type' value' =>
      obtain ⟨rfl, rfl⟩ := variable_inj h.initialized h'.initialized hlabel
      simpa [Node.children] using hchildren
    | _ => simp [Node.kind, Text.ofString_inj] at hkind
  | assign span name value =>
    cases n' with
    | assign span' name' value' =>
      obtain rfl : name = name' := hlabel
      simpa [Node.children] using hchildren
    | _ => simp [Node.kind, Text.ofString_inj] at hkind
  | arith span left op right =>
    cases n' with
    | arith span' left' op' right' =>
      obtain rfl := arith_inj h.arith h'.arith hlabel
      simpa [Node.children] using hchildren
    | _ => simp [Node.kind, Text.ofString_inj] at hkind
  | compare span left op right =>
    cases n' with
    | compare span' left' op' right' =>
      obtain rfl := relation_inj h.relation h'.relation hlabel
      simpa [Node.children] using hchildren
    | _ => simp [Node.kind, Text.ofString_inj] at hkind
  | sign span op operand =>
    cases n' with
    | sign span' op' operand' =>
      obtain rfl := sign_inj h.sign h'.sign hlabel
      simpa [Node.children] using hchildren
    | _ => simp [Node.kind, Text.ofString_inj] at hkind
  | block braces body =>
    cases n' with
    | block braces' body' => simpa [Node.children] using hchildren
    | _ => simp [Node.kind, Text.ofString_inj] at hkind
  | function span name params braces body =>
    cases n' with
    | function span' name' params' braces' body' =>
      obtain rfl : name = name' := hlabel
      simp only [Node.children, List.map_append, List.map_cons, List.map_nil] at hchildren
      -- the block is the last of the children, so the parameters before it agree as well
      obtain ⟨hparams, hblock⟩ := List.append_inj' hchildren rfl
      rw [Node.said_function, Node.said_function, params_of_said hparams]
      simpa using hblock
    | _ => simp [Node.kind, Text.ofString_inj] at hkind
  | call span name callee args =>
    cases n' with
    | call span' name' callee' args' =>
      obtain ⟨rfl, hcallee⟩ := call_inj h.called h'.called hlabel
      simpa [Node.children, hcallee] using hchildren
    | _ => simp [Node.kind, Text.ofString_inj] at hkind
  | when span cond braces yes =>
    cases n' with
    | when span' cond' braces' yes' => simpa [Node.children] using hchildren
    -- an if without an else is of the same kind as one with it, but has fewer children
    | choose => simp [Node.children] at hchildren
    | _ => simp [Node.kind, Text.ofString_inj] at hkind
  | choose span cond braces yes braces₂ no =>
    cases n' with
    | choose span' cond' braces' yes' braces₂' no' => simpa [Node.children] using hchildren
    | when => simp [Node.children] at hchildren
    | _ => simp [Node.kind, Text.ofString_inj] at hkind
  | whileLoop span cond braces body =>
    cases n' with
    | whileLoop span' cond' braces' body' => simpa [Node.children] using hchildren
    | _ => simp [Node.kind, Text.ofString_inj] at hkind
  | forLoop span init cond step braces body =>
    cases n' with
    | forLoop span' init' cond' step' braces' body' => simpa [Node.children] using hchildren
    | _ => simp [Node.kind, Text.ofString_inj] at hkind
  | skip span text =>
    cases n' with
    | skip span' text' =>
      -- a skipped text is no literal, so that it was read is a hypothesis of its own
      obtain rfl := Text.quoted_injective (hskip _ _ rfl) (hskip' _ _ rfl) hlabel
      rfl
    | _ => simp [Node.kind, Text.ofString_inj] at hkind
  | program =>
    rcases h with h | h <;> cases h

/-- Parts of programs with the same outline say the same. -/
theorem IsPart.said_eq (hS : ∀ v, S v → v.IsRead) (h : IsPart S C n) (h' : IsPart S C n')
    (hskips : ∀ text, n.Skips text → text.IsRead) (hskips' : ∀ text, n'.Skips text → text.IsRead)
    (heq : n.outline = n'.outline) : n.said = n'.said := by
  induction n using Node.induction_children generalizing n' with
  | step n ih =>
    obtain ⟨hkind, hlabel, hchildren⟩ := Node.outline_inj heq
    refine h.said_of_children hS h' (fun span text hn => hskips text ?_) (fun span text hn => hskips' text ?_)
      hkind hlabel (map_eq_of_map_eq (fun c hc c' hc' hcc' => ?_) hchildren)
    · exact Node.skips_iff.2 (.inl ⟨span, hn⟩)
    · exact Node.skips_iff.2 (.inl ⟨span, hn⟩)
    · exact ih c hc (h.child hc) (h'.child hc') (fun text hc₂ => hskips text (Node.skips_iff.2 (.inr ⟨c, hc, hc₂⟩)))
        (fun text hc₂ => hskips' text (Node.skips_iff.2 (.inr ⟨c', hc', hc₂⟩))) hcc'

end Outlines

/-! ## Programs -/

section Programs

variable {file file' : Text} {bytes bytes' : List UInt8} {builtins builtins' : Option (List Text)} {p p' : Program}

/-- The outline of a program that was parsed from bytes is legible. -/
theorem legible_of_parse (h : parse file (Text.ofBytes bytes) builtins = .ok p) : p.outline.Legible := by
  refine Node.legible_outline fun m hm => ?_
  rcases (formed_of_bytes h).part hm with rfl | hpart
  · exact .inl rfl
  · refine hpart.isLabel (fun _ hv => hv.2.isRead) fun span text hskip => ?_
    exact isRead_of_skips h ⟨span, hskip ▸ hm⟩

/-- Statements of two programs that were parsed from bytes say the same if they have the same outlines. -/
theorem said_of_outlines {ns ns' : List Node} (h : parse file (Text.ofBytes bytes) builtins = .ok p)
    (h' : parse file' (Text.ofBytes bytes') builtins' = .ok p') (hns : ∀ n ∈ ns, n ∈ p.node.children)
    (hns' : ∀ n ∈ ns', n ∈ p'.node.children) (heq : ns.map Node.outline = ns'.map Node.outline) :
    ns.map Node.said = ns'.map Node.said := by
  have hpart : ∀ {file : Text} {bytes : List UInt8} {builtins : Option (List Text)} {p : Program},
      parse file (Text.ofBytes bytes) builtins = .ok p → ∀ n ∈ p.node.children,
        IsPart (fun v => Glyph.quote ∉ v ∧ v.Settled) (fun _ _ => True) n := by
    intro file bytes builtins p h n hn
    rcases List.mem_append.1 hn with hn | hn
    · exact .stmt ((formed_of_bytes h).globals n hn).1
    · obtain ⟨f, hf, rfl⟩ := List.mem_map.1 hn
      exact .stmt ((formed_of_bytes h).functions f hf)
  refine map_eq_of_map_eq (fun n hn n' hn' hnn' => ?_) heq
  refine (hpart h n (hns n hn)).said_eq (fun _ hv => hv.2.isRead) (hpart h' n' (hns' n' hn')) ?_ ?_ hnn'
  · exact fun text hskips => isRead_of_skips h (Node.skips_iff.2 (.inr ⟨n, hns n hn, hskips⟩))
  · exact fun text hskips => isRead_of_skips h' (Node.skips_iff.2 (.inr ⟨n', hns' n' hn', hskips⟩))

/-- The shapes of two programs that were parsed from bytes are the same bytes exactly if the programs say the same:
they are equal apart from where their nodes stand and which functions their calls are linked to. -/
theorem shape_tells_programs_apart (h : parse file (Text.ofBytes bytes) builtins = .ok p)
    (h' : parse file' (Text.ofBytes bytes') builtins' = .ok p') :
    p.shape.toBytes = p'.shape.toBytes ↔ p.node.said = p'.node.said := by
  constructor
  · intro heq
    rw [Program.shape, Program.shape, Node.shape_eq_write, Node.shape_eq_write] at heq
    have houtline : p.outline = p'.outline := (legible_of_parse h).write_injective (legible_of_parse h') heq
    obtain ⟨hglobals, hfunctions⟩ := (formed_of_bytes h).outline_inj (formed_of_bytes h') houtline
    have hg := said_of_outlines h h' (fun n hn => List.mem_append_left _ hn) (fun n hn => List.mem_append_left _ hn)
      hglobals
    have hf := said_of_outlines h h' (fun n hn => List.mem_append_right _ hn) (fun n hn => List.mem_append_right _ hn)
      hfunctions
    rw [Program.node, Program.node, Node.said_program, Node.said_program, hg, hf]
  · intro heq
    have houtline : p.outline = p'.outline := by
      rw [Program.outline, Program.outline, ← Node.outline_said, heq, Node.outline_said]
    rw [Program.shape_of_outline houtline]

/-- A program with parentheses and quotes where they do not count. -/
def tightText : Text := "func F(int a)\x7b\x7d func Main()\x7b;F((1+2))WriteLine(\")(\")\x7d"

/-- The same program, laid out in another way. -/
def looseLayout : Text := "func F(int a,) \x7b \x7d\nfunc Main() \x7b\n  ; F(1 + 2)\n  WriteLine(\")(\")\n\x7d"

theorem shape_tells_programs_apart_layout :
    ∃ p p', parse "a" (Text.ofBytes tightText.toBytes) = .ok p ∧
      parse "b" (Text.ofBytes looseLayout.toBytes) = .ok p' ∧ p.span ≠ p'.span ∧
        p.shape.toBytes = p'.shape.toBytes ∧ p.node.said = p'.node.said := by
  have hsame : (parse "a" (Text.ofBytes tightText.toBytes)).toOption.bind (fun p =>
      (parse "b" (Text.ofBytes looseLayout.toBytes)).toOption.map fun p' =>
        decide (p.span ≠ p'.span ∧ p.shape.toBytes = p'.shape.toBytes)) = some true := by
    decide +kernel
  cases hp : parse "a" (Text.ofBytes tightText.toBytes) with
  | error e => simp [hp, Except.toOption] at hsame
  | ok p =>
    cases hp' : parse "b" (Text.ofBytes looseLayout.toBytes) with
    | error e => simp [hp, hp', Except.toOption] at hsame
    | ok p' =>
      obtain ⟨hspan, hshape⟩ : p.span ≠ p'.span ∧ p.shape.toBytes = p'.shape.toBytes := by
        simpa [hp, hp', Except.toOption] using hsame
      exact ⟨p, p', rfl, rfl, hspan, hshape, (shape_tells_programs_apart hp hp').1 hshape⟩

end Programs

end ScriptKit
