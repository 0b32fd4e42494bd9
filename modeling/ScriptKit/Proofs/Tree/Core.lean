import ScriptKit.Proofs.Tree.Formed
import ScriptKit.Tree.Format

/-!
# What a program says, apart from places and skipped tokens

`withoutSkips` removes the statements that were passed over while parsing, and `bare` forgets where
everything stood. Together they leave the `core` of a node. Two programs of the same core differ in layout
only, and the canonical text of a program depends on its core alone.
-/

namespace ScriptKit

/-- A parameter that stands nowhere. -/
def Param.bare (p : Param) : Param := { p with span := default }

namespace Node

/-! ## Removing what was passed over -/

mutual

/-- A node without the statements below it that were passed over. -/
def withoutSkips : Node → Node
  | .block braces body => .block braces (dropSkips body)
  | .function span name params braces body => .function span name params braces (dropSkips body)
  | .when span cond braces yes => .when span cond braces (dropSkips yes)
  | .choose span cond yesBraces yes noBraces no =>
    .choose span cond yesBraces (dropSkips yes) noBraces (dropSkips no)
  | .whileLoop span cond braces body => .whileLoop span cond braces (dropSkips body)
  | .forLoop span init cond step braces body => .forLoop span init cond step braces (dropSkips body)
  | n => n

/-- Statements without those that were passed over, here and below. -/
def dropSkips : List Node → List Node
  | [] => []
  | n :: rest => if n.isSkip then dropSkips rest else n.withoutSkips :: dropSkips rest

end

/-! ## Forgetting places -/

mutual

/-- A node that stands nowhere. -/
def bare : Node → Node
  | .number _ value => .number default value
  | .str _ value => .str default value
  | .bool _ value => .bool default value
  | .use _ name => .use default name
  | .declare _ name type => .declare default name type
  | .declareAs _ name type value => .declareAs default name type value.bare
  | .assign _ name value => .assign default name value.bare
  | .arith _ left op right => .arith default left.bare op right.bare
  | .compare _ left op right => .compare default left.bare op right.bare
  | .sign _ op operand => .sign default op operand.bare
  | .block _ body => .block default (bareAll body)
  | .function _ name params _ body =>
    .function default name (params.map Param.bare) default (bareAll body)
  | .call _ name callee args => .call default name callee (bareAll args)
  | .when _ cond _ yes => .when default cond.bare default (bareAll yes)
  | .choose _ cond _ yes _ no => .choose default cond.bare default (bareAll yes) default (bareAll no)
  | .whileLoop _ cond _ body => .whileLoop default cond.bare default (bareAll body)
  | .forLoop _ init cond step _ body =>
    .forLoop default init.bare cond.bare step.bare default (bareAll body)
  | .skip _ text => .skip default text
  | .program _ globals functions => .program default (bareAll globals) (bareAll functions)

/-- Nodes that stand nowhere. -/
def bareAll : List Node → List Node
  | [] => []
  | n :: rest => n.bare :: bareAll rest

end

/-- What a node says. -/
def core (n : Node) : Node := n.withoutSkips.bare

/-- What a statement list says. -/
def coreAll (ns : List Node) : List Node := bareAll (dropSkips ns)

@[simp] theorem isSkip_bare (n : Node) : n.bare.isSkip = n.isSkip := by cases n <;> rfl

@[simp] theorem isComparison_bare (n : Node) : n.bare.isComparison = n.isComparison := by cases n <;> rfl

@[simp] theorem isAdditive_bare (n : Node) : n.bare.isAdditive = n.isAdditive := by cases n <;> rfl

@[simp] theorem isOperation_bare (n : Node) : n.bare.isOperation = n.isOperation := by cases n <;> rfl

@[simp] theorem kind_bare (n : Node) : n.bare.kind = n.kind := by cases n <;> rfl

@[simp] theorem isSkip_withoutSkips (n : Node) : n.withoutSkips.isSkip = n.isSkip := by cases n <;> rfl

/-- A statement that was passed over says nothing. -/
theorem coreAll_cons (n : Node) (ns : List Node) :
    coreAll (n :: ns) = if n.isSkip then coreAll ns else n.core :: coreAll ns := by
  unfold coreAll core
  rw [dropSkips]
  split <;> simp [bareAll]

theorem coreAll_cons_skip {n : Node} {ns : List Node} (h : n.isSkip = true) :
    coreAll (n :: ns) = coreAll ns := by
  rw [coreAll_cons, if_pos h]

theorem coreAll_cons_stmt {n : Node} {ns : List Node} (h : n.isSkip = false) :
    coreAll (n :: ns) = n.core :: coreAll ns := by
  rw [coreAll_cons, if_neg (by simp [h])]

theorem core_when (span : Span) (cond : Node) (braces : Braces) (yes : List Node) :
    (when span cond braces yes).core = .when default cond.bare default (coreAll yes) := rfl

theorem core_choose (span : Span) (cond : Node) (braces braces' : Braces) (yes no : List Node) :
    (choose span cond braces yes braces' no).core =
      .choose default cond.bare default (coreAll yes) default (coreAll no) := rfl

theorem core_whileLoop (span : Span) (cond : Node) (braces : Braces) (body : List Node) :
    (whileLoop span cond braces body).core = .whileLoop default cond.bare default (coreAll body) := rfl

theorem core_forLoop (span : Span) (init cond step : Node) (braces : Braces) (body : List Node) :
    (forLoop span init cond step braces body).core =
      .forLoop default init.bare cond.bare step.bare default (coreAll body) := rfl

theorem bareAll_eq_map (ns : List Node) : bareAll ns = ns.map bare := by
  induction ns with
  | nil => rfl
  | cons n ns ih => rw [bareAll, ih, List.map_cons]

/-- A node that stands nowhere has children that stand nowhere. -/
theorem children_bare (n : Node) : n.bare.children = n.children.map bare := by
  cases n <;> simp [bare, children, bareAll_eq_map, Param.node, Param.bare]

/-! ## What is gathered from a tree

`F` gathers something from a node before its children, from its children, and from the node after them. -/

section Gather

variable {α : Type} {F before after : Node → List α}

/-- What is gathered does not depend on places, if what a node itself gives does not. -/
theorem gather_bare (hF : ∀ n, F n = before n ++ n.children.flatMap F ++ after n)
    (hbefore : ∀ n, before n.bare = before n) (hafter : ∀ n, after n.bare = after n) (n : Node) :
    F n.bare = F n := by
  induction n using induction_children with
  | step n ih =>
    have hchildren : n.bare.children.flatMap F = n.children.flatMap F := by
      rw [children_bare, List.flatMap_map, List.flatMap_def, List.flatMap_def]
      exact congrArg List.flatten (List.map_congr_left ih)
    rw [hF, hF n, hbefore, hafter, hchildren]

theorem gather_dropSkips (hskip : ∀ span text, F (.skip span text) = []) {ns : List Node}
    (h : ∀ n ∈ ns, F n.withoutSkips = F n) : (dropSkips ns).flatMap F = ns.flatMap F := by
  induction ns with
  | nil => rfl
  | cons n ns ih =>
    obtain ⟨hn, hns⟩ := List.forall_mem_cons.1 h
    rw [dropSkips, List.flatMap_cons, ← ih hns]
    cases n with
    | skip span text =>
      rw [hskip]
      rfl
    | _ => rw [if_neg (by simp [isSkip]), List.flatMap_cons, hn]

/-- What is gathered is the same without the statements that were passed over, if these give nothing. -/
theorem gather_withoutSkips (hF : ∀ n, F n = before n ++ n.children.flatMap F ++ after n)
    (hbefore : ∀ n, before n.withoutSkips = before n) (hafter : ∀ n, after n.withoutSkips = after n)
    (hskip : ∀ span text, F (.skip span text) = []) (n : Node) : F n.withoutSkips = F n := by
  induction n using induction_children with
  | step n ih =>
    -- A braced list is itself a child, so only blocks meet their statements here.
    have hblock : ∀ braces body, .block braces body ∈ n.children →
        F (.block braces (dropSkips body)) = F (.block braces body) :=
      fun braces body hmem => ih (.block braces body) hmem
    have hchildren : n.withoutSkips.children.flatMap F = n.children.flatMap F := by
      cases n with
      | block braces body => exact gather_dropSkips hskip ih
      | function span name params braces body =>
        simp only [withoutSkips, children, List.flatMap_append, List.flatMap_cons]
        rw [hblock braces body (by simp [children])]
      | when span cond braces yes =>
        simp only [withoutSkips, children, List.flatMap_cons]
        rw [hblock braces yes (by simp [children])]
      | choose span cond yesBraces yes noBraces no =>
        simp only [withoutSkips, children, List.flatMap_cons]
        rw [hblock yesBraces yes (by simp [children]), hblock noBraces no (by simp [children])]
      | whileLoop span cond braces body =>
        simp only [withoutSkips, children, List.flatMap_cons]
        rw [hblock braces body (by simp [children])]
      | forLoop span init cond step braces body =>
        simp only [withoutSkips, children, List.flatMap_cons]
        rw [hblock braces body (by simp [children])]
      | _ => rfl
    rw [hF, hF n, hbefore, hafter, hchildren]

end Gather

end Node

/-- A function without the statements in it that were passed over. -/
def Function.withoutSkips (f : Function) : Function := { f with body := Node.dropSkips f.body }

/-- A function that stands nowhere, without the statements in it that were passed over. -/
def Function.core (f : Function) : Function where
  span := default
  name := f.name
  params := f.params.map Param.bare
  braces := default
  body := Node.coreAll f.body

namespace Program

/-- A program without the statements that were passed over. -/
def withoutSkips (p : Program) : Program := { p with functions := p.functions.map Function.withoutSkips }

/-- What a program says. -/
def core (p : Program) : Program where
  span := default
  globals := p.globals.map Node.bare
  functions := p.functions.map Function.core

end Program

theorem Function.node_core (f : Function) : f.core.node = f.node.core := rfl

theorem Function.node_withoutSkips (f : Function) : f.withoutSkips.node = f.node.withoutSkips := rfl

/-! ## The canonical text -/

namespace Node

mutual

/-- The text of an expression does not depend on places. -/
theorem formatExpr_bare : ∀ n : Node, n.bare.formatExpr = n.formatExpr
  | .number .. | .str .. | .bool .. | .use .. | .declare .. | .skip .. => rfl
  | .declareAs .. | .assign .. | .block .. | .function .. | .when .. | .choose .. | .whileLoop ..
  | .forLoop .. | .program .. => by simp [bare, formatExpr]
  | .arith _ left op right => by simp [bare, formatExpr, formatExpr_bare left, formatExpr_bare right]
  | .compare _ left op right => by simp [bare, formatExpr, formatExpr_bare left, formatExpr_bare right]
  | .sign _ op operand => by simp [bare, formatExpr, formatExpr_bare operand]
  | .call _ name callee args => by simp [bare, formatExpr, formatArgs_bareAll args]

theorem formatArgs_bareAll : ∀ ns : List Node, formatArgs (bareAll ns) = formatArgs ns
  | [] => rfl
  | n :: rest => by simp [bareAll, formatArgs, formatExpr_bare n, formatArgs_bareAll rest]

end

theorem formatArgs_eq_map (ns : List Node) : formatArgs ns = ns.map formatExpr := by
  induction ns with
  | nil => rfl
  | cons n ns ih => rw [formatArgs, ih, List.map_cons]

/-- A body is formatted statement by statement, without what was passed over. -/
theorem formatBody_cons (level : Nat) (n : Node) (ns : List Node) : formatBody level (n :: ns) =
    if n.isSkip then formatBody level ns else n.formatStmt level :: formatBody level ns := by
  cases n <;> simp [formatBody, isSkip]

mutual

/-- The text of a statement does not depend on places. -/
theorem formatStmt_bare (level : Nat) : ∀ n : Node, n.bare.formatStmt level = n.formatStmt level
  | .number .. | .str .. | .bool .. | .use .. | .declare .. | .skip .. => rfl
  | .declareAs _ _ _ value => by simp [bare, formatStmt, formatExpr_bare value]
  | .assign _ _ value => by simp [bare, formatStmt, formatExpr_bare value]
  | .arith s left op right => by
    simpa [bare, formatStmt] using formatExpr_bare (.arith s left op right)
  | .compare s left op right => by
    simpa [bare, formatStmt] using formatExpr_bare (.compare s left op right)
  | .sign s op operand => by simpa [bare, formatStmt] using formatExpr_bare (.sign s op operand)
  | .call s name callee args => by
    simpa [bare, formatStmt] using formatExpr_bare (.call s name callee args)
  | .block .. | .program .. => by simp [bare, formatStmt, formatExpr]
  | .function _ name params _ body => by
    simp [bare, formatStmt, header, Param.bare, Function.comp_def, formatBody_bareAll (level + 1) body]
  | .when _ cond _ yes => by
    simp [bare, formatStmt, formatExpr_bare cond, formatBody_bareAll (level + 1) yes]
  | .choose _ cond _ yes _ no => by
    simp [bare, formatStmt, formatExpr_bare cond, formatBody_bareAll (level + 1) yes,
      formatBody_bareAll (level + 1) no]
  | .whileLoop _ cond _ body => by
    simp [bare, formatStmt, formatExpr_bare cond, formatBody_bareAll (level + 1) body]
  | .forLoop _ init cond step _ body => by
    simp [bare, formatStmt, formatStmt_bare 0 init, formatExpr_bare cond, formatStmt_bare 0 step,
      formatBody_bareAll (level + 1) body]

theorem formatBody_bareAll (level : Nat) : ∀ ns : List Node,
    formatBody level (bareAll ns) = formatBody level ns
  | [] => rfl
  | n :: rest => by
    simp [bareAll, formatBody_cons, formatStmt_bare level n, formatBody_bareAll level rest]

end

mutual

/-- What was passed over leaves no trace in the text of a statement. -/
theorem formatStmt_withoutSkips (level : Nat) : ∀ n : Node,
    n.withoutSkips.formatStmt level = n.formatStmt level
  | .number .. | .str .. | .bool .. | .use .. | .declare .. | .skip .. | .declareAs .. | .assign ..
  | .arith .. | .compare .. | .sign .. | .call .. | .program .. => rfl
  | .block .. => by simp [withoutSkips, formatStmt, formatExpr]
  | .function _ _ _ _ body => by
    simp [withoutSkips, formatStmt, formatBody_dropSkips (level + 1) body]
  | .when _ _ _ yes => by simp [withoutSkips, formatStmt, formatBody_dropSkips (level + 1) yes]
  | .choose _ _ _ yes _ no => by
    simp [withoutSkips, formatStmt, formatBody_dropSkips (level + 1) yes,
      formatBody_dropSkips (level + 1) no]
  | .whileLoop _ _ _ body => by
    simp [withoutSkips, formatStmt, formatBody_dropSkips (level + 1) body]
  | .forLoop _ _ _ _ _ body => by
    simp [withoutSkips, formatStmt, formatBody_dropSkips (level + 1) body]

theorem formatBody_dropSkips (level : Nat) : ∀ ns : List Node,
    formatBody level (dropSkips ns) = formatBody level ns
  | [] => rfl
  | n :: rest => by
    have hn := formatStmt_withoutSkips level n
    have hrest := formatBody_dropSkips level rest
    rw [dropSkips, formatBody_cons]
    split
    · exact hrest
    · rw [formatBody_cons, if_neg (by simpa using ‹¬n.isSkip = true›), hn, hrest]

end

theorem formatStmt_core (level : Nat) (n : Node) : n.core.formatStmt level = n.formatStmt level := by
  rw [core, formatStmt_bare, formatStmt_withoutSkips]

end Node

/-- The canonical text of a program depends on its core alone. -/
theorem Program.format_core (p : Program) : p.core.format = p.format := by
  have hglobals : p.core.globals.map (Node.formatStmt 0) = p.globals.map (Node.formatStmt 0) := by
    simp [Program.core, Node.formatStmt_bare]
  have hfunctions : ∀ (follows : Bool) (fs : List Function),
      formatFunctions follows (fs.map Function.core) = formatFunctions follows fs := by
    intro follows fs
    induction fs generalizing follows with
    | nil => rfl
    | cons f fs ih => simp [formatFunctions, Function.node_core, Node.formatStmt_core, ih]
  have hempty : p.core.globals.isEmpty = p.globals.isEmpty := by simp [Program.core]
  rw [format, format, hglobals, hempty]
  show Text.join _ (_ ++ formatFunctions _ (p.functions.map Function.core)) ++ _ = _
  rw [hfunctions]

end ScriptKit
