import ScriptKit.Proofs.Tree.Core

/-!
# Trees of the same core

Two nodes of the same core are of the same kind, and their parts have the same core again. `Node.Alike`
lists the ways in which this can be, one for each kind of node, and `alike_of_core` is the inversion that
proofs about two such nodes start with.

The functions of programs of the same core correspond to one another, number by number.
-/

namespace ScriptKit

namespace Node

/-! ## Places and skipped tokens are independent -/

mutual

theorem withoutSkips_bare : ∀ n : Node, n.bare.withoutSkips = n.withoutSkips.bare
  | .block _ body => by rw [bare, withoutSkips, withoutSkips, bare, dropSkips_bareAll body]
  | .function _ _ _ _ body => by rw [bare, withoutSkips, withoutSkips, bare, dropSkips_bareAll body]
  | .when _ _ _ yes => by rw [bare, withoutSkips, withoutSkips, bare, dropSkips_bareAll yes]
  | .choose _ _ _ yes _ no => by
    rw [bare, withoutSkips, withoutSkips, bare, dropSkips_bareAll yes, dropSkips_bareAll no]
  | .whileLoop _ _ _ body => by rw [bare, withoutSkips, withoutSkips, bare, dropSkips_bareAll body]
  | .forLoop _ _ _ _ _ body => by rw [bare, withoutSkips, withoutSkips, bare, dropSkips_bareAll body]
  | .number .. | .str .. | .bool .. | .use .. | .declare .. | .declareAs .. | .assign .. | .arith ..
  | .compare .. | .sign .. | .call .. | .skip .. | .program .. => rfl

theorem dropSkips_bareAll : ∀ ns : List Node, dropSkips (bareAll ns) = bareAll (dropSkips ns)
  | [] => rfl
  | n :: ns => by
    rw [bareAll, dropSkips, dropSkips, isSkip_bare, withoutSkips_bare n, dropSkips_bareAll ns]
    split <;> rfl

end

/-- Nodes that differ in places only say the same. -/
theorem core_of_bare {n n' : Node} (h : n.bare = n'.bare) : n.core = n'.core := by
  rw [core, core, ← withoutSkips_bare, ← withoutSkips_bare, h]

mutual

theorem bare_bare : ∀ n : Node, n.bare.bare = n.bare
  | .number .. | .str .. | .bool .. | .use .. | .declare .. | .skip .. => rfl
  | .declareAs _ _ _ value => by rw [bare, bare, bare_bare value]
  | .assign _ _ value => by rw [bare, bare, bare_bare value]
  | .arith _ left _ right => by rw [bare, bare, bare_bare left, bare_bare right]
  | .compare _ left _ right => by rw [bare, bare, bare_bare left, bare_bare right]
  | .sign _ _ operand => by rw [bare, bare, bare_bare operand]
  | .block _ body => by rw [bare, bare, bareAll_bareAll body]
  | .function _ _ _ _ body => by
    rw [bare, bare, bareAll_bareAll body, List.map_map]
    rfl
  | .call _ _ _ args => by rw [bare, bare, bareAll_bareAll args]
  | .when _ cond _ yes => by rw [bare, bare, bare_bare cond, bareAll_bareAll yes]
  | .choose _ cond _ yes _ no => by
    rw [bare, bare, bare_bare cond, bareAll_bareAll yes, bareAll_bareAll no]
  | .whileLoop _ cond _ body => by rw [bare, bare, bare_bare cond, bareAll_bareAll body]
  | .forLoop _ init cond step _ body => by
    rw [bare, bare, bare_bare init, bare_bare cond, bare_bare step, bareAll_bareAll body]
  | .program _ globals functions => by
    rw [bare, bare, bareAll_bareAll globals, bareAll_bareAll functions]

theorem bareAll_bareAll : ∀ ns : List Node, bareAll (bareAll ns) = bareAll ns
  | [] => rfl
  | n :: ns => by rw [bareAll, bareAll, bare_bare n, bareAll_bareAll ns]

end

mutual

theorem withoutSkips_withoutSkips : ∀ n : Node, n.withoutSkips.withoutSkips = n.withoutSkips
  | .block _ body => by rw [withoutSkips, withoutSkips, dropSkips_dropSkips body]
  | .function _ _ _ _ body => by rw [withoutSkips, withoutSkips, dropSkips_dropSkips body]
  | .when _ _ _ yes => by rw [withoutSkips, withoutSkips, dropSkips_dropSkips yes]
  | .choose _ _ _ yes _ no => by
    rw [withoutSkips, withoutSkips, dropSkips_dropSkips yes, dropSkips_dropSkips no]
  | .whileLoop _ _ _ body => by rw [withoutSkips, withoutSkips, dropSkips_dropSkips body]
  | .forLoop _ _ _ _ _ body => by rw [withoutSkips, withoutSkips, dropSkips_dropSkips body]
  | .number .. | .str .. | .bool .. | .use .. | .declare .. | .declareAs .. | .assign .. | .arith ..
  | .compare .. | .sign .. | .call .. | .skip .. | .program .. => rfl

theorem dropSkips_dropSkips : ∀ ns : List Node, dropSkips (dropSkips ns) = dropSkips ns
  | [] => rfl
  | n :: ns => by
    rw [dropSkips]
    split
    · exact dropSkips_dropSkips ns
    · next hskip =>
      rw [dropSkips, isSkip_withoutSkips, if_neg hskip, withoutSkips_withoutSkips n,
        dropSkips_dropSkips ns]

end

theorem coreAll_bareAll (ns : List Node) : coreAll (bareAll ns) = coreAll ns := by
  rw [coreAll, coreAll, dropSkips_bareAll, bareAll_bareAll]

theorem coreAll_dropSkips (ns : List Node) : coreAll (dropSkips ns) = coreAll ns := by
  rw [coreAll, coreAll, dropSkips_dropSkips]

/-! ## Inversion -/

/-- Nodes of the same kind whose parts say the same. -/
inductive Alike : Node → Node → Prop
  | number {s s' : Span} {value : Int32} : Alike (.number s value) (.number s' value)
  | str {s s' : Span} {value : Text} : Alike (.str s value) (.str s' value)
  | bool {s s' : Span} {value : Bool} : Alike (.bool s value) (.bool s' value)
  | use {s s' : Span} {name : Text} : Alike (.use s name) (.use s' name)
  | declare {s s' : Span} {name : Text} {type : VarType} :
    Alike (.declare s name type) (.declare s' name type)
  | declareAs {s s' : Span} {name : Text} {type : VarType} {value value' : Node} :
    value.bare = value'.bare → Alike (.declareAs s name type value) (.declareAs s' name type value')
  | assign {s s' : Span} {name : Text} {value value' : Node} :
    value.bare = value'.bare → Alike (.assign s name value) (.assign s' name value')
  | arith {s s' : Span} {op : Arith} {left left' right right' : Node} :
    left.bare = left'.bare → right.bare = right'.bare →
      Alike (.arith s left op right) (.arith s' left' op right')
  | compare {s s' : Span} {op : Relation} {left left' right right' : Node} :
    left.bare = left'.bare → right.bare = right'.bare →
      Alike (.compare s left op right) (.compare s' left' op right')
  | sign {s s' : Span} {op : Sign} {operand operand' : Node} :
    operand.bare = operand'.bare → Alike (.sign s op operand) (.sign s' op operand')
  | block {b b' : Braces} {body body' : List Node} :
    coreAll body = coreAll body' → Alike (.block b body) (.block b' body')
  | function {s s' : Span} {name name' : Text} {params params' : List Param} {b b' : Braces}
      {body body' : List Node} :
    Alike (.function s name params b body) (.function s' name' params' b' body')
  | call {s s' : Span} {name : Text} {callee : Callee} {args args' : List Node} :
    bareAll args = bareAll args' → Alike (.call s name callee args) (.call s' name callee args')
  | when {s s' : Span} {cond cond' : Node} {b b' : Braces} {yes yes' : List Node} :
    cond.bare = cond'.bare → coreAll yes = coreAll yes' →
      Alike (.when s cond b yes) (.when s' cond' b' yes')
  | choose {s s' : Span} {cond cond' : Node} {b b' c c' : Braces} {yes yes' no no' : List Node} :
    cond.bare = cond'.bare → coreAll yes = coreAll yes' → coreAll no = coreAll no' →
      Alike (.choose s cond b yes c no) (.choose s' cond' b' yes' c' no')
  | whileLoop {s s' : Span} {cond cond' : Node} {b b' : Braces} {body body' : List Node} :
    cond.bare = cond'.bare → coreAll body = coreAll body' →
      Alike (.whileLoop s cond b body) (.whileLoop s' cond' b' body')
  | forLoop {s s' : Span} {init init' cond cond' step step' : Node} {b b' : Braces}
      {body body' : List Node} :
    init.bare = init'.bare → cond.bare = cond'.bare → step.bare = step'.bare →
      coreAll body = coreAll body' →
      Alike (.forLoop s init cond step b body) (.forLoop s' init' cond' step' b' body')
  | skip {s s' : Span} {text text' : Text} : Alike (.skip s text) (.skip s' text')
  | program {s s' : Span} {globals globals' functions functions' : List Node} :
    Alike (.program s globals functions) (.program s' globals' functions')

theorem alike_of_core {n n' : Node} (h : n.core = n'.core) : Alike n n' := by
  -- The core of a node begins with its kind: `injection` closes the cases of two kinds, and gives the parts in
  -- those of one.
  cases n with
  | number =>
    cases n' with
    | number =>
      injection h with _ h
      exact h ▸ .number
    | _ => injection h
  | str =>
    cases n' with
    | str =>
      injection h with _ h
      exact h ▸ .str
    | _ => injection h
  | bool =>
    cases n' with
    | bool =>
      injection h with _ h
      exact h ▸ .bool
    | _ => injection h
  | use =>
    cases n' with
    | use =>
      injection h with _ h
      exact h ▸ .use
    | _ => injection h
  | declare =>
    cases n' with
    | declare =>
      injection h with _ hname htype
      exact hname ▸ htype ▸ .declare
    | _ => injection h
  | declareAs =>
    cases n' with
    | declareAs =>
      injection h with _ hname htype hvalue
      exact hname ▸ htype ▸ .declareAs hvalue
    | _ => injection h
  | assign =>
    cases n' with
    | assign =>
      injection h with _ hname hvalue
      exact hname ▸ .assign hvalue
    | _ => injection h
  | arith =>
    cases n' with
    | arith =>
      injection h with _ hleft hop hright
      exact hop ▸ .arith hleft hright
    | _ => injection h
  | compare =>
    cases n' with
    | compare =>
      injection h with _ hleft hop hright
      exact hop ▸ .compare hleft hright
    | _ => injection h
  | sign =>
    cases n' with
    | sign =>
      injection h with _ hop hoperand
      exact hop ▸ .sign hoperand
    | _ => injection h
  | block =>
    cases n' with
    | block =>
      injection h with _ hbody
      exact .block hbody
    | _ => injection h
  | function =>
    cases n' with
    -- a function does nothing where it stands, so nothing is asked of its body
    | function => exact .function
    | _ => injection h
  | call =>
    cases n' with
    | call =>
      injection h with _ hname hcallee hargs
      exact hname ▸ hcallee ▸ .call hargs
    | _ => injection h
  | when =>
    cases n' with
    | when =>
      injection h with _ hcond _ hyes
      exact .when hcond hyes
    | _ => injection h
  | choose =>
    cases n' with
    | choose =>
      injection h with _ hcond _ hyes _ hno
      exact .choose hcond hyes hno
    | _ => injection h
  | whileLoop =>
    cases n' with
    | whileLoop =>
      injection h with _ hcond _ hbody
      exact .whileLoop hcond hbody
    | _ => injection h
  | forLoop =>
    cases n' with
    | forLoop =>
      injection h with _ hinit hcond hstep _ hbody
      exact .forLoop hinit hcond hstep hbody
    | _ => injection h
  | skip =>
    cases n' with
    | skip => exact .skip
    | _ => injection h
  | program =>
    cases n' with
    | program => exact .program
    | _ => injection h

/-! ## Functions -/

/-- What the functions below a node say. -/
def cores (n : Node) : List Function := n.functions.map Function.core

theorem cores_eq (n : Node) :
    n.cores = n.function?.toList.map Function.core ++ n.children.flatMap cores := by
  rw [cores, functions_eq, List.map_append, List.map_flatMap]
  rfl

/-- The function a node declares itself comes before those below it. -/
theorem cores_gathered (n : Node) :
    n.cores = n.function?.toList.map Function.core ++ n.children.flatMap cores ++ [] := by
  rw [List.append_nil, cores_eq]

theorem cores_bare (n : Node) : n.bare.cores = n.cores := by
  refine gather_bare cores_gathered (fun n => ?_) (fun _ => rfl) n
  cases n with
  | function span name params braces body =>
    show [Function.core ⟨_, _, _, _, _⟩] = [Function.core ⟨_, _, _, _, _⟩]
    simp only [Function.core, List.map_map, coreAll_bareAll]
    rfl
  | _ => rfl

theorem cores_withoutSkips (n : Node) : n.withoutSkips.cores = n.cores := by
  refine gather_withoutSkips cores_gathered (fun n => ?_) (fun _ => rfl) (fun _ _ => rfl) n
  cases n with
  | function span name params braces body =>
    show [Function.core ⟨_, _, _, _, _⟩] = [Function.core ⟨_, _, _, _, _⟩]
    simp only [Function.core, coreAll_dropSkips]
  | _ => rfl

theorem cores_core (n : Node) : n.core.cores = n.cores := by
  rw [core, cores_bare, cores_withoutSkips]

end Node

/-- What the functions of a program say depends on its core alone. -/
theorem Program.allFunctions_core (p : Program) :
    p.core.allFunctions.map Function.core = p.allFunctions.map Function.core := by
  have hcores : ∀ p : Program, p.allFunctions.map Function.core =
      p.globals.flatMap Node.cores ++ p.functions.flatMap fun f => f.node.cores := by
    intro p
    show p.node.cores = _
    rw [Node.cores_eq]
    simp [Program.node, Node.function?, Node.children, List.flatMap_map]
  rw [hcores, hcores, core, List.flatMap_map, List.flatMap_map]
  congr 1
  · exact congrArg (List.flatMap · _) (funext Node.cores_bare)
  · exact congrArg (List.flatMap · _) (funext fun f => Node.cores_core f.node)

end ScriptKit
