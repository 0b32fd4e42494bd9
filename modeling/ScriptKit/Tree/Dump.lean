import ScriptKit.Text.Quoted
import ScriptKit.Tree.Walk

/-!
# Dumping trees

A dump shows every field of every node, each on a line of its own, with two more spaces for each level.
It follows the links from a block to the block around it and from a call to the function it calls, so the
same node can come up many times. A node that is being shown, or was shown one level up just before, is not
shown again: the dump keeps the nodes it has shown with their levels, and forgets those of a level when it
comes back to that level or above it.

Nodes are told apart by their kinds and spans, which no two nodes of a program read from one source share.
-/

namespace ScriptKit

namespace Dump

/-- What a field of a node holds. -/
inductive Field where
  /-- A value that is shown on the line of the field. -/
  | leaf (shown : Text)
  /-- A group of values on lines of their own. -/
  | group (type : Text) (fields : List (Text × Text))
  /-- A link to a node of a kind, which may be absent. -/
  | link (kind : Text) (target : Option Node)
  /-- A list of nodes. -/
  | nodes (type : Text) (items : List Node)

/-! ## Leaves -/

/-- The type of a value in front of it. -/
def typed (type shown : Text) : Text := "(" ++ type ++ ") " ++ shown

/-- A text, with its length in bytes unless it is empty. -/
def text (type t : Text) : Text :=
  if t.isEmpty then typed type t.quoted
  else typed type ("(len=" ++ Text.ofNat t.toBytes.length ++ ") " ++ t.quoted)

/-- The position fields of a span. -/
def spanFields (s : Span) : List (Text × Text) :=
  [("File", text "string" s.file), ("StartLine", typed "int" (Text.ofNat s.start.line)),
   ("StartCol", typed "int" (Text.ofNat s.start.col)), ("EndLine", typed "int" (Text.ofNat s.stop.line)),
   ("EndCol", typed "int" (Text.ofNat s.stop.col))]

/-- The name of the type of a kind of node. -/
def typeName (kind : Text) : Text := "*ast." ++ kind

/-! ## Fields -/

/-- The field of the span of a node. -/
def spanField (s : Span) : Text × Field := ("Span", .group "ast.Span" (spanFields s))

/-- The field of a name. -/
def nameField (name : Text) : Text × Field := ("Name", .leaf (text "string" name))

/-- The field of a type. -/
def typeField (type : VarType) : Text × Field := ("Type", .leaf (typed "ast.VarType" type.name))

/-- A field that holds a node. -/
def child (field : Text) (n : Node) : Text × Field := (field, .link n.kind (some n))

/-- A field that holds a list of nodes of any kind. -/
def list (field : Text) (items : List Node) : Text × Field := (field, .nodes "[]ast.Node" items)

/-- The block that begins at a position; the block around all others if there is no such block. -/
def blockAt (p : Program) (start : Pos) : Node :=
  (p.node.preorder.find? fun n =>
    match n with
    | .block b _ => b.span.start == start
    | _ => false).getD (.block p.rootBraces [])

/-- The function a call calls. -/
def target (p : Program) : Callee → Option Node
  | .builtin => none
  | .function number => (p.function? number).map Function.node

/-- The fields of a node of a program, in the order in which they are shown. -/
def fields (p : Program) : Node → List (Text × Field)
  | .number s value => [spanField s, ("Value", .leaf (typed "int32" (Text.ofInt value.toInt)))]
  | .str s value => [spanField s, ("Value", .leaf (text "string" value))]
  | .bool s value => [spanField s, ("Value", .leaf (typed "bool" (if value then "true" else "false")))]
  | .use s name => [spanField s, nameField name]
  | .declare s name type => [spanField s, nameField name, typeField type]
  | .declareAs s name type value => [spanField s, nameField name, typeField type, child "Value" value]
  | .assign s name value => [spanField s, nameField name, child "Value" value]
  | .arith s left op right =>
    [spanField s, child "Left" left, ("Op", .leaf (text "ast.BinaryOp" op.symbol)), child "Right" right]
  | .compare s left op right =>
    [spanField s, child "Left" left, ("Op", .leaf (text "ast.CompareOp" op.symbol)), child "Right" right]
  | .sign s op operand =>
    [spanField s, ("Op", .leaf (text "ast.UnaryOp" op.symbol)), child "Operand" operand]
  | .block b body =>
    [spanField b.span, ("Parent", .link "Block" (b.parent.map (blockAt p))),
     ("Depth", .leaf (typed "int" (Text.ofNat b.depth))), list "Statements" body]
  | .function s name params b body =>
    [spanField s, nameField name, ("Params", .nodes "[]*ast.VariableDeclaration" (params.map Param.node)),
     child "Body" (.block b body)]
  | .call s name callee args =>
    [spanField s, nameField name, ("Target", .link "Function" (target p callee)), list "Args" args]
  | .when s cond b yes =>
    [spanField s, child "Cond" cond, child "Then" (.block b yes), ("Else", .link "Block" none)]
  | .choose s cond b yes c no =>
    [spanField s, child "Cond" cond, child "Then" (.block b yes), child "Else" (.block c no)]
  | .whileLoop s cond b body => [spanField s, child "Cond" cond, child "Body" (.block b body)]
  | .forLoop s init cond step b body =>
    [spanField s, child "Init" init, child "Cond" cond, child "Step" step, child "Body" (.block b body)]
  | .skip s skipped => [spanField s, ("Text", .leaf (text "string" skipped))]
  | .program s globals functions =>
    [spanField s, list "Globals" globals, ("Functions", .nodes "[]*ast.Function" functions),
     child "Scope" (.block p.rootBraces [])]

/-! ## Showing -/

/-- What tells a node from the others. -/
abbrev Key := Text × Span

/-- The nodes that count as shown, with their levels. -/
abbrev Shown := List (Key × Nat)

/-- The key of a node. -/
def key (n : Node) : Key := (n.kind, n.span)

/-- Forget what was shown at a level or below it. -/
def forget (level : Nat) (shown : Shown) : Shown := shown.filter fun s => s.2 < level

/-- The spaces in front of a line. -/
def indent (level : Nat) : Text := Text.repeated (2 * level) ' '

/-- Lines in braces. -/
def braced (level : Nat) (lines : List Text) : Text :=
  "\x7b\n" ++ Text.join ",\n" (lines.map fun l => indent (level + 1) ++ l) ++ "\n" ++ indent level ++
    "\x7d"

/-- Show several things one after the other. -/
def showAll {α : Type} (one : α → Shown → Text × Shown) : List α → Shown → List Text × Shown
  | [], shown => ([], shown)
  | a :: rest, shown =>
    let (line, shown) := one a shown
    let (lines, shown) := showAll one rest shown
    (line :: lines, shown)

/-- Show a field at a level. `node` shows a node at a given level. -/
def showField (node : Nat → Node → Shown → Text × Shown) (level : Nat) (field : Text × Field)
    (shown : Shown) : Text × Shown :=
  let (name, value) := field
  let (line, shown) :=
    match value with
    | .leaf line => (line, shown)
    | .group type fields => (typed type (braced level (fields.map fun (n, v) => n ++ ": " ++ v)), shown)
    | .link kind none => ("(" ++ typeName kind ++ ")(<nil>)", forget level shown)
    | .link _ (some n) => node level n shown
    | .nodes type [] => (typed type "<nil>", shown)
    | .nodes type items =>
      let (lines, shown) := showAll (node (level + 1)) items shown
      (typed type ("(len=" ++ Text.ofNat items.length ++ ") " ++ braced level lines), shown)
  (name ++ ": " ++ line, shown)

/-- Show a node at a level, with at most `n` nodes being shown at a time. -/
def showNode (p : Program) : Nat → Nat → Node → Shown → Text × Shown
  | 0, _, _, shown => ([], shown)
  | n + 1, level, node, shown =>
    let shown := forget level shown
    let head := "(" ++ typeName node.kind ++ ")("
    if shown.any fun s => s.1 == key node then (head ++ "<already shown>)", shown)
    else
      let (lines, shown) :=
        showAll (showField (showNode p n) (level + 1)) (fields p node) ((key node, level) :: shown)
      (head ++ braced level lines ++ ")", shown)

end Dump

/-- A dump of a program. The nodes being shown at any time are different ones, and besides the nodes of
the tree there is only the block around all others. -/
def Program.dump (p : Program) : Text :=
  (Dump.showNode p (p.node.preorder.length + 2) 0 p.node []).1 ++ "\n"

end ScriptKit
