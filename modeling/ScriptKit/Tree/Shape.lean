import ScriptKit.Text.Quoted
import ScriptKit.Tree.Basic

/-!
# Shapes

The shape of a node is its structure without places: its kind, a label and the shapes of its children,
written with one pair of parentheses for each node.
-/

namespace ScriptKit

namespace Node

/-- What tells a node from others of its kind. -/
def label : Node → Text
  | .number _ value => Text.ofInt value.toInt
  | .str _ value => value.quoted
  | .bool _ value => if value then "true" else "false"
  | .use _ name => name
  | .declare _ name type => type.name ++ " " ++ name
  | .declareAs _ name type _ => type.name ++ " " ++ name
  | .assign _ name _ => name
  | .arith _ _ op _ => op.symbol
  | .compare _ _ op _ => op.symbol
  | .sign _ op _ => op.symbol
  | .function _ name _ _ _ => name
  | .call _ name .builtin _ => name ++ " builtin"
  | .call _ name (.function _) _ => name
  | .skip _ text => text.quoted
  | .block .. | .when .. | .choose .. | .whileLoop .. | .forLoop .. | .program .. => []

/-- A pair of parentheses around a kind, a label unless it is empty, and the inner shapes. -/
def shapeOf (kind label inner : Text) : Text :=
  if label.isEmpty then "(" ++ kind ++ inner ++ ")" else "(" ++ kind ++ " " ++ label ++ inner ++ ")"

/-- The shapes of parameters, each after a space. -/
def paramShapes (params : List Param) : Text :=
  params.flatMap fun p => " " ++ shapeOf p.node.kind p.node.label []

mutual

/-- The shape of a node. -/
def shape : Node → Text
  | n@(.number ..) | n@(.str ..) | n@(.bool ..) | n@(.use ..) | n@(.declare ..) | n@(.skip ..) =>
    shapeOf n.kind n.label []
  | n@(.declareAs _ _ _ value) => shapeOf n.kind n.label (" " ++ value.shape)
  | n@(.assign _ _ value) => shapeOf n.kind n.label (" " ++ value.shape)
  | n@(.arith _ left _ right) => shapeOf n.kind n.label (" " ++ left.shape ++ " " ++ right.shape)
  | n@(.compare _ left _ right) => shapeOf n.kind n.label (" " ++ left.shape ++ " " ++ right.shape)
  | n@(.sign _ _ operand) => shapeOf n.kind n.label (" " ++ operand.shape)
  | .block _ body => shapeOf "Block" [] (shapes body)
  | n@(.function _ _ params _ body) =>
    shapeOf n.kind n.label (paramShapes params ++ " " ++ shapeOf "Block" [] (shapes body))
  | n@(.call _ _ _ args) => shapeOf n.kind n.label (shapes args)
  | n@(.when _ cond _ yes) =>
    shapeOf n.kind n.label (" " ++ cond.shape ++ " " ++ shapeOf "Block" [] (shapes yes))
  | n@(.choose _ cond _ yes _ no) =>
    shapeOf n.kind n.label (" " ++ cond.shape ++ " " ++ shapeOf "Block" [] (shapes yes) ++ " " ++
      shapeOf "Block" [] (shapes no))
  | n@(.whileLoop _ cond _ body) =>
    shapeOf n.kind n.label (" " ++ cond.shape ++ " " ++ shapeOf "Block" [] (shapes body))
  | n@(.forLoop _ init cond step _ body) =>
    shapeOf n.kind n.label (" " ++ init.shape ++ " " ++ cond.shape ++ " " ++ step.shape ++ " " ++
      shapeOf "Block" [] (shapes body))
  | n@(.program _ globals functions) =>
    shapeOf n.kind n.label (shapes globals ++ shapes functions)

/-- The shapes of several nodes, each after a space. -/
def shapes : List Node → Text
  | [] => []
  | n :: rest => " " ++ n.shape ++ shapes rest

end

end Node

/-- The shape of a program. -/
def Program.shape (p : Program) : Text := p.node.shape

end ScriptKit
