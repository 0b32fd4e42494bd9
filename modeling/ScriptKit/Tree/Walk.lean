import ScriptKit.Tree.Basic

/-!
# Walking trees

A walk visits a node and then its children from left to right. The children of a function are its
parameters and its body block; a block stands for itself between its owner and its statements.
-/

namespace ScriptKit

namespace Node

/-- The direct children of a node, in source order. -/
def children : Node → List Node
  | .number .. | .str .. | .bool .. | .use .. | .declare .. | .skip .. => []
  | .declareAs _ _ _ value => [value]
  | .assign _ _ value => [value]
  | .arith _ left _ right => [left, right]
  | .compare _ left _ right => [left, right]
  | .sign _ _ operand => [operand]
  | .block _ body => body
  | .function _ _ params braces body => params.map Param.node ++ [.block braces body]
  | .call _ _ _ args => args
  | .when _ cond braces yes => [cond, .block braces yes]
  | .choose _ cond yesBraces yes noBraces no => [cond, .block yesBraces yes, .block noBraces no]
  | .whileLoop _ cond braces body => [cond, .block braces body]
  | .forLoop _ init cond step braces body => [init, cond, step, .block braces body]
  | .program _ globals functions => globals ++ functions

/-- Visit a node at a level of nesting, and what `inner` lists below it if `enter` allows. -/
def visit (enter : Node → Bool) (level : Nat) (n : Node) (inner : List (Nat × Node)) :
    List (Nat × Node) :=
  (level, n) :: if enter n then inner else []

mutual

/-- The nodes met on a walk that goes below a node only if `enter` allows, each with its level of
nesting below the start. -/
def walk (enter : Node → Bool) (level : Nat) : Node → List (Nat × Node)
  | n@(.number ..) | n@(.str ..) | n@(.bool ..) | n@(.use ..) | n@(.declare ..) | n@(.skip ..) =>
    visit enter level n []
  | n@(.declareAs _ _ _ value) => visit enter level n (value.walk enter (level + 1))
  | n@(.assign _ _ value) => visit enter level n (value.walk enter (level + 1))
  | n@(.arith _ left _ right) =>
    visit enter level n (left.walk enter (level + 1) ++ right.walk enter (level + 1))
  | n@(.compare _ left _ right) =>
    visit enter level n (left.walk enter (level + 1) ++ right.walk enter (level + 1))
  | n@(.sign _ _ operand) => visit enter level n (operand.walk enter (level + 1))
  | n@(.block _ body) => visit enter level n (walkAll enter (level + 1) body)
  | n@(.function _ _ params braces body) =>
    visit enter level n (params.map (fun p => (level + 1, p.node)) ++
      visit enter (level + 1) (.block braces body) (walkAll enter (level + 2) body))
  | n@(.call _ _ _ args) => visit enter level n (walkAll enter (level + 1) args)
  | n@(.when _ cond braces yes) =>
    visit enter level n (cond.walk enter (level + 1) ++
      visit enter (level + 1) (.block braces yes) (walkAll enter (level + 2) yes))
  | n@(.choose _ cond yesBraces yes noBraces no) =>
    visit enter level n (cond.walk enter (level + 1) ++
      visit enter (level + 1) (.block yesBraces yes) (walkAll enter (level + 2) yes) ++
      visit enter (level + 1) (.block noBraces no) (walkAll enter (level + 2) no))
  | n@(.whileLoop _ cond braces body) =>
    visit enter level n (cond.walk enter (level + 1) ++
      visit enter (level + 1) (.block braces body) (walkAll enter (level + 2) body))
  | n@(.forLoop _ init cond step braces body) =>
    visit enter level n (init.walk enter (level + 1) ++ cond.walk enter (level + 1) ++
      step.walk enter (level + 1) ++
      visit enter (level + 1) (.block braces body) (walkAll enter (level + 2) body))
  | n@(.program _ globals functions) =>
    visit enter level n (walkAll enter (level + 1) globals ++ walkAll enter (level + 1) functions)

/-- The nodes met on a walk over several nodes, one after the other. -/
def walkAll (enter : Node → Bool) (level : Nat) : List Node → List (Nat × Node)
  | [] => []
  | n :: rest => n.walk enter level ++ walkAll enter level rest

end

/-- A node and everything below it, each node before what is below it. -/
def preorder (n : Node) : List Node := (n.walk (fun _ => true) 0).map Prod.snd

/-- The function a node declares. -/
def function? : Node → Option Function
  | .function span name params braces body => some ⟨span, name, params, braces, body⟩
  | _ => none

end Node

namespace Program

/-- Every function of a program in the order in which they begin, nested ones included. -/
def allFunctions (p : Program) : List Function := p.node.preorder.filterMap Node.function?

/-- The function with a given number. -/
def function? (p : Program) (number : Nat) : Option Function := p.allFunctions[number]?

/-- The number of the last function of a given name. -/
def numberOf? (p : Program) (name : Text) : Option Nat :=
  let names := p.allFunctions.map Function.name
  (names.reverse.findIdx? (· == name)).map fun i => names.length - 1 - i

end Program

end ScriptKit
