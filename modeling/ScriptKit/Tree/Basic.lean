import ScriptKit.Span
import ScriptKit.Text.Numeral

/-!
# Program trees

A program is a list of global declarations and a list of functions. Expressions and statements are nodes
of one type, because a run may meet any node in any position and has an answer for each.

A braced statement list is written out in the node that owns it as its `Braces` (where it stands) and its
statements. A call knows its callee: a builtin, or the number of the function it was resolved to. Names
alone would not do, since a function may be declared inside another one of the same name.
-/

namespace ScriptKit

/-! ## Types and operators -/

/-- The declared type of a variable. -/
inductive VarType where
  | int
  | string
  | bool
  /-- A type outside the language. -/
  | unknown
  deriving DecidableEq, Repr, Inhabited

/-- The name of a type. -/
def VarType.name : VarType → Text
  | .int => "int"
  | .string => "string"
  | .bool => "bool"
  | .unknown => "unknown"

/-- An arithmetic operator. -/
inductive Arith where
  | add
  | sub
  | mul
  | div
  /-- An operator outside the language. -/
  | other (symbol : Text)
  deriving DecidableEq, Repr, Inhabited

namespace Arith

/-- How an operator is written. -/
def symbol : Arith → Text
  | .add => "+"
  | .sub => "-"
  | .mul => "*"
  | .div => "/"
  | .other symbol => symbol

/-- The operator written with a symbol. -/
def ofSymbol (s : Text) : Arith :=
  (([.add, .sub, .mul, .div] : List Arith).find? fun op => op.symbol == s).getD (.other s)

/-- Whether an operator adds or subtracts. -/
def isAdditive : Arith → Bool
  | .add | .sub => true
  | _ => false

end Arith

/-- A comparison operator. -/
inductive Relation where
  | eq
  | ne
  | gt
  | lt
  | ge
  | le
  /-- An operator outside the language. -/
  | other (symbol : Text)
  deriving DecidableEq, Repr, Inhabited

namespace Relation

/-- How an operator is written. -/
def symbol : Relation → Text
  | .eq => "=="
  | .ne => "!="
  | .gt => ">"
  | .lt => "<"
  | .ge => ">="
  | .le => "<="
  | .other symbol => symbol

/-- The operator written with a symbol. -/
def ofSymbol (s : Text) : Relation :=
  (([.eq, .ne, .gt, .lt, .ge, .le] : List Relation).find? fun op => op.symbol == s).getD (.other s)

end Relation

/-- A sign in front of an operand. -/
inductive Sign where
  | plus
  | minus
  /-- A sign outside the language. -/
  | other (symbol : Text)
  deriving DecidableEq, Repr, Inhabited

namespace Sign

/-- How a sign is written. -/
def symbol : Sign → Text
  | .plus => "+"
  | .minus => "-"
  | .other symbol => symbol

/-- The sign written with a symbol. -/
def ofSymbol (s : Text) : Sign :=
  (([.plus, .minus] : List Sign).find? fun op => op.symbol == s).getD (.other s)

end Sign

/-! ## Nodes -/

/-- Where a braced statement list stands. -/
structure Braces where
  /-- From the opening to the closing brace. -/
  span : Span
  /-- Where the block around it begins; the block around all others begins with the program. -/
  parent : Option Pos := none
  /-- How many blocks are around it. -/
  depth : Nat := 0
  deriving DecidableEq, Repr, Inhabited

/-- A parameter of a function. -/
structure Param where
  span : Span
  name : Text
  type : VarType
  deriving DecidableEq, Repr, Inhabited

/-- What a call calls: a builtin, or the function with a given number. The functions of a program are
numbered from zero in the order in which they begin, nested ones included. -/
inductive Callee where
  | builtin
  | function (number : Nat)
  deriving DecidableEq, Repr, Inhabited

/-- An expression or a statement. -/
inductive Node where
  | number (span : Span) (value : Int32)
  /-- A string literal, in which a name after a dollar sign stands for the variable's value. -/
  | str (span : Span) (value : Text)
  | bool (span : Span) (value : Bool)
  | use (span : Span) (name : Text)
  | declare (span : Span) (name : Text) (type : VarType)
  | declareAs (span : Span) (name : Text) (type : VarType) (value : Node)
  | assign (span : Span) (name : Text) (value : Node)
  | arith (span : Span) (left : Node) (op : Arith) (right : Node)
  | compare (span : Span) (left : Node) (op : Relation) (right : Node)
  | sign (span : Span) (op : Sign) (operand : Node)
  | block (braces : Braces) (body : List Node)
  | function (span : Span) (name : Text) (params : List Param) (braces : Braces) (body : List Node)
  | call (span : Span) (name : Text) (callee : Callee) (args : List Node)
  /-- A conditional without an alternative. -/
  | when (span : Span) (cond : Node) (braces : Braces) (yes : List Node)
  /-- A conditional with an alternative. -/
  | choose (span : Span) (cond : Node) (yesBraces : Braces) (yes : List Node) (noBraces : Braces)
      (no : List Node)
  | whileLoop (span : Span) (cond : Node) (braces : Braces) (body : List Node)
  | forLoop (span : Span) (init cond step : Node) (braces : Braces) (body : List Node)
  /-- A token that begins no statement and was passed over. -/
  | skip (span : Span) (text : Text)
  /-- A whole program in the place of a statement. -/
  | program (span : Span) (globals functions : List Node)
  deriving Repr, Inhabited

/-- A function: its name, its parameters and its body. -/
structure Function where
  span : Span
  name : Text
  params : List Param
  braces : Braces
  body : List Node
  deriving Repr, Inhabited

/-- A program. It starts with the last of its functions. -/
structure Program where
  span : Span
  globals : List Node
  functions : List Function
  deriving Repr, Inhabited

namespace Node

/-- The stretch of source a node was read from. -/
def span : Node → Span
  | .number s _ | .str s _ | .bool s _ | .use s _ | .declare s _ _ | .declareAs s _ _ _
  | .assign s _ _ | .arith s _ _ _ | .compare s _ _ _ | .sign s _ _ | .function s _ _ _ _
  | .call s _ _ _ | .when s _ _ _ | .choose s _ _ _ _ _ | .whileLoop s _ _ _
  | .forLoop s _ _ _ _ _ | .skip s _ | .program s _ _ => s
  | .block b _ => b.span

/-- What a node is called in messages and listings. -/
def kind : Node → Text
  | .number .. => "Number"
  | .str .. => "Str"
  | .bool .. => "Bool"
  | .use .. => "VariableUsage"
  | .declare .. => "VariableDeclaration"
  | .declareAs .. => "VariableDeclarationAssign"
  | .assign .. => "VariableAssign"
  | .arith .. => "Binary"
  | .compare .. => "Comparison"
  | .sign .. => "Unary"
  | .block .. => "Block"
  | .function .. => "Function"
  | .call .. => "FunctionCall"
  | .when .. => "If"
  | .choose .. => "If"
  | .whileLoop .. => "While"
  | .forLoop .. => "For"
  | .skip .. => "NoOp"
  | .program .. => "Program"

/-- Whether a node is a comparison, which alone may decide a condition. -/
def isComparison : Node → Bool
  | .compare .. => true
  | _ => false

/-- Whether a node was passed over. -/
def isSkip : Node → Bool
  | .skip .. => true
  | _ => false

end Node

/-- A parameter as the declaration it is. -/
def Param.node (p : Param) : Node := .declare p.span p.name p.type

/-- A function as the statement that declares it. -/
def Function.node (f : Function) : Node := .function f.span f.name f.params f.braces f.body

namespace Program

/-- A program as a node. -/
def node (p : Program) : Node := .program p.span p.globals (p.functions.map Function.node)

/-- The function a program starts with. -/
def entry? (p : Program) : Option Function := p.functions.getLast?

/-- The block around all others. -/
def rootBraces (p : Program) : Braces := ⟨p.span, none, 0⟩

end Program

end ScriptKit
