import ScriptKit.Text.Blank
import ScriptKit.Tree.Basic

/-!
# Canonical source text

`Program.format` writes a program in one fixed layout: two spaces for each level, one statement to a line,
an empty line before each function, and parentheses only where the grammar needs them. Statements that
were passed over while parsing are left out.

An addition stands without parentheses on the left of another one and needs them on the right. An operand
of a product or a comparison is a single factor, except that the left one may itself be a product.
-/

namespace ScriptKit

namespace Node

/-- Whether a node adds or subtracts. -/
def isAdditive : Node → Bool
  | .arith _ _ op _ => op.isAdditive
  | _ => false

/-- Whether a node is an operation on two operands. -/
def isOperation : Node → Bool
  | .arith .. | .compare .. => true
  | _ => false

/-- Put parentheses around a text if `wrap` asks for it. -/
def parens (wrap : Bool) (t : Text) : Text := if wrap then "(" ++ t ++ ")" else t

/-- The indentation of a level. -/
def indent (level : Nat) : Text := Text.repeated (2 * level) ' '

/-- A braced body whose statements are already written. -/
def braced (level : Nat) (lines : List Text) : Text :=
  if lines.isEmpty then "\x7b\x7d"
  else "\x7b\n" ++ Text.join "\n" lines ++ "\n" ++ indent level ++ "\x7d"

/-- The header of a function. -/
def header (name : Text) (params : List Param) : Text :=
  "func " ++ name ++ "(" ++ Text.join ", " (params.map fun p => p.type.name ++ " " ++ p.name) ++ ") "

mutual

/-- An expression in canonical form; a node that is no expression has none. -/
def formatExpr : Node → Text
  | .number _ value => Text.ofInt value.toInt
  | .str _ value => "\"" ++ value ++ "\""
  | .bool _ value => if value then "true" else "false"
  | .use _ name => name
  | .call _ name _ args => name ++ "(" ++ Text.join ", " (formatArgs args) ++ ")"
  | .sign _ op operand => op.symbol ++ parens operand.isOperation operand.formatExpr
  | .arith _ left op right =>
    if op.isAdditive then
      left.formatExpr ++ " " ++ op.symbol ++ " " ++ parens right.isAdditive right.formatExpr
    else
      parens (left.isComparison || left.isAdditive) left.formatExpr ++ " " ++ op.symbol ++ " " ++
        parens right.isOperation right.formatExpr
  | .compare _ left op right =>
    parens (left.isComparison || left.isAdditive) left.formatExpr ++ " " ++ op.symbol ++ " " ++
      parens right.isOperation right.formatExpr
  | _ => []

/-- Call arguments in canonical form. -/
def formatArgs : List Node → List Text
  | [] => []
  | n :: rest => n.formatExpr :: formatArgs rest

end

mutual

/-- A statement in canonical form at a level of nesting. -/
def formatStmt (level : Nat) : Node → Text
  | .declare _ name type => indent level ++ type.name ++ " " ++ name
  | .declareAs _ name type value =>
    indent level ++ type.name ++ " " ++ name ++ " = " ++ value.formatExpr
  | .assign _ name value => indent level ++ name ++ " = " ++ value.formatExpr
  | .function _ name params _ body =>
    indent level ++ header name params ++ braced level (formatBody (level + 1) body)
  | .when _ cond _ yes =>
    indent level ++ "if (" ++ cond.formatExpr ++ ") " ++ braced level (formatBody (level + 1) yes)
  | .choose _ cond _ yes _ no =>
    indent level ++ "if (" ++ cond.formatExpr ++ ") " ++ braced level (formatBody (level + 1) yes) ++
      " else " ++ braced level (formatBody (level + 1) no)
  | .whileLoop _ cond _ body =>
    indent level ++ "while (" ++ cond.formatExpr ++ ") " ++ braced level (formatBody (level + 1) body)
  | .forLoop _ init cond step _ body =>
    indent level ++ "for (" ++ (init.formatStmt 0).trim ++ "; " ++ cond.formatExpr ++ "; " ++
      (step.formatStmt 0).trim ++ ") " ++ braced level (formatBody (level + 1) body)
  | n => indent level ++ n.formatExpr

/-- The statements of a body in canonical form, without those that were passed over. -/
def formatBody (level : Nat) : List Node → List Text
  | [] => []
  | .skip _ _ :: rest => formatBody level rest
  | n :: rest => n.formatStmt level :: formatBody level rest

end

end Node

namespace Program

/-- The functions of a program in canonical form, with an empty line before each one that follows
something. -/
def formatFunctions (follows : Bool) : List Function → List Text
  | [] => []
  | f :: rest =>
    (if follows then [[]] else []) ++ f.node.formatStmt 0 :: formatFunctions true rest

/-- A program in canonical form. -/
def format (p : Program) : Text :=
  Text.join "\n" (p.globals.map (Node.formatStmt 0) ++ formatFunctions (!p.globals.isEmpty) p.functions)
    ++ "\n"

end Program

/-- Whether a text has a comment outside its string literals. `inString` tells whether reading starts
inside one. -/
def hasCommentsFrom (inString : Bool) : Text → Bool
  | [] => false
  | g :: rest =>
    if g = .char '"' then hasCommentsFrom (!inString) rest
    else if !inString && g = .char '/' && rest.head? = some (.char '/') then true
    else hasCommentsFrom inString rest

/-- Whether a source has a comment outside its string literals. -/
def hasComments (source : Text) : Bool := hasCommentsFrom false source

end ScriptKit
