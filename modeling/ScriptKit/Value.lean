import ScriptKit.Json.Basic
import ScriptKit.Tree.Basic

/-!
# Values

A value is a 32-bit integer, a text or a truth value. A statement, and a call of a function, has none.
Arithmetic wraps around; a text counts as an integer where one is wanted if it is a numeral that fits.
-/

namespace ScriptKit

/-- A value of the language. -/
inductive Value where
  | int (n : Int32)
  | str (t : Text)
  | bool (b : Bool)
  deriving DecidableEq, Repr, Inhabited

namespace Value

/-- A value as text. -/
def text : Value → Text
  | .int n => Text.ofInt n.toInt
  | .str t => t
  | .bool true => "true"
  | .bool false => "false"

/-- The integer a value counts as, if any. -/
def toInt? : Value → Option Int32
  | .int n => some n
  | .str t => t.readInt32
  | .bool _ => none

/-- The value a variable of a given type starts with. -/
def default : VarType → Value
  | .string => .str []
  | .bool => .bool false
  | .int | .unknown => .int 0

/-- A value as JSON. -/
def toJson : Value → Json
  | .int n => .int n.toInt
  | .str t => .string t
  | .bool b => .bool b

/-- The name of the type of a value, or of having none. -/
def typeName : Option Value → Text
  | some (.int _) => "int"
  | some (.str _) => "string"
  | some (.bool _) => "bool"
  | none => "no value"

/-- A value, or none, as JSON. -/
def optionToJson : Option Value → Json
  | some v => v.toJson
  | none => .null

/-- The value of a line of input: an integer if the line is a numeral that fits, its text otherwise. -/
def ofLine (t : Text) : Value :=
  match t.readInt32 with
  | some n => .int n
  | none => .str t

end Value

end ScriptKit
