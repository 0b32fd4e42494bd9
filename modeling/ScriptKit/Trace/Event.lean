import ScriptKit.Diagnostic
import ScriptKit.Tree.Basic

/-!
# Trace events

What a run reports while it goes on: its start and end, the start and end of each call of a function,
each call of a builtin and each declaration, with the place in the source.
-/

namespace ScriptKit

namespace Trace

/-- What happened. -/
inductive Happening where
  | runStart
  | runEnd (ok : Bool)
  | callStart (function : Text)
  | callEnd (function : Text) (ok : Bool)
  | builtinCall (function : Text) (args : Nat)
  | declared (name : Text) (type : VarType) (depth : Nat)
  deriving DecidableEq, Repr, Inhabited

/-- Something that happened and where. -/
structure Event where
  span : Span
  what : Happening
  deriving DecidableEq, Repr, Inhabited

namespace Happening

/-- The name of a kind of event. -/
def name : Happening → Text
  | .runStart => "run_start"
  | .runEnd _ => "run_end"
  | .callStart _ => "fn_call_start"
  | .callEnd _ _ => "fn_call_end"
  | .builtinCall _ _ => "builtin_call"
  | .declared _ _ _ => "var_declare"

/-- A truth value in the data of an event. -/
def truth (b : Bool) : Text := if b then "true" else "false"

/-- The data of an event, in increasing order of the keys. -/
def data : Happening → List (Text × Text)
  | .runStart => []
  | .runEnd ok => [("ok", truth ok)]
  | .callStart function => [("fn", function)]
  | .callEnd function ok => [("fn", function), ("ok", truth ok)]
  | .builtinCall function args => [("args", Text.ofNat args), ("fn", function)]
  | .declared name type depth =>
    [("depth", Text.ofNat depth), ("name", name), ("type", type.name)]

end Happening

namespace Event

/-- The field of the data of an event, left out when there are none. -/
def dataField (data : List (Text × Text)) : List (Text × Json) :=
  if data.isEmpty then []
  else [Json.field "data" (.object (data.map fun (key, value) => (key, .string value)))]

/-- The fields of an event that do not depend on when and in which run it happened. -/
def fields (e : Event) : List (Text × Json) :=
  [Json.field "event" (.string e.what.name), Json.field "span" (Diagnostic.spanJson e.span)] ++
    dataField e.what.data

/-- An event as a line of a trace file. -/
def line (time run : Text) (e : Event) : Text :=
  (Json.object ([Json.field "ts" (.string time), Json.field "runId" (.string run)] ++ e.fields)).write
    ++ "\n"

end Event

end Trace

end ScriptKit
