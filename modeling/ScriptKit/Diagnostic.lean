import ScriptKit.Json.Basic
import ScriptKit.Span

/-!
# Diagnostics

What is reported about a program: a code, a message, the place it concerns and perhaps a hint. A list of
diagnostics is shown either as JSON or, for people, as a header, an arrow to the place and the hint,
in colour if asked for.
-/

namespace ScriptKit

/-- What kind of trouble a diagnostic reports. -/
inductive Code where
  | lex
  | parse
  | scope
  | type
  | programStructure
  | unknownFunction
  | builtin
  | io
  | canceled
  | config
  /-- A code that only the builtin that raised it knows. -/
  | custom (name : Text)
  deriving DecidableEq, Repr, Inhabited

namespace Code

/-- The name of a code. -/
def name : Code → Text
  | .lex => "E_LEX"
  | .parse => "E_PARSE"
  | .scope => "E_SCOPE"
  | .type => "E_TYPE"
  | .programStructure => "E_STRUCTURE"
  | .unknownFunction => "E_UNKNOWN_FN"
  | .builtin => "E_BUILTIN"
  | .io => "E_IO"
  | .canceled => "E_CANCELED"
  | .config => "E_CONFIG"
  | .custom name => name

/-- The codes with a fixed name. -/
def known : List Code :=
  [.lex, .parse, .scope, .type, .programStructure, .unknownFunction, .builtin, .io, .canceled, .config]

/-- The code with a given name. -/
def ofName (name : Text) : Code := (known.find? fun c => c.name == name).getD (.custom name)

/-- The family of errors a code belongs to. -/
def category : Code → Text
  | .lex => "LexError"
  | .parse => "ParseError"
  | .scope => "ScopeError"
  | .type => "RuntimeTypeError"
  | .programStructure => "ProgramStructureError"
  | .unknownFunction => "CallError"
  | .builtin => "CallError"
  | .io => "IOError"
  | .canceled => "Canceled"
  | .config => "ConfigError"
  | .custom _ => "Error"

/-- Whether a code is reported before a program starts to run. -/
def isCompileTime : Code → Bool
  | .lex => true
  | .parse => true
  | _ => false

/-- The exit status of a command that ends with this code: 2 for programs that cannot be read, 1 for
trouble with files and settings, 4 for everything a run or a check finds. -/
def exitStatus : Code → Nat
  | .lex => 2
  | .parse => 2
  | .io => 1
  | .config => 1
  | _ => 4

end Code

/-- A report about a program or its surroundings. -/
structure Diagnostic where
  code : Code
  message : Text
  span : Option Span
  hint : Text := []
  deriving DecidableEq, Repr, Inhabited

namespace Diagnostic

/-! ## As JSON -/

/-- A span as a JSON object. -/
def spanJson (s : Span) : Json :=
  .object [Json.field "file" (.string s.file), Json.field "startLine" (.nat s.start.line),
    Json.field "startCol" (.nat s.start.col), Json.field "endLine" (.nat s.stop.line),
    Json.field "endCol" (.nat s.stop.col)]

/-- The field of an optional span. -/
def spanField : Option Span → List (Text × Json)
  | some s => [Json.field "span" (spanJson s)]
  | none => []

/-- The field of a hint, left out when the hint is empty. -/
def hintField (hint : Text) : List (Text × Json) :=
  if hint.isEmpty then [] else [Json.field "hint" (.string hint)]

/-- A diagnostic as a JSON object; an absent span and an empty hint are left out. -/
def toJson (d : Diagnostic) : Json :=
  .object ([Json.field "code" (.string d.code.name), Json.field "message" (.string d.message)] ++
    spanField d.span ++ hintField d.hint)

/-! ## For people -/

/-- Wrap a text in a colour sequence, if colour is wanted. -/
def paint (colour : Bool) (attributes t : Text) : Text :=
  if colour then "\x1b[" ++ attributes ++ "m" ++ t ++ "\x1b[0m" else t

/-- Where a diagnostic points to. -/
def location (d : Diagnostic) : Text :=
  match d.span with
  | some s => s.file ++ ":" ++ Text.ofNat s.start.line ++ ":" ++ Text.ofNat s.start.col
  | none => "<unknown>"

/-- The line of a hint, left out when the hint is empty. -/
def hintLine (colour : Bool) (hint : Text) : Text :=
  if hint.isEmpty then [] else "\n  " ++ paint colour "36" "hint:" ++ " " ++ hint

/-- A diagnostic for people: the code and the message, the place, and the hint if there is one. -/
def pretty (colour : Bool) (d : Diagnostic) : Text :=
  paint colour "31;1" ("error[" ++ d.code.name ++ "]") ++ ": " ++ d.message ++ "\n  " ++
    paint colour "34" "-->" ++ " " ++ d.location ++ hintLine colour d.hint

/-- How diagnostics are shown. -/
inductive Style where
  | json
  | pretty (colour : Bool)
  deriving DecidableEq, Repr, Inhabited

/-- One diagnostic in a given style. -/
def render : Style → Diagnostic → Text
  | .json, d => d.toJson.write
  | .pretty colour, d => d.pretty colour

/-- A list of diagnostics in a given style. Having none at all is the JSON value null. -/
def renderAll : Style → List Diagnostic → Text
  | .json, [] => "null"
  | .json, ds => (Json.array (ds.map toJson)).write
  | .pretty colour, ds => Text.join "\n\n" (ds.map (pretty colour))

/-- The code and the message of each diagnostic on one line. -/
def summary (ds : List Diagnostic) : Text :=
  Text.join "; " (ds.map fun d => d.code.name ++ ": " ++ d.message)

/-- The exit status of a command that reports these diagnostics: that of the one with the least. -/
def exitStatus (ds : List Diagnostic) : Nat := ds.foldl (fun n d => min n d.code.exitStatus) 4

end Diagnostic

end ScriptKit
