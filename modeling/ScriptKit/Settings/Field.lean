import ScriptKit.Settings.Basic

/-!
# Fields of the settings

Settings are written in four sections, `log`, `diagnostics`, `random` and `capabilities`, each with a few
fields. What is not mentioned keeps its default.
-/

namespace ScriptKit.Settings

/-- A field of the settings. -/
inductive Field where
  | level
  | format
  | pretty
  | colour
  | seed
  | allow
  | deny
  deriving DecidableEq, Repr, Inhabited

/-- The sections of the settings and their fields. -/
def sections : List (Text × List (Text × Field)) :=
  [("log", [("level", .level), ("format", .format)]),
   ("diagnostics", [("pretty", .pretty), ("color", .colour)]),
   ("random", [("seed", .seed)]),
   ("capabilities", [("allow", .allow), ("deny", .deny)])]

/-- A value as settings hold it. -/
inductive Given where
  | text (t : Text)
  | truth (b : Option Bool)
  | number (n : Option Int)
  | names (ts : List Text)

/-- Set a field; the value has to be of its kind. -/
def set (s : Settings) : Field → Given → Option Settings
  | .level, .text t => some { s with level := t }
  | .format, .text t => some { s with format := t }
  | .pretty, .truth b => some { s with pretty := b }
  | .colour, .truth b => some { s with colour := b }
  | .seed, .number n => some { s with seed := n }
  | .allow, .names ts => some { s with capabilities := { s.capabilities with allow := ts } }
  | .deny, .names ts => some { s with capabilities := { s.capabilities with deny := ts } }
  | _, _ => none

end ScriptKit.Settings
