import ScriptKit.Settings.Field
import ScriptKit.Toml

/-!
# Settings in TOML

Names are compared without regard to case, and values have to be of the right kind. A field nobody knows is
refused.

A field may be opened like a table, though nothing can be put into it: a truth value is false then, and a
number zero, unless it was set before. The header of an array of tables adds a name without letters to a
list.
-/

namespace ScriptKit.Settings

namespace OfToml

/-- The text of a string. -/
def text? : Toml → Option Text
  | .string t => some t
  | _ => none

/-- A value as settings hold it. -/
def given? : Toml → Option Given
  | .string t => some (.text t)
  | .bool b => some (.truth (some b))
  | .int n => some (.number (some n))
  | .array items => (items.mapM text?).map .names
  | .table _ => none

/-- The fields of a section. -/
def section? (name : Text) : Option (List (Text × Field)) := sections.lookup name.lower

/-- The field a path leads to. -/
def field? : List Text → Option Field
  | [name, field] => (section? name).bind fun fields => fields.lookup field.lower
  | _ => none

/-- Set the field with a given name. -/
def assignField (fields : List (Text × Field)) (s : Settings) (name : Text) (value : Toml) :
    Option Settings := do
  s.set (← fields.lookup name.lower) (← given? value)

/-- Assign a value to a path inside a section: a field, or the section itself if the value is a table. -/
def assignIn (fields : List (Text × Field)) (s : Settings) : List Text → Toml → Option Settings
  | [], .table pairs =>
    pairs.foldlM (fun s (key, value) =>
      match key with
      | [name] => assignField fields s name value
      | _ => none) s
  | [name], value => assignField fields s name value
  | _, _ => none

/-- Assign a value to a path. -/
def assign (s : Settings) : List Text → Toml → Option Settings
  | name :: path, value => do assignIn (← section? name) s path value
  | [], _ => none

/-! ## Headers -/

/-- Open a field like a table. -/
def openField (s : Settings) : Field → Option Settings
  | .level => some s
  | .format => some s
  | .pretty => some { s with pretty := some (s.pretty.getD false) }
  | .colour => some { s with colour := some (s.colour.getD false) }
  | .seed => some { s with seed := some (s.seed.getD 0) }
  | .allow => none
  | .deny => none

/-- Open a table. -/
def openTable (s : Settings) : List Text → Option Settings
  | [name] => (section? name).map fun _ => s
  | path => (field? path).bind (openField s)

/-- Add a name to a list, which is emptied first if its header is new. -/
def addName (s : Settings) (isNew : Bool) (path : List Text) : Option Settings :=
  let c := s.capabilities
  match field? path with
  | some .allow => s.set .allow (.names ((if isNew then [] else c.allow) ++ [[]]))
  | some .deny => s.set .deny (.names ((if isNew then [] else c.deny) ++ [[]]))
  | _ => none

/-! ## Documents -/

/-- Take in the lines of a document, with the open table and the arrays of tables so far. -/
def lines (table : List Text) (arrays : List (List Text)) (s : Settings) : List Toml.Line → Option Settings
  | [] => some s
  | .header path :: rest =>
    match openTable s path with
    | some s => lines path arrays s rest
    | none => none
  | .arrayHeader path :: rest =>
    match addName s (!arrays.contains path) path with
    | some s => lines path (path :: arrays) s rest
    | none => none
  | .assign key value :: rest =>
    match assign s (table ++ key) value with
    | some s => lines table arrays s rest
    | none => none

end OfToml

/-- Settings with what is written in TOML filled in. -/
def ofToml? (s : Settings) (t : Text) : Option Settings := (Toml.read t).bind (OfToml.lines [] [] s)

end ScriptKit.Settings
