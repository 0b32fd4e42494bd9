import ScriptKit.Value

/-!
# Scopes

Variables live in frames. A chain of frames, innermost first, is where a statement runs: names are looked
up along the chain, a declaration goes into the first frame, and an assignment changes the nearest
variable of that name. A name that is visible anywhere along the chain cannot be declared again.

The last frame of a chain is the root of a run. A chain that ends elsewhere has no root, and then a name
that is not found cannot be said to be free.
-/

namespace ScriptKit

/-- A declared variable. -/
structure Variable where
  type : VarType
  /-- The current value; there is none only if none was ever assigned on purpose. -/
  value : Option Value
  deriving DecidableEq, Repr, Inhabited

/-- One level of variables, the latest declaration first. -/
structure Frame where
  isRoot : Bool := false
  vars : List (Text × Variable) := []
  deriving DecidableEq, Repr, Inhabited

namespace Frame

/-- The empty frame of a run's globals. -/
def root : Frame := { isRoot := true }

/-- The variable of a given name. -/
def lookup (f : Frame) (name : Text) : Option Variable := f.vars.lookup name

/-- Add a variable. -/
def insert (f : Frame) (name : Text) (v : Variable) : Frame := { f with vars := (name, v) :: f.vars }

/-- Give a variable another value. -/
def update (f : Frame) (name : Text) (value : Option Value) : Frame :=
  { f with vars := f.vars.map fun (n, v) => if n = name then (n, { v with value := value }) else (n, v) }

/-- The variables in increasing order of their names. -/
def sorted (f : Frame) : List (Text × Variable) := f.vars.mergeSort fun a b => a.1.le b.1

/-- The names in increasing order. -/
def names (f : Frame) : List Text := f.sorted.map Prod.fst

/-- The names and values as a JSON object, in increasing order of the names. -/
def toJson (f : Frame) : Json :=
  .object (f.sorted.map fun (name, v) => (name, Value.optionToJson v.value))

end Frame

namespace Scope

/-- What can be done with a name. -/
inductive Action where
  | declare
  | assign
  | resolve
  deriving DecidableEq, Repr, Inhabited

/-- Why a name cannot be declared, assigned or resolved. -/
inductive Cause where
  | redeclared
  | notFound
  | noRoot
  deriving DecidableEq, Repr, Inhabited

/-- The wording of a cause. -/
def Cause.message : Cause → Text
  | .redeclared => "already declared"
  | .notFound => "not found"
  | .noRoot => "scope chain has no root"

/-- A failed action. -/
structure Error where
  action : Action
  name : Text
  cause : Cause
  deriving DecidableEq, Repr, Inhabited

/-- The wording of a failed action. -/
def Error.message (e : Error) : Text := "variable " ++ e.name ++ " " ++ e.cause.message

end Scope

/-- Frames from the innermost one outwards. -/
abbrev Chain := List Frame

namespace Chain

open Scope

/-- The nearest variable of a given name. -/
def find (name : Text) : Chain → Except Cause Variable
  | [] => .error .notFound
  | f :: outer =>
    match f.lookup name with
    | some v => .ok v
    | none => if outer.isEmpty && !f.isRoot then .error .noRoot else find name outer

/-- Declare a variable in the innermost frame; without a value it starts with the default of its type. -/
def declare (chain : Chain) (name : Text) (type : VarType) (value : Option Value) :
    Except Scope.Error Chain :=
  match chain.find name, chain with
  | .ok _, _ => .error ⟨.declare, name, .redeclared⟩
  | .error .notFound, f :: outer =>
    .ok (f.insert name ⟨type, some (value.getD (.default type))⟩ :: outer)
  | .error cause, _ => .error ⟨.declare, name, cause⟩

/-- Change the nearest variable of a given name in a chain that has one. -/
def update (name : Text) (value : Option Value) : Chain → Chain
  | [] => []
  | f :: outer =>
    if (f.lookup name).isSome then f.update name value :: outer else f :: update name value outer

/-- Assign to the nearest variable of a given name. -/
def assign (chain : Chain) (name : Text) (value : Option Value) : Except Scope.Error Chain :=
  match chain.find name with
  | .ok _ => .ok (chain.update name value)
  | .error cause => .error ⟨.assign, name, cause⟩

/-- The value of the nearest variable of a given name. -/
def resolve (chain : Chain) (name : Text) : Except Scope.Error (Option Value) :=
  match chain.find name with
  | .ok v => .ok v.value
  | .error cause => .error ⟨.resolve, name, cause⟩

/-- The number of frames around the innermost one. -/
def depth (chain : Chain) : Nat := chain.length - 1

end Chain

end ScriptKit
