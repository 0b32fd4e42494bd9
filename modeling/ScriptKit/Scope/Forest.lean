import ScriptKit.Scope

/-!
# Forests of scopes

Scopes that outlive each other: each has a name and perhaps a parent, and a name used again stands for the
newer scope from then on while the older one stays where it is. A parent is always older than its
children, so the way up from a scope ends.
-/

namespace ScriptKit

namespace Scope

/-- A scope of a forest. -/
structure Entry where
  id : Text
  frame : Frame
  /-- The number of the parent; scopes are numbered in the order in which they were made. -/
  parent : Option Nat
  deriving Repr

/-- Scopes in the order in which they were made. -/
structure Forest where
  entries : List Entry := []

namespace Forest

/-- Add a scope. -/
def add (f : Forest) (e : Entry) : Forest := ⟨f.entries ++ [e]⟩

/-- The number of the scope a name stands for. -/
def number? (f : Forest) (id : Text) : Option Nat :=
  (f.entries.reverse.findIdx? fun e => e.id == id).map fun i => f.entries.length - 1 - i

/-- Add a root scope. -/
def addRoot (f : Forest) (id : Text) : Forest := f.add ⟨id, .root, none⟩

/-- Add a child of the scope called `parent`; it has no parent if there is no such scope. -/
def addChild (f : Forest) (id parent : Text) : Forest := f.add ⟨id, {}, f.number? parent⟩

/-- The numbers of a scope and of those above it, at most `n` of them. -/
def pathFrom (f : Forest) : Nat → Nat → List Nat
  | 0, _ => []
  | n + 1, i =>
    match f.entries[i]? with
    | none => []
    | some e =>
      match e.parent with
      | none => [i]
      | some p => i :: pathFrom f n p

/-- The numbers of the scope a name stands for and of those above it. -/
def path (f : Forest) (id : Text) : List Nat :=
  match f.number? id with
  | none => []
  | some i => f.pathFrom f.entries.length i

/-- The frames of the scopes with given numbers. -/
def frames (f : Forest) (path : List Nat) : Chain :=
  path.filterMap fun i => (f.entries[i]?).map Entry.frame

/-- The chain of the scope a name stands for. -/
def chain (f : Forest) (id : Text) : Chain := f.frames (f.path id)

/-- Put a frame back into the scope with a given number. -/
def setFrame (f : Forest) (i : Nat) (frame : Frame) : Forest :=
  ⟨f.entries.modify i fun e => { e with frame := frame }⟩

/-- Put frames back into the scopes with given numbers. -/
def setFrames (f : Forest) (path : List Nat) (chain : Chain) : Forest :=
  (path.zip chain).foldl (fun f (i, frame) => f.setFrame i frame) f

/-- Declare a variable in a scope. -/
def declare (f : Forest) (id name : Text) (type : VarType) (value : Option Value) :
    Except Scope.Error Forest := do
  return f.setFrames (f.path id) (← (f.chain id).declare name type value)

/-- Assign to a variable visible in a scope. -/
def assign (f : Forest) (id name : Text) (value : Option Value) : Except Scope.Error Forest := do
  return f.setFrames (f.path id) (← (f.chain id).assign name value)

/-- The value of a variable visible in a scope. -/
def resolve (f : Forest) (id name : Text) : Except Scope.Error (Option Value) :=
  (f.chain id).resolve name

/-- The frame of a scope. -/
def frame (f : Forest) (id : Text) : Frame := (f.chain id).head?.getD {}

/-- The name of the parent of a scope, or nothing if it has none or the name has gone to another one. -/
def parentName (f : Forest) (id : Text) : Text :=
  match f.path id with
  | _ :: p :: _ =>
    match f.entries[p]? with
    | some e => if f.number? e.id = some p then e.id else []
    | none => []
  | _ => []

end Forest

end Scope

end ScriptKit
