import ScriptKit.Check
import ScriptKit.Eval
import ScriptKit.Tree.Format
import ScriptKit.Tree.Parse

/-!
# Sessions

A session is a set of builtins under a policy. A program is read against the builtins the policy leaves,
so that a call of any other name is refused before anything runs.
-/

namespace ScriptKit

/-- A set of builtins and the policy they are under. -/
structure Session where
  builtins : Registry := .default
  policy : Policy := .allowAll

namespace Session

/-- The builtins that programs may call. -/
def registry (s : Session) : Registry := s.builtins.filter s.policy

/-- Parse a program against the builtins it may call. -/
def parse (s : Session) (file source : Text) : Except Parse.Error Program :=
  ScriptKit.parse file source (some s.registry.names)

/-- Parse a program and run it. -/
def run (s : Session) (file source : Text) (world : World) (budget : Nat) :
    Except Parse.Error Run.Outcome := do
  return (← s.parse file source).run s.registry world budget

/-- Parse a program and check it; a program that cannot be read has one diagnostic. -/
def check (s : Session) (file source : Text) : List Diagnostic :=
  match s.parse file source with
  | .ok p => p.check
  | .error e => [e.diagnostic]

end Session

/-- Parse a source without regard to builtins and write it in canonical form. -/
def format (file source : Text) : Except Parse.Error Text := do
  return (← parse file source).format

/-- The budget of a run that nobody interrupts. -/
def unlimited : Nat := 0x4000000000000000

end ScriptKit
