import ScriptKit.Text.Basic

/-!
# Capability policies

A policy says which capabilities programs may use. Each capability has a name, and the builtins that need
it are withheld from programs when the policy does not allow it. Denial wins over permission, and a
policy without a list of permissions allows whatever it does not deny.
-/

namespace ScriptKit

namespace Capability

/-- The capability to write lines. -/
def write : Text := "io.write"

/-- The capability to read lines. -/
def read : Text := "io.read"

/-- The capability to draw random numbers. -/
def random : Text := "rand"

/-- Every capability a policy may name, in listing order. -/
def known : List Text := [write, read, random]

end Capability

/-- Which capabilities are allowed. -/
structure Policy where
  /-- The capabilities that are allowed; all of them if absent. -/
  allowed : Option (List Text) := none
  /-- The capabilities that are denied. -/
  denied : List Text := []
  deriving DecidableEq, Repr, Inhabited

namespace Policy

/-- The policy that allows everything. -/
def allowAll : Policy := {}

/-- The policy that allows nothing. -/
def denyAll : Policy := { allowed := some [] }

/-- Whether a policy allows a capability. -/
def allows (p : Policy) (capability : Text) : Bool :=
  !p.denied.contains capability &&
    match p.allowed with
    | none => true
    | some names => names.contains capability

/-- The known capabilities a policy allows. -/
def describe (p : Policy) : Text := "[" ++ Text.join " " (Capability.known.filter p.allows) ++ "]"

/-- A policy as settings write it down: an empty list of permissions permits everything. -/
structure Spec where
  allow : List Text := []
  deny : List Text := []
  deriving DecidableEq, Repr, Inhabited

namespace Spec

/-- The names that are no capability, in increasing order. -/
def unknown (s : Spec) : List Text :=
  Text.sort ((s.allow ++ s.deny).filter fun c => !Capability.known.contains c)

/-- What is wrong with a policy, if anything. -/
def complaint? (s : Spec) : Option Text :=
  if s.unknown.isEmpty then none else some ("unknown capabilities: " ++ Text.join ", " s.unknown)

/-- The policy that is written down. -/
def build (s : Spec) : Policy where
  allowed := if s.allow.isEmpty then none else some s.allow
  denied := s.deny

/-- Whether nothing at all is written down. -/
def isEmpty (s : Spec) : Bool := s.allow.isEmpty && s.deny.isEmpty

end Spec

end Policy

end ScriptKit
