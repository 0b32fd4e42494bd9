import ScriptKit.Diagnostic
import ScriptKit.Policy
import ScriptKit.Text.Quoted
import ScriptKit.Value
import ScriptKit.World

/-!
# Builtins

A builtin is a function that programs can call and that acts on the world. Builtins are kept in a
registry under their names, and a policy filters a registry down to those whose capability it allows.
There are three by default: `WriteLine`, `Random` and `ReadLine`.
-/

namespace ScriptKit

namespace Builtin

/-- Why a builtin fails. -/
inductive Fault where
  | arity (detail : Text)
  | argument (detail : Text)
  | io (detail : Text)
  | other (message : Text)
  /-- A failure with a code of its own; `context` is what the builtin puts in front of the message. -/
  | raised (code : Code) (message : Text) (span : Option Span) (context : Text)
  deriving DecidableEq, Repr, Inhabited

/-- The wording of a failure. -/
def Fault.message : Fault → Text
  | .arity detail => "wrong number of arguments: " ++ detail
  | .argument detail => "invalid argument: " ++ detail
  | .io detail => "i/o failure: " ++ detail
  | .other message => message
  | .raised _ message _ context => context ++ message

/-- What a call of a builtin gives: a value, none, or a failure, and the world after it. -/
abbrev Effect := World → Except Fault (Option Value) × World

end Builtin

/-- A function that programs can call. -/
structure Builtin where
  name : Text
  /-- The capability it needs; it needs none if this is empty. -/
  capability : Text := []
  run : List Value → Builtin.Effect

namespace Builtin

/-! ## The default builtins -/

/-- The complaint about a number of arguments. -/
def arityFault (name : Text) (accepted : List Nat) (got : Nat) : Fault :=
  .arity (name ++ " takes " ++ Text.join " or " (accepted.map Text.ofNat) ++ ", got " ++ Text.ofNat got)

/-- Write one value and a line feed. -/
def runWriteLine : List Value → Effect
  | [v], w =>
    match w.write (v.text ++ "\n") with
    | (true, w) => (.ok none, w)
    | (false, w) => (.error (.io "write failed"), w)
  | args, w => (.error (arityFault "WriteLine" [1] args.length), w)

/-- The integer an argument counts as. -/
def intArg (name : Text) (v : Value) : Except Fault Int32 :=
  match v.toInt? with
  | some n => .ok n
  | none =>
    .error (.argument (name ++ " needs integer arguments, got " ++ Value.typeName (some v) ++ " " ++
      v.text.quoted))

/-- Draw a number from `lo` up to but not including `hi`. -/
def drawBetween (lo hi : Int32) : Effect := fun w =>
  if lo < hi then
    let (n, w) := w.drawBelow (hi.toInt - lo.toInt).toNat
    (.ok (some (.int (.ofInt (lo.toInt + n)))), w)
  else
    (.error (.argument ("Random range [" ++ Text.ofInt lo.toInt ++ ", " ++ Text.ofInt hi.toInt ++
      ") is empty")), w)

/-- Draw below one bound, or between two. -/
def runRandom : List Value → Effect
  | [v], w =>
    match intArg "Random" v with
    | .ok hi => drawBetween 0 hi w
    | .error e => (.error e, w)
  | [u, v], w =>
    match intArg "Random" u, intArg "Random" v with
    | .ok lo, .ok hi => drawBetween lo hi w
    | .error e, _ => (.error e, w)
    | .ok _, .error e => (.error e, w)
  | args, w => (.error (arityFault "Random" [1, 2] args.length), w)

/-- Read one line. -/
def runReadLine : List Value → Effect
  | [], w =>
    match w.readLine with
    | (.line t, w) => (.ok (some (.ofLine t)), w)
    | (.atEnd, w) => (.error (.io "end of input"), w)
    | (.failed, w) => (.error (.io "read failed"), w)
  | args, w => (.error (arityFault "ReadLine" [0] args.length), w)

/-- The builtin that writes a line. -/
def writeLine : Builtin := ⟨"WriteLine", Capability.write, runWriteLine⟩

/-- The builtin that draws a random number. -/
def random : Builtin := ⟨"Random", Capability.random, runRandom⟩

/-- The builtin that reads a line. -/
def readLine : Builtin := ⟨"ReadLine", Capability.read, runReadLine⟩

/-- A builtin that ignores its arguments and always gives the same answer. -/
def constant (name capability : Text) (answer : Except Fault (Option Value)) : Builtin :=
  ⟨name, capability, fun _ w => (answer, w)⟩

end Builtin

/-! ## Registries -/

/-- Builtins under their names, each name once. -/
structure Registry where
  builtins : List Builtin := []

namespace Registry

/-- The registry of the default builtins. -/
def default : Registry := ⟨[.writeLine, .random, .readLine]⟩

/-- The builtin of a given name. -/
def get? (r : Registry) (name : Text) : Option Builtin := r.builtins.find? fun b => b.name == name

/-- Add a builtin in place of any other of its name. -/
def register (r : Registry) (b : Builtin) : Registry :=
  ⟨r.builtins.filter (fun other => other.name != b.name) ++ [b]⟩

/-- The names in increasing order. -/
def names (r : Registry) : List Text := Text.sort (r.builtins.map Builtin.name)

/-- Whether a builtin is left to programs by a policy. -/
def permits (policy : Policy) (b : Builtin) : Bool := b.capability.isEmpty || policy.allows b.capability

/-- The builtins a policy leaves to programs. -/
def filter (r : Registry) (policy : Policy) : Registry := ⟨r.builtins.filter (permits policy)⟩

end Registry

end ScriptKit
