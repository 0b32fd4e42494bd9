import ScriptKit.Text.Literal
import ScriptKit.Text.Quoted

/-!
# Flags

Flags stand in front of the arguments of a command, after one dash or two. A switch stands alone or has a
truth value after an equals sign; every other flag has a value, after an equals sign or as the next
argument. Two dashes alone end the flags, and so does the first argument that is no flag.

Reading stops at the first fault, and what was given before it is kept.
-/

namespace ScriptKit

/-- What a flag is given with. -/
inductive Flag.Kind where
  | switch
  | text
  | number
  deriving DecidableEq, Repr, Inhabited

/-- A flag of a command. -/
structure Flag where
  name : Text
  /-- A second, short name. -/
  short : Option Text := none
  kind : Flag.Kind := .switch
  /-- What stands for the value in help texts. -/
  placeholder : Text := "value"
  /-- What the flag does. -/
  purpose : Text
  deriving Repr, Inhabited

namespace Flag

/-- The names of a flag. -/
def names (f : Flag) : List Text := f.name :: f.short.toList

/-- A value given with a flag. -/
inductive Value where
  | switch (on : Bool)
  | text (t : Text)
  | number (n : Int)
  deriving DecidableEq, Repr, Inhabited

/-- What can be wrong with flags. -/
inductive Fault where
  | badForm (arg : Text)
  | unknown (name : Text)
  | noValue (name : Text)
  | badSwitch (value name : Text)
  | badNumber (value name : Text) (fault : Text.LiteralFault)
  deriving DecidableEq, Repr, Inhabited

/-- What is said about a literal that is no number of 64 bits. -/
def literalMessage : Text.LiteralFault → Text
  | .malformed => "parse error"
  | .tooLarge => "value out of range"

/-- What is said about a fault. -/
def Fault.message : Fault → Text
  | .badForm arg => "bad flag syntax: " ++ arg
  | .unknown name => "flag provided but not defined: -" ++ name
  | .noValue name => "flag needs an argument: -" ++ name
  | .badSwitch value name =>
    "invalid boolean value " ++ value.quoted ++ " for -" ++ name ++ ": parse error"
  | .badNumber value name fault =>
    "invalid value " ++ value.quoted ++ " for flag -" ++ name ++ ": " ++ literalMessage fault

/-! ## Reading -/

/-- An argument as it stands among flags. -/
inductive Form where
  /-- Not a flag. -/
  | plain
  /-- Two dashes alone. -/
  | stop
  /-- Dashes with no name after them. -/
  | bad
  /-- A name, perhaps with a value after an equals sign. -/
  | named (name : Text) (value : Option Text)
  deriving DecidableEq, Repr

/-- Split a name from the value after its equals sign. -/
def splitValue (t : Text) : Form :=
  let name := t.takeWhile (· != .char '=')
  match t.drop name.length with
  | [] => .named name none
  | _ :: value => .named name (some value)

/-- The form of what follows the dashes of an argument: a name begins with neither a dash nor an equals
sign. -/
def formOfName : Text → Form
  | [] => .bad
  | g :: rest => if g = .char '-' || g = .char '=' then .bad else splitValue (g :: rest)

/-- The form of an argument. A dash alone is no flag. -/
def form : Text → Form
  | [.char '-', .char '-'] => .stop
  | .char '-' :: .char '-' :: rest => formOfName rest
  | [.char '-'] => .plain
  | .char '-' :: rest => formOfName rest
  | _ => .plain

/-- The words that switch a flag on. -/
def onWords : List Text := ["1", "t", "T", "true", "TRUE", "True"]

/-- The words that switch a flag off. -/
def offWords : List Text := ["0", "f", "F", "false", "FALSE", "False"]

/-- The value of a switch. -/
def readSwitch (name : Text) : Option Text → Except Fault Value
  | none => .ok (.switch true)
  | some word =>
    if onWords.contains word then .ok (.switch true)
    else if offWords.contains word then .ok (.switch false)
    else .error (.badSwitch word name)

/-- The value of a flag that is no switch. -/
def readValue (kind : Kind) (name value : Text) : Except Fault Value :=
  match kind with
  | .number =>
    match Text.literalInt value with
    | .ok n => .ok (.number n)
    | .error fault => .error (.badNumber value name fault)
  | _ => .ok (.text value)

/-- Flags that were given, the last one first, under the names they were given with; what follows them;
and what is wrong, if anything. -/
structure Given where
  values : List (Text × Value) := []
  rest : List Text := []
  fault : Option Fault := none
  deriving Repr, Inhabited

/-- The flag with a given name. -/
def find? (flags : List Flag) (name : Text) : Option Flag := flags.find? fun f => f.names.contains name

/-- Read flags off the front of some arguments, after the flags in `values`. -/
def readFrom (flags : List Flag) (values : List (Text × Value)) : List Text → Given
  | [] => { values }
  | arg :: args =>
    match form arg with
    | .plain => { values, rest := arg :: args }
    | .stop => { values, rest := args }
    | .bad => { values, fault := some (.badForm arg) }
    | .named name value =>
      match find? flags name with
      | none => { values, fault := some (.unknown name) }
      | some flag =>
        if flag.kind = .switch then
          match readSwitch name value with
          | .ok v => readFrom flags ((name, v) :: values) args
          | .error fault => { values, fault := some fault }
        else
          match value, args with
          | some value, args =>
            match readValue flag.kind name value with
            | .ok v => readFrom flags ((name, v) :: values) args
            | .error fault => { values, fault := some fault }
          | none, value :: args =>
            match readValue flag.kind name value with
            | .ok v => readFrom flags ((name, v) :: values) args
            | .error fault => { values, fault := some fault }
          | none, [] => { values, fault := some (.noValue name) }

/-- Read flags off the front of some arguments. -/
def read (flags : List Flag) (args : List Text) : Given := readFrom flags [] args

namespace Given

/-- Whether a name was used. -/
def used (g : Given) (name : Text) : Bool := g.values.any fun v => v.1 == name

/-- What is said if a flag was given under both of its names. -/
def bothNames? (g : Given) (flags : List Flag) : Option Text :=
  flags.findSome? fun f =>
    match f.short with
    | some short =>
      if g.used f.name && g.used short then
        some ("Cannot use two forms of the same flag: " ++ short ++ " " ++ f.name)
      else none
    | none => none

/-- The value of a flag, under any of its names. -/
def value? (g : Given) (f : Flag) : Option Value :=
  (g.values.find? fun v => f.names.contains v.1).map (·.2)

/-- The value of a switch, if it was given. -/
def switch? (g : Given) (f : Flag) : Option Bool :=
  match g.value? f with
  | some (.switch on) => some on
  | _ => none

/-- Whether a switch is on. -/
def isOn (g : Given) (f : Flag) : Bool := (g.switch? f).getD false

/-- The text given with a flag, if it was given. -/
def text? (g : Given) (f : Flag) : Option Text :=
  match g.value? f with
  | some (.text t) => some t
  | _ => none

/-- The text given with a flag, or the empty text. -/
def text (g : Given) (f : Flag) : Text := (g.text? f).getD []

/-- The number given with a flag, if it was given. -/
def number? (g : Given) (f : Flag) : Option Int :=
  match g.value? f with
  | some (.number n) => some n
  | _ => none

end Given

/-- Whether an argument looks like a flag; a dash alone does not. -/
def looksLikeFlag (arg : Text) : Bool := arg.head? == some (.char '-') && arg.length != 1

/-- Put the flags of a command in front of its arguments. Everything from the first flag on counts as
flags; two dashes alone, and what follows them, stay at the end. -/
def inFront (args : List Text) : List Text :=
  let stop : Text := "--"
  let before := args.takeWhile (· != stop)
  let plain := before.takeWhile fun arg => !looksLikeFlag arg
  let flags := before.drop plain.length
  if flags.isEmpty then args else flags ++ plain ++ args.drop before.length

end Flag

end ScriptKit
