import ScriptKit.Text.Numeral

/-!
# Integer literals

Whole numbers as programs write them: an optional sign, then decimal digits, or digits of another base
after `0x`, `0o` or `0b`. A further leading zero also means base eight. Single underscores may stand
between digits and after the mark of the base.
-/

namespace ScriptKit.Text

/-- Why a literal has no value. -/
inductive LiteralFault where
  /-- It is not written like a number. -/
  | malformed
  /-- It takes more than 64 bits. -/
  | tooLarge
  deriving DecidableEq, Repr, Inhabited

/-- The value of a digit or letter as a digit of some base. -/
def anyDigitValue? : Glyph → Option Nat
  | .char c =>
    let d := c.toLower
    if '0' ≤ c && c ≤ '9' then some (c.toNat - '0'.toNat)
    else if 'a' ≤ d && d ≤ 'z' then some (d.toNat - 'a'.toNat + 10)
    else none
  | .stray _ => none

/-- Split a literal without its sign into its base and its digits. A mark counts only if something
follows it. -/
def literalBase : Text → Nat × Text
  | .char '0' :: .char c :: g :: rest =>
    if c.toLower = 'x' then (16, g :: rest)
    else if c.toLower = 'o' then (8, g :: rest)
    else if c.toLower = 'b' then (2, g :: rest)
    else (8, .char c :: g :: rest)
  | .char '0' :: rest => (8, rest)
  | t => (10, t)

/-- Read digits of a base after the value `acc`, passing over underscores. A number that grows beyond 64 bits
is too large, whatever follows. -/
def literalValueFrom (base : Nat) : Nat → Text → Except LiteralFault Nat
  | acc, [] => .ok acc
  | acc, g :: rest =>
    if g = .char '_' then literalValueFrom base acc rest
    else
      match anyDigitValue? g with
      | none => .error .malformed
      | some d =>
        if base ≤ d then .error .malformed
        else if 2 * bound64 ≤ acc * base + d then .error .tooLarge
        else literalValueFrom base (acc * base + d) rest

/-- Whether every underscore stands after a digit or a mark of the base and before a digit. `ready` tells
whether one may come now. -/
def underscoresFit : Bool → Text → Bool
  | _, [] => true
  | ready, .char '_' :: rest => ready && !rest.isEmpty && underscoresFit false rest
  | _, _ :: rest => underscoresFit true rest

/-- Whether the underscores of a literal without its sign are in order. -/
def literalFits : Text → Bool
  | .char '0' :: .char c :: rest =>
    if c.toLower = 'x' || c.toLower = 'o' || c.toLower = 'b' then underscoresFit true rest
    else underscoresFit true (.char c :: rest)
  | t => underscoresFit false t

/-- The value of a literal without its sign. -/
def literalNat (t : Text) : Except LiteralFault Nat :=
  if t.isEmpty then .error .malformed
  else
    let (base, digits) := literalBase t
    match literalValueFrom base 0 digits with
    | .error fault => .error fault
    | .ok n => if literalFits t then .ok n else .error .malformed

/-- The value of a literal of at most 64 bits, sign included. -/
def literalInt : Text → Except LiteralFault Int
  | .char '-' :: rest => do
    let n ← literalNat rest
    if n ≤ bound64 then .ok (-(n : Int)) else .error .tooLarge
  | .char '+' :: rest => do
    let n ← literalNat rest
    if n < bound64 then .ok n else .error .tooLarge
  | t => do
    let n ← literalNat t
    if n < bound64 then .ok n else .error .tooLarge

/-! ## Code points -/

/-- Read exactly `n` more digits of base sixteen after the value `acc`. -/
def takeHexFrom : Nat → Nat → Text → Option (Nat × Text)
  | 0, acc, t => some (acc, t)
  | _ + 1, _, [] => none
  | n + 1, acc, g :: t =>
    match anyDigitValue? g with
    | some d => if d < 16 then takeHexFrom n (acc * 16 + d) t else none
    | none => none

/-- Read the character whose code point is written with exactly `n` digits of base sixteen. -/
def takeCodePoint (n : Nat) (t : Text) : Option (Glyph × Text) :=
  match takeHexFrom n 0 t with
  | some (code, rest) => if code.isValidChar then some (.char (Char.ofNat code), rest) else none
  | none => none

end ScriptKit.Text
