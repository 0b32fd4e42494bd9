import ScriptKit.Text.Basic

/-!
# Numerals

Writing and reading whole numbers. `Text.readInt` accepts one optional sign and then ASCII digits only,
any number of leading zeros included; `Text.readInt32` further asks that the number fits in 32 bits.
-/

namespace ScriptKit.Text

/-! ## Writing -/

/-- The decimal numeral of a natural number. -/
def ofNat (n : Nat) : Text := ofChars (Nat.toDigits 10 n)

/-- The decimal numeral of an integer. -/
def ofInt : Int → Text
  | .ofNat n => ofNat n
  | .negSucc n => .char '-' :: ofNat (n + 1)

/-- A number in base sixteen, filled up with zeros to at least `width` digits. -/
def ofHex (width n : Nat) : Text :=
  let ds := Nat.toDigits 16 n
  repeated (width - ds.length) '0' ++ ofChars ds

/-! ## Reading -/

/-- The value of a decimal digit. -/
def digitValue? : Glyph → Option Nat
  | .char c => if '0' ≤ c && c ≤ '9' then some (c.toNat - '0'.toNat) else none
  | .stray _ => none

/-- The value of a sequence of decimal digits read after the digits of `acc`. -/
def digitsValueFrom (acc : Nat) : Text → Option Nat
  | [] => some acc
  | g :: rest =>
    match digitValue? g with
    | some d => digitsValueFrom (acc * 10 + d) rest
    | none => none

/-- The value of a nonempty sequence of decimal digits. -/
def readNat : Text → Option Nat
  | [] => none
  | g :: rest => digitsValueFrom 0 (g :: rest)

/-- The value of a decimal numeral with an optional sign. -/
def readInt : Text → Option Int
  | .char '-' :: rest => (readNat rest).map fun n => -(n : Int)
  | .char '+' :: rest => (readNat rest).map fun n => (n : Int)
  | t => (readNat t).map fun n => (n : Int)

/-- The first number that needs more than 32 bits with a sign. -/
def bound32 : Nat := 0x80000000

/-- The first number that needs more than 64 bits with a sign. -/
def bound64 : Nat := 0x8000000000000000

/-- The value of a numeral from `-bound` up to but not including `bound`. -/
def readSigned (bound : Nat) (t : Text) : Option Int :=
  match readInt t with
  | some n => if -(bound : Int) ≤ n ∧ n < (bound : Int) then some n else none
  | none => none

/-- The value of a numeral that fits in 32 bits. -/
def readInt32 (t : Text) : Option Int32 := (readSigned bound32 t).map Int32.ofInt

end ScriptKit.Text
