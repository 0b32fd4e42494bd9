import ScriptKit.Text.Numeral

/-!
# Decimal numerals of rounded numbers

Measurements are kept with 53 significant binary digits and written as decimals. `Ratio.rounded` is the
nearest number with that many digits, and `Ratio.shortest` writes such a number with the fewest decimal
places that still read back as it. `Ratio.fixed` writes a given number of places instead. A half always
goes to the even neighbour.

All numbers here are fractions of natural numbers, so that every step is exact.
-/

namespace ScriptKit

/-- The nearest whole number to `num / den`; a half goes to the even neighbour. -/
def roundDiv (num den : Nat) : Nat :=
  let q := num / den
  let r := num % den
  if 2 * r < den || (2 * r == den && q % 2 == 0) then q else q + 1

/-- A number that is not negative, as a fraction. -/
structure Ratio where
  num : Nat
  den : Nat
  deriving DecidableEq, Repr, Inhabited

namespace Ratio

/-- A whole number. -/
def whole (n : Nat) : Ratio := ⟨n, 1⟩

/-- Whether two fractions are the same number. -/
def same (a b : Ratio) : Bool := a.num * b.den == b.num * a.den

/-- The part before the decimal point. -/
def floor (a : Ratio) : Nat := a.num / a.den

/-! ## Rounding -/

/-- How many significant binary digits a rounded number has. -/
def precision : Nat := 53

/-- The fraction `2 ^ up / 2 ^ down` times `a`, rounded to a whole number and scaled back. -/
def roundedAt (up down : Nat) (a : Ratio) : Ratio :=
  ⟨roundDiv (a.num * Nat.pow 2 up) (a.den * Nat.pow 2 down) * Nat.pow 2 down, Nat.pow 2 up⟩

/-- The nearest number with 53 significant binary digits. The sizes of numerator and denominator place
the quotient within a factor of two, and one division settles which half it is in. -/
def rounded (a : Ratio) : Ratio :=
  if a.num = 0 then whole 0
  else
    let up := precision + a.den.log2 - a.num.log2
    let down := a.num.log2 - (precision + a.den.log2)
    if a.num * Nat.pow 2 up / (a.den * Nat.pow 2 down) < Nat.pow 2 precision then roundedAt up down a
    else if up = 0 then roundedAt up (down + 1) a
    else roundedAt (up - 1) down a

/-- Rounded numbers stay below two to this power. -/
def maxSize : Nat := 1024

/-- Powers of ten beyond this one, up or down, lead out of the range of rounded numbers. -/
def maxExponent : Nat := 400

/-- The number `digits · 10 ^ exponent`, rounded; none if it is too large. What is far too small counts as
zero. -/
def ofDecimal? (digits : Nat) (exponent : Int) : Option Ratio :=
  if digits = 0 then some (whole 0)
  else if exponent > maxExponent then none
  else if exponent + digits.log2 < -(maxExponent : Int) then some (whole 0)
  else
    let a := rounded ⟨digits * Nat.pow 10 exponent.toNat, Nat.pow 10 (-exponent).toNat⟩
    if a.num < Nat.pow 2 maxSize * a.den then some a else none

/-! ## Decimals -/

/-- The number `n / 10 ^ places`. -/
def ofScaled (n places : Nat) : Ratio := ⟨n, Nat.pow 10 places⟩

/-- The nearest multiple of `1 / 10 ^ places`, counted in such units. -/
def scaled (places : Nat) (a : Ratio) : Nat := roundDiv (a.num * Nat.pow 10 places) a.den

/-- Whether a decimal reads back as a rounded number. -/
def readsAs (a : Ratio) (places n : Nat) : Bool := (ofScaled n places).rounded.same a

/-- The decimals with a given number of places that come into question: the nearest one, then the two
neighbours. -/
def neighbours (places : Nat) (a : Ratio) : List Nat :=
  let low := a.num * Nat.pow 10 places / a.den
  [a.scaled places, low, low + 1]

/-- The decimal with the fewest places, `places` or more, that reads back as `a`. -/
def shortestFrom (a : Ratio) : Nat → Nat → Nat × Nat
  | 0, places => (a.scaled places, places)
  | tries + 1, places =>
    match (a.neighbours places).find? (a.readsAs places) with
    | some n => (n, places)
    | none => shortestFrom a tries (places + 1)

end Ratio

namespace Text

/-- The numeral of `n / 10 ^ places` with exactly that many places. -/
def ofScaled (n places : Nat) : Text :=
  match places with
  | 0 => ofNat n
  | places + 1 =>
    let rest := ofNat (n % Nat.pow 10 (places + 1))
    ofNat (n / Nat.pow 10 (places + 1)) ++ "." ++ repeated (places + 1 - rest.length) '0' ++ rest

end Text

namespace Ratio

/-- The numeral with the fewest places that reads back as a rounded number. Twenty places are more than
any number from a thousandth upwards needs. -/
def shortest (a : Ratio) : Text :=
  let (n, places) := a.shortestFrom 20 0
  Text.ofScaled n places

/-- The numeral with a given number of places. -/
def fixed (places : Nat) (a : Ratio) : Text := Text.ofScaled (a.scaled places) places

end Ratio

end ScriptKit
