/-!
# Sets of code points

A property of characters is a list of closed ranges of code points in increasing order. Membership
walks the list and stops at the first range that lies above the code point.
-/

namespace ScriptKit.Text

/-- A set of code points: closed ranges, in increasing order and disjoint. -/
abbrev Ranges := List (Nat × Nat)

/-- Whether a code point lies in one of the ranges. -/
def Ranges.contains : Ranges → Nat → Bool
  | [], _ => false
  | (lo, hi) :: rest, n => if n < lo then false else if n ≤ hi then true else contains rest n

/-- Ranges that follow each other in increasing order. -/
def Ranges.Sorted : Ranges → Prop
  | [] => True
  | [(lo, hi)] => lo ≤ hi
  | (lo, hi) :: (lo', hi') :: rest => lo ≤ hi ∧ hi < lo' ∧ Sorted ((lo', hi') :: rest)

end ScriptKit.Text
