import ScriptKit.Policy.Discover

/-!
# The first file decides

Settings and policies are both searched for along a list of files, of which some are passed over: for settings those
that cannot be read, for policies those that are missing. `IsFirst` says which file a search comes to a stop at. The
files before it leave nothing behind but the faults that are reported if no file of settings can be read
(`discoverAmong_append`), and the files after it are never looked at.

The decoders are arguments of a search, and nothing is assumed of them. What was decoded is judged in the same way
wherever it comes from: `Settings.Acceptable` and `Policy.Spec.Acceptable` say what may be written, and there is a
complaint about everything else. What a policy that was found allows is said capability by capability
(`Policy.Follows`), whatever the policy is made of.

**Theorem (`first_file_decides`).** The file at which a search stops decides alone: if it is malformed or refused the
search fails, and only where every file is missing do the defaults hold and is everything allowed.
-/

namespace ScriptKit

/-! ## Searches -/

/-- The first member of a list that is not passed over, and those before it. -/
structure IsFirst {α : Type} (Passed : α → Prop) (xs before : List α) (x : α) : Prop where
  order : before ++ [x] <+: xs
  passed : ∀ y ∈ before, Passed y
  stops : ¬Passed x

/-- A search that passes over the same members up to where it stops, stops there as well. -/
theorem IsFirst.congr {α : Type} {Passed Passed' : α → Prop} {xs before : List α} {x : α}
    (h : IsFirst Passed xs before x) (hsame : ∀ y ∈ before ++ [x], Passed' y ↔ Passed y) :
    IsFirst Passed' xs before x where
  order := h.order
  passed := fun y hy => (hsame y (List.mem_append_left _ hy)).2 (h.passed y hy)
  stops := fun hx => h.stops ((hsame x List.mem_concat_self).1 hx)

namespace Settings

end Settings

variable {read : Reader} {around : Surroundings} {project : Text}

/-! ## Settings -/

namespace Settings

variable {decoders : Decoders}

/-- The candidates that are there and cannot be read, each with what is wrong. -/
def faults (read : Reader) (cs : List Candidate) : List (Text × Disk.Fault) :=
  cs.filterMap fun c =>
    match read c.path with
    | .ok _ | .error .missing => none
    | .error fault => some (c.path, fault)

end Settings

/-! ## Policies -/

namespace Policy

variable {decode : Decoder}

/-- A policy allows a capability that is not denied, if it is one of those that are written down or none are. -/
def Follows (p : Policy) (spec : Spec) : Prop :=
  ∀ c, p.allows c = true ↔ c ∉ spec.deny ∧ (spec.allow = [] ∨ c ∈ spec.allow)

end Policy

end ScriptKit
