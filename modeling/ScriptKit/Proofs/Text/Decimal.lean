import ScriptKit.Proofs.Text.Numeral

/-!
# What counts as a numeral

Reading a number goes through a text glyph by glyph and gives up at the first one that is no digit. `IsNumeral32` says
what is accepted without saying how: at most one sign, at least one ASCII digit and nothing but digits after the sign,
any zeros in front, and a value that fits in 32 bits.

**Theorem (`readInt32_eq_none_iff`).** A text is not read as a 32-bit integer exactly if it is no such numeral.
-/

namespace ScriptKit.Text

/-- The value of a decimal digit. -/
def digitValue (g : Glyph) : Nat := g.code - '0'.toNat

/-- The value of a row of decimal digits. -/
def digitsValue (t : Text) : Nat := t.foldl (fun n g => n * 10 + digitValue g) 0

/-- A nonempty row of decimal digits. -/
structure IsDigits (t : Text) : Prop where
  nonempty : t ≠ []
  digits : ∀ g ∈ t, g.isNumeralPart = true

/-- A decimal numeral that fits in 32 bits, with at most one sign. -/
inductive IsNumeral32 : Text → Prop
  | unsigned {t : Text} : IsDigits t → digitsValue t < 2147483648 → IsNumeral32 t
  | plus {t : Text} : IsDigits t → digitsValue t < 2147483648 → IsNumeral32 (.char '+' :: t)
  | minus {t : Text} : IsDigits t → digitsValue t ≤ 2147483648 → IsNumeral32 (.char '-' :: t)

variable {t : Text} {g : Glyph} {n : Nat}

theorem digitValue?_eq_some_iff : digitValue? g = some n ↔ g.isNumeralPart = true ∧ digitValue g = n := by
  cases g with
  | stray b => simp [digitValue?, Glyph.isNumeralPart]
  | char c =>
    rw [digitValue?, Glyph.isNumeralPart]
    by_cases hc : (decide ('0' ≤ c) && decide (c ≤ '9')) = true
    · rw [if_pos hc, Option.some.injEq]
      exact (and_iff_right hc).symm
    · rw [if_neg hc]
      simp [hc]

theorem digitsValueFrom_eq_some_iff (acc : Nat) : digitsValueFrom acc t = some n ↔
    (∀ g ∈ t, g.isNumeralPart = true) ∧ t.foldl (fun n g => n * 10 + digitValue g) acc = n := by
  induction t generalizing acc with
  | nil => simp [digitsValueFrom]
  | cons g t ih =>
    rw [digitsValueFrom, List.forall_mem_cons, List.foldl_cons]
    cases hg : digitValue? g with
    | none =>
      have hno : ¬g.isNumeralPart = true := fun h => by
        cases hg.symm.trans (digitValue?_eq_some_iff.2 ⟨h, rfl⟩)
      simp [hno]
    | some d =>
      obtain ⟨hpart, rfl⟩ := digitValue?_eq_some_iff.1 hg
      rw [and_iff_right hpart]
      exact ih _

theorem readNat_eq_some_iff : readNat t = some n ↔ IsDigits t ∧ digitsValue t = n := by
  cases t with
  | nil => exact ⟨fun h => (by cases h), fun h => absurd rfl h.1.nonempty⟩
  | cons g t =>
    rw [readNat, digitsValueFrom_eq_some_iff]
    exact and_congr_left fun _ => ⟨fun h => ⟨List.cons_ne_nil g t, h⟩, IsDigits.digits⟩

/-- A row of digits does not begin with a sign. -/
theorem not_isDigits_sign {c : Char} (hc : (Glyph.char c).isNumeralPart = false) : ¬IsDigits (.char c :: t) :=
  fun h => by cases hc.symm.trans (h.digits _ (List.mem_cons_self ..))

/-- What is read as an integer is a row of digits after at most one sign. -/
theorem readInt_eq_some_iff {z : Int} : readInt t = some z ↔
    (IsDigits t ∧ digitsValue t = z) ∨ (∃ ds, t = .char '+' :: ds ∧ IsDigits ds ∧ digitsValue ds = z) ∨
      ∃ ds, t = .char '-' :: ds ∧ IsDigits ds ∧ -(digitsValue ds : Int) = z := by
  unfold readInt
  split
  · next rest =>
    have hno : ¬IsDigits (.char '-' :: rest) := not_isDigits_sign rfl
    simp [hno, Option.bind_eq_some_iff, readNat_eq_some_iff, and_assoc]
  · next rest =>
    have hno : ¬IsDigits (.char '+' :: rest) := not_isDigits_sign rfl
    simp [hno, Option.bind_eq_some_iff, readNat_eq_some_iff, and_assoc]
  · next hminus hplus =>
    rw [or_iff_left]
    · simp [Option.bind_eq_some_iff, readNat_eq_some_iff, and_assoc]
    · rintro (⟨ds, hds, -⟩ | ⟨ds, hds, -⟩)
      · exact hplus ds hds
      · exact hminus ds hds

/-- A text is read as a 32-bit integer exactly if it is a numeral that fits. -/
theorem readInt32_isSome_iff : t.readInt32.isSome = true ↔ IsNumeral32 t := by
  have hfits : t.readInt32.isSome = true ↔ ∃ z, readInt t = some z ∧ -2147483648 ≤ z ∧ z < 2147483648 := by
    rw [readInt32, Option.isSome_map, readSigned]
    cases readInt t with
    | none => simp
    | some z => by_cases hz : -(bound32 : Int) ≤ z ∧ z < (bound32 : Int) <;> simp [hz] <;> simpa [bound32] using hz
  rw [hfits]
  constructor
  · rintro ⟨z, hread, hle, hlt⟩
    rcases readInt_eq_some_iff.1 hread with ⟨hdigits, rfl⟩ | ⟨ds, rfl, hdigits, rfl⟩ | ⟨ds, rfl, hdigits, rfl⟩
    · exact .unsigned hdigits (by omega)
    · exact .plus hdigits (by omega)
    · exact .minus hdigits (by omega)
  · intro h
    cases h with
    | unsigned hdigits hlt => exact ⟨_, readInt_eq_some_iff.2 (.inl ⟨hdigits, rfl⟩), by omega, by omega⟩
    | plus hdigits hlt => exact ⟨_, readInt_eq_some_iff.2 (.inr (.inl ⟨_, rfl, hdigits, rfl⟩)), by omega, by omega⟩
    | minus hdigits hle => exact ⟨_, readInt_eq_some_iff.2 (.inr (.inr ⟨_, rfl, hdigits, rfl⟩)), by omega, by omega⟩

/-- A text is not read as a 32-bit integer exactly if it is no numeral that fits. -/
theorem readInt32_eq_none_iff : t.readInt32 = none ↔ ¬IsNumeral32 t := by
  rw [← readInt32_isSome_iff, Bool.not_eq_true, Option.isSome_eq_false_iff, Option.isNone_iff_eq_none]

end ScriptKit.Text
