import ScriptKit.Text.Letter
import ScriptKit.Text.Numeral

/-!
# Numerals are read back

Writing a number and reading it gives the number again. A row of digits is read as a number that is not
negative, whatever zeros it begins with.

**Theorem (`readInt32_ofInt`).** The numeral of a 32-bit integer is read as that integer.
-/

namespace ScriptKit.Text

/-! ## Digits -/

theorem digitValue?_digitChar {d : Nat} (h : d < 10) : digitValue? (.char d.digitChar) = some d := by
  have hall : ∀ d : Fin 10, digitValue? (.char d.val.digitChar) = some d.val := by decide
  exact hall ⟨d, h⟩

theorem isNumeralPart_digitChar {d : Nat} (h : d < 10) :
    (Glyph.char d.digitChar).isNumeralPart = true := by
  have hall : ∀ d : Fin 10, (Glyph.char d.val.digitChar).isNumeralPart = true := by decide
  exact hall ⟨d, h⟩

theorem ofNat_of_lt {n : Nat} (h : n < 10) : ofNat n = [.char n.digitChar] := by
  rw [ofNat, Nat.toDigits_of_lt_base h]
  rfl

theorem ofNat_of_le {n : Nat} (h : 10 ≤ n) : ofNat n = ofNat (n / 10) ++ [.char (n % 10).digitChar] := by
  rw [ofNat, Nat.toDigits_of_base_le (by decide) h]
  simp [ofNat, ofChars]

/-- A numeral is a row of digits. -/
theorem isNumeralPart_of_mem_ofNat (n : Nat) : ∀ g ∈ ofNat n, g.isNumeralPart = true := by
  induction n using Nat.strongRecOn with
  | ind n ih =>
    intro g hg
    by_cases h : n < 10
    · rw [ofNat_of_lt h, List.mem_singleton] at hg
      exact hg ▸ isNumeralPart_digitChar h
    · rw [ofNat_of_le (by omega), List.mem_append, List.mem_singleton] at hg
      rcases hg with hg | rfl
      · exact ih (n / 10) (by omega) g hg
      · exact isNumeralPart_digitChar (Nat.mod_lt n (by decide))

theorem ofNat_ne_nil (n : Nat) : ofNat n ≠ [] := by
  by_cases h : n < 10
  · simp [ofNat_of_lt h]
  · simp [ofNat_of_le (n := n) (by omega)]

/-! ## Reading -/

theorem digitsValueFrom_ofNat (n : Nat) (rest : Text) :
    digitsValueFrom 0 (ofNat n ++ rest) = digitsValueFrom n rest := by
  induction n using Nat.strongRecOn generalizing rest with
  | ind n ih =>
    by_cases h : n < 10
    · rw [ofNat_of_lt h]
      simp [digitsValueFrom, digitValue?_digitChar h]
    · have hmod : n % 10 < 10 := Nat.mod_lt n (by decide)
      have hdiv : n / 10 * 10 + n % 10 = n := by omega
      rw [ofNat_of_le (by omega), List.append_assoc, ih (n / 10) (by omega)]
      simp [digitsValueFrom, digitValue?_digitChar hmod, hdiv]

theorem readNat_ofNat (n : Nat) : readNat (ofNat n) = some n := by
  have hread := digitsValueFrom_ofNat n []
  rw [List.append_nil] at hread
  cases h : ofNat n with
  | nil => exact absurd h (ofNat_ne_nil n)
  | cons g rest =>
    rw [h] at hread
    exact hread

/-- What begins with a digit has no sign. -/
theorem readInt_of_digits {t : Text} (h : ∀ g ∈ t, g.isNumeralPart = true) :
    readInt t = (readNat t).map fun n : Nat => (n : Int) := by
  unfold readInt
  split
  · exact absurd (h _ (List.mem_cons_self ..)) (by decide)
  · exact absurd (h _ (List.mem_cons_self ..)) (by decide)
  · cases readNat t <;> rfl

theorem readInt_ofInt (n : Int) : readInt (ofInt n) = some n := by
  cases n with
  | ofNat n =>
    rw [ofInt, readInt_of_digits (isNumeralPart_of_mem_ofNat n), readNat_ofNat]
    rfl
  | negSucc n =>
    simp only [ofInt, readInt, readNat_ofNat]
    rfl

/-- The numeral of a 32-bit integer is read as that integer. -/
theorem readInt32_ofInt (v : Int32) : (ofInt v.toInt).readInt32 = some v := by
  have hle := v.le_toInt
  have hlt := v.toInt_lt
  have hfits : -(bound32 : Int) ≤ v.toInt ∧ v.toInt < (bound32 : Int) := by
    simp only [bound32]
    omega
  rw [readInt32, readSigned, readInt_ofInt]
  simp [hfits]

/-- A row of digits that is read as a 32-bit integer is the decimal numeral of it. -/
theorem readNat_of_readInt32 {t : Text} {v : Int32} (h : ∀ g ∈ t, g.isNumeralPart = true)
    (hv : t.readInt32 = some v) : ∃ n, readNat t = some n ∧ v.toInt = n := by
  rw [readInt32, readSigned, readInt_of_digits h] at hv
  cases hn : readNat t with
  | none => simp [hn] at hv
  | some n =>
    refine ⟨n, rfl, ?_⟩
    simp only [hn, Option.map_some] at hv
    split at hv
    · next hfits =>
      simp only [Option.map_some, Option.some.injEq, bound32] at hv hfits
      subst hv
      exact Int32.toInt_ofInt_of_le (by omega) (by omega)
    · simp at hv

theorem toInt_nonneg_of_readInt32 {t : Text} {v : Int32} (h : ∀ g ∈ t, g.isNumeralPart = true)
    (hv : t.readInt32 = some v) : 0 ≤ v.toInt := by
  obtain ⟨n, -, hn⟩ := readNat_of_readInt32 h hv
  exact hn ▸ Int.natCast_nonneg n

end ScriptKit.Text
