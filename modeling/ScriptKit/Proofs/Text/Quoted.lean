import ScriptKit.Proofs.Text.Bytes
import ScriptKit.Text.Quoted

/-!
# Quoted text can be read back

Between quotes, what is not printable is escaped by one of a few fixed forms. `unquoteGlyph?` reads one
glyph back: the character behind a backslash tells the form, and numeric forms have a fixed number of
digits.

**Theorem (`quoted_injective`).** Texts that were read from bytes are equal if their quoted forms are.
-/

namespace ScriptKit.Text

/-! ## Numbers in base sixteen -/

/-- The value of a digit in base sixteen. -/
def hexDigit : Glyph → Nat
  | .char c => if c ≤ '9' then c.toNat - '0'.toNat else c.toNat - 'a'.toNat + 10
  | .stray _ => 0

/-- The value of digits in base sixteen. -/
def hexValue (t : Text) : Nat := t.foldl (fun n g => n * 16 + hexDigit g) 0

theorem hexDigit_digitChar {d : Nat} (h : d < 16) : hexDigit (.char d.digitChar) = d := by
  have hall : ∀ d : Fin 16, hexDigit (.char d.val.digitChar) = d.val := by decide
  exact hall ⟨d, h⟩

theorem hexValue_concat (t : Text) (g : Glyph) : hexValue (t ++ [g]) = hexValue t * 16 + hexDigit g := by
  simp [hexValue, List.foldl_append]

theorem hexValue_ofChars_toDigits (n : Nat) : hexValue (ofChars (Nat.toDigits 16 n)) = n := by
  induction n using Nat.strongRecOn with
  | ind n ih =>
    by_cases h : n < 16
    · rw [Nat.toDigits_of_lt_base h]
      simp [ofChars, hexValue, hexDigit_digitChar h]
    · have hmod : n % 16 < 16 := Nat.mod_lt n (by decide)
      rw [Nat.toDigits_of_base_le (by decide) (by omega), ofChars, List.map_append, List.map_singleton,
        hexValue_concat, hexDigit_digitChar hmod]
      rw [show hexValue ((Nat.toDigits 16 (n / 16)).map .char) = n / 16 from ih (n / 16) (by omega)]
      omega

theorem hexValue_zeros (k : Nat) (t : Text) : hexValue (repeated k '0' ++ t) = hexValue t := by
  have hzero : hexDigit (.char '0') = 0 := by decide
  induction k with
  | zero => rfl
  | succ k ih =>
    rw [← ih]
    simp [hexValue, repeated, List.replicate_succ, hzero]

theorem length_toDigits_le {w n : Nat} (hw : 0 < w) (h : n < Nat.pow 16 w) :
    (Nat.toDigits 16 n).length ≤ w := by
  induction w generalizing n with
  | zero => omega
  | succ w ih =>
    by_cases hn : n < 16
    · rw [Nat.toDigits_of_lt_base hn, List.length_singleton]
      omega
    · rw [Nat.toDigits_of_base_le (by decide) (by omega), List.length_append, List.length_singleton]
      have hpow : n / 16 < Nat.pow 16 w := by
        rw [Nat.div_lt_iff_lt_mul (by decide)]
        exact h
      have hpos : 0 < w := by
        rcases Nat.eq_zero_or_pos w with rfl | hpos
        · exact absurd (h : n < 16) hn
        · exact hpos
      exact Nat.succ_le_succ (ih hpos hpow)

/-- A number that fits is written with as many digits as asked for. -/
theorem ofHex_spec {w n : Nat} (hw : 0 < w) (h : n < Nat.pow 16 w) :
    (ofHex w n).length = w ∧ hexValue (ofHex w n) = n := by
  have hlength := length_toDigits_le hw h
  constructor
  · simp only [ofHex, repeated, ofChars, List.length_append, List.length_replicate, List.length_map]
    omega
  · rw [ofHex, hexValue_zeros, hexValue_ofChars_toDigits]

/-! ## One glyph -/

/-- The character that a letter behind a backslash stands for. -/
def unescape? (l : Char) : Option Char :=
  [('a', '\x07'), ('b', '\x08'), ('t', '\t'), ('n', '\n'), ('v', '\x0b'), ('f', '\x0c'), ('r', '\r'),
    ('"', '"'), ('\\', '\\')].lookup l

/-- Read one glyph back and give what follows. -/
def unquoteGlyph? : Text → Option (Glyph × Text)
  | [] => none
  | [g] => some (g, [])
  | g :: .char l :: rest =>
    if g ≠ .char '\\' then some (g, .char l :: rest)
    else
      match unescape? l with
      | some c => some (.char c, rest)
      | none =>
        let width := if l = 'x' then 2 else if l = 'u' then 4 else 8
        let n := hexValue (rest.take width)
        some (if l = 'x' ∧ 0x80 ≤ n then .stray (UInt8.ofNat n) else .char (Char.ofNat n), rest.drop width)
  | g :: rest => some (g, rest)

theorem unquoteGlyph?_cons {g : Glyph} (t : Text) (h : g ≠ .char '\\') :
    unquoteGlyph? (g :: t) = some (g, t) := by
  cases t with
  | nil => rfl
  | cons g' t =>
    cases g' with
    | char l => exact if_pos h
    | stray b => rfl

theorem unquoteGlyph?_letter {l c : Char} (t : Text) (h : unescape? l = some c) :
    unquoteGlyph? (.char '\\' :: .char l :: t) = some (.char c, t) := by
  simp [unquoteGlyph?, h]

theorem unquoteGlyph?_number {l : Char} {w n : Nat} (t : Text) (hl : unescape? l = none)
    (hw : (if l = 'x' then 2 else if l = 'u' then 4 else 8) = w) (hpos : 0 < w) (hn : n < Nat.pow 16 w) :
    unquoteGlyph? (.char '\\' :: .char l :: (ofHex w n ++ t)) =
      some (if l = 'x' ∧ 0x80 ≤ n then .stray (UInt8.ofNat n) else .char (Char.ofNat n), t) := by
  obtain ⟨hlength, hvalue⟩ := ofHex_spec hpos hn
  have htake : (ofHex w n ++ t).take w = ofHex w n := by
    rw [List.take_append_of_le_length (by omega), List.take_of_length_le (by omega)]
  have hdrop : (ofHex w n ++ t).drop w = t := by
    rw [List.drop_append_of_le_length (by omega), List.drop_of_length_le (by omega), List.nil_append]
  simp only [unquoteGlyph?, ne_eq, not_true_eq_false, if_false, hl, hw, htake, hdrop, hvalue]

theorem unescape?_escapeLetter {c l : Char} (h : escapeLetter? c = some l) : unescape? l = some c := by
  have hc : ∀ n, c.toNat = n → c = Char.ofNat n := fun n hn => hn ▸ (Char.ofNat_toNat c).symm
  unfold escapeLetter? at h
  split at h
  all_goals
    first
      | cases h
        rw [hc _ ‹_›]
        rfl
      | cases h

/-- A quoted glyph is read back. -/
theorem unquoteGlyph?_quoteGlyph {g : Glyph} (t : Text) (hg : ∀ b, g = .stray b → 0x80 ≤ b.toNat) :
    unquoteGlyph? (quoteGlyph '"' g ++ t) = some (g, t) := by
  cases g with
  | stray b =>
    -- a byte from 0x80 on is read back as a byte, and below it as the character of the same number
    have hb := b.toNat_lt
    have hread := unquoteGlyph?_number (l := 'x') (w := 2) (n := b.toNat) t rfl rfl (by decide) (by omega)
    rw [if_pos ⟨rfl, hg b rfl⟩, UInt8.ofNat_toNat] at hread
    exact hread
  | char c =>
    -- The ways of writing a character are tried in order: marks, as it is, by a letter, by its number.
    have hvalid := toNat_valid c
    rw [quoteGlyph]
    split
    · next hmark =>
      rw [Bool.or_eq_true, decide_eq_true_eq, decide_eq_true_eq] at hmark
      rcases hmark with rfl | rfl <;> exact unquoteGlyph?_letter t rfl
    · next hmark =>
      split
      · refine unquoteGlyph?_cons t fun heq => hmark ?_
        rw [Glyph.char.inj heq]
        rfl
      · split
        · next l hl => exact unquoteGlyph?_letter t (unescape?_escapeLetter hl)
        · split
          · next hsmall =>
            have hread := unquoteGlyph?_number (l := 'x') (w := 2) (n := c.toNat) t rfl rfl (by decide)
              (by show c.toNat < 0x100; omega)
            rw [if_neg (fun h => by omega), Char.ofNat_toNat] at hread
            exact hread
          · split
            · have hread := unquoteGlyph?_number (l := 'u') (w := 4) (n := c.toNat) t rfl rfl (by decide)
                (by show c.toNat < 0x10000; omega)
              rw [if_neg (by simp), Char.ofNat_toNat] at hread
              exact hread
            · have hread := unquoteGlyph?_number (l := 'U') (w := 8) (n := c.toNat) t rfl rfl (by decide)
                (by show c.toNat < 0x100000000; omega)
              rw [if_neg (by simp), Char.ofNat_toNat] at hread
              exact hread

/-! ## Whole texts -/

/-- A text as it was read from bytes: ASCII bytes are no strays in it. -/
def IsRead (t : Text) : Prop := ∀ b, .stray b ∈ t → 0x80 ≤ b.toNat

section Whole

variable {t u r r' : Text} {g : Glyph}

theorem IsRead.head (h : IsRead (g :: t)) : ∀ b, g = .stray b → 0x80 ≤ b.toNat := fun b hb => h b (by simp [hb])

theorem IsRead.tail (h : IsRead (g :: t)) : IsRead t := fun b hb => h b (List.mem_cons_of_mem _ hb)

theorem Settled.isRead (h : t.Settled) : t.IsRead := by
  intro b hb
  rw [← h] at hb
  exact le_of_stray_mem_ofBytes hb

/-- A quote ends what is quoted. -/
theorem quote_ne_quoteGlyph (hg : ∀ b, g = .stray b → 0x80 ≤ b.toNat) :
    .char '"' :: r ≠ quoteGlyph '"' g ++ t := by
  intro heq
  have hread := congrArg unquoteGlyph? heq
  rw [unquoteGlyph?_quoteGlyph t hg, unquoteGlyph?_cons r (by decide)] at hread
  obtain ⟨rfl, -⟩ := Prod.mk.inj (Option.some.inj hread)
  cases heq

theorem quoteGlyphs_cancel (ht : t.IsRead) (hu : u.IsRead)
    (heq : t.flatMap (quoteGlyph '"') ++ .char '"' :: r = u.flatMap (quoteGlyph '"') ++ .char '"' :: r') :
    t = u := by
  induction t generalizing u with
  | nil =>
    cases u with
    | nil => rfl
    | cons g' u =>
      rw [List.flatMap_cons, List.append_assoc] at heq
      exact absurd heq (quote_ne_quoteGlyph hu.head)
  | cons g t ih =>
    cases u with
    | nil =>
      rw [List.flatMap_cons, List.append_assoc] at heq
      exact absurd heq.symm (quote_ne_quoteGlyph ht.head)
    | cons g' u =>
      have hread := congrArg unquoteGlyph? heq
      rw [List.flatMap_cons, List.flatMap_cons, List.append_assoc, List.append_assoc,
        unquoteGlyph?_quoteGlyph _ ht.head, unquoteGlyph?_quoteGlyph _ hu.head] at hread
      obtain ⟨rfl, hrest⟩ := Prod.mk.inj (Option.some.inj hread)
      rw [ih ht.tail hu.tail hrest]

theorem quoted_append (t r : Text) :
    t.quoted ++ r = .char '"' :: (t.flatMap (quoteGlyph '"') ++ .char '"' :: r) := by
  simp [quoted]

/-- What is quoted ends with the first quote that is not escaped, whatever follows. -/
theorem quoted_cancel (ht : t.IsRead) (hu : u.IsRead) (heq : t.quoted ++ r = u.quoted ++ r') : t = u := by
  rw [quoted_append, quoted_append] at heq
  exact quoteGlyphs_cancel ht hu (List.cons.inj heq).2

/-- Read texts with the same quoted form are equal. -/
theorem quoted_injective (ht : t.IsRead) (hu : u.IsRead) (h : t.quoted = u.quoted) : t = u :=
  quoted_cancel ht hu (congrArg (· ++ []) h)

end Whole

end ScriptKit.Text
