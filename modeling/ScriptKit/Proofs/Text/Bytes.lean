import ScriptKit.Text.Basic

/-!
# Bytes are read without loss

Reading takes the bytes of one character at a time, or a single stray byte where no character begins.

**Theorem (`toBytes_ofBytes`).** Writing what was read gives the bytes again.

The converse holds of a text that is `Settled`: one in which the bytes of no strays form a character.
Pieces of such a text are settled if what follows them begins with a character, because a character never
begins with a byte that continues another one.
-/

namespace ScriptKit.Text

/-! ## One character -/

theorem toNat_ofNat {n : Nat} (h : n < 256) : (UInt8.ofNat n).toNat = n := by
  rw [UInt8.toNat_ofNat']
  exact Nat.mod_eq_of_lt h

theorem isTail_iff (b : UInt8) : isTail b = true ↔ 0x80 ≤ b.toNat ∧ b.toNat ≤ 0xBF := by
  simp [isTail, UInt8.le_iff_toNat_le]

theorem tailBits_eq (b : UInt8) : tailBits b = b.toNat - 0x80 := rfl

theorem not_lt_ascii {b : UInt8} (h : 0x80 ≤ b.toNat) : ¬b < 0x80 := by
  rw [UInt8.lt_iff_toNat_lt]
  exact Nat.not_lt.2 h

theorem isHeadOfTwo_iff (b₀ b₁ : UInt8) : (0xC2 ≤ b₀ && b₀ ≤ 0xDF && isTail b₁) = true ↔
    (0xC2 ≤ b₀.toNat ∧ b₀.toNat ≤ 0xDF) ∧ isTail b₁ = true := by
  simp [UInt8.le_iff_toNat_le]

theorem isHeadOfThree_iff (b₀ b₁ : UInt8) : isHeadOfThree b₀ b₁ = true ↔
    isTail b₁ = true ∧ (0xE0 ≤ b₀.toNat ∧ b₀.toNat ≤ 0xEF) ∧
      (0xE0 < b₀.toNat ∨ 0xA0 ≤ b₁.toNat) ∧ (b₀.toNat ≠ 0xED ∨ b₁.toNat ≤ 0x9F) := by
  simp [isHeadOfThree, isTail_iff, UInt8.le_iff_toNat_le, UInt8.lt_iff_toNat_lt, ← UInt8.toNat_inj]
  omega

theorem isHeadOfFour_iff (b₀ b₁ : UInt8) : isHeadOfFour b₀ b₁ = true ↔
    isTail b₁ = true ∧ (0xF0 ≤ b₀.toNat ∧ b₀.toNat ≤ 0xF4) ∧
      (0xF0 < b₀.toNat ∨ 0x90 ≤ b₁.toNat) ∧ (b₀.toNat < 0xF4 ∨ b₁.toNat ≤ 0x8F) := by
  simp [isHeadOfFour, isTail_iff, UInt8.le_iff_toNat_le, UInt8.lt_iff_toNat_lt, ← UInt8.toNat_inj]
  omega

section Steps

variable {b₀ b₁ b₂ b₃ : UInt8} (bs : List UInt8)

theorem ofBytes_one (h : b₀.toNat < 0x80) :
    ofBytes (b₀ :: bs) = .char (Char.ofNat b₀.toNat) :: ofBytes bs := by
  rw [ofBytes.eq_def]
  exact if_pos (UInt8.lt_iff_toNat_lt.2 h)

theorem ofBytes_two (h₀ : 0xC2 ≤ b₀.toNat ∧ b₀.toNat ≤ 0xDF) (h₁ : isTail b₁ = true) :
    ofBytes (b₀ :: b₁ :: bs) =
      .char (Char.ofNat ((b₀.toNat - 0xC0) * 64 + tailBits b₁)) :: ofBytes bs := by
  have hbig : ¬b₀ < 0x80 := not_lt_ascii (by omega)
  have htwo := (isHeadOfTwo_iff b₀ b₁).2 ⟨h₀, h₁⟩
  rw [ofBytes.eq_def]
  simp only [hbig, htwo, if_false, if_true]

theorem ofBytes_three (h₀ : isHeadOfThree b₀ b₁ = true) (h₂ : isTail b₂ = true) :
    ofBytes (b₀ :: b₁ :: b₂ :: bs) =
      .char (Char.ofNat (((b₀.toNat - 0xE0) * 64 + tailBits b₁) * 64 + tailBits b₂)) ::
        ofBytes bs := by
  have hrange := ((isHeadOfThree_iff b₀ b₁).1 h₀).2.1
  have hbig : ¬b₀ < 0x80 := not_lt_ascii (by omega)
  have htwo : ¬(0xC2 ≤ b₀ && b₀ ≤ 0xDF && isTail b₁) = true := by
    rw [isHeadOfTwo_iff b₀ b₁]
    omega
  rw [ofBytes.eq_def]
  simp only [hbig, htwo, if_false, Bool.false_eq_true, h₀, h₂, Bool.and_self, if_true]

theorem ofBytes_four (h₀ : isHeadOfFour b₀ b₁ = true) (h₂ : isTail b₂ = true) (h₃ : isTail b₃ = true) :
    ofBytes (b₀ :: b₁ :: b₂ :: b₃ :: bs) =
      .char (Char.ofNat ((((b₀.toNat - 0xF0) * 64 + tailBits b₁) * 64 + tailBits b₂) * 64
        + tailBits b₃)) :: ofBytes bs := by
  have hrange := ((isHeadOfFour_iff b₀ b₁).1 h₀).2.1
  have hbig : ¬b₀ < 0x80 := not_lt_ascii (by omega)
  have htwo : ¬(0xC2 ≤ b₀ && b₀ ≤ 0xDF && isTail b₁) = true := by
    rw [isHeadOfTwo_iff b₀ b₁]
    omega
  have hthree : isHeadOfThree b₀ b₁ = false := by
    rw [Bool.eq_false_iff, ne_eq, isHeadOfThree_iff]
    omega
  rw [ofBytes.eq_def]
  simp only [hbig, htwo, hthree, Bool.false_and, if_false, Bool.false_eq_true, h₀, h₂, h₃, Bool.and_self, if_true]

end Steps

theorem toNat_valid (c : Char) : c.toNat < 0xD800 ∨ 0xDFFF < c.toNat ∧ c.toNat < 0x110000 := c.valid

/-- The bytes of a character are read as that character, whatever follows. -/
theorem ofBytes_utf8EncodeChar (c : Char) (bs : List UInt8) :
    ofBytes (String.utf8EncodeChar c ++ bs) = .char c :: ofBytes bs := by
  have hvalid := toNat_valid c
  have hc : ∀ n, n = c.toNat → Char.ofNat n = c := fun n hn => hn ▸ Char.ofNat_toNat c
  unfold String.utf8EncodeChar
  simp only [show c.val.toNat = c.toNat from rfl]
  -- all that is left to show is arithmetic in the number of the character
  generalize hn : c.toNat = n at hvalid hc
  have htail : ∀ m, isTail (UInt8.ofNat (m % 64 + 128)) = true := by
    intro m
    rw [isTail_iff, toNat_ofNat (by omega)]
    omega
  split
  · refine (ofBytes_one bs ?_).trans ?_
    · simp (disch := omega) only [toNat_ofNat]
      omega
    · simp (disch := omega) only [toNat_ofNat, hc n rfl]
  · split
    · refine (ofBytes_two bs ?_ (htail n)).trans ?_
      · simp (disch := omega) only [toNat_ofNat]
        omega
      · refine congrArg (fun ch => Glyph.char ch :: ofBytes bs) (hc _ ?_)
        simp (disch := omega) only [tailBits_eq, toNat_ofNat]
        omega
    · split
      · refine (ofBytes_three bs ?_ (htail n)).trans ?_
        · simp (disch := omega) only [isHeadOfThree_iff, toNat_ofNat]
          exact ⟨htail _, by omega, by omega, by omega⟩
        · refine congrArg (fun ch => Glyph.char ch :: ofBytes bs) (hc _ ?_)
          simp (disch := omega) only [tailBits_eq, toNat_ofNat]
          omega
      · refine (ofBytes_four bs ?_ (htail _) (htail n)).trans ?_
        · simp (disch := omega) only [isHeadOfFour_iff, toNat_ofNat]
          exact ⟨htail _, by omega, by omega, by omega⟩
        · refine congrArg (fun ch => Glyph.char ch :: ofBytes bs) (hc _ ?_)
          simp (disch := omega) only [tailBits_eq, toNat_ofNat]
          omega

theorem toNat_charOfNat {n : Nat} (h : n < 0xD800 ∨ 0xDFFF < n ∧ n < 0x110000) :
    (Char.ofNat n).val.toNat = n := by
  have hvalid : n.isValidChar := h
  rw [Char.ofNat, dif_pos hvalid]
  rfl

theorem ofNat_eq {n : Nat} {b : UInt8} (h : n = b.toNat) : UInt8.ofNat n = b := by
  rw [h, UInt8.ofNat_toNat]

section Encode

variable {b₀ b₁ b₂ b₃ : UInt8}

theorem utf8EncodeChar_one (h : b₀.toNat < 0x80) :
    String.utf8EncodeChar (Char.ofNat b₀.toNat) = [b₀] := by
  unfold String.utf8EncodeChar
  rw [toNat_charOfNat (by omega)]
  simp only [show b₀.toNat ≤ 0x7F by omega, if_true, UInt8.ofNat_toNat]

theorem utf8EncodeChar_two (h₀ : 0xC2 ≤ b₀.toNat ∧ b₀.toNat ≤ 0xDF) (h₁ : isTail b₁ = true) :
    String.utf8EncodeChar (Char.ofNat ((b₀.toNat - 0xC0) * 64 + tailBits b₁)) = [b₀, b₁] := by
  rw [isTail_iff] at h₁
  obtain ⟨n, hn⟩ : ∃ n, n = (b₀.toNat - 0xC0) * 64 + tailBits b₁ := ⟨_, rfl⟩
  rw [← hn]
  rw [tailBits_eq] at hn
  unfold String.utf8EncodeChar
  rw [toNat_charOfNat (by omega)]
  simp only [show ¬n ≤ 0x7F by omega, show n ≤ 0x7FF by omega, if_true, if_false]
  rw [ofNat_eq (b := b₀) (by omega), ofNat_eq (b := b₁) (by omega)]

theorem utf8EncodeChar_three (h₀ : isHeadOfThree b₀ b₁ = true) (h₂ : isTail b₂ = true) :
    String.utf8EncodeChar (Char.ofNat (((b₀.toNat - 0xE0) * 64 + tailBits b₁) * 64 + tailBits b₂)) =
      [b₀, b₁, b₂] := by
  rw [isHeadOfThree_iff] at h₀
  obtain ⟨h₁, hrange, hlong, hsurrogate⟩ := h₀
  rw [isTail_iff] at h₁ h₂
  obtain ⟨n, hn⟩ : ∃ n, n = ((b₀.toNat - 0xE0) * 64 + tailBits b₁) * 64 + tailBits b₂ := ⟨_, rfl⟩
  rw [← hn]
  rw [tailBits_eq, tailBits_eq] at hn
  unfold String.utf8EncodeChar
  rw [toNat_charOfNat (by omega)]
  simp only [show ¬n ≤ 0x7F by omega, show ¬n ≤ 0x7FF by omega, show n ≤ 0xFFFF by omega, if_true,
    if_false]
  rw [ofNat_eq (b := b₀) (by omega), ofNat_eq (b := b₁) (by omega), ofNat_eq (b := b₂) (by omega)]

theorem utf8EncodeChar_four (h₀ : isHeadOfFour b₀ b₁ = true) (h₂ : isTail b₂ = true)
    (h₃ : isTail b₃ = true) :
    String.utf8EncodeChar (Char.ofNat ((((b₀.toNat - 0xF0) * 64 + tailBits b₁) * 64 + tailBits b₂) * 64
      + tailBits b₃)) = [b₀, b₁, b₂, b₃] := by
  rw [isHeadOfFour_iff] at h₀
  obtain ⟨h₁, hrange, hlong, hlast⟩ := h₀
  rw [isTail_iff] at h₁ h₂ h₃
  obtain ⟨n, hn⟩ : ∃ n, n = (((b₀.toNat - 0xF0) * 64 + tailBits b₁) * 64 + tailBits b₂) * 64
    + tailBits b₃ := ⟨_, rfl⟩
  rw [← hn]
  rw [tailBits_eq, tailBits_eq, tailBits_eq] at hn
  unfold String.utf8EncodeChar
  rw [toNat_charOfNat (by omega)]
  simp only [show ¬n ≤ 0x7F by omega, show ¬n ≤ 0x7FF by omega, show ¬n ≤ 0xFFFF by omega, if_false]
  rw [ofNat_eq (b := b₀) (by omega), ofNat_eq (b := b₁) (by omega), ofNat_eq (b := b₂) (by omega),
    ofNat_eq (b := b₃) (by omega)]

end Encode

/-- Reading takes the bytes of a character or a single stray byte. -/
theorem ofBytes_cons (b : UInt8) (bs : List UInt8) :
    (∃ c rest, b :: bs = String.utf8EncodeChar c ++ rest ∧ ofBytes (b :: bs) = .char c :: ofBytes rest) ∨
      (0x80 ≤ b.toNat ∧ ofBytes (b :: bs) = .stray b :: ofBytes bs) := by
  -- the lengths of a character are tried one after the other; a byte none of them takes is stray
  rw [ofBytes.eq_def (b :: bs)]
  dsimp only
  split
  · next hsmall =>
    have h := UInt8.lt_iff_toNat_lt.1 hsmall
    exact Or.inl ⟨_, bs, by rw [utf8EncodeChar_one h]; rfl, rfl⟩
  · next hbig =>
    have h : 0x80 ≤ b.toNat := Nat.not_lt.1 fun h => hbig (UInt8.lt_iff_toNat_lt.2 h)
    split
    · exact Or.inr ⟨h, rfl⟩
    · next b₁ bs =>
      split
      · next h₂ =>
        obtain ⟨h₀, h₁⟩ := (isHeadOfTwo_iff b b₁).1 h₂
        exact Or.inl ⟨_, bs, by rw [utf8EncodeChar_two h₀ h₁]; rfl, rfl⟩
      · split
        · exact Or.inr ⟨h, rfl⟩
        · next b₂ bs =>
          split
          · next h₃ =>
            obtain ⟨h₀, h₂⟩ := Bool.and_eq_true_iff.1 h₃
            exact Or.inl ⟨_, bs, by rw [utf8EncodeChar_three h₀ h₂]; rfl, rfl⟩
          · split
            · exact Or.inr ⟨h, rfl⟩
            · next b₃ bs =>
              split
              · next h₄ =>
                obtain ⟨h₀, h₃⟩ := Bool.and_eq_true_iff.1 h₄
                obtain ⟨h₀, h₂⟩ := Bool.and_eq_true_iff.1 h₀
                exact Or.inl ⟨_, bs, by rw [utf8EncodeChar_four h₀ h₂ h₃]; rfl, rfl⟩
              · exact Or.inr ⟨h, rfl⟩

/-- Bytes are read from the front, a character or a stray byte at a time. -/
theorem ofBytes_induction {P : List UInt8 → Prop} (nil : P [])
    (char : ∀ c rest, P rest → P (String.utf8EncodeChar c ++ rest))
    (stray : ∀ b rest, 0x80 ≤ b.toNat → ofBytes (b :: rest) = .stray b :: ofBytes rest → P rest →
      P (b :: rest)) (bs : List UInt8) : P bs := by
  obtain ⟨n, hn⟩ : ∃ n, bs.length = n := ⟨_, rfl⟩
  induction n using Nat.strongRecOn generalizing bs with
  | ind n ih =>
    cases bs with
    | nil => exact nil
    | cons b bs =>
      rcases ofBytes_cons b bs with ⟨c, rest, hbytes, -⟩ | ⟨hb, hread⟩
      · have hpos : 0 < (String.utf8EncodeChar c).length := List.length_pos_iff.2 String.utf8EncodeChar_ne_nil
        rw [hbytes] at hn ⊢
        rw [List.length_append] at hn
        exact char c rest (ih _ (by omega) rest rfl)
      · rw [List.length_cons] at hn
        exact stray b bs hb hread (ih _ (by omega) bs rfl)

@[simp] theorem toBytes_append (t u : Text) : (t ++ u).toBytes = t.toBytes ++ u.toBytes :=
  List.flatMap_append

@[simp] theorem toBytes_char (c : Char) (t : Text) :
    toBytes (.char c :: t) = String.utf8EncodeChar c ++ t.toBytes := rfl

@[simp] theorem toBytes_stray (b : UInt8) (t : Text) : toBytes (.stray b :: t) = b :: t.toBytes := rfl

/-- Writing what was read gives the bytes again. -/
theorem toBytes_ofBytes (bs : List UInt8) : (ofBytes bs).toBytes = bs := by
  induction bs using ofBytes_induction with
  | nil => rfl
  | char c rest ih => rw [ofBytes_utf8EncodeChar, toBytes_char, ih]
  | stray b rest _ hread ih => rw [hread, toBytes_stray, ih]

/-- Only bytes beyond the ASCII characters are strays. -/
theorem le_of_stray_mem_ofBytes {bs : List UInt8} {b : UInt8} (h : .stray b ∈ ofBytes bs) :
    0x80 ≤ b.toNat := by
  induction bs using ofBytes_induction with
  | nil => cases h
  | char c rest ih =>
    rw [ofBytes_utf8EncodeChar, List.mem_cons] at h
    rcases h with h | h
    · cases h
    · exact ih h
  | stray b' rest hb hread ih =>
    rw [hread, List.mem_cons] at h
    rcases h with h | h
    · cases h
      exact hb
    · exact ih h

/-! ## Boundaries -/

/-- The first byte of a character continues no other one, and the rest all do. -/
theorem utf8EncodeChar_eq (c : Char) : ∃ b rest, String.utf8EncodeChar c = b :: rest ∧
    isTail b = false ∧ ∀ b' ∈ rest, isTail b' = true := by
  have hvalid := toNat_valid c
  have htail : ∀ m, isTail (UInt8.ofNat (m % 64 + 128)) = true := by
    intro m
    rw [isTail_iff, toNat_ofNat (by omega)]
    omega
  have hhead : ∀ m, m < 0x80 ∨ 0xBF < m ∧ m < 256 → isTail (UInt8.ofNat m) = false := by
    intro m hm
    rw [Bool.eq_false_iff, ne_eq, isTail_iff, toNat_ofNat (by omega)]
    omega
  unfold String.utf8EncodeChar
  simp only [show c.val.toNat = c.toNat from rfl]
  split
  · exact ⟨_, _, rfl, hhead _ (by omega), by simp⟩
  · split
    · exact ⟨_, _, rfl, hhead _ (by omega), List.forall_mem_singleton.2 (htail _)⟩
    · split
      · exact ⟨_, _, rfl, hhead _ (by omega), List.forall_mem_cons.2 ⟨htail _,
          List.forall_mem_singleton.2 (htail _)⟩⟩
      · exact ⟨_, _, rfl, hhead _ (by omega), List.forall_mem_cons.2 ⟨htail _,
          List.forall_mem_cons.2 ⟨htail _, List.forall_mem_singleton.2 (htail _)⟩⟩⟩

/-- An ASCII byte is part of no character but its own. -/
theorem eq_of_mem_utf8EncodeChar {c : Char} {b : UInt8} (hb : b.toNat < 0x80) (h : b ∈ String.utf8EncodeChar c) :
    c = Char.ofNat b.toNat := by
  obtain ⟨b', rest, hc, -, hrest⟩ := utf8EncodeChar_eq c
  rw [hc, List.mem_cons] at h
  rcases h with rfl | h
  · have hread := ofBytes_utf8EncodeChar c []
    rw [hc, List.cons_append, ofBytes_one _ hb] at hread
    exact (Glyph.char.inj (List.cons.inj hread).1).symm
  · have htail := (isTail_iff b).1 (hrest b h)
    omega

/-- What begins with a byte that continues no character is read for itself. -/
theorem ofBytes_append {bs : List UInt8} (hbs : ∀ b rest, bs = b :: rest → isTail b = false)
    (as : List UInt8) : ofBytes (as ++ bs) = ofBytes as ++ ofBytes bs := by
  induction as using ofBytes_induction with
  | nil => rfl
  | char c rest ih => rw [List.append_assoc, ofBytes_utf8EncodeChar, ofBytes_utf8EncodeChar, ih]; rfl
  | stray b rest _ hread ih =>
    rw [hread, List.cons_append, List.cons_append]
    rcases ofBytes_cons b (rest ++ bs) with ⟨c, rest', hbytes, -⟩ | ⟨-, hread'⟩
    · -- A character that begins in front of the boundary would end there, and would have been read.
      obtain ⟨b', tail, hc, -, htail⟩ := utf8EncodeChar_eq c
      rw [hc, List.cons_append] at hbytes
      obtain ⟨hb, hsplit⟩ := List.cons.inj hbytes
      subst hb
      rcases List.append_eq_append_iff.1 hsplit with ⟨u, rfl, hu⟩ | ⟨u, rfl, -⟩
      · cases u with
        | nil =>
          exfalso
          have hchar := ofBytes_utf8EncodeChar c []
          rw [hc, List.append_nil, List.append_nil] at hchar
          rw [hchar] at hread
          cases hread
        | cons b'' u =>
          have htrue := htail b'' (by simp)
          rw [hbs b'' _ hu] at htrue
          cases htrue
      · exfalso
        have hchar := ofBytes_utf8EncodeChar c u
        rw [hc, List.cons_append] at hchar
        rw [hchar] at hread
        cases hread
    · rw [hread', ih]

/-! ## Settled texts -/

/-- A text that is read again from its bytes. -/
def Settled (t : Text) : Prop := ofBytes t.toBytes = t

theorem settled_nil : Settled [] := rfl

theorem settled_ofBytes (bs : List UInt8) : Settled (ofBytes bs) := by
  rw [Settled, toBytes_ofBytes]

theorem settled_char_iff (c : Char) (t : Text) : Settled (.char c :: t) ↔ Settled t := by
  rw [Settled, toBytes_char, ofBytes_utf8EncodeChar, List.cons.injEq]
  exact and_iff_right rfl

/-- What follows in a settled text is settled. -/
theorem Settled.tail {g : Glyph} {t : Text} (h : Settled (g :: t)) : Settled t := by
  cases g with
  | char c => exact (settled_char_iff c t).1 h
  | stray b =>
    rw [Settled, toBytes_stray] at h
    rcases ofBytes_cons b t.toBytes with ⟨c, rest, -, hread⟩ | ⟨-, hread⟩
    · rw [hread] at h
      cases h
    · rw [hread] at h
      exact (List.cons.inj h).2

theorem Settled.suffix {t u : Text} (h : Settled (t ++ u)) : Settled u := by
  induction t with
  | nil => exact h
  | cons g t ih => exact ih h.tail

theorem ofBytes_append_char (t : Text) (c : Char) (u : Text) :
    ofBytes (t ++ .char c :: u).toBytes = ofBytes t.toBytes ++ ofBytes (toBytes (.char c :: u)) := by
  rw [toBytes_append]
  refine ofBytes_append ?_ _
  obtain ⟨b, rest, hc, hb, -⟩ := utf8EncodeChar_eq c
  intro b' rest' h
  rw [toBytes_char, hc] at h
  cases h
  exact hb

/-- What stands in front of a character in a settled text is settled. -/
theorem Settled.front {t u : Text} {c : Char} (h : Settled (t ++ .char c :: u)) : Settled t := by
  have hback : Settled (.char c :: u) := h.suffix
  rw [Settled, ofBytes_append_char, hback] at h
  exact List.append_cancel_right h

theorem Settled.append_char {t u : Text} {c : Char} (ht : Settled t) (hu : Settled (.char c :: u)) :
    Settled (t ++ .char c :: u) := by
  rw [Settled, ofBytes_append_char, ht, hu]

end ScriptKit.Text
