import ScriptKit.Proofs.Format.Words

/-!
# Scanning a text that is put together from words

When a text is written word by word, each word is scanned again as long as what follows does not go on
with it. `Lexeme t w rest` says that the text `t` begins with the word `w` and goes on with `rest`, and
`Lexes t ws rest` that it begins with the words `ws`, with blanks between them.

A name must not be followed by a letter or a digit, nor by an opening parenthesis, which makes it a
call. A number must not be followed by a digit, nor an operator by an equals sign. Blanks, commas,
semicolons and what closes a pair of parentheses or braces end all of them: a text that begins with one
of these is `Bounded`.

**Theorem (`scan_of_lexes`).** A text that begins with some words and goes on with blanks only is
scanned into these words.
-/

namespace ScriptKit

open Word

/-! ## Glyphs -/

namespace Glyph

/-- No character below the letter `A` is a letter. -/
theorem isLetter_eq_false {c : Char} (h : c.toNat < 0x41) : (char c).isLetter = false := by
  rw [isLetter, Text.letters, Text.Ranges.contains]
  exact if_pos h

/-- No character below the digit `0` is in a name. -/
theorem isNamePart_eq_false {c : Char} (h : c.toNat < 0x30) : (char c).isNamePart = false := by
  have hdigit : (char c).isDigit = false := by
    rw [isDigit, Text.digits, Text.Ranges.contains]
    exact if_pos h
  rw [isNamePart, isLetter_eq_false (by omega), hdigit]
  rfl

/-- A stray byte is no part of a name: neither is the replacement character it is shown as. -/
theorem isNamePart_stray (b : UInt8) : (stray b).isNamePart = false := by
  show (Text.letters.contains 0xFFFD || Text.digits.contains 0xFFFD) = false
  decide +kernel

theorem isBlank_eq_false {g : Glyph} (h : g.isNamePart = true) : g.isBlank = false := by
  have hnone : ∀ n ∈ [0x9, 0xA, 0xB, 0xC, 0xD, 0x20, 0x85, 0xA0, 0x1680, 0x2000, 0x2001, 0x2002, 0x2003,
      0x2004, 0x2005, 0x2006, 0x2007, 0x2008, 0x2009, 0x200A, 0x2028, 0x2029, 0x202F, 0x205F, 0x3000],
      (Text.letters.contains n || Text.digits.contains n) = false := by decide +kernel
  cases g with
  | stray b => rfl
  | char c =>
    have hpart : (Text.letters.contains c.toNat || Text.digits.contains c.toNat) = true := h
    have hmem := hnone c.toNat
    simp only [List.mem_cons, List.not_mem_nil, or_false, hpart, Bool.true_eq_false, imp_false] at hmem
    rw [Bool.eq_false_iff]
    simp only [isBlank, Text.isBlankChar, ne_eq, Bool.or_eq_true, Bool.and_eq_true, decide_eq_true_eq,
      beq_iff_eq]
    omega

/-- Whether a glyph ends any word. -/
def isBoundary (g : Glyph) : Bool :=
  [char ' ', char '\n', char ')', char ',', char ';', char '\x7d'].contains g

theorem isBoundary_spec {g : Glyph} (h : g.isBoundary = true) :
    g.isNamePart = false ∧ g.isNumeralPart = false := by
  have hall : ∀ g ∈ [char ' ', char '\n', char ')', char ',', char ';', char '\x7d'],
      g.isNamePart = false ∧ g.isNumeralPart = false := by decide
  exact hall g (List.contains_iff_mem.1 h)

/-- A letter is the first glyph of a word and of nothing else. -/
theorem isLetter_spec {c : Char} (h : (char c).isLetter = true) :
    Cursor.single? c = none ∧ Cursor.withEqual? c = none ∧ c ≠ '/' ∧ c ≠ '"' ∧
      (char c).isNumeralPart = false := by
  have hle : 0x41 ≤ c.toNat := by
    rcases Nat.lt_or_ge c.toNat 0x41 with hlt | hle
    · rw [isLetter_eq_false hlt] at h
      cases h
    · exact hle
  have hne : ∀ d : Char, d.toNat < 0x41 → c ≠ d := by
    rintro d hd rfl
    omega
  refine ⟨?_, ?_, hne _ (by decide), hne _ (by decide), ?_⟩
  · refine Option.eq_none_iff_forall_not_mem.2 fun k hk => ?_
    exact Bool.false_ne_true ((Cursor.single?_spec hk).1.begins.2.2.symm.trans h)
  · refine Option.eq_none_iff_forall_not_mem.2 fun k hk => ?_
    exact Bool.false_ne_true ((Cursor.withEqual?_spec hk).1.begins.2.2.symm.trans h)
  · simp only [isNumeralPart, Bool.and_eq_false_iff, decide_eq_false_iff_not]
    refine Or.inr fun hnine => ?_
    have : c.toNat ≤ '9'.toNat := hnine
    have : '9'.toNat = 0x39 := rfl
    omega

end Glyph

/-- The text ends, or goes on with a glyph that ends any word. -/
def Bounded (t : Text) : Prop := ∀ g rest, t = g :: rest → g.isBoundary = true

theorem bounded_cons {g : Glyph} (t : Text) (h : g.isBoundary = true) : Bounded (g :: t) := by
  rintro _ _ ⟨⟩
  exact h

theorem Bounded.head {t : Text} (h : Bounded t) {g : Glyph} (hg : t.head? = some g) : g.isBoundary = true := by
  obtain ⟨rest, rfl⟩ := List.head?_eq_some_iff.1 hg
  exact h g rest rfl

theorem Bounded.breaks_name {t : Text} (h : Bounded t) : Breaks Glyph.isNamePart t :=
  fun _ hg => (Glyph.isBoundary_spec (h.head hg)).1

theorem Bounded.breaks_number {t : Text} (h : Bounded t) : Breaks Glyph.isNumeralPart t :=
  fun _ hg => (Glyph.isBoundary_spec (h.head hg)).2

theorem Bounded.head_ne {t : Text} (h : Bounded t) {g : Glyph} (hg : g.isBoundary = false) :
    t.head? ≠ some g :=
  fun hhead => Bool.false_ne_true (hg.symm.trans (h.head hhead))

/-! ## One word -/

/-- The text `t` begins with the word `w` and goes on with `rest`. -/
structure Lexeme (t : Text) (w : Word) (rest : Text) : Prop where
  taken : ∀ file (c : Cursor), c.rest = t →
    ∃ span c', c.token file = (.ok ⟨w.1, w.2, span⟩, c') ∧ c'.rest = rest
  solid : ∀ p, Cursor.skipTriviaFrom none p t = (none, t, p)
  notEnd : w.1 ≠ .endOfFile

namespace Cursor

theorem give_rest (file : Text) (c : Cursor) (kind : Token.Kind) (value lexeme rest : Text) :
    ∃ span c', c.give file kind value lexeme rest = (.ok ⟨kind, value, span⟩, c') ∧ c'.rest = rest :=
  ⟨_, _, rfl, rfl⟩

theorem skipTriviaFrom_blank {g : Glyph} (t : Text) (p : Pos) (hblank : g.isBlank = true) :
    skipTriviaFrom none p (g :: t) = skipTriviaFrom none (p.after g) t := by
  rw [skipTriviaFrom.eq_def]
  exact if_pos hblank

theorem skipTriviaFrom_solid {g : Glyph} {t : Text} (p : Pos) (hblank : g.isBlank = false)
    (hslash : g = .char '/' → t.head? ≠ some (.char '/')) :
    skipTriviaFrom none p (g :: t) = (none, g :: t, p) := by
  by_cases hg : g = .char '/'
  · subst hg
    unfold skipTriviaFrom
    simp only [hblank, Bool.false_eq_true, if_false, if_true]
    split
    · exact absurd rfl (hslash rfl)
    · rfl
  · unfold skipTriviaFrom
    simp [hblank, hg]

end Cursor

open Cursor

section Lexemes

variable {ch : Char} {k k' : Token.Kind} {t v : Text}

theorem of_eq (h : k.spelling? = some v) : of k = (k, v) := by simp [of, h]

theorem lexeme_single (t : Text) (h : single? ch = some k) : Lexeme (.char ch :: t) (of k) t := by
  have hsymbol := (single?_spec h).1
  obtain ⟨hslash, hblank, -⟩ := hsymbol.begins
  rw [of_eq hsymbol.spelling]
  constructor
  · intro file c hc
    rw [token, hc]
    simp only [tokenAt, h]
    exact give_rest ..
  · exact fun p => skipTriviaFrom_solid p hblank fun heq => absurd (Glyph.char.inj heq) hslash
  · exact hsymbol.not_end

theorem lexeme_double (t : Text) (h : withEqual? ch = some k) :
    Lexeme (.char ch :: .char '=' :: t) (of k) t := by
  obtain ⟨hsymbol, -, hsingle⟩ := withEqual?_spec h
  obtain ⟨hslash, hblank, -⟩ := hsymbol.begins
  rw [of_eq hsymbol.spelling]
  constructor
  · intro file c hc
    rw [token, hc]
    simp only [tokenAt, hsingle, h]
    exact give_rest ..
  · exact fun p => skipTriviaFrom_solid p hblank fun heq => absurd (Glyph.char.inj heq) hslash
  · exact hsymbol.not_end

/-- An operator of one character that an equals sign would change. -/
theorem lexeme_lone (h : withEqual? ch = some k') (h' : withoutEqual? ch = some k)
    (ht : t.head? ≠ some (.char '=')) :
    Lexeme (.char ch :: t) (of k) t := by
  have hsymbol := withoutEqual?_spec h'
  have hsingle := (withEqual?_spec h).2.2
  obtain ⟨hslash, hblank, -⟩ := hsymbol.begins
  rw [of_eq hsymbol.spelling]
  constructor
  · intro file c hc
    rw [token, hc]
    simp only [tokenAt, hsingle, h, h']
    split
    · exact absurd rfl ht
    · exact give_rest ..
  · exact fun p => skipTriviaFrom_solid p hblank fun heq => absurd (Glyph.char.inj heq) hslash
  · exact hsymbol.not_end

/-- A slash needs something behind it that is no slash. -/
theorem lexeme_slash (hne : t ≠ []) (ht : t.head? ≠ some (.char '/')) :
    Lexeme (.char '/' :: t) (of .slash) t := by
  constructor
  · intro file c hc
    rw [token, hc]
    simp only [tokenAt, show single? '/' = none from rfl, show withEqual? '/' = none from rfl, if_true]
    rw [if_neg (by simpa using hne)]
    exact give_rest ..
  · exact fun p => skipTriviaFrom_solid p rfl fun _ => ht
  · decide

/-- A row of letters and digits that begins with a letter. -/
theorem lexeme_word (hv : IsWord v) (ht : Breaks Glyph.isNamePart t) :
    Lexeme (v ++ t) (classify v t) t := by
  have hwritten := classify_written hv ht
  obtain ⟨⟨g, rest, rfl, hg⟩, hparts⟩ := hv
  obtain ⟨htake, hdrop⟩ := takeWhile_append_boundary hparts ht
  obtain ⟨ch, rfl⟩ : ∃ ch, g = .char ch := by
    cases g with
    | char ch => exact ⟨ch, rfl⟩
    | stray b => cases (Glyph.isNamePart_stray b).symm.trans (hparts _ (List.mem_cons_self ..))
  obtain ⟨hsingle, hequal, hslash, hquote, hdigit⟩ := Glyph.isLetter_spec hg
  constructor
  · intro file c hc
    rw [token, hc]
    simp only [List.cons_append, tokenAt, hsingle, hequal, hslash, hquote, hdigit, hg, if_false, if_true,
      Bool.false_eq_true]
    rw [word, hc, htake, hdrop]
    exact give_rest ..
  · intro p
    refine skipTriviaFrom_solid p (Glyph.isBlank_eq_false (hparts _ (List.mem_cons_self ..))) fun heq => ?_
    exact absurd (Glyph.char.inj heq) hslash
  · exact hwritten.spelled.notEnd

theorem lexeme_name (hv : IsName v) (ht : Breaks Glyph.isNamePart t) (hcall : t.head? ≠ some (.char '(')) :
    Lexeme (v ++ t) (.name, v) t := by
  have hclass : classify v t = (.name, v) := by
    unfold classify
    rw [hv.noKeyword]
    simp only [hv.noTruth, Bool.false_eq_true, if_false]
    exact if_neg hcall
  rw [← hclass]
  exact lexeme_word hv.toIsWord ht

theorem lexeme_call (t : Text) (hv : IsName v) :
    Lexeme (v ++ .char '(' :: t) (.call, v) (.char '(' :: t) := by
  have hclass : classify v (.char '(' :: t) = (.call, v) := by
    unfold classify
    rw [hv.noKeyword]
    simp [hv.noTruth]
  rw [← hclass]
  refine lexeme_word hv.toIsWord ?_
  rintro _ ⟨⟩
  exact Glyph.isNamePart_eq_false (by decide)

/-- A keyword, whatever follows, as long as the word ends. -/
theorem lexeme_keyword (h : Token.Kind.ofWord? v = some k) (ht : Breaks Glyph.isNamePart t) :
    Lexeme (v ++ t) (of k) t := by
  have hclass : classify v t = (k, v) := by
    unfold classify
    rw [h]
  have hparts : ∀ w ∈ Token.Kind.keywords.map Prod.fst,
      (w.head?.any Glyph.isLetter && w.all Glyph.isNamePart) = true := by decide
  have hmem : v ∈ Token.Kind.keywords.map Prod.fst := by
    obtain ⟨l₁, l₂, hl, -⟩ := List.lookup_eq_some_iff.1 (h : Token.Kind.keywords.lookup v = some k)
    rw [hl]
    simp
  obtain ⟨hhead, hall⟩ := Bool.and_eq_true_iff.1 (hparts v hmem)
  rw [of_eq (spelling?_of_ofWord? h), ← hclass]
  refine lexeme_word ⟨?_, List.all_eq_true.1 hall⟩ ht
  cases v with
  | nil => cases hhead
  | cons g rest => exact ⟨g, rest, rfl, hhead⟩

/-- No keyword is a truth value, whatever the case of its letters. -/
theorem ofWord?_of_truth (h : (v.equalFold "true" || v.equalFold "false") = true) :
    Token.Kind.ofWord? v = none := by
  have hall : ∀ w ∈ Token.Kind.keywords.map Prod.fst,
      (Text.equalFold w "true" || Text.equalFold w "false") = false := by decide +kernel
  unfold Token.Kind.ofWord?
  rw [List.lookup_eq_none_iff]
  intro entry hmem
  rw [bne_iff_ne]
  rintro rfl
  exact Bool.false_ne_true ((hall _ (List.mem_map_of_mem hmem)).symm.trans h)

/-- A truth value in letters of either case. -/
theorem lexeme_truth (hv : IsWord v) (htruth : (v.equalFold "true" || v.equalFold "false") = true)
    (ht : Breaks Glyph.isNamePart t) : Lexeme (v ++ t) (.bool, v.lower) t := by
  have hclass : classify v t = (.bool, v.lower) := by
    unfold classify
    rw [ofWord?_of_truth htruth]
    exact if_pos htruth
  rw [← hclass]
  exact lexeme_word hv ht

theorem lexeme_bool {b : Bool} (hv : v = if b then ("true" : Text) else "false") (ht : Bounded t) :
    Lexeme (v ++ t) (.bool, v) t := by
  subst hv
  cases b
  · exact lexeme_truth (v := "false") ⟨⟨.char 'f', _, rfl, by decide⟩, by decide⟩ rfl ht.breaks_name
  · exact lexeme_truth (v := "true") ⟨⟨.char 't', _, rfl, by decide⟩, by decide⟩ rfl ht.breaks_name

theorem lexeme_number (hne : v ≠ []) (hv : ∀ g ∈ v, g.isNumeralPart = true)
    (ht : Breaks Glyph.isNumeralPart t) : Lexeme (v ++ t) (.number, v) t := by
  obtain ⟨htake, hdrop⟩ := takeWhile_append_boundary hv ht
  cases v with
  | nil => exact absurd rfl hne
  | cons g v =>
    have hg := hv g (List.mem_cons_self ..)
    cases g with
    | stray b => cases hg
    | char ch =>
      obtain ⟨hsingle, hequal, hslash, hquote, hblank⟩ : single? ch = none ∧ withEqual? ch = none ∧
          ch ≠ '/' ∧ ch ≠ '"' ∧ (Glyph.char ch).isBlank = false := by
        simp only [Glyph.isNumeralPart, Bool.and_eq_true, decide_eq_true_eq] at hg
        -- there are ten digits, and what the scanner asks of each can be looked up
        have hall : ∀ d : Fin 10, single? (Char.ofNat (0x30 + d)) = none ∧
            withEqual? (Char.ofNat (0x30 + d)) = none ∧ Char.ofNat (0x30 + d) ≠ '/' ∧
            Char.ofNat (0x30 + d) ≠ '"' ∧ (Glyph.char (Char.ofNat (0x30 + d))).isBlank = false := by
          decide
        have hlo : 0x30 ≤ ch.toNat := hg.1
        have hhi : ch.toNat ≤ 0x39 := hg.2
        have h := hall ⟨ch.toNat - 0x30, by omega⟩
        rwa [show 0x30 + (ch.toNat - 0x30) = ch.toNat by omega, Char.ofNat_toNat] at h
      constructor
      · intro file c hc
        rw [token, hc]
        simp only [List.cons_append, tokenAt, hsingle, hequal, hslash, hquote, hg, if_false, if_true]
        rw [number, hc, htake, hdrop]
        exact give_rest ..
      · exact fun p => skipTriviaFrom_solid p hblank fun heq => absurd (Glyph.char.inj heq) hslash
      · simp

/-- A literal, in which nothing but the quote is special. -/
theorem lexeme_string (t : Text) (hv : Glyph.quote ∉ v) :
    Lexeme (.char '"' :: (v ++ .char '"' :: t)) (.string, v) t := by
  have hall : ∀ g ∈ v, (g != .char '"') = true := by
    intro g hg
    rw [bne_iff_ne]
    rintro rfl
    exact hv hg
  obtain ⟨htake, hdrop⟩ := takeWhile_append_boundary (t := .char '"' :: t) hall (by rintro _ ⟨⟩; rfl)
  constructor
  · intro file c hc
    rw [token, hc]
    simp only [tokenAt, show single? '"' = none from rfl, show withEqual? '"' = none from rfl,
      show ('"' : Char) ≠ '/' by decide, if_false, if_true]
    simp only [string, htake, hdrop]
    exact give_rest ..
  · exact fun p => skipTriviaFrom_solid p (by decide) fun heq => absurd (Glyph.char.inj heq) (by decide)
  · simp

end Lexemes

/-! ## Many words -/

/-- The text `t` begins with the words `ws`, with blanks in front of and between them, and goes on with
`rest`. -/
inductive Lexes : Text → List Word → Text → Prop
  | done (t : Text) : Lexes t [] t
  | blank {g : Glyph} {t rest : Text} {ws : List Word} :
      g.isBlank = true → Lexes t ws rest → Lexes (g :: t) ws rest
  | word {t t' rest : Text} {w : Word} {ws : List Word} :
      Lexeme t w t' → Lexes t' ws rest → Lexes t (w :: ws) rest

theorem Lexes.append {t u v : Text} {ws ws' : List Word} (h : Lexes t ws u) (h' : Lexes u ws' v) :
    Lexes t (ws ++ ws') v := by
  induction h with
  | done t => exact h'
  | blank hg _ ih => exact .blank hg (ih h')
  | word hw _ ih => exact .word hw (ih h')

/-- Blanks in front of a text make no difference to what is taken from it. -/
theorem take_blank (file : Text) (n : Nat) {c : Cursor} {g : Glyph} {t : Text} (hc : c.rest = g :: t)
    (hg : g.isBlank = true) :
    Scanned.take file (n + 1) c = Scanned.take file (n + 1) { c with rest := t, pos := c.pos.after g } := by
  have hskip : c.skipTrivia = skipTrivia { c with rest := t, pos := c.pos.after g } := by
    unfold skipTrivia
    rw [hc, skipTriviaFrom_blank t c.pos hg]
  simp only [Scanned.take, next, hskip]

/-- No comment begins where a word does. -/
theorem Lexeme.no_comment {t rest : Text} {w : Word} (h : Lexeme t w rest) (t' : Text) :
    t ≠ .char '/' :: .char '/' :: t' := by
  obtain ⟨-, -, -, -, hcode⟩ := skipTriviaFrom_eq none .first t (by rw [h.solid])
  rw [h.solid] at hcode
  exact hcode t'

/-- A word is taken with the rest of the text behind it. -/
theorem Lexeme.next {t rest : Text} {w : Word} (h : Lexeme t w rest) (file : Text) {c : Cursor}
    (hc : c.rest = t) :
    ∃ span c', c.next file = (.ok ⟨w.1, w.2, span⟩, c') ∧ c'.rest = rest ∧ rest.length < t.length := by
  have hskip : c.skipTrivia = (none, c) := by
    unfold skipTrivia
    rw [hc, h.solid]
    exact congrArg (none, ·) (by rw [← hc])
  obtain ⟨span, c', htoken, hrest⟩ := h.taken file c hc
  refine ⟨span, c', by rw [Cursor.next, hskip]; exact htoken, hrest, ?_⟩
  obtain ⟨lexeme, hne, hlexeme, -⟩ := (token_covers (hc ▸ h.no_comment) htoken h.notEnd).lexeme
  rw [← hc, hlexeme, hrest, List.length_append]
  have := List.length_pos_iff.2 hne
  omega

/-- Blanks at the end hold no more words. -/
theorem take_blanks (file : Text) (n : Nat) {c : Cursor} (h : ∀ g ∈ c.rest, g.isBlank = true) :
    ∃ eof, Scanned.take file (n + 1) c = ⟨[], .ok eof⟩ := by
  have hblanks : ∀ (t : Text) (p : Pos), (∀ g ∈ t, g.isBlank = true) →
      ∃ p', skipTriviaFrom none p t = (none, [], p') := by
    intro t
    induction t with
    | nil => exact fun p _ => ⟨p, rfl⟩
    | cons g t ih =>
      intro p ht
      rw [skipTriviaFrom_blank t p (ht g (List.mem_cons_self ..))]
      exact ih _ fun g hg => ht g (List.mem_cons_of_mem _ hg)
  obtain ⟨p', hskip⟩ := hblanks c.rest c.pos h
  simp only [Scanned.take, next, skipTrivia, hskip, token, if_true]
  exact ⟨_, rfl⟩

theorem take_of_lexes (file : Text) {t rest : Text} {ws : List Word} (h : Lexes t ws rest)
    (hrest : ∀ g ∈ rest, g.isBlank = true) (n : Nat) {c : Cursor} (hc : c.rest = t) (hn : t.length ≤ n) :
    (Scanned.take file (n + 1) c).tokens.map (fun t => (t.kind, t.value)) = ws ∧
      ∃ eof, (Scanned.take file (n + 1) c).ending = .ok eof := by
  induction h generalizing n c with
  | done t =>
    obtain ⟨eof, htake⟩ := take_blanks file n (c := c) (hc ▸ hrest)
    rw [htake]
    exact ⟨rfl, eof, rfl⟩
  | blank hg _ ih =>
    rw [take_blank file n hc hg]
    exact ih hrest n rfl (by rw [List.length_cons] at hn; omega)
  | word hw _ ih =>
    obtain ⟨span, c', hnext, hc', hlt⟩ := hw.next file hc
    obtain ⟨m, rfl⟩ : ∃ m, n = m + 1 := ⟨n - 1, by omega⟩
    obtain ⟨hwords, eof, hending⟩ := ih hrest m hc' (by omega)
    rw [Scanned.take, hnext]
    simp only [if_neg hw.notEnd]
    exact ⟨congrArg (_ :: ·) hwords, eof, hending⟩

/-- A text that begins with some words and goes on with blanks only is scanned into these words. -/
theorem scan_of_lexes (file : Text) {t rest : Text} {ws : List Word} (h : Lexes t ws rest)
    (hrest : ∀ g ∈ rest, g.isBlank = true) :
    (scan file t).tokens.map (fun t => (t.kind, t.value)) = ws ∧
      ∃ eof, (scan file t).ending = .ok eof :=
  take_of_lexes file h hrest t.length rfl (Nat.le_refl _)

end ScriptKit
