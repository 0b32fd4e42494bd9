import ScriptKit.Proofs.Text.Bytes
import ScriptKit.Proofs.Token.Exact
import ScriptKit.Tree.Format

/-!
# The comments of a source

Two scans look for comments. The scanner skips them between tokens; `hasComments` reads the source once more, takes
every quote for the beginning or the end of a string and every pair of slashes elsewhere for a comment, and knows
nothing of tokens. On a source that is scanned they agree, because they agree on each piece of it. No lexeme holds two
slashes outside of quotes, a slash that is an operator is not followed by another one, and quotes stand around string
literals only (`Written.hasComments_eq`); and what is skipped between tokens is blank up to the first comment
(`Trivia.hasComments_iff`).

**Theorem (`hasComments_iff`).** A source that is scanned has comments if and only if the scanner skips one.

**Theorem (`hasCommentsFrom_ofBytes`).** It makes no difference whether comments are looked for in the bytes of a
source or in its glyphs.
-/

namespace ScriptKit

/-! ## Looking for comments -/

/-- Nothing begins or ends where there is neither a quote nor a slash. -/
theorem hasCommentsFrom_append {inString : Bool} {t : Text} (rest : Text)
    (h : ∀ g ∈ t, g ≠ Glyph.quote ∧ g ≠ .char '/') : hasCommentsFrom inString (t ++ rest) = hasCommentsFrom inString rest := by
  induction t with
  | nil => rfl
  | cons g t ih =>
    obtain ⟨⟨hquote, hslash⟩, ht⟩ := List.forall_mem_cons.1 h
    have hquote : ¬g = .char '"' := hquote
    rw [List.cons_append, hasCommentsFrom, if_neg hquote, if_neg (by simp [hslash]), ih ht]

/-- A string ends at the next quote, whatever slashes it holds. -/
theorem hasCommentsFrom_literal {v : Text} (rest : Text) (h : Glyph.quote ∉ v) :
    hasCommentsFrom true (v ++ Glyph.quote :: rest) = hasComments rest := by
  induction v with
  | nil => rfl
  | cons g v ih =>
    obtain ⟨hg, hv⟩ := not_or.1 (mt List.mem_cons.2 h)
    have hquote : ¬g = .char '"' := fun heq => hg heq.symm
    rw [List.cons_append, hasCommentsFrom, if_neg hquote, if_neg (by simp), ih hv]

theorem hasComments_slash {rest : Text} (h : rest.head? ≠ some (.char '/')) :
    hasComments (.char '/' :: rest) = hasComments rest := by
  rw [hasComments, hasCommentsFrom, if_neg (by simp), if_neg (by simp [h])]
  rfl

/-! ## Tokens -/

theorem spelling_plain {k : Token.Kind} {v : Text} (h : k.spelling? = some v) (hk : k ≠ .slash) :
    ∀ g ∈ v, g ≠ Glyph.quote ∧ g ≠ .char '/' := by
  cases k with
  | slash => exact absurd rfl hk
  | _ => cases h <;> decide

theorem namePart_plain {g : Glyph} (h : g.isNamePart = true) : g ≠ Glyph.quote ∧ g ≠ .char '/' := by
  constructor
  all_goals
    rintro rfl
    cases (Glyph.isNamePart_eq_false (by decide)).symm.trans h

theorem numeralPart_plain {g : Glyph} (h : g.isNumeralPart = true) : g ≠ Glyph.quote ∧ g ≠ .char '/' := by
  constructor
  all_goals
    rintro rfl
    revert h
    decide

/-- No comment begins in a token, and after it comments are looked for as before. -/
theorem Written.hasComments_eq {rest lexeme v : Text} {k : Token.Kind} (h : Written rest k v lexeme) :
    hasComments (lexeme ++ rest) = hasComments rest := by
  cases h with
  | symbol hk _ _ hslash =>
    by_cases hk' : k = .slash
    · obtain ⟨-, hhead⟩ := hslash hk'
      subst hk'
      cases hk
      exact hasComments_slash hhead
    · exact hasCommentsFrom_append rest (spelling_plain hk hk')
  | keyword hk =>
    have hspelling := spelling?_of_ofWord? hk
    refine hasCommentsFrom_append rest (spelling_plain hspelling ?_)
    rintro rfl
    cases hspelling
    cases hk
  | number _ hdigits => exact hasCommentsFrom_append rest fun g hg => numeralPart_plain (hdigits g hg)
  | string hquote =>
    show hasCommentsFrom true (v ++ [Glyph.quote] ++ rest) = _
    rw [List.append_assoc]
    exact hasCommentsFrom_literal rest hquote
  | truth hword => exact hasCommentsFrom_append rest fun g hg => namePart_plain (hword.parts g hg)
  | name hname => exact hasCommentsFrom_append rest fun g hg => namePart_plain (hname.parts g hg)
  | call hname => exact hasCommentsFrom_append rest fun g hg => namePart_plain (hname.parts g hg)

/-! ## Blanks and comments -/

/-- A text holds a comment with the slashes around it. -/
def HoldsComment (t : Text) : Prop :=
  ∃ before body after : Text, .char '/' ∉ body ∧ t = before ++ ("//" ++ body ++ "//") ++ after

theorem holdsComment_cons {g : Glyph} {t : Text} (hg : g ≠ .char '/') : HoldsComment (g :: t) ↔ HoldsComment t := by
  constructor
  · rintro ⟨before, body, after, hbody, h⟩
    cases before with
    | nil => exact absurd (List.cons.inj h).1 hg
    | cons g' before => exact ⟨before, body, after, hbody, (List.cons.inj h).2⟩
  · rintro ⟨before, body, after, hbody, rfl⟩
    exact ⟨g :: before, body, after, hbody, rfl⟩

theorem blank_plain {g : Glyph} (h : g.isBlank = true) : g ≠ Glyph.quote ∧ g ≠ .char '/' := by
  constructor
  all_goals
    rintro rfl
    revert h
    decide

/-- A comment is found in what is skipped if there is one. -/
theorem Trivia.hasComments_iff {trivia : Text} (h : Trivia trivia) (rest : Text) :
    hasComments (trivia ++ rest) = true ↔ HoldsComment trivia ∨ hasComments rest = true := by
  induction h with
  | nil =>
    have hnone : ¬HoldsComment [] := by
      rintro ⟨before, body, after, -, h⟩
      have hlength := congrArg List.length h
      simp [Text.ofString, Text.ofChars] at hlength
    simp [hnone]
  | @blank g t hg _ ih =>
    have hplain := blank_plain hg
    rw [holdsComment_cons hplain.2, ← ih]
    have hskip : hasComments ([g] ++ (t ++ rest)) = hasComments (t ++ rest) :=
      hasCommentsFrom_append _ (List.forall_mem_singleton.2 hplain)
    exact iff_of_eq (congrArg (· = true) hskip)
  | @comment body t hbody _ _ =>
    refine iff_of_true rfl (Or.inl ⟨[], body, t, hbody, ?_⟩)
    rw [List.nil_append, List.append_assoc, List.append_assoc]
    rfl

/-! ## What the scanner skips -/

namespace Cursor

/-- At a cursor the scanner skips some text, in front of the next token, that holds a comment. -/
def SkipsComment (c : Cursor) : Prop :=
  ∃ skipped, c.skipTrivia.1 = none ∧ c.rest = skipped ++ c.skipTrivia.2.rest ∧ HoldsComment skipped

/-- The cursors at which a scan looks for a token, from a given one on. -/
inductive Visits (file : Text) : Cursor → Cursor → Prop
  | here (c : Cursor) : Visits file c c
  | next {c c₁ c' : Cursor} {t : Token} :
      c.next file = (.ok t, c₁) → t.kind ≠ .endOfFile → Visits file c₁ c' → Visits file c c'

theorem exists_visits_iff {file : Text} {c : Cursor} {P : Cursor → Prop} :
    (∃ c', Visits file c c' ∧ P c') ↔
      P c ∨ ∃ t c₁, c.next file = (.ok t, c₁) ∧ t.kind ≠ .endOfFile ∧ ∃ c', Visits file c₁ c' ∧ P c' := by
  constructor
  · rintro ⟨c', hvisits, hP⟩
    cases hvisits with
    | here => exact Or.inl hP
    | next hnext hne hvisits => exact Or.inr ⟨_, _, hnext, hne, c', hvisits, hP⟩
  · rintro (hP | ⟨t, c₁, hnext, hne, c', hvisits, hP⟩)
    · exact ⟨c, .here c, hP⟩
    · exact ⟨c', .next hnext hne hvisits, hP⟩

/-- The next token is taken where skipping has stopped. -/
theorem next_skipped {file : Text} {c c' : Cursor} {t : Token} (h : c.next file = (.ok t, c')) :
    c.skipTrivia.2.token file = (.ok t, c') ∧ (∀ rest, c.skipTrivia.2.rest ≠ .char '/' :: .char '/' :: rest) ∧
      ∃ trivia, Trivia trivia ∧ c.rest = trivia ++ c.skipTrivia.2.rest ∧ (c.SkipsComment ↔ HoldsComment trivia) := by
  unfold next at h
  split at h
  · cases h
  · next c₁ hskip =>
    have hnone : (skipTriviaFrom none c.pos c.rest).1 = none := congrArg Prod.fst hskip
    obtain ⟨trivia, htrivia, hrest, -, hcode⟩ := skipTriviaFrom_eq none c.pos c.rest hnone
    have hc₁ : c.skipTrivia.2 = c₁ := congrArg Prod.snd hskip
    refine ⟨hc₁ ▸ h, hcode, trivia, htrivia, hrest, ?_⟩
    constructor
    · rintro ⟨skipped, -, hskipped, hholds⟩
      rw [hrest] at hskipped
      rwa [List.append_cancel_right hskipped]
    · exact fun hholds => ⟨trivia, hnone, hrest, hholds⟩

end Cursor

open Cursor

/-- Comments are looked for with success in what is left of a source if and only if the scanner skips one there. -/
theorem hasComments_of_take {file : Text} {n : Nat} {c : Cursor} {eof : Token} (hn : c.rest.length < n)
    (h : (Scanned.take file n c).ending = .ok eof) :
    hasComments c.rest = true ↔ ∃ c', Visits file c c' ∧ c'.SkipsComment := by
  induction n generalizing c with
  | zero => omega
  | succ n ih =>
    unfold Scanned.take at h
    split at h
    · cases h
    · next t c' hnext =>
      obtain ⟨htoken, hcode, trivia, htrivia, hrest, hskips⟩ := next_skipped hnext
      rw [exists_visits_iff, hskips, hrest, htrivia.hasComments_iff]
      -- what is left is the token and the text behind it, and a token holds no comment
      refine or_congr_right ?_
      split at h
      · next hend =>
        obtain ⟨hnil, -⟩ := token_end hcode htoken hend
        rw [hnil]
        refine iff_of_false (by decide) ?_
        rintro ⟨t', c₁, hnext', hne, -⟩
        rw [hnext] at hnext'
        cases hnext'
        exact hne hend
      · next hne =>
        obtain ⟨lexeme, hwritten, hlexeme, -⟩ := (token_covers hcode htoken hne).written
        have hlen : c'.rest.length < n := by
          have hpositive := List.length_pos_iff.2 hwritten.ne_nil
          rw [hrest, hlexeme, List.length_append, List.length_append] at hn
          omega
        rw [hlexeme, hwritten.hasComments_eq, ih hlen h]
        constructor
        · exact fun hvisits => ⟨t, c', hnext, hne, hvisits⟩
        · rintro ⟨t', c₁, hnext', -, hvisits⟩
          rw [hnext] at hnext'
          cases hnext'
          exact hvisits

/-- A source that is scanned has comments if and only if the scanner skips one. -/
theorem hasComments_iff {file source : Text} {tokens : List Token} (h : tokenize file source = .ok tokens) :
    hasComments source = true ↔ ∃ c, Visits file (.start source) c ∧ c.SkipsComment := by
  simp only [tokenize] at h
  split at h
  · next eof hending => exact hasComments_of_take (Nat.lt_succ_self source.length) hending
  · cases h

/-! ## Comments in bytes -/

/-- Whether some bytes have a comment outside the string literals. `inString` tells whether reading starts inside
one. -/
def bytesHaveComments (inString : Bool) : List UInt8 → Bool
  | [] => false
  | b :: rest =>
    if b = 0x22 then bytesHaveComments (!inString) rest
    else if !inString && b = 0x2F && rest.head? = some 0x2F then true
    else bytesHaveComments inString rest

theorem bytesHaveComments_append {inString : Bool} {bs : List UInt8} (rest : List UInt8)
    (h : ∀ b ∈ bs, b ≠ 0x22 ∧ b ≠ 0x2F) :
    bytesHaveComments inString (bs ++ rest) = bytesHaveComments inString rest := by
  induction bs with
  | nil => rfl
  | cons b bs ih =>
    obtain ⟨⟨hquote, hslash⟩, hbs⟩ := List.forall_mem_cons.1 h
    rw [List.cons_append, bytesHaveComments, if_neg hquote, if_neg (by simp [hslash]), ih hbs]

/-- A text begins with a slash if and only if its bytes do. -/
theorem head?_ofBytes (bs : List UInt8) : (Text.ofBytes bs).head? = some (.char '/') ↔ bs.head? = some 0x2F := by
  cases bs with
  | nil => simp [Text.ofBytes]
  | cons b bs =>
    rcases Text.ofBytes_cons b bs with ⟨c, rest, hbytes, hread⟩ | ⟨hb, hread⟩
    · obtain ⟨b', tail, hc, -, -⟩ := Text.utf8EncodeChar_eq c
      rw [hc] at hbytes
      obtain ⟨rfl, -⟩ := List.cons.inj hbytes
      rw [hread, List.head?_cons, List.head?_cons, Option.some.injEq, Option.some.injEq, Glyph.char.injEq]
      constructor
      · rintro rfl
        exact (List.cons.inj hc).1.symm
      · rintro rfl
        exact Text.eq_of_mem_utf8EncodeChar (by decide) (hc ▸ List.mem_cons_self ..)
    · rw [hread]
      refine iff_of_false (by simp) fun hhead => ?_
      obtain rfl := Option.some.inj hhead
      exact absurd hb (by decide)

/-- Quotes and slashes stand for themselves in the bytes of a source, so the comments are the same. -/
theorem hasCommentsFrom_ofBytes (inString : Bool) (bs : List UInt8) :
    hasCommentsFrom inString (Text.ofBytes bs) = bytesHaveComments inString bs := by
  induction bs using Text.ofBytes_induction generalizing inString with
  | nil => rfl
  | char c rest ih =>
    rw [Text.ofBytes_utf8EncodeChar, hasCommentsFrom]
    by_cases hquote : c = '"'
    · subst hquote
      exact ih (!inString)
    by_cases hslash : c = '/'
    · subst hslash
      have hbytes : String.utf8EncodeChar '/' ++ rest = 0x2F :: rest := rfl
      rw [hbytes, bytesHaveComments, if_neg (by simp), if_neg (show ¬(0x2F : UInt8) = 0x22 by decide), ih inString]
      simp only [head?_ofBytes, decide_true, Bool.and_true]
    · have hplain : ∀ b ∈ String.utf8EncodeChar c, b ≠ 0x22 ∧ b ≠ 0x2F := by
        intro b hb
        constructor
        all_goals rintro rfl
        · exact hquote (Text.eq_of_mem_utf8EncodeChar (by decide) hb)
        · exact hslash (Text.eq_of_mem_utf8EncodeChar (by decide) hb)
      rw [if_neg (by simp [hquote]), if_neg (by simp [hslash]), bytesHaveComments_append rest hplain, ih inString]
  | stray b rest hb hread ih =>
    have hplain : b ≠ 0x22 ∧ b ≠ 0x2F := by
      constructor
      all_goals
        rintro rfl
        exact absurd hb (by decide)
    rw [hread, hasCommentsFrom, if_neg (by simp), if_neg (by simp), ih inString]
    exact (bytesHaveComments_append rest (List.forall_mem_singleton.2 hplain)).symm

end ScriptKit
