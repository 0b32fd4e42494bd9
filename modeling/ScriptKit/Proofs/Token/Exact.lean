import ScriptKit.Proofs.Format.Lexeme

/-!
# The scanner accepts the lexical grammar

The scanner makes one pass over a source and looks one glyph ahead; the grammar says which cuts of a source
into trivia and tokens there are. They agree in both directions. What the scanner takes is written as the
grammar asks (`Cursor.token_covers`, `Cursor.skipTriviaFrom_eq`), so the tokens of a scan are a cut of the
source. Conversely the scanner finds every cut: it skips all of the trivia in front of a token
(`Trivia.skipped`) and then takes this token and no glyph more (`Written.taken`), because the grammar leaves
it no choice. Positions are counted from the text behind them on both sides.

**Theorem (`tokenize_iff`).** A source is scanned into some tokens if and only if it can be cut into them, and
then the end of the file is the last token and no other one.
-/

namespace ScriptKit

/-! ## Positions -/

namespace Pos

theorem behind_concat (before : Text) (g : Glyph) : behind (before ++ [g]) = (behind before).after g := by
  by_cases hg : g = .char '\n'
  · subst hg
    simp [behind, after, Nat.add_assoc]
  · have hafter : (behind before).after g = ⟨(behind before).line, (behind before).col + 1⟩ := by
      unfold after
      split
      · exact absurd rfl hg
      · rfl
    rw [hafter]
    simp [behind, hg, Nat.add_assoc, Nat.add_comm 1]

theorem behind_append (before t : Text) : behind (before ++ t) = (behind before).afterText t := by
  induction t generalizing before with
  | nil => rw [List.append_nil, afterText_nil]
  | cons g t ih => rw [afterText_cons, ← behind_concat, ← ih, List.append_assoc, List.singleton_append]

end Pos

/-- The token at the end of a source. -/
def endOfFile (file source : Text) : Token := ⟨.endOfFile, [], ⟨file, .behind source, .behind source⟩⟩

open Cursor

/-! ## What is scanned is a cut -/

/-- The tokens taken from a cursor cut the text that is left. -/
theorem lexed_of_take {file before : Text} {n : Nat} {c : Cursor} {eof : Token}
    (hpos : c.pos = .behind before) (hn : c.rest.length < n)
    (h : (Scanned.take file n c).ending = .ok eof) :
    Lexed file before c.rest (Scanned.take file n c).tokens ∧ eof = endOfFile file (before ++ c.rest) := by
  induction n generalizing before c with
  | zero => omega
  | succ n ih =>
    unfold Scanned.take at h
    split at h
    · cases h
    · next t c' hnext =>
      rw [Scanned.take, hnext]
      split at h
      · next hend =>
        simp only [if_pos hend]
        obtain ⟨trivia, c₁, htrivia, hrest, hpos₁, hcode, htoken⟩ := next_token hnext
        -- the end token is given where nothing is left behind the trivia
        obtain ⟨hnil, rfl⟩ := token_end hcode htoken hend
        cases h
        rw [hnil, List.append_nil] at hrest
        refine ⟨?_, ?_⟩
        · rw [hrest]
          exact .stop htrivia
        · rw [hpos₁, hpos, ← Pos.behind_append, ← hrest]
          rfl
      · next hne =>
        simp only [if_neg hne]
        obtain ⟨trivia, c₁, htrivia, hrest, hpos₁, hcovers⟩ := next_covers hnext hne
        obtain ⟨lexeme, hwritten, hlexeme, hpos'⟩ := hcovers.written
        rw [hpos, ← Pos.behind_append] at hpos₁
        rw [hpos₁, ← Pos.behind_append] at hpos'
        rw [hlexeme, ← List.append_assoc] at hrest
        -- a token has a glyph at least, so the fuel is enough for the rest
        have hlen : c'.rest.length < n := by
          have hpositive := List.length_pos_iff.2 hwritten.ne_nil
          rw [hrest, List.length_append, List.length_append] at hn
          omega
        obtain ⟨hlexed, heof⟩ := ih hpos' hlen h
        refine ⟨?_, ?_⟩
        · rw [hrest]
          refine .token htrivia hwritten ?_ hlexed
          rw [hcovers.span, hpos₁, hpos']
        · rw [heof, hrest]
          simp only [List.append_assoc]

/-! ## Every cut is found -/

theorem skipTriviaFrom_comment (start p : Pos) {body : Text} (t : Text) (h : .char '/' ∉ body) :
    skipTriviaFrom (some start) p (body ++ .char '/' :: .char '/' :: t) =
      skipTriviaFrom none (p.afterText (body ++ [.char '/', .char '/'])) t := by
  induction body generalizing p with
  | nil => rfl
  | cons g body ih =>
    obtain ⟨hg, hbody⟩ := not_or.1 (mt List.mem_cons.2 h)
    rw [List.cons_append, skipTriviaFrom.eq_def]
    simp only [if_neg (Ne.symm hg)]
    exact ih (p.after g) hbody

theorem Trivia.skipped {trivia rest : Text} (h : Trivia trivia)
    (hrest : ∀ p, skipTriviaFrom none p rest = (none, rest, p)) (p : Pos) :
    skipTriviaFrom none p (trivia ++ rest) = (none, rest, p.afterText trivia) := by
  induction h generalizing p with
  | nil => exact hrest p
  | blank hg _ ih => exact (skipTriviaFrom_blank _ p hg).trans (ih (p.after _))
  | @comment body t hbody _ ih =>
    have hopen : skipTriviaFrom none p (.char '/' :: .char '/' :: (body ++ .char '/' :: .char '/' :: (t ++ rest))) =
        skipTriviaFrom (some p) ((p.after (.char '/')).after (.char '/'))
          (body ++ .char '/' :: .char '/' :: (t ++ rest)) := rfl
    rw [List.cons_append, List.cons_append, List.append_assoc, List.cons_append, List.cons_append, hopen,
      skipTriviaFrom_comment p _ _ hbody, ih, ← Pos.afterText_append, ← Pos.afterText_cons, ← Pos.afterText_cons,
      List.append_assoc]
    rfl

/-- A symbol is taken if nothing behind it makes it a longer one. -/
theorem symbol_taken {rest v : Text} {k : Token.Kind} (hk : k.spelling? = some v)
    (hword : Token.Kind.ofWord? v = none)
    (hlong : ∀ g, rest.head? = some g → ∀ k' : Token.Kind, k'.spelling? ≠ some (v ++ [g]))
    (hslash : k = .slash → rest ≠ [] ∧ rest.head? ≠ some (.char '/')) :
    Lexeme (v ++ rest) (k, v) rest := by
  have hlone : ∀ k' : Token.Kind, k'.spelling? = some (v ++ [.char '=']) → rest.head? ≠ some (.char '=') :=
    fun k' hk' hhead => hlong _ hhead k' hk'
  rw [← of_eq hk]
  cases k <;> cases hk
  case func | classWord | returnWord | newWord | «if» | «else» | «for» | «while» | intType | stringType |
      boolType => cases hword
  case slash => exact lexeme_slash (hslash rfl).1 (hslash rfl).2
  case assign => exact lexeme_lone rfl rfl (hlone .equal rfl)
  case greater => exact lexeme_lone rfl rfl (hlone .greaterEqual rfl)
  case less => exact lexeme_lone rfl rfl (hlone .lessEqual rfl)
  case equal | notEqual | greaterEqual | lessEqual => exact lexeme_double rest rfl
  all_goals exact lexeme_single rest rfl

theorem Written.taken {rest lexeme v : Text} {k : Token.Kind} (h : Written rest k v lexeme) :
    Lexeme (lexeme ++ rest) (k, v) rest := by
  cases h with
  | symbol hk hword hlong hslash => exact symbol_taken hk hword hlong hslash
  | keyword hk hrest =>
    have hlexeme := lexeme_keyword hk hrest
    rwa [of_eq (spelling?_of_ofWord? hk)] at hlexeme
  | number hne hdigits hrest => exact lexeme_number hne hdigits hrest
  | string hquote =>
    have hlexeme := lexeme_string rest hquote
    rwa [← List.singleton_append (l := rest), ← List.append_assoc] at hlexeme
  | truth hw htruth hrest => exact lexeme_truth hw htruth hrest
  | name hname hrest hcall => exact lexeme_name hname hrest hcall
  | call hname hparen =>
    obtain ⟨rest, rfl⟩ := List.head?_eq_some_iff.1 hparen
    exact lexeme_call rest hname

/-- The token that is written behind some trivia is the next one. -/
theorem Written.next {file trivia lexeme rest v : Text} {k : Token.Kind} {c : Cursor}
    (h : Written rest k v lexeme) (htrivia : Trivia trivia) (hc : c.rest = trivia ++ (lexeme ++ rest)) :
    c.next file = (.ok ⟨k, v, ⟨file, c.pos.afterText trivia, (c.pos.afterText trivia).afterText lexeme⟩⟩,
      { c with rest := rest, pos := (c.pos.afterText trivia).afterText lexeme }) := by
  have htaken := h.taken
  have hskip : c.skipTrivia = (none, { c with rest := lexeme ++ rest, pos := c.pos.afterText trivia }) := by
    unfold skipTrivia
    rw [hc, htrivia.skipped htaken.solid]
  obtain ⟨span, c', htoken, hrest⟩ :=
    htaken.taken file { c with rest := lexeme ++ rest, pos := c.pos.afterText trivia } rfl
  have hcovers := token_covers htaken.no_comment htoken htaken.notEnd
  obtain ⟨lexeme', -, hlexeme, hpos⟩ := hcovers.written
  rw [hrest] at hlexeme
  obtain rfl := List.append_cancel_right hlexeme
  have hc' : c' = ⟨rest, (c.pos.afterText trivia).afterText lexeme, c.done⟩ :=
    calc c' = ⟨c'.rest, c'.pos, c'.done⟩ := rfl
      _ = _ := by rw [hrest, hpos, hcovers.done]
  have hspan : span = ⟨file, c.pos.afterText trivia, c'.pos⟩ := hcovers.span
  rw [Cursor.next, hskip]
  show Cursor.token file _ = _
  rw [htoken, hspan, hc']

theorem take_of_lexed {file before source : Text} {ts : List Token} (h : Lexed file before source ts) {n : Nat}
    {c : Cursor} (hc : c.rest = source) (hpos : c.pos = .behind before) (hn : source.length < n) :
    Scanned.take file n c = ⟨ts, .ok (endOfFile file (before ++ source))⟩ := by
  induction h generalizing n c with
  | @stop before trivia htrivia =>
    obtain ⟨n, rfl⟩ := Nat.exists_eq_add_of_lt hn
    have hskip : skipTriviaFrom none c.pos (trivia ++ []) = _ := htrivia.skipped (fun _ => rfl) c.pos
    rw [List.append_nil, hpos, ← Pos.behind_append] at hskip
    rw [Scanned.take]
    simp only [Cursor.next, skipTrivia, hc, hpos, hskip, token, if_true]
    rfl
  | @token before trivia lexeme rest t ts htrivia hwritten hspan _ ih =>
    obtain ⟨n, rfl⟩ : ∃ m, n = m + 1 := ⟨n - 1, by omega⟩
    have hlen : rest.length < n := by
      have hpositive := List.length_pos_iff.2 hwritten.ne_nil
      rw [List.length_append, List.length_append] at hn
      omega
    rw [List.append_assoc] at hc
    have hnext : c.next file = _ := hwritten.next htrivia hc
    rw [hpos, ← Pos.behind_append, ← Pos.behind_append, ← hspan] at hnext
    rw [Scanned.take, hnext]
    simp only [if_neg hwritten.taken.notEnd]
    rw [ih rfl rfl hlen]
    simp only [Scanned.cons, List.append_assoc]

/-! ## The scanner and the grammar -/

theorem Lexed.ne_end {file before source : Text} {ts : List Token} (h : Lexed file before source ts) :
    ∀ t ∈ ts, t.kind ≠ .endOfFile := by
  induction h with
  | stop => simp
  | token _ hwritten _ _ ih => exact List.forall_mem_cons.2 ⟨hwritten.spelled.notEnd, ih⟩

/-- A source can be cut in one way only. -/
theorem Lexed.unique {file source : Text} {ts ts' : List Token} (h : Lexed file [] source ts)
    (h' : Lexed file [] source ts') : ts = ts' := by
  have htake := take_of_lexed h (c := .start source) rfl rfl (Nat.lt_succ_self _)
  rw [take_of_lexed h' rfl rfl (Nat.lt_succ_self _)] at htake
  exact (congrArg Scanned.tokens htake).symm

/-- A scan without a fault ends with the token at the end of the source. -/
theorem scan_end {file source : Text} {eof : Token} (h : (scan file source).ending = .ok eof) :
    Lexed file [] source (scan file source).tokens ∧ eof = endOfFile file source :=
  lexed_of_take (show (Cursor.start source).pos = .behind [] from rfl) (Nat.lt_succ_self source.length) h

/-- The scanner accepts exactly the sources that can be cut into trivia and tokens, and cuts them so. -/
theorem tokenize_iff (file source : Text) (tokens : List Token) :
    tokenize file source = .ok tokens ↔
      ∃ ts, Lexed file [] source ts ∧ (∀ t ∈ ts, t.kind ≠ .endOfFile) ∧
        tokens = ts ++ [⟨.endOfFile, [], ⟨file, .behind source, .behind source⟩⟩] := by
  constructor
  · intro h
    simp only [tokenize] at h
    split at h
    · next eof hending =>
      cases h
      obtain ⟨hlexed, rfl⟩ := scan_end hending
      exact ⟨_, hlexed, hlexed.ne_end, rfl⟩
    · cases h
  · rintro ⟨ts, hlexed, -, rfl⟩
    have htake : scan file source = _ := take_of_lexed hlexed (c := .start source) rfl rfl (Nat.lt_succ_self _)
    unfold tokenize
    rw [htake]
    rfl

end ScriptKit
