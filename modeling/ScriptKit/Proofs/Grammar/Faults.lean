import ScriptKit.Proofs.Grammar.Rules
import ScriptKit.Proofs.Tree.Formed

/-!
# Faults below the level of tokens

A source may end in a fault of the scanner. The listing of tokens reads ahead to it at once, and the parser comes
to it only if it takes the token right in front of it. Before that it may report a fault of its own, and it does so
at something that it has read, which stands before the scanner's fault.

`Early ending p` says of a position that it lies before the fault in which the tokens end, if they end in one. All
tokens start early, and so does everything that is read from them. `Anchored` carries this through the parser: what
it reads starts early, and it fails either with the scanner's fault or early and with a fault of another kind.

**Theorem (`lexical_faults_agree`).** Parser and token listing agree on the faults of the scanner.
-/

namespace ScriptKit

open Parse

/-! ## Where a scan stops -/

namespace Cursor

variable {file : Text} {c c' : Cursor} {e : Token.Error}

/-- Skipping stops at a fault behind its start, or where the open comment began. -/
theorem skipTriviaFrom_error (opening : Option Pos) (p : Pos) (t : Text)
    (h : (skipTriviaFrom opening p t).1 = some e) : opening = some e.pos ∨ p.Le e.pos := by
  fun_induction skipTriviaFrom opening p t with
  | case1 => cases h
  | case2 =>
    cases h
    exact Or.inl rfl
  | case3 p g rest _ ih =>
    rcases ih h with hnone | hle
    · cases hnone
    · exact Or.inr ((Pos.lt_after p g).le.trans hle)
  | case4 p rest _ ih =>
    rcases ih h with hsome | hle
    · exact Or.inr (Option.some.inj hsome ▸ Pos.Le.refl p)
    · exact Or.inr (((Pos.lt_after p (.char '/')).le.trans (Pos.lt_after _ (.char '/')).le).trans hle)
  | case5 => cases h
  | case6 => cases h
  | case7 p start rest ih =>
    rcases ih h with hnone | hle
    · cases hnone
    · exact Or.inr (((Pos.lt_after p (.char '/')).le.trans (Pos.lt_after _ (.char '/')).le).trans hle)
  | case8 =>
    cases h
    exact Or.inl rfl
  | case9 p =>
    cases h
    exact Or.inr (Pos.Le.refl _)
  | case10 p g rest start _ ih => exact (ih h).imp id ((Pos.lt_after p g).le.trans ·)

theorem give_error {kind : Token.Kind} {value lexeme rest : Text}
    (h : c.give file kind value lexeme rest = (.error e, c')) : e.pos = c.pos := by
  cases h

theorem refuse_error {fault : Token.Fault} {lexeme rest : Text} (h : c.refuse fault lexeme rest = (.error e, c')) :
    e.pos = c.pos := by
  cases h
  rfl

theorem string_error {rest : Text} (h : c.string file rest = (.error e, c')) : e.pos = c.pos := by
  unfold string at h
  dsimp only at h
  split at h
  · exact refuse_error h
  · exact give_error h

theorem tokenAt_error {ch : Char} {rest : Text} (h : c.tokenAt file ch rest = (.error e, c')) : e.pos = c.pos := by
  unfold tokenAt at h
  split at h
  · exact give_error h
  · split at h
    · split at h
      · exact give_error h
      · split at h
        · exact give_error h
        · exact refuse_error h
    · split at h
      · split at h
        · exact refuse_error h
        · exact give_error h
      · split at h
        · exact string_error h
        · dsimp only at h
          split at h
          · exact give_error h
          · split at h
            · exact give_error h
            · exact refuse_error h

/-- Where no token can be taken, the fault is at the cursor. -/
theorem token_error (h : c.token file = (.error e, c')) : e.pos = c.pos := by
  unfold token at h
  split at h
  · cases h
  · exact refuse_error h
  · exact tokenAt_error h

theorem next_error (h : c.next file = (.error e, c')) : c.pos.Le e.pos := by
  unfold next skipTrivia at h
  split at h
  · next e' c₁ heq =>
    cases h
    have hsome := skipTriviaFrom_error none c.pos c.rest (congrArg Prod.fst heq)
    exact hsome.resolve_left (by simp)
  · next c₁ heq =>
    obtain ⟨hnone, rfl⟩ := Prod.mk.inj heq
    obtain ⟨skipped, -, -, hpos, -⟩ := skipTriviaFrom_eq none c.pos c.rest hnone
    rw [token_error h]
    exact hpos ▸ Pos.le_afterText c.pos skipped

end Cursor

/-- All tokens before a fault start before it. -/
theorem take_error {file : Text} {n : Nat} {c : Cursor} {e : Token.Error}
    (h : (Scanned.take file n c).ending = .error e) :
    c.pos.Le e.pos ∧ ∀ t ∈ (Scanned.take file n c).tokens, t.span.start.Lt e.pos := by
  induction n generalizing c with
  | zero => cases h
  | succ n ih =>
    rw [Scanned.take] at h ⊢
    cases hnext : c.next file with
    | mk result c' =>
    rw [hnext] at h
    cases result with
    | error e' =>
      cases h
      exact ⟨Cursor.next_error hnext, by simp⟩
    | ok t =>
      dsimp only at h ⊢
      split at h
      · cases h
      · next hne =>
        rw [if_neg hne]
        obtain ⟨hle, hall⟩ := ih h
        obtain ⟨trivia, c₁, -, -, hpos, hcovers⟩ := Cursor.next_covers hnext hne
        obtain ⟨lexeme, hlexeme, -, hpos'⟩ := hcovers.lexeme
        have hbehind : c.pos.Le c₁.pos := hpos ▸ Pos.le_afterText c.pos trivia
        have hlt : c₁.pos.Lt e.pos := (hpos' ▸ Pos.lt_afterText c₁.pos hlexeme).trans_le hle
        refine ⟨(hbehind.trans_lt hlt).le, List.forall_mem_cons.2 ⟨?_, hall⟩⟩
        rw [hcovers.span]
        exact hlt

/-! ## Before the end -/

/-- A position before the fault in which the tokens end, if they end in one. -/
def Early (ending : Except Token.Error Token) (p : Pos) : Prop := ∀ e, ending = .error e → p.Lt e.pos

namespace Parser

/-- The tokens left are early, and if there are none, they do not end in a fault. -/
structure Standing (ending : Except Token.Error Token) (s : State) : Prop where
  early : ∀ t ∈ s.tokens, Early ending t.span.start
  more : s.tokens = [] → ∃ eof, ending = .ok eof

/-- The fault in which the tokens end, or one of another kind at an early position. -/
def Foreseen (file : Text) (ending : Except Token.Error Token) (e : Error) : Prop :=
  (∃ fault, ending = .error fault ∧ e = scanError file fault) ∨ (e.fault.code ≠ .lex ∧ Early ending e.span.start)

/-- What is read satisfies `Q`, and a failure is foreseen. -/
structure Anchored (file : Text) (ending : Except Token.Error Token) (builtins : Option (List Text)) {α : Type}
    (Q : α → Prop) (x : Parser α) : Prop where
  ok : ∀ s a s', Standing ending s → x ⟨file, ending, builtins⟩ s = .ok (a, s') → Q a ∧ Standing ending s'
  error : ∀ s e, Standing ending s → x ⟨file, ending, builtins⟩ s = .error e → Foreseen file ending e

section Anchored

variable {file : Text} {ending : Except Token.Error Token} {builtins : Option (List Text)} {s : State} {e : Error}

theorem Standing.current (hs : Standing ending s) :
    Early ending (s.tokens.head?.getD (endToken ⟨file, ending, builtins⟩)).span.start := by
  cases htokens : s.tokens with
  | nil =>
    obtain ⟨eof, rfl⟩ := hs.more htokens
    intro e he
    cases he
  | cons t ts => exact hs.early t (htokens ▸ List.mem_cons_self)

/-- Only the scanner's fault can be met where a token is taken. -/
theorem guardEnding_error {rest : List Token} (h : guardEnding rest ⟨file, ending, builtins⟩ s = .error e) :
    rest = [] ∧ ∃ fault, ending = .error fault ∧ e = scanError file fault := by
  cases rest with
  | cons t rest => cases h
  | nil =>
    cases ending with
    | ok eof => cases h
    | error fault =>
      cases h
      exact ⟨rfl, fault, rfl, rfl⟩

theorem ending_of_guardEnding {u : PUnit} {s' : State}
    (h : guardEnding [] ⟨file, ending, builtins⟩ s = .ok (u, s')) : ∃ eof, ending = .ok eof := by
  cases ending with
  | ok eof => exact ⟨eof, rfl⟩
  | error fault => cases h

theorem advance_error (h : advance ⟨file, ending, builtins⟩ s = .error e) :
    s.tokens.tail = [] ∧ ∃ fault, ending = .error fault ∧ e = scanError file fault := by
  rcases bind_error.1 h with hcurrent | ⟨t, s₁, hcurrent, h⟩
  · cases hcurrent
  · cases hcurrent
    rcases bind_error.1 h with hget | ⟨_, _, hget, h⟩
    · cases hget
    · cases hget
      rcases bind_error.1 h with hguard | ⟨_, _, -, h⟩
      · exact guardEnding_error hguard
      · cases h

theorem resolve_error {ctx : Context} {name : Token} (h : resolve name ctx s = .error e) :
    e = ⟨.unknownFunction name.value, name.span⟩ := by
  rcases bind_error.1 h with hget | ⟨_, _, hget, h⟩
  · cases hget
  · rcases bind_error.1 h with hread | ⟨_, _, hread, h⟩
    · cases hread
    · cases hget
      cases hread
      cases hfun : s.functions.lookup name.value with
      | some number =>
        rw [hfun] at h
        cases h
      | none =>
        rw [hfun] at h
        cases hknown : ctx.builtins with
        | none =>
          rw [hknown] at h
          cases h
        | some names =>
          rw [hknown] at h
          dsimp only at h
          split at h
          · cases h
          · cases h
            rfl

theorem anchored_rules : Rules (Early ending) (Anchored file ending builtins) where
  pure ha := by
    refine ⟨fun s a s' hs h => ?_, fun s e hs h => by cases h⟩
    cases h
    exact ⟨ha, hs⟩
  bind hx hf := by
    refine ⟨fun s b s' hs h => ?_, fun s e hs h => ?_⟩
    · obtain ⟨a, s₁, ha, hb⟩ := bind_ok.1 h
      obtain ⟨hQ, hs₁⟩ := hx.ok s a s₁ hs ha
      exact (hf a hQ).ok s₁ b s' hs₁ hb
    · rcases bind_error.1 h with he | ⟨a, s₁, ha, he⟩
      · exact hx.error s e hs he
      · obtain ⟨hQ, hs₁⟩ := hx.ok s a s₁ hs ha
        exact (hf a hQ).error s₁ e hs₁ he
  fail hcode hplace := by
    refine ⟨fun s a s' hs h => (by cases h), fun s e hs h => ?_⟩
    cases h
    exact Or.inr ⟨hcode, hplace⟩
  get := by
    refine ⟨fun s a s' hs h => ?_, fun s e hs h => by cases h⟩
    cases h
    exact ⟨trivial, hs⟩
  modify hf := by
    refine ⟨fun s a s' hs h => ?_, fun s e hs h => by cases h⟩
    cases h
    refine ⟨trivial, ?_, ?_⟩
    all_goals rw [hf s]
    · exact hs.early
    · exact hs.more
  current := by
    refine ⟨fun s a s' hs h => ?_, fun s e hs h => by cases h⟩
    cases h
    exact ⟨hs.current, hs⟩
  advance := by
    -- where there is no further token, the scanner's own fault is reported
    refine ⟨fun s t s' hs h => ?_, fun s e hs h => Or.inl (advance_error h).2⟩
    obtain ⟨rfl, rfl⟩ := advance_ok h
    exact ⟨hs.current, fun t ht => hs.early t (List.mem_of_mem_tail ht), ending_of_advance h⟩
  resolve hname := by
    refine ⟨fun s a s' hs h => ?_, fun s e hs h => ?_⟩
    · obtain ⟨-, -, rfl⟩ := resolve_ok h
      exact ⟨trivial, hs⟩
    · rw [resolve_error h]
      exact Or.inr ⟨by simp [Fault.code], hname⟩

/-- Reading a program from early tokens ends well or in a fault that is foreseen. -/
theorem program_error {tokens : List Token} {prev : Pos} {functions : List (Text × Nat)} {begun : Nat}
    (hearly : ∀ t ∈ tokens, Early ending t.span.start)
    (h : program ⟨file, ending, builtins⟩ ⟨tokens, prev, functions, begun⟩ = .error e) : Foreseen file ending e := by
  have hrules : Rules (Early ending) (Anchored file ending builtins) := anchored_rules
  rcases bind_error.1 h with hget | ⟨s, _, hget, h⟩
  · cases hget
  · cases hget
    rcases bind_error.1 h with hguard | ⟨_, s₁, hguard, h⟩
    · exact Or.inl (guardEnding_error hguard).2
    · obtain rfl := guardEnding_ok hguard
      have hs : Standing ending ⟨tokens, prev, functions, begun⟩ := by
        refine ⟨hearly, fun hnil => ?_⟩
        rw [show tokens = [] from hnil] at hguard
        exact ending_of_guardEnding hguard
      have hrest : Anchored file ending builtins (fun _ => True) (do
          let globals ← globalsFrom (← remaining) []
          let functions ← functionsFrom (← remaining) []
          let eof ← expect .endOfFile
          return (⟨⟨(← read).file, .first, eof.span.stop⟩, globals, functions⟩ : Program)) := by
        refine hrules.bind hrules.remaining fun n _ => hrules.bind (hrules.globalsFrom n []) fun globals _ => ?_
        refine hrules.bind hrules.remaining fun m _ => hrules.bind (hrules.functionsFrom m []) fun fs _ => ?_
        refine hrules.bind hrules.expect fun eof _ => ⟨fun s p s' hs h => ?_, fun s e hs h => by cases h⟩
        cases h
        exact ⟨trivial, hs⟩
      exact hrest.error _ e hs h

end Anchored

end Parser

/-! ## Agreement -/

open ScriptKit.Parser

theorem tokenize_error {file source : Text} {fault : Token.Error} :
    tokenize file source = .error fault ↔ (scan file source).ending = .error fault := by
  unfold tokenize
  cases h : (scan file source).ending with
  | ok eof => simp [h]
  | error e => simp [h]

/-- A fault of the parser is the scanner's or lies before it. -/
theorem foreseen_of_parse {file source : Text} {builtins : Option (List Text)} {e : Error}
    (h : parse file source builtins = .error e) : Foreseen file (scan file source).ending e := by
  simp only [parse, parseScanned] at h
  split at h
  · cases h
  · next e' he =>
    cases h
    exact program_error (fun t ht fault hfault => (take_error hfault).2 t ht) he

/-- The parser and the token listing agree on the faults of the scanner. A source that is parsed has tokens. If the
parser reports a fault of the scanner, the listing fails with the same diagnostic. If the listing fails, the parser
reports the same, or one diagnostic of another kind at a place that starts before it. -/
theorem lexical_faults_agree (file source : Text) (builtins : Option (List Text)) :
    (∀ p, parse file source builtins = .ok p → ∃ tokens, tokenize file source = .ok tokens) ∧
    (∀ e, parse file source builtins = .error e → e.diagnostic.code = .lex →
      ∃ fault, tokenize file source = .error fault ∧ fault.diagnostic file = e.diagnostic) ∧
    (∀ fault, tokenize file source = .error fault →
      ∃ e, parse file source builtins = .error e ∧
        (e.diagnostic = fault.diagnostic file ∨
          (e.diagnostic.code ≠ .lex ∧ ∃ span column, e.diagnostic.span = some span ∧
            (fault.diagnostic file).span = some column ∧ span.start.Lt column.start))) := by
  have hok : ∀ p, parse file source builtins = .ok p → ∃ tokens, tokenize file source = .ok tokens := by
    intro p hp
    obtain ⟨-, -, eof, -, -, -, hending⟩ := reads_all_of_parse hp
    exact ⟨(scan file source).tokens ++ [eof], by simp only [tokenize, hending]⟩
  refine ⟨hok, fun e he hlex => ?_, fun fault hfault => ?_⟩
  · rcases foreseen_of_parse he with ⟨fault, hfault, rfl⟩ | ⟨hcode, -⟩
    · exact ⟨fault, tokenize_error.2 hfault, rfl⟩
    · exact absurd hlex hcode
  · cases hparse : parse file source builtins with
    | ok p =>
      obtain ⟨tokens, htokens⟩ := hok p hparse
      cases hfault.symm.trans htokens
    | error e =>
      refine ⟨e, rfl, ?_⟩
      have hending := tokenize_error.1 hfault
      rcases foreseen_of_parse hparse with ⟨fault', hfault', rfl⟩ | ⟨hcode, hearly⟩
      · cases hending.symm.trans hfault'
        exact Or.inl rfl
      · exact Or.inr ⟨hcode, _, _, rfl, rfl, hearly fault hending⟩

/-- The parser misses a name before the listing comes upon a character that begins no token; where the name is
there, it takes the name and meets that character. -/
theorem lexical_faults_agree_at :
    (∃ fault e, tokenize "a" "int = @" = .error fault ∧ parse "a" "int = @" = .error e ∧
      e.diagnostic.code = .parse ∧ ∃ span column, e.diagnostic.span = some span ∧
        (fault.diagnostic "a").span = some column ∧ span.start.Lt column.start) ∧
    ∃ fault e, tokenize "a" "int n @" = .error fault ∧ parse "a" "int n @" = .error e ∧
      fault.diagnostic "a" = e.diagnostic := by
  have hmissing : (parse "a" "int = @").toOption = none ∧
      ((tokenize "a" "int = @").toOption = none ∧ (match parse "a" "int = @" with
        | .ok _ => none
        | .error e => some e.fault.code) = some Code.parse) := by decide +kernel
  have hmet : (match parse "a" "int n @" with
      | .ok _ => none
      | .error e => some e.fault.code) = some Code.lex := by decide +kernel
  constructor
  · cases htokens : tokenize "a" "int = @" with
    | ok tokens =>
      rw [htokens] at hmissing
      cases hmissing.2.1
    | error fault =>
      obtain ⟨e, he, hdiagnostic⟩ := (lexical_faults_agree "a" "int = @" none).2.2 fault htokens
      rw [he] at hmissing
      have hcode : e.fault.code = .parse := Option.some.inj hmissing.2.2
      rcases hdiagnostic with hsame | ⟨-, hplace⟩
      · cases hcode.symm.trans (congrArg Diagnostic.code hsame)
      · exact ⟨fault, e, rfl, he, hcode, hplace⟩
  · cases hparse : parse "a" "int n @" with
    | ok p =>
      rw [hparse] at hmet
      cases hmet
    | error e =>
      rw [hparse] at hmet
      obtain ⟨fault, hfault, hsame⟩ := (lexical_faults_agree "a" "int n @" none).2.1 e hparse (Option.some.inj hmet)
      exact ⟨fault, e, hfault, rfl, hsame⟩

end ScriptKit
