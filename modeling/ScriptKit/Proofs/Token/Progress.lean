import ScriptKit.Proofs.Text.Bytes
import ScriptKit.Proofs.Token.Exact

/-!
# Asking for tokens again and again

A cursor can be asked for the next token whatever it has answered before. A request that fails leaves it somewhere:
inside a comment, at the single slash that spoils it, behind an exclamation mark or a slash that stands alone, behind a
string that is never closed. The next request goes on from there, and what was in the middle of a comment may now be
read as tokens. None of these places can be a trap, because a fault is met only behind something: a comment is spoiled
behind the slashes that open it (`Cursor.skipTriviaFrom_passes`), and any other fault takes the glyphs it complains
about (`Cursor.token_refused`).

So a request either takes something or finds the end of the source (`Cursor.request_next`), and nothing else tells
the cursor that it is done.

**Theorem (`requests_exhaust`).** Whatever it is answered, each request moves the cursor on by some bytes until the
source is used up; from then on the answer is the token at the end of the source.
-/

namespace ScriptKit

theorem Text.length_toBytes_pos {t : Text} (h : t ≠ []) : 0 < t.toBytes.length := by
  cases t with
  | nil => exact absurd rfl h
  | cons g t =>
    cases g with
    | char ch =>
      have hpositive := List.length_pos_iff.2 (String.utf8EncodeChar_ne_nil (c := ch))
      rw [Text.toBytes_char, List.length_append]
      omega
    | stray b => simp

namespace Cursor

variable {file : Text} {c c₁ c' : Cursor} {taken taken' : Text}

/-! ## One request -/

/-- The cursor `c'` stands behind the text `taken` that is in front of `c`. -/
structure Passes (taken : Text) (c c' : Cursor) : Prop where
  rest : c.rest = taken ++ c'.rest
  pos : c'.pos = c.pos.afterText taken

theorem Passes.trans (h : Passes taken c c₁) (h' : Passes taken' c₁ c') : Passes (taken ++ taken') c c' where
  rest := by rw [h.rest, h'.rest, List.append_assoc]
  pos := by rw [h'.pos, h.pos, Pos.afterText_append]

/-- Skipping goes over a text, and over some glyphs if it fails outside of a comment. -/
theorem skipTriviaFrom_passes (opening : Option Pos) (p : Pos) (t : Text) :
    ∃ skipped, t = skipped ++ (skipTriviaFrom opening p t).2.1 ∧
      (skipTriviaFrom opening p t).2.2 = p.afterText skipped ∧
      (opening = none → (skipTriviaFrom opening p t).1 ≠ none → skipped ≠ []) := by
  fun_induction skipTriviaFrom opening p t with
  | case1 | case2 | case5 | case6 | case8 | case9 => exact ⟨[], rfl, rfl, by simp⟩
  | case3 p g rest _ ih | case10 p g rest start _ ih =>
    obtain ⟨skipped, hrest, hpos, -⟩ := ih
    exact ⟨g :: skipped, congrArg (g :: ·) hrest, hpos, by simp⟩
  | case4 p rest _ ih | case7 p start rest ih =>
    obtain ⟨skipped, hrest, hpos, -⟩ := ih
    exact ⟨.char '/' :: .char '/' :: skipped, congrArg (.char '/' :: .char '/' :: ·) hrest, hpos, by simp⟩

/-- A fault that takes the glyphs it complains about. -/
structure Refused (c c' : Cursor) : Prop where
  passes : ∃ taken, taken ≠ [] ∧ Passes taken c c'
  done : c'.done = c.done

theorem refused_refuse {e : Token.Error} {fault : Token.Fault} {lexeme rest : Text} (hne : lexeme ≠ [])
    (hrest : c.rest = lexeme ++ rest) (h : c.refuse fault lexeme rest = (.error e, c')) : Refused c c' := by
  cases h
  exact ⟨⟨lexeme, hne, hrest, rfl⟩, rfl⟩

theorem string_refused {e : Token.Error} {rest : Text} (hrest : c.rest = Glyph.quote :: rest)
    (h : c.string file rest = (.error e, c')) : Refused c c' := by
  unfold string at h
  dsimp only at h
  split at h
  · next hdrop =>
    refine refused_refuse (List.cons_ne_nil _ _) ?_ h
    have hall : rest = rest.takeWhile (· != .char '"') := by
      simpa [hdrop] using (List.takeWhile_append_dropWhile (p := (· != Glyph.char '"')) (l := rest)).symm
    rw [hrest, List.append_nil, ← hall]
    rfl
  · cases h

theorem tokenAt_refused {e : Token.Error} {ch : Char} {rest : Text} (hrest : c.rest = .char ch :: rest)
    (h : c.tokenAt file ch rest = (.error e, c')) : Refused c c' := by
  unfold tokenAt at h
  split at h
  · cases h
  · split at h
    · split at h
      · cases h
      · split at h
        · cases h
        · exact refused_refuse (List.cons_ne_nil _ _) hrest h
    · split at h
      · split at h
        · exact refused_refuse (List.cons_ne_nil _ _) hrest h
        · cases h
      · split at h
        · next hquote =>
          subst hquote
          exact string_refused hrest h
        · dsimp only at h
          split at h
          · cases h
          · split at h
            · cases h
            · exact refused_refuse (List.cons_ne_nil _ _) hrest h

theorem token_refused {e : Token.Error} (h : c.token file = (.error e, c')) : Refused c c' := by
  unfold token at h
  split at h
  · cases h
  · next hrest => exact refused_refuse (List.cons_ne_nil _ _) hrest h
  · next hrest => exact tokenAt_refused hrest h

/-- How a request for a token is answered, and where it leaves the cursor: it takes something, or it finds nothing
more in the source and notes that. -/
inductive Request (file : Text) (c : Cursor) : Except Token.Error Token → Cursor → Prop
  | moved {answer : Except Token.Error Token} {taken : Text} {c' : Cursor} :
      taken ≠ [] → Passes taken c c' → c'.done = c.done → (∀ t, answer = .ok t → t.kind ≠ .endOfFile) →
      Request file c answer c'
  | ended {skipped : Text} {c' : Cursor} :
      Passes skipped c c' → c'.rest = [] → c'.done = true →
      Request file c (.ok ⟨.endOfFile, [], ⟨file, c'.pos, c'.pos⟩⟩) c'

theorem Request.behind {answer : Except Token.Error Token} (hskipped : Passes taken c c₁) (hdone : c₁.done = c.done)
    (h : Request file c₁ answer c') : Request file c answer c' := by
  cases h with
  | moved hne htaken hdone' hkind => exact .moved (by simp [hne]) (hskipped.trans htaken) (hdone'.trans hdone) hkind
  | ended htaken hnil hdone' => exact .ended (hskipped.trans htaken) hnil hdone'

theorem request_token (file : Text) (hcode : ∀ rest, c.rest ≠ .char '/' :: .char '/' :: rest) :
    Request file c (c.token file).1 (c.token file).2 := by
  cases htoken : c.token file with
  | mk answer c' =>
  cases answer with
  | error e =>
    obtain ⟨⟨taken, hne, htaken⟩, hdone⟩ := token_refused htoken
    exact .moved hne htaken hdone (by simp)
  | ok t =>
    by_cases hend : t.kind = .endOfFile
    · obtain ⟨hnil, rfl⟩ := token_end hcode htoken hend
      have hnone : c.token file = (.ok ⟨.endOfFile, [], ⟨file, c.pos, c.pos⟩⟩, { c with done := true }) := by
        rw [token, hnil]
      obtain ⟨-, rfl⟩ := Prod.mk.inj (htoken.symm.trans hnone)
      exact @Request.ended file c [] { c with done := true } ⟨rfl, rfl⟩ hnil rfl
    · have hcovers := token_covers hcode htoken hend
      obtain ⟨lexeme, hne, hlexeme, hpos⟩ := hcovers.lexeme
      refine .moved hne ⟨hlexeme, hpos⟩ hcovers.done ?_
      rintro _ ⟨⟩
      exact hend

/-- Every request is answered in one of these ways. -/
theorem request_next (file : Text) (c : Cursor) : Request file c (c.next file).1 (c.next file).2 := by
  obtain ⟨skipped, hrest, hpos, hfault⟩ := skipTriviaFrom_passes none c.pos c.rest
  have hskipped : Passes skipped c c.skipTrivia.2 := ⟨hrest, hpos⟩
  unfold next
  split
  · next e c₁ hskip =>
    have hsome : (skipTriviaFrom none c.pos c.rest).1 = some e := congrArg Prod.fst hskip
    obtain rfl : c.skipTrivia.2 = c₁ := congrArg Prod.snd hskip
    exact .moved (hfault rfl (by simp [hsome])) hskipped rfl (by simp)
  · next c₁ hskip =>
    obtain ⟨-, -, -, -, hcode⟩ := skipTriviaFrom_eq none c.pos c.rest (congrArg Prod.fst hskip)
    obtain rfl : c.skipTrivia.2 = c₁ := congrArg Prod.snd hskip
    exact (request_token file hcode).behind hskipped rfl

theorem Request.passes {answer : Except Token.Error Token} (h : Request file c answer c') :
    ∃ taken, Passes taken c c' := by
  cases h with
  | moved _ htaken => exact ⟨_, htaken⟩
  | ended hskipped => exact ⟨_, hskipped⟩

/-- A cursor becomes done if it answers with the end of the file, and stays so. -/
theorem Request.done_iff {answer : Except Token.Error Token} (h : Request file c answer c') :
    c'.done = true ↔ c.done = true ∨ ∃ t, answer = .ok t ∧ t.kind = .endOfFile := by
  cases h with
  | moved _ _ hdone hkind =>
    have hnot : ¬∃ t, answer = .ok t ∧ t.kind = .endOfFile := fun ⟨t, ht, hend⟩ => hkind t ht hend
    rw [hdone]
    exact (or_iff_left hnot).symm
  | ended _ _ hdone => exact iff_of_true hdone (Or.inr ⟨_, rfl, rfl⟩)

/-! ## Many requests -/

/-- The cursor after `n` requests for a token, however they are answered. -/
def after (file : Text) (c : Cursor) : Nat → Cursor
  | 0 => c
  | n + 1 => ((c.after file n).next file).2

/-- The answer to the request after `n` others. -/
def answer (file : Text) (c : Cursor) (n : Nat) : Except Token.Error Token := ((c.after file n).next file).1

theorem request_after (file : Text) (c : Cursor) (n : Nat) :
    Request file (c.after file n) (c.answer file n) (c.after file (n + 1)) :=
  request_next file (c.after file n)

/-- A cursor is done if and only if one of the requests so far was answered with the end of the file. -/
theorem done_after (file : Text) (c : Cursor) (n : Nat) :
    (c.after file n).done = true ↔
      c.done = true ∨ ∃ m < n, ∃ t, c.answer file m = .ok t ∧ t.kind = .endOfFile := by
  induction n with
  | zero => simp [after]
  | succ n ih =>
    simp only [Nat.lt_succ_iff_lt_or_eq, or_and_right, exists_or, exists_eq_left]
    rw [← or_assoc, ← ih]
    exact (request_after file c n).done_iff

/-! ## Bytes -/

/-- A cursor stands in a source with `offset` of its bytes behind it and the others in front. Its position is counted
over the glyphs behind it. -/
structure At (source : List UInt8) (offset : Nat) (c : Cursor) : Prop where
  inside : offset ≤ source.length
  rest : c.rest = Text.ofBytes (source.drop offset)
  pos : ∃ before, Text.ofBytes source = before ++ c.rest ∧ c.pos = .behind before

section At

variable {source : List UInt8} {offset offset' : Nat}

theorem At.start (source : List UInt8) : At source 0 (.start (Text.ofBytes source)) :=
  ⟨Nat.zero_le _, rfl, [], rfl, rfl⟩

/-- The bytes behind a cursor and those in front of it make up the source. -/
theorem At.length (h : At source offset c) : offset + c.rest.toBytes.length = source.length := by
  have hinside := h.inside
  rw [h.rest, Text.toBytes_ofBytes, List.length_drop]
  omega

/-- What a cursor moves over counts in bytes. What is in front of it then is read in the same way on its own. -/
theorem At.passes (h : At source offset c) (h' : Passes taken c c') :
    At source (offset + taken.toBytes.length) c' := by
  have hlength := h.length
  obtain ⟨-, hrest, before, hsource, hpos⟩ := h
  rw [h'.rest] at hrest hlength hsource
  have hsettled : Text.Settled c'.rest := by
    refine Text.Settled.suffix (t := taken) ?_
    rw [hrest]
    exact Text.settled_ofBytes _
  have hbytes : source.drop (offset + taken.toBytes.length) = c'.rest.toBytes := by
    have hdrop := congrArg Text.toBytes hrest
    rw [Text.toBytes_ofBytes, Text.toBytes_append] at hdrop
    rw [← List.drop_drop, ← hdrop, List.drop_left]
  refine ⟨?_, ?_, before ++ taken, ?_, ?_⟩
  · rw [Text.toBytes_append, List.length_append] at hlength
    omega
  · rw [hbytes]
    exact hsettled.symm
  · rw [hsource, List.append_assoc]
  · rw [h'.pos, hpos, Pos.behind_append]

theorem At.at_end (h : At source offset c) (hnil : c.rest = []) :
    offset = source.length ∧ c.pos = .behind (Text.ofBytes source) := by
  have hlength := h.length
  obtain ⟨before, hsource, hpos⟩ := h.pos
  rw [hnil] at hlength hsource
  rw [List.append_nil] at hsource
  exact ⟨hlength, by rw [hpos, hsource]⟩

/-- A request moves a cursor on in the source, or finds it at the end and leaves it there. -/
theorem Request.advances {answer : Except Token.Error Token} (h : Request file c answer c')
    (hc : At source offset c) (hc' : At source offset' c') :
    offset < offset' ∨
      offset = source.length ∧ offset' = source.length ∧ answer = .ok (endOfFile file (Text.ofBytes source)) := by
  have hmoved : ∀ {taken : Text}, taken ≠ [] → Passes taken c c' → offset < offset' := by
    intro taken hne htaken
    have hpositive := Text.length_toBytes_pos hne
    have hlength := (hc.passes htaken).length
    have hlength' := hc'.length
    omega
  cases h with
  | moved hne htaken => exact Or.inl (hmoved hne htaken)
  | @ended skipped c' hskipped hnil _ =>
    by_cases hne : skipped = []
    · obtain ⟨hoffset', hpos⟩ := hc'.at_end hnil
      refine Or.inr ⟨(hc.at_end ?_).1, hoffset', ?_⟩
      · rw [hskipped.rest, hne, hnil]
        rfl
      · rw [hpos]
        rfl
    · exact Or.inl (hmoved hne hskipped)

end At

theorem exists_at_after (file : Text) (source : List UInt8) (n : Nat) :
    ∃ offset, At source offset ((start (Text.ofBytes source)).after file n) := by
  induction n with
  | zero => exact ⟨0, At.start source⟩
  | succ n ih =>
    obtain ⟨offset, hat⟩ := ih
    obtain ⟨taken, htaken⟩ := (request_after file (start (Text.ofBytes source)) n).passes
    exact ⟨_, hat.passes htaken⟩

end Cursor

/-! ## Whole sources -/

open Cursor

/-- A count that grows until it reaches a bound has reached it after as many steps. -/
theorem reached_of_grows {count : Nat → Nat} {bound : Nat} (hinside : ∀ n, count n ≤ bound)
    (hgrows : ∀ n, count n < count (n + 1) ∨ count n = bound ∧ count (n + 1) = bound) {n : Nat} (hn : bound ≤ n) :
    count n = bound := by
  have hleast : ∀ n, n ≤ count n ∨ count n = bound := by
    intro n
    induction n with
    | zero => exact Or.inl (Nat.zero_le _)
    | succ n ih =>
      rcases hgrows n with hlt | ⟨-, hend⟩
      · have hle := hinside (n + 1)
        omega
      · exact Or.inr hend
  have hle := hinside n
  have hreached := hleast n
  omega

/-- Whatever it is answered, each request for a token moves the cursor on in its source until the source is used up;
from then on the answer is the token at the end of the source. The cursor is done as soon as one request has been
answered with the end of the file. -/
theorem requests_exhaust (file : Text) (source : List UInt8) :
    let c := Cursor.start (Text.ofBytes source)
    ∃ offset : Nat → Nat,
      (∀ n, At source (offset n) (c.after file n)) ∧
      (∀ n, offset n < offset (n + 1) ∨
        offset n = source.length ∧ offset (n + 1) = source.length ∧
          c.answer file n = .ok (endOfFile file (Text.ofBytes source))) ∧
      (∀ n, (c.after file n).done = true ↔ ∃ m < n, ∃ t, c.answer file m = .ok t ∧ t.kind = .endOfFile) ∧
      ∀ n, source.length ≤ n → c.answer file n = .ok (endOfFile file (Text.ofBytes source)) := by
  intro c
  -- every cursor stands at an offset, and the offsets are chosen once for all requests
  obtain ⟨offset, hat⟩ := Classical.skolem.1 (exists_at_after file source)
  have hadvances : ∀ n, offset n < offset (n + 1) ∨
      offset n = source.length ∧ offset (n + 1) = source.length ∧
        c.answer file n = .ok (endOfFile file (Text.ofBytes source)) :=
    fun n => (request_after file c n).advances (hat n) (hat (n + 1))
  refine ⟨offset, hat, hadvances, fun n => ?_, fun n hn => ?_⟩
  · rw [done_after]
    exact or_iff_right Bool.false_ne_true
  · have hend : offset n = source.length :=
      reached_of_grows (fun n => (hat n).inside) (fun n => (hadvances n).imp id fun h => ⟨h.1, h.2.1⟩) hn
    rcases hadvances n with hlt | ⟨-, -, hanswer⟩
    · have hle := (hat (n + 1)).inside
      omega
    · exact hanswer

/-- A lonely exclamation mark and a slash inside a comment are faults, and what follows them is read. -/
example : (List.range 7).map (fun n => ((start "a!//b/c").answer "a" n).toOption.map Token.kind) =
    [some .name, none, none, some .slash, some .name, some .endOfFile, some .endOfFile] := by
  decide +kernel

end ScriptKit
