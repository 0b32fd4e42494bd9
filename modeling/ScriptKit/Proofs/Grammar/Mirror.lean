import ScriptKit.Proofs.Grammar.Faults
import ScriptKit.Proofs.Grammar.Recorder

/-!
# The recording parser mirrors the one that stops

`Mirrors ctx P c x` says that the plan `c` of the recording parser does what the parser `x` does, from every state of
which `P` holds. As long as nothing goes wrong the two stay side by side (`Alike`). Where `x` stops with an error, `c`
records it and comes to an end nevertheless: it gives up, or it is left at the end of the file with nothing more to
take or to record. Such a desk is frozen (`Desk.Frozen`). From every frozen desk `c` comes to an end too, since there
may be more to do after the fault of a scanner, and whatever is done then must come to an end.

There is one lemma for each step of the parsers and for each way of putting steps together. The bound in `Within` is
the number of tokens left; it is what the counters of the parser that stops are set by.
-/

namespace ScriptKit.Recorder

open Parse ScriptKit.Parser

variable {α β γ : Type}

/-! ## Cursors and tokens -/

/-- Scanning from a cursor gives these tokens and then the ending, however often the end of the file is asked for. -/
inductive Supplies (file : Text) : Cursor → List Token → Except Token.Error Token → Prop
  | token {c c' : Cursor} {t : Token} {ts : List Token} {ending : Except Token.Error Token} :
      c.next file = (.ok t, c') → t.kind ≠ .endOfFile → Supplies file c' ts ending → Supplies file c (t :: ts) ending
  | fault {c c' : Cursor} {e : Token.Error} : c.next file = (.error e, c') → Supplies file c [] (.error e)
  | stop {c c' : Cursor} {eof : Token} : c.skipTrivia = (none, c') → c'.rest = [] →
      eof = ⟨.endOfFile, [], ⟨file, c'.pos, c'.pos⟩⟩ → Supplies file c [] (.ok eof)

/-- The end of the file can be scanned again and again. -/
theorem Supplies.stopped {file : Text} {c : Cursor} {eof : Token} (h : Supplies file c [] (.ok eof)) :
    ∃ c', c.next file = (.ok eof, c') ∧ Supplies file c' [] (.ok eof) := by
  cases h with
  | @stop _ c' _ hskip hrest heof =>
    refine ⟨{ c' with done := true }, ?_, ?_⟩
    · simp [Cursor.next, hskip, Cursor.token, hrest, heof]
    · have hskip' : Cursor.skipTrivia { c' with done := true } = (none, { c' with done := true }) := by
        simp [Cursor.skipTrivia, hrest, Cursor.skipTriviaFrom]
      exact .stop hskip' hrest heof

/-- Where the end of the file is scanned, nothing is left behind blanks and comments. -/
theorem supplies_end {file : Text} {c c' : Cursor} {t : Token} (h : c.next file = (.ok t, c'))
    (hend : t.kind = .endOfFile) : Supplies file c [] (.ok t) := by
  unfold Cursor.next at h
  split at h
  · cases h
  · next c₁ hskip =>
    have hparts := hskip
    unfold Cursor.skipTrivia at hparts
    obtain ⟨hnone, rfl⟩ := Prod.mk.inj hparts
    obtain ⟨-, -, -, -, hcode⟩ := Cursor.skipTriviaFrom_eq none c.pos c.rest hnone
    obtain ⟨hrest, rfl⟩ := Cursor.token_end hcode h hend
    exact .stop hskip hrest rfl

/-- The scan of a source is what its cursor supplies. -/
theorem supplies_take {file : Text} {n : Nat} {c : Cursor} (hn : c.rest.length < n) :
    Supplies file c (Scanned.take file n c).tokens (Scanned.take file n c).ending := by
  induction n generalizing c with
  | zero => omega
  | succ n ih =>
    rw [Scanned.take]
    split
    · next e c' hnext => exact .fault hnext
    · next t c' hnext =>
      split
      · next hend => exact supplies_end hnext hend
      · next hne =>
        obtain ⟨trivia, c₁, -, hrest, -, hcovers⟩ := Cursor.next_covers hnext hne
        obtain ⟨lexeme, hlexeme, hrest', -⟩ := hcovers.lexeme
        have hpos := List.length_pos_iff.2 hlexeme
        rw [hrest, hrest', List.length_append, List.length_append] at hn
        exact .token hnext hne (ih (by omega))

/-! ## Desks and states -/

/-- The desk has a fault and stands at the end of the file. It takes nothing more and records nothing more. -/
structure Desk.Frozen (d : Desk) : Prop where
  faulty : d.faults ≠ []
  ended : d.current.kind = .endOfFile

/-- A desk and a state of the parser that stops are at the same place, and nothing has gone wrong. -/
structure Alike (ctx : Context) (d : Desk) (s : State) : Prop where
  current : d.current = s.tokens.head?.getD (endToken ctx)
  supplies : Supplies ctx.file d.cursor s.tokens.tail ctx.ending
  proper : ∀ t, s.tokens.head? = some t → t.kind ≠ .endOfFile
  more : s.tokens = [] → ∃ eof, ctx.ending = .ok eof
  prev : d.prev = s.prev
  functions : d.functions = s.functions
  begun : d.begun = s.begun
  faultless : d.faults = []

variable {ctx : Context} {d d' : Desk} {s s' : State}

/-- At the end of the file no token is left. -/
theorem Alike.ended (h : Alike ctx d s) (hend : s.kind = .endOfFile) : s.tokens = [] := by
  cases htokens : s.tokens with
  | nil => rfl
  | cons t ts =>
    have hhead : s.tokens.head? = some t := by rw [htokens, List.head?_cons]
    rw [State.kind, hhead] at hend
    exact absurd hend (h.proper t hhead)

/-- Where the end of the file is taken, no token is left, and what comes after it is the same token. -/
theorem Alike.after_end {t : Token} (hctx : ctx.Ended) (h : Alike ctx d s)
    (hx : expect .endOfFile ctx s = .ok (t, s')) : t = s'.tokens.head?.getD (endToken ctx) := by
  simp only [expect, bind_ok, current_ok] at hx
  obtain ⟨_, _, ⟨rfl, rfl⟩, hx⟩ := hx
  rw [kind_current hctx] at hx
  split at hx
  · next hend =>
    obtain ⟨rfl, rfl⟩ := advance_ok hx
    rw [State.tokens_after, h.ended hend]
    rfl
  · simp at hx

/-- Taking a token in front of another token or of the end of the file. -/
theorem alike_advance {ts : List Token} (hsupplies : Supplies ctx.file d.cursor ts ctx.ending)
    (hfaults : d.faults = []) (hmore : ts = [] → ∃ eof, ctx.ending = .ok eof) :
    Alike ctx (d.advance ctx.file) ⟨ts, d.current.span.stop, d.functions, d.begun⟩ := by
  -- behind the last token stands the end token, which is the current one from then on
  cases ts with
  | nil =>
    obtain ⟨eof, hending⟩ := hmore rfl
    obtain ⟨c', hnext, hagain⟩ := (hending ▸ hsupplies).stopped
    have hadvance : d.advance ctx.file =
        { d with cursor := c', current := eof, prev := d.current.span.stop } := by
      simp [Desk.advance, hfaults, hnext]
    rw [hadvance]
    refine ⟨by simp [endToken, hending], ?_, by simp, fun _ => ⟨eof, hending⟩, rfl, rfl, rfl, hfaults⟩
    rw [hending]
    exact hagain
  | cons t ts =>
    cases hsupplies with
    | @token _ c' _ _ _ hnext hne hsupplies =>
      have hadvance : d.advance ctx.file =
          { d with cursor := c', current := t, prev := d.current.span.stop } := by
        simp [Desk.advance, hfaults, hnext]
      rw [hadvance]
      refine ⟨rfl, hsupplies, ?_, by simp, rfl, rfl, rfl, hfaults⟩
      rintro _ ⟨⟩
      exact hne

/-- Taking a token in front of a fault records it, and nothing is taken or recorded after it. -/
theorem frozen_advance {file : Text} {e : Token.Error} (hsupplies : Supplies file d.cursor [] (.error e))
    (hfaults : d.faults = []) : (d.advance file).faults = [scanError file e] ∧ (d.advance file).Frozen := by
  cases hsupplies with
  | fault hnext =>
    have hrecorded : (d.advance file).faults = [scanError file e] := by simp [Desk.advance, hfaults, hnext]
    refine ⟨hrecorded, by simp [hrecorded], ?_⟩
    simp [Desk.advance, hfaults, hnext]

/-! ## Mirrors -/

/-- At most so many tokens are left. -/
def Within (k : Nat) (s : State) : Prop := s.tokens.length ≤ k

/-- The plan does what the parser does from the states of which `P` holds, and comes to an end where the parser stops
and from every frozen desk. -/
structure Mirrors (ctx : Context) (P : State → Prop) (c : Plan α) (x : Parser α) : Prop where
  fewer : ∀ s a s', P s → x ctx s = .ok (a, s') → s'.tokens.length ≤ s.tokens.length
  ok : ∀ d s a s', P s → Alike ctx d s → x ctx s = .ok (a, s') →
    ∃ d', Runs ctx.file ctx.builtins c d (some a) d' ∧ Alike ctx d' s'
  error : ∀ d s e, P s → Alike ctx d s → x ctx s = .error e →
    ∃ o d', Runs ctx.file ctx.builtins c d o d' ∧ d'.faults = [e] ∧ (o ≠ none → d'.current.kind = .endOfFile)
  frozen : ∀ d, d.Frozen → ∃ o d', Runs ctx.file ctx.builtins c d o d' ∧ d'.Frozen

namespace Mirrors

variable {P Q : State → Prop} {c c' : Plan α} {x x' : Parser α} {f : α → Plan β} {g : α → Parser β} {k : Nat}

theorem weaken (h : Mirrors ctx P c x) (hPQ : ∀ s, Q s → P s) : Mirrors ctx Q c x where
  fewer s a s' hs hx := h.fewer s a s' (hPQ s hs) hx
  ok d s a s' hs hd hx := h.ok d s a s' (hPQ s hs) hd hx
  error d s e hs hd hx := h.error d s e (hPQ s hs) hd hx
  frozen := h.frozen

/-- A plan that runs where another does mirrors what that mirrors. -/
theorem of_runs (h : Mirrors ctx P c x)
    (hruns : ∀ d o d', Runs ctx.file ctx.builtins c d o d' → Runs ctx.file ctx.builtins c' d o d') :
    Mirrors ctx P c' x where
  fewer := h.fewer
  ok d s a s' hs hd hx := by
    obtain ⟨d', hrun, hd'⟩ := h.ok d s a s' hs hd hx
    exact ⟨d', hruns _ _ _ hrun, hd'⟩
  error d s e hs hd hx := by
    obtain ⟨o, d', hrun, hd'⟩ := h.error d s e hs hd hx
    exact ⟨o, d', hruns _ _ _ hrun, hd'⟩
  frozen d hd := by
    obtain ⟨o, d', hrun, hd'⟩ := h.frozen d hd
    exact ⟨o, d', hruns _ _ _ hrun, hd'⟩

/-- Where no token is left, it is enough that a plan runs so at the end of the file. -/
theorem at_end (hctx : ctx.Ended) (h : Mirrors ctx (Within 0) c x)
    (hruns : ∀ d o d', d.current.kind = .endOfFile → Runs ctx.file ctx.builtins c d o d' →
      Runs ctx.file ctx.builtins c' d o d') : Mirrors ctx (Within 0) c' x := by
  have hend : ∀ d s, Within 0 s → Alike ctx d s → d.current.kind = .endOfFile := by
    intro d s hs hd
    have hcurrent := hd.current
    rw [List.eq_nil_of_length_eq_zero (Nat.le_zero.1 hs)] at hcurrent
    exact hcurrent ▸ hctx
  refine ⟨h.fewer, fun d s a s' hs hd hx => ?_, fun d s e hs hd hx => ?_, fun d hd => ?_⟩
  · obtain ⟨d', hrun, hd'⟩ := h.ok d s a s' hs hd hx
    exact ⟨d', hruns _ _ _ (hend d s hs hd) hrun, hd'⟩
  · obtain ⟨o, d', hrun, hd'⟩ := h.error d s e hs hd hx
    exact ⟨o, d', hruns _ _ _ (hend d s hs hd) hrun, hd'⟩
  · obtain ⟨o, d', hrun, hd'⟩ := h.frozen d hd
    exact ⟨o, d', hruns _ _ _ hd.ended hrun, hd'⟩

/-! ### Sequencing -/

theorem pure (a : α) : Mirrors ctx P (Pure.pure a) (Pure.pure a) where
  fewer s b s' _ hx := Nat.le_of_eq (congrArg (fun s => s.tokens.length) (pure_ok.1 hx).2)
  ok d s b s' _ hd hx := by
    obtain ⟨rfl, rfl⟩ := pure_ok.1 hx
    exact ⟨d, .see, hd⟩
  error d s e _ _ hx := by cases hx
  frozen d hd := ⟨_, d, .see, hd⟩

/-- Where the first part ends with a fault recorded, the second ends as well and leaves the fault as it is. -/
theorem bind_faulty {o : Option α} {es : List Error} (hf : ∀ a, Mirrors ctx Q (f a) (g a))
    (hx : Runs ctx.file ctx.builtins c d o d') (hfaults : d'.faults = es) (hne : es ≠ [])
    (hend : o ≠ none → d'.current.kind = .endOfFile) :
    ∃ o d'', Runs ctx.file ctx.builtins (c >>= f) d o d'' ∧ d''.faults = es ∧
      (o ≠ none → d''.current.kind = .endOfFile) := by
  cases o with
  | none => exact ⟨none, d', .bindNone hx, hfaults, fun h => absurd rfl h⟩
  | some a =>
    obtain ⟨o, d'', hrun, hd''⟩ := (hf a).frozen d' ⟨hfaults ▸ hne, hend (by simp)⟩
    exact ⟨o, d'', .bindSome hx hrun, (hrun.settled (hfaults ▸ hne)).trans hfaults, fun _ => hd''.ended⟩

theorem step (hc : Mirrors ctx P c x) (hpost : ∀ s a s', P s → x ctx s = .ok (a, s') → Q s')
    (hf : ∀ a, Mirrors ctx Q (f a) (g a)) : Mirrors ctx P (c >>= f) (x >>= g) where
  fewer s b s' hs h := by
    obtain ⟨a, s₁, hx, hg⟩ := bind_ok.1 h
    exact Nat.le_trans ((hf a).fewer s₁ b s' (hpost s a s₁ hs hx) hg) (hc.fewer s a s₁ hs hx)
  ok d s b s' hs hd h := by
    obtain ⟨a, s₁, hx, hg⟩ := bind_ok.1 h
    obtain ⟨d₁, hrun, hd₁⟩ := hc.ok d s a s₁ hs hd hx
    obtain ⟨d', hrun', hd'⟩ := (hf a).ok d₁ s₁ b s' (hpost s a s₁ hs hx) hd₁ hg
    exact ⟨d', .bindSome hrun hrun', hd'⟩
  error d s e hs hd h := by
    rcases bind_error.1 h with hx | ⟨a, s₁, hx, hg⟩
    · obtain ⟨o, d₁, hrun, hfaults, hend⟩ := hc.error d s e hs hd hx
      exact bind_faulty hf hrun hfaults (by simp) hend
    · obtain ⟨d₁, hrun, hd₁⟩ := hc.ok d s a s₁ hs hd hx
      obtain ⟨o, d', hrun', hd'⟩ := (hf a).error d₁ s₁ e (hpost s a s₁ hs hx) hd₁ hg
      exact ⟨o, d', .bindSome hrun hrun', hd'⟩
  frozen d hd := by
    obtain ⟨o, d₁, hrun, hd₁⟩ := hc.frozen d hd
    cases o with
    | none => exact ⟨none, d₁, .bindNone hrun, hd₁⟩
    | some a =>
      obtain ⟨o, d', hrun', hd'⟩ := (hf a).frozen d₁ hd₁
      exact ⟨o, d', .bindSome hrun hrun', hd'⟩

/-- Tokens only get fewer. -/
theorem bind (hc : Mirrors ctx (Within k) c x) (hf : ∀ a, Mirrors ctx (Within k) (f a) (g a)) :
    Mirrors ctx (Within k) (c >>= f) (x >>= g) :=
  hc.step (fun s a s' hs hx => Nat.le_trans (hc.fewer s a s' hs hx) hs) hf

theorem discard (hc : Mirrors ctx P c x) : Mirrors ctx P (discard c) (discard x) := by
  show Mirrors ctx P (c >>= fun _ => Pure.pure PUnit.unit) (x >>= fun _ => Pure.pure PUnit.unit)
  exact hc.step (Q := fun _ => True) (fun _ _ _ _ _ => trivial) fun _ => .pure _

theorem ite {p : Prop} [Decidable p] (hx : p → Mirrors ctx P c x) (hy : ¬p → Mirrors ctx P c' x') :
    Mirrors ctx P (if p then c else c') (if p then x else x') := by
  by_cases hp : p
  · rw [if_pos hp, if_pos hp]
    exact hx hp
  · rw [if_neg hp, if_neg hp]
    exact hy hp

theorem refuse {fault : Fault} {span : Span} :
    Mirrors ctx P (.refuse fault span : Plan α) (fail fault span) where
  fewer s a s' _ hx := by simp at hx
  ok d s a s' _ _ hx := by simp at hx
  error d s e _ hd hx := by
    cases hx
    exact ⟨none, _, .refuse, by simp [Desk.record, hd.faultless], fun h => absurd rfl h⟩
  frozen d hd := ⟨none, _, .refuse, by rwa [Runs.record_settled hd.faulty]⟩

/-- Nothing is done after a refusal. -/
theorem refuse_bind {fault : Fault} {span : Span} :
    Mirrors ctx P (.refuse fault span >>= f) (fail fault span >>= g) := by
  have h : Mirrors ctx P (.refuse fault span : Plan β) (fail fault span) := refuse
  exact h.of_runs fun d o d' hrun => by
    obtain ⟨rfl, rfl⟩ := hrun.ends
    exact .bindNone .refuse

/-! ### Looking -/

/-- What the desk shows is a part of what the parser sees, which knows then where it stands. -/
theorem see {v : State → α} {r : α → γ} {q : Desk → γ} {f : γ → Plan β} (hx : ∀ s, x ctx s = .ok (v s, s))
    (hr : Function.Surjective r) (hsee : ∀ d s, Alike ctx d s → q d = r (v s))
    (hf : ∀ a, Mirrors ctx (fun s => P s ∧ a = v s) (f (r a)) (g a)) : Mirrors ctx P (.see q >>= f) (x >>= g) where
  fewer s b s' hs h := by
    obtain ⟨a, s₁, ha, hg⟩ := bind_ok.1 h
    cases (hx s).symm.trans ha
    exact (hf (v s)).fewer s b s' ⟨hs, rfl⟩ hg
  ok d s b s' hs hd h := by
    obtain ⟨a, s₁, ha, hg⟩ := bind_ok.1 h
    cases (hx s).symm.trans ha
    obtain ⟨d', hrun, hd'⟩ := (hf (v s)).ok d s b s' ⟨hs, rfl⟩ hd hg
    exact ⟨d', .bindSome .see (hsee d s hd ▸ hrun), hd'⟩
  error d s e hs hd h := by
    rcases bind_error.1 h with he | ⟨a, s₁, ha, hg⟩
    · cases (hx s).symm.trans he
    · cases (hx s).symm.trans ha
      obtain ⟨o, d', hrun, hd'⟩ := (hf (v s)).error d s e ⟨hs, rfl⟩ hd hg
      exact ⟨o, d', .bindSome .see (hsee d s hd ▸ hrun), hd'⟩
  frozen d hd := by
    obtain ⟨a, ha⟩ := hr (q d)
    obtain ⟨o, d', hrun, hd'⟩ := (hf a).frozen d hd
    exact ⟨o, d', .bindSome .see (ha ▸ hrun), hd'⟩

theorem current : Mirrors ctx P Plan.current Parser.current where
  fewer s t s' _ hx := Nat.le_of_eq (congrArg (fun s => s.tokens.length) (current_ok.1 hx).2)
  ok d s t s' _ hd hx := by
    obtain ⟨rfl, rfl⟩ := current_ok.1 hx
    exact ⟨d, hd.current ▸ .see, hd⟩
  error d s e _ _ hx := by cases hx
  frozen d hd := ⟨_, d, .see, hd⟩

/-- The current token is known to be the one that is seen. -/
theorem onCurrent {f : Token → Plan β} {g : Token → Parser β}
    (hf : ∀ t, Mirrors ctx (fun s => P s ∧ t = s.tokens.head?.getD (endToken ctx)) (f t) (g t)) :
    Mirrors ctx P (Plan.current >>= f) (Parser.current >>= g) :=
  see (r := id) (fun _ => rfl) Function.surjective_id (fun _ _ hd => hd.current) hf

theorem current_bind {f : Token → Plan β} {g : Token → Parser β} (hf : ∀ t, Mirrors ctx P (f t) (g t)) :
    Mirrors ctx P (Plan.current >>= f) (Parser.current >>= g) :=
  onCurrent fun t => (hf t).weaken fun _ => And.left

/-- The current kind is known to be the one that is seen. -/
theorem onPeek {f : Token.Kind → Plan β} {g : Token.Kind → Parser β} (hctx : ctx.Ended)
    (hf : ∀ kind, Mirrors ctx (fun s => P s ∧ s.kind = kind) (f kind) (g kind)) :
    Mirrors ctx P (Plan.peek >>= f) (Parser.peek >>= g) :=
  see (r := id) (fun _ => (peek_ok hctx).2 ⟨rfl, rfl⟩) Function.surjective_id
    (fun _ s hd => (congrArg Token.kind hd.current).trans (kind_current hctx s))
    fun kind => (hf kind).weaken fun _ hs => ⟨hs.1, hs.2.symm⟩

theorem peek_bind {f : Token.Kind → Plan β} {g : Token.Kind → Parser β} (hctx : ctx.Ended)
    (hf : ∀ kind, Mirrors ctx P (f kind) (g kind)) : Mirrors ctx P (Plan.peek >>= f) (Parser.peek >>= g) :=
  onPeek hctx fun kind => (hf kind).weaken fun _ => And.left

theorem spanFrom_bind {f : Span → Plan β} {g : Span → Parser β} {start : Token}
    (hf : ∀ span, Mirrors ctx P (f span) (g span)) :
    Mirrors ctx P (Plan.spanFrom start >>= f) (Parser.spanFrom start >>= g) :=
  see (r := id) (fun _ => spanFrom_ok.2 ⟨rfl, rfl⟩) Function.surjective_id
    (fun _ _ hd => congrArg start.span.upTo hd.prev) fun span => (hf span).weaken fun _ => And.left

theorem functions_bind {f : List (Text × Nat) → Plan β} {g : State → Parser β}
    (hf : ∀ s, Mirrors ctx P (f s.functions) (g s)) : Mirrors ctx P (.see Desk.functions >>= f) (get >>= g) :=
  see (r := State.functions) (fun _ => get_ok.2 ⟨rfl, rfl⟩) (fun functions => ⟨⟨[], .first, functions, 0⟩, rfl⟩)
    (fun _ _ hd => hd.functions) fun s => (hf s).weaken fun _ => And.left

theorem begun_bind {f : Nat → Plan β} {g : State → Parser β} (hf : ∀ s, Mirrors ctx P (f s.begun) (g s)) :
    Mirrors ctx P (.see Desk.begun >>= f) (get >>= g) :=
  see (r := State.begun) (fun _ => get_ok.2 ⟨rfl, rfl⟩) (fun begun => ⟨⟨[], .first, [], begun⟩, rfl⟩)
    (fun _ _ hd => hd.begun) fun s => (hf s).weaken fun _ => And.left

/-- The parser looks up what stays the same. -/
theorem read_bind {g : Context → Parser α} (h : Mirrors ctx P c (g ctx)) : Mirrors ctx P c (read >>= g) :=
  ⟨h.fewer, h.ok, h.error, h.frozen⟩

/-- The parser reads a counter of its own, which is the number of tokens left. -/
theorem onRemaining {g : Nat → Parser α} (hP : ∀ s, P s → Within k s)
    (hg : ∀ n ≤ k, Mirrors ctx (fun s => P s ∧ Within n s) c (g n)) : Mirrors ctx P c (remaining >>= g) where
  fewer s a s' hs h := by
    obtain ⟨n, s₁, hn, hx⟩ := bind_ok.1 h
    obtain ⟨rfl, rfl⟩ := remaining_ok.1 hn
    exact (hg _ (hP _ hs)).fewer _ a s' ⟨hs, Nat.le_refl _⟩ hx
  ok d s a s' hs hd h := by
    obtain ⟨n, s₁, hn, hx⟩ := bind_ok.1 h
    obtain ⟨rfl, rfl⟩ := remaining_ok.1 hn
    exact (hg _ (hP _ hs)).ok d _ a s' ⟨hs, Nat.le_refl _⟩ hd hx
  error d s e hs hd h := by
    rcases bind_error.1 h with he | ⟨n, s₁, hn, hx⟩
    · cases he
    · obtain ⟨rfl, rfl⟩ := remaining_ok.1 hn
      exact (hg _ (hP _ hs)).error d _ e ⟨hs, Nat.le_refl _⟩ hd hx
  frozen := (hg 0 (Nat.zero_le k)).frozen

theorem remaining_bind {g : Nat → Parser α} (hg : ∀ n ≤ k, Mirrors ctx (Within n) c (g n)) :
    Mirrors ctx (Within k) c (remaining >>= g) :=
  onRemaining (fun _ => id) fun n hn => (hg n hn).weaken fun _ => And.right

/-! ### Taking -/

theorem advance : Mirrors ctx P .advance Parser.advance where
  fewer s t s' _ hx := by
    obtain ⟨-, rfl⟩ := advance_ok hx
    simp [State.tokens_after]
  ok d s t s' _ hd hx := by
    have hmore := ending_of_advance hx
    obtain ⟨ht, rfl⟩ := advance_ok hx
    obtain rfl : t = d.current := ht.trans hd.current.symm
    have halike := alike_advance hd.supplies hd.faultless hmore
    rw [hd.functions, hd.begun] at halike
    exact ⟨_, .advance, halike⟩
  error d s e _ hd hx := by
    obtain ⟨hlast, fault, hending, rfl⟩ := advance_error hx
    have hsupplies := hd.supplies
    rw [hlast, hending] at hsupplies
    obtain ⟨hfaults, hfrozen⟩ := frozen_advance hsupplies hd.faultless
    exact ⟨_, _, .advance, hfaults, fun _ => hfrozen.ended⟩
  frozen d hd := ⟨_, _, .advance, by rwa [Runs.advance_settled hd.faulty]⟩

/-- A token that is not the end of the file leaves one token less. -/
theorem within_of_advance {t : Token} (hx : Parser.advance ctx s = .ok (t, s')) (hs : Within (k + 1) s)
    (hne : s.kind ≠ .endOfFile) : Within k s' := by
  have hlen := (takes_of_advance hx rfl hne).length
  unfold Within at *
  omega

theorem take {f : Token → Plan β} {g : Token → Parser β} (hP : ∀ s, P s → Within (k + 1) s ∧ s.kind ≠ .endOfFile)
    (hf : ∀ t, Mirrors ctx (Within k) (f t) (g t)) : Mirrors ctx P (.advance >>= f) (Parser.advance >>= g) :=
  advance.step (fun s _ _ hs hx => within_of_advance hx (hP s hs).1 (hP s hs).2) hf

theorem discard_take {f : Unit → Plan β} {g : Unit → Parser β}
    (hP : ∀ s, P s → Within (k + 1) s ∧ s.kind ≠ .endOfFile) (hf : Mirrors ctx (Within k) (f ()) (g ())) :
    Mirrors ctx P (Functor.discard .advance >>= f) (Functor.discard Parser.advance >>= g) := by
  refine advance.discard.step (fun s _ _ hs hx => ?_) fun _ => hf
  obtain ⟨t, hx⟩ := discard_ok.1 hx
  exact within_of_advance hx (hP s hs).1 (hP s hs).2

theorem expect {kind : Token.Kind} : Mirrors ctx P (Plan.expect kind) (Parser.expect kind) :=
  current_bind fun _ => ite (fun _ => advance) fun _ => refuse

theorem optionalComma (hctx : ctx.Ended) : Mirrors ctx P Plan.optionalComma Parser.optionalComma :=
  peek_bind hctx fun _ => ite (fun _ => advance.discard) fun _ => pure _

/-- A change of the desk that takes nothing and records nothing. -/
theorem change {c : Plan Unit} {w : Desk → Desk} {m : State → State}
    (hruns : ∀ d, Runs ctx.file ctx.builtins c d (some ()) (w d)) (htokens : ∀ s, (m s).tokens = s.tokens)
    (halike : ∀ d s, Alike ctx d s → Alike ctx (w d) (m s)) (hfrozen : ∀ d, d.Frozen → (w d).Frozen) :
    Mirrors ctx P c (modify m) where
  fewer s u s' _ hx := by
    obtain rfl := modify_ok.1 hx
    exact Nat.le_of_eq (congrArg List.length (htokens s))
  ok d s u s' _ hd hx := by
    obtain rfl := modify_ok.1 hx
    exact ⟨_, hruns d, halike d s hd⟩
  error d s e _ _ hx := by cases hx
  frozen d hd := ⟨_, _, hruns d, hfrozen d hd⟩

theorem begin {number : Nat} :
    Mirrors ctx P (.begin number) (modify fun s => { s with begun := number + 1 }) :=
  change (fun _ => .begin) (fun _ => rfl) (fun _ _ hd => { hd with begun := rfl }) fun _ hd => ⟨hd.faulty, hd.ended⟩

theorem register {name : Text} {number : Nat} :
    Mirrors ctx P (.register name number) (modify fun s => { s with functions := (name, number) :: s.functions }) :=
  change (fun _ => .register) (fun _ => rfl)
    (fun _ _ hd => { hd with functions := congrArg ((name, number) :: ·) hd.functions })
    fun _ hd => ⟨hd.faulty, hd.ended⟩

/-! ### Loops -/

/-- A loop is its first turn and what that leads to. -/
theorem unroll {turn : α → Plan (α ⊕ β)} {a : α} {x : Parser β}
    (h : Mirrors ctx P (turn a >>= Sum.elim (.loop turn) Pure.pure) x) : Mirrors ctx P (.loop turn a) x := by
  refine h.of_runs fun d o d' hrun => ?_
  rcases hrun.ends with ⟨a' | b, d₁, hturn, hrest⟩ | ⟨hturn, rfl⟩
  · exact .loopAgain hturn hrest
  · obtain ⟨rfl, rfl⟩ := hrest.ends
    exact .loopDone hturn
  · exact .loopNone hturn

theorem assoc {f : α → Plan β} {g : β → Plan γ} {x : Parser γ} (h : Mirrors ctx P (c >>= fun a => f a >>= g) x) :
    Mirrors ctx P ((c >>= f) >>= g) x := by
  refine h.of_runs fun d o d' hrun => ?_
  rcases hrun.ends with ⟨a, d₁, hc, hrest⟩ | ⟨hc, rfl⟩
  · rcases hrest.ends with ⟨b, d₂, hf, hg⟩ | ⟨hf, rfl⟩
    · exact .bindSome (.bindSome hc hf) hg
    · exact .bindNone (.bindSome hc hf)
  · exact .bindNone (.bindNone hc)

theorem pure_bind {a : α} {f : α → Plan β} {x : Parser β} (h : Mirrors ctx P (f a) x) :
    Mirrors ctx P (Pure.pure a >>= f) x :=
  h.of_runs fun _ _ _ hrun => .bindSome .see hrun

end Mirrors

end ScriptKit.Recorder
