import ScriptKit.Proofs.Grammar

/-!
# Steps of a parser

When a parser succeeds, and in which state it then is: one equivalence for each of the small parsers
that the others are made of. A chain of parsers succeeds exactly if each of them does where the one
before it stopped, so a run of a longer parser is taken apart, or put together, by `bind_ok`.

At the end of the tokens the current token is the end of the file. `Context.Ended` says so of a
context, and every context that comes from a scan is of this kind.
-/

namespace ScriptKit

namespace Parse

/-- What stands for the end of the tokens is the end of the file. -/
def Context.Ended (ctx : Context) : Prop := (Parser.endToken ctx).kind = .endOfFile

/-- The tokens end with the end of the file and with no fault. -/
def Context.Complete (ctx : Context) : Prop := ∃ eof, ctx.ending = .ok eof ∧ eof.kind = .endOfFile

theorem Context.Complete.ended {ctx : Context} (h : ctx.Complete) : ctx.Ended := by
  obtain ⟨eof, hok, hkind⟩ := h
  simp [Ended, Parser.endToken, hok, hkind]

end Parse

namespace Parser

open Parse

variable {α β : Type} {ctx : Context} {s s' : State}

/-! ## Sequencing -/

/-- A sequence succeeds if each part succeeds where the one before it stopped. -/
@[simp] theorem bind_ok {x : Parser α} {f : α → Parser β} {b : β} :
    (x >>= f) ctx s = .ok (b, s') ↔ ∃ a s₁, x ctx s = .ok (a, s₁) ∧ f a ctx s₁ = .ok (b, s') := by
  show (x ctx s >>= fun r => f r.1 ctx r.2) = _ ↔ _
  cases h : x ctx s with
  | error e => simp [bind, Except.bind]
  | ok r =>
    obtain ⟨a, s₁⟩ := r
    constructor
    · intro hf
      exact ⟨a, s₁, rfl, hf⟩
    · rintro ⟨a', s₁', heq, hf⟩
      cases heq
      exact hf

/-- A sequence fails where its first part does, or where the second one does after the first. -/
theorem bind_error {x : Parser α} {f : α → Parser β} {e : Error} :
    (x >>= f) ctx s = .error e ↔
      x ctx s = .error e ∨ ∃ a s₁, x ctx s = .ok (a, s₁) ∧ f a ctx s₁ = .error e := by
  show (x ctx s >>= fun r => f r.1 ctx r.2) = _ ↔ _
  cases h : x ctx s with
  | error e' => simp [bind, Except.bind]
  | ok r =>
    obtain ⟨a, s₁⟩ := r
    constructor
    · intro hf
      exact Or.inr ⟨a, s₁, rfl, hf⟩
    · rintro (herror | ⟨a', s₁', heq, hf⟩)
      · cases herror
      · cases heq
        exact hf

@[simp] theorem pure_ok {a b : α} : (pure a : Parser α) ctx s = .ok (b, s') ↔ b = a ∧ s' = s := by
  show Except.ok (a, s) = _ ↔ _
  simp [eq_comm]

@[simp] theorem discard_ok {x : Parser α} {u : PUnit} :
    discard x ctx s = .ok (u, s') ↔ ∃ a, x ctx s = .ok (a, s') := by
  show (x >>= fun _ => pure PUnit.unit) ctx s = _ ↔ _
  simp only [bind_ok, pure_ok, true_and]
  constructor
  · rintro ⟨a, s₁, h, rfl⟩
    exact ⟨a, h⟩
  · rintro ⟨a, h⟩
    exact ⟨a, s', h, rfl⟩

@[simp] theorem get_ok {a : State} : (get : Parser State) ctx s = .ok (a, s') ↔ a = s ∧ s' = s := by
  show Except.ok (s, s) = _ ↔ _
  simp [eq_comm]

@[simp] theorem read_ok {a : Context} :
    (read : Parser Context) ctx s = .ok (a, s') ↔ a = ctx ∧ s' = s := by
  show Except.ok (ctx, s) = _ ↔ _
  simp [eq_comm]

@[simp] theorem modify_ok {f : State → State} {u : PUnit} :
    (modify f : Parser PUnit) ctx s = .ok (u, s') ↔ s' = f s := by
  show Except.ok (PUnit.unit, f s) = _ ↔ _
  simp [eq_comm]

@[simp] theorem fail_ok {fault : Fault} {span : Span} {a : α} :
    (fail fault span : Parser α) ctx s = .ok (a, s') ↔ False := by
  show Except.error _ = _ ↔ _
  simp

/-! ## Looking at the current token -/

@[simp] theorem current_ok {t : Token} :
    current ctx s = .ok (t, s') ↔ t = s.tokens.head?.getD (endToken ctx) ∧ s' = s := by
  show Except.ok (s.tokens.head?.getD (endToken ctx), s) = _ ↔ _
  simp [eq_comm]

/-- Where no token is left, the current token is the end of the file. -/
theorem kind_current (hctx : ctx.Ended) (s : State) :
    (s.tokens.head?.getD (endToken ctx)).kind = s.kind := by
  unfold State.kind
  cases s.tokens.head? with
  | none => exact hctx
  | some t => rfl

theorem peek_ok {k : Token.Kind} (hctx : ctx.Ended) :
    peek ctx s = .ok (k, s') ↔ k = s.kind ∧ s' = s := by
  show Except.ok ((s.tokens.head?.getD (endToken ctx)).kind, s) = _ ↔ _
  simp [kind_current hctx, eq_comm]

@[simp] theorem remaining_ok {n : Nat} :
    remaining ctx s = .ok (n, s') ↔ n = s.tokens.length ∧ s' = s := by
  show Except.ok (s.tokens.length, s) = _ ↔ _
  simp [eq_comm]

@[simp] theorem spanFrom_ok {start : Token} {span : Span} :
    spanFrom start ctx s = .ok (span, s') ↔ span = start.span.upTo s.prev ∧ s' = s := by
  show Except.ok (start.span.upTo s.prev, s) = _ ↔ _
  simp [eq_comm]

/-! ## Taking the current token -/

theorem current_of_kind {k : Token.Kind} (hk : s.kind = k) (hne : k ≠ .endOfFile) :
    ∃ t, s.tokens.head? = some t ∧ t.kind = k := by
  unfold State.kind at hk
  cases h : s.tokens.head? with
  | none =>
    rw [h] at hk
    exact absurd hk.symm hne
  | some t =>
    rw [h] at hk
    exact ⟨t, rfl, hk⟩

/-- The guard looks at the end of the tokens and changes nothing. -/
theorem guardEnding_ok {rest : List Token} {u : PUnit} (h : guardEnding rest ctx s = .ok (u, s')) :
    s' = s := by
  simp only [guardEnding, bind_ok, read_ok] at h
  obtain ⟨ctx, s, ⟨rfl, rfl⟩, h⟩ := h
  cases rest with
  | cons t rest => exact (pure_ok.1 h).2
  | nil =>
    cases hend : ctx.ending with
    | ok eof =>
      rw [hend] at h
      exact (pure_ok.1 h).2
    | error e =>
      rw [hend] at h
      cases h

theorem guardEnding_run {eof : Token} (hok : ctx.ending = .ok eof) (rest : List Token) (s : State) :
    guardEnding rest ctx s = .ok (⟨⟩, s) := by
  simp only [guardEnding, bind_ok, read_ok]
  exact ⟨_, _, ⟨rfl, rfl⟩, by simp [hok]⟩

/-- What is taken is the current token, and the state goes on behind it. -/
theorem advance_ok {t : Token} (h : advance ctx s = .ok (t, s')) :
    t = s.tokens.head?.getD (endToken ctx) ∧ s' = s.after t := by
  simp only [advance, bind_ok, current_ok, get_ok, modify_ok, pure_ok] at h
  obtain ⟨_, _, ⟨rfl, rfl⟩, _, _, ⟨rfl, rfl⟩, _, s₁, hguard, _, _, rfl, rfl, rfl⟩ := h
  rw [guardEnding_ok hguard]
  exact ⟨rfl, rfl⟩

/-- The last token is taken only in front of the end of the file. -/
theorem ending_of_advance {t : Token} (h : advance ctx s = .ok (t, s')) (hlast : s.tokens.tail = []) :
    ∃ eof, ctx.ending = .ok eof := by
  simp only [advance, bind_ok, current_ok, get_ok] at h
  obtain ⟨_, _, ⟨rfl, rfl⟩, _, _, ⟨rfl, rfl⟩, _, s₁, hguard, -⟩ := h
  rw [hlast] at hguard
  simp only [guardEnding, bind_ok, read_ok] at hguard
  obtain ⟨ctx, s, ⟨rfl, rfl⟩, hguard⟩ := hguard
  cases hend : ctx.ending with
  | ok eof => exact ⟨eof, rfl⟩
  | error e =>
    rw [hend] at hguard
    cases hguard

/-- Taking a token whose kind is known. -/
theorem takes_of_advance {k : Token.Kind} {t : Token} (h : advance ctx s = .ok (t, s'))
    (hk : s.kind = k) (hne : k ≠ .endOfFile) : Takes k t s s' := by
  obtain ⟨t', hhead, hkind⟩ := current_of_kind hk hne
  obtain ⟨ht, hs⟩ := advance_ok h
  rw [hhead] at ht
  subst ht
  exact ⟨hhead, hkind, hs⟩

theorem takes_of_expect {k : Token.Kind} {t : Token} (hctx : ctx.Ended)
    (h : expect k ctx s = .ok (t, s')) (hne : k ≠ .endOfFile) : Takes k t s s' := by
  simp only [expect, bind_ok, current_ok] at h
  obtain ⟨_, _, ⟨rfl, rfl⟩, h⟩ := h
  rw [kind_current hctx] at h
  split at h
  · exact takes_of_advance h ‹_› hne
  · simp at h

/-- If the tokens have an end, whatever token is there can be taken. -/
theorem advance_of_takes {k : Token.Kind} {t : Token} (hctx : ctx.Complete) (h : Takes k t s s') :
    advance ctx s = .ok (t, s') := by
  obtain ⟨eof, hok, -⟩ := hctx
  obtain ⟨hhead, -, rfl⟩ := h
  simp only [advance, bind_ok, current_ok, get_ok, modify_ok, pure_ok]
  refine ⟨_, _, ⟨rfl, rfl⟩, _, _, ⟨rfl, rfl⟩, ⟨⟩, s, ?_, ⟨⟩, _, rfl, ?_⟩
  · simp only [guardEnding, bind_ok, read_ok]
    exact ⟨_, _, ⟨rfl, rfl⟩, by simp [hok]⟩
  · simp [hhead, State.after]

theorem Takes.kind_eq {k : Token.Kind} {t : Token} (h : Takes k t s s') : s.kind = k := by
  simp [State.kind, h.head, h.kind]

theorem expect_of_takes {k : Token.Kind} {t : Token} (hctx : ctx.Complete) (h : Takes k t s s') :
    expect k ctx s = .ok (t, s') := by
  simp only [expect, bind_ok, current_ok]
  refine ⟨_, _, ⟨rfl, rfl⟩, ?_⟩
  rw [h.head, Option.getD_some, if_pos h.kind]
  exact advance_of_takes hctx h

/-- A comma is passed over if there is one. -/
theorem optionalComma_ok (hctx : ctx.Ended) {u : PUnit} (h : optionalComma ctx s = .ok (u, s')) :
    s' = s.pastComma := by
  simp only [optionalComma, bind_ok, peek_ok hctx] at h
  obtain ⟨_, _, ⟨rfl, rfl⟩, h⟩ := h
  split at h
  · next hk =>
    obtain ⟨t, h⟩ := discard_ok.1 h
    obtain ⟨hhead, hkind, rfl⟩ := takes_of_advance h hk (by decide)
    simp [State.pastComma, hhead, hkind]
  · next hk =>
    obtain ⟨-, rfl⟩ := pure_ok.1 h
    unfold State.pastComma
    unfold State.kind at hk
    cases hhead : s'.tokens.head? with
    | none => rfl
    | some t => simp_all

theorem optionalComma_run (hctx : ctx.Complete) (s : State) :
    optionalComma ctx s = .ok (⟨⟩, s.pastComma) := by
  simp only [optionalComma, bind_ok, peek_ok hctx.ended]
  refine ⟨_, _, ⟨rfl, rfl⟩, ?_⟩
  rcases s.pastComma_eq with h | ⟨t, h⟩
  · have hk : s.kind ≠ .comma := by
      intro hk
      obtain ⟨t, hhead, hkind⟩ := current_of_kind hk (by decide)
      have hlen := congrArg (fun s => s.tokens.length) h
      have htakes : Takes .comma t s (s.after t) := ⟨hhead, hkind, rfl⟩
      simp only [State.pastComma, hhead, hkind, if_true] at hlen
      have := htakes.length
      omega
    rw [if_neg hk, h]
    exact pure_ok.2 ⟨rfl, rfl⟩
  · rw [if_pos (Takes.kind_eq h)]
    exact discard_ok.2 ⟨t, advance_of_takes hctx h⟩

end Parser

end ScriptKit
