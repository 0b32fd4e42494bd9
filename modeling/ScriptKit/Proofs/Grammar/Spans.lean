import ScriptKit.Proofs.Grammar.Placed
import ScriptKit.Proofs.Token.Exact

/-!
# Nested spans

The span of a node is made in one of three ways: it is the span of a token, or it runs from a token to the one taken
last, or from the left operand to the right one. Parentheses around an expression belong to none of these, so the
span of a statement may reach beyond the expression that ends it. All the same the spans of the children of a node
stand inside its own, one after the other (`Node.Nested`).

For the nodes below a program this is what `Node.Boxed` says of trees that are laid out. A program is not read like
other nodes: whatever it holds, its span runs from the first position to the end of the source, and it encloses its
declarations and functions because no token ends later (`Lexed.stop_le`, `Reads.until`).

**Theorem (`spans_nested`).** In a parsed program the spans nest and are ordered, and the outermost one is the whole
source.
-/

namespace ScriptKit

/-- The span of a node encloses those of its children, and these follow one another and do not overlap. -/
structure Node.Nested (n : Node) : Prop where
  forward : n.span.start ≤ n.span.stop
  encloses : ∀ c ∈ n.children, n.span.start ≤ c.span.start ∧ c.span.stop ≤ n.span.stop
  ordered : n.children.Pairwise fun c d => c.span.start < d.span.start ∧ c.span.stop ≤ d.span.start

theorem Row.pairwise {a b : Pos} {ns : List Node} (h : Row a ns b) :
    ns.Pairwise fun c d => c.span.start < d.span.start ∧ c.span.stop ≤ d.span.start := by
  induction ns generalizing a with
  | nil => exact .nil
  | cons n ns ih =>
    obtain ⟨-, hne, hrest⟩ := h
    refine List.pairwise_cons.2 ⟨fun m hm => ?_, ih hrest⟩
    have hin := hrest.within hm
    grind

/-- Children that stand in a row inside a node are nested in it. -/
theorem Row.nested {n : Node} (h : Row n.span.start n.children n.span.stop) : n.Nested where
  forward := h.le
  encloses _ hc := ⟨(h.within hc).1, (h.within hc).2.2⟩
  ordered := h.pairwise

/-! ## The end of the source -/

/-- No token of a cut ends behind the source. -/
theorem Lexed.stop_le {file before source : Text} {ts : List Token} (h : Lexed file before source ts) :
    ∀ t ∈ ts, t.span.stop ≤ Pos.behind (before ++ source) := by
  induction h with
  | stop => simp
  | @token before trivia lexeme rest t ts _ _ hspan _ ih =>
    have hsource : before ++ (trivia ++ lexeme ++ rest) = before ++ trivia ++ lexeme ++ rest := by
      simp only [List.append_assoc]
    have hstop : t.span.stop = .behind (before ++ trivia ++ lexeme) := congrArg Span.stop hspan
    rw [hsource]
    refine List.forall_mem_cons.2 ⟨?_, ih⟩
    rw [hstop, Pos.behind_append _ rest]
    exact Pos.le_afterText _ _

namespace Parse

/-- No token has been taken, or is left, that ends behind a position. -/
structure State.Until (stop : Pos) (s : State) : Prop where
  taken : s.prev ≤ stop
  left : ∀ t ∈ s.tokens, t.span.stop ≤ stop

section Until

variable {stop : Pos} {s s' : State}

theorem Takes.until {k : Token.Kind} {t : Token} (h : Takes k t s s') (hs : s.Until stop) : s'.Until stop where
  taken := h.prev ▸ hs.left t (h.tokens ▸ List.mem_cons_self ..)
  left u hu := hs.left u (h.tokens ▸ List.mem_cons_of_mem t hu)

theorem State.Until.pastComma (hs : s.Until stop) : s.pastComma.Until stop := by
  rcases s.pastComma_eq with h | ⟨t, h⟩
  · rwa [h]
  · exact h.until hs

theorem State.Until.begin (hs : s.Until stop) : s.begin.Until stop := ⟨hs.taken, hs.left⟩

theorem State.Until.register (hs : s.Until stop) (name : Text) (number : Nat) :
    (s.register name number).Until stop := ⟨hs.taken, hs.left⟩

/-- Reading a phrase leads no further than its tokens do. -/
theorem Reads.until {known : Option (List Text)} {φ : Phrase} (h : Reads known φ s s') (hs : s.Until stop) :
    s'.Until stop := by
  induction h with
  | forLoop ht hl _ hc _ _ hc' _ hr _ hinit hcond hstep hbody =>
    exact hbody (hr.until (hstep (hc'.until (hcond (hc.until (hinit (hl.until (ht.until hs))))))))
  | function ht hname _ hl _ hr _ hparams hbody =>
    have hbegun := (hname.until (ht.until hs)).begin
    exact (hbody (hr.until (hparams (hl.until hbegun)))).register _ _
  | _ => grind -ring -linarith [→ Takes.until, → State.Until.pastComma]

end Until

end Parse

/-! ## Parsed programs -/

open Parse

/-- A program runs from the first position of its source to the last one. -/
theorem span_of_parse {file source : Text} {builtins : Option (List Text)} {p : Program}
    (h : parse file source builtins = .ok p) : p.span = ⟨file, .first, .behind source⟩ := by
  obtain ⟨-, -, eof, -, -, -, hending, hspan⟩ := program_of_parse h
  obtain ⟨-, rfl⟩ := scan_end hending
  exact hspan

/-- In a parsed program every node encloses its children, which follow one another, and the program is the whole
source. -/
theorem spans_nested {file source : Text} {builtins : Option (List Text)} {p : Program}
    (h : parse file source builtins = .ok p) :
    (∀ n ∈ p.node.preorder, n.Nested) ∧ p.node.span = ⟨file, .first, .behind source⟩ := by
  have hspan : p.node.span = _ := span_of_parse h
  refine ⟨fun n hn => ?_, hspan⟩
  obtain ⟨s₁, s₂, eof, hglobals, hfunctions, -, hending⟩ := reads_all_of_parse h
  have hordered : (scan file source).state.Ordered := tokensFrom_take file _ (.start source)
  have hfirst : Stretch _ s₁ p.globals := hglobals.placed hordered
  have hall : Stretch _ s₂ p.node.children := hfirst.append (hfunctions.placed hfirst.ordered)
  rcases Node.mem_preorder.1 hn with rfl | ⟨c, hc, hn⟩
  · have hbehind : Pos.first ≤ .behind source := by
      rw [← List.nil_append source, Pos.behind_append]
      exact Pos.le_afterText .first source
    have huntil : (scan file source).state.Until (.behind source) := ⟨hbehind, (scan_end hending).1.stop_le⟩
    have hstop := (hfunctions.until (hglobals.until huntil)).taken
    refine Row.nested ?_
    rw [hspan]
    exact hall.row.mono (Std.le_refl _) hstop
  · exact ((hall.laid c hc).below hn _ (Node.mem_preorder_self n)).row.nested

/-- A call with parentheses, blanks and a string of two lines. -/
def spreadText : Text := "int a = ( 1 + 2 )\nfunc Main() \x7b print( \"x\ny\" , (a) ) \x7d "

/-- The spans of a program over three lines. -/
theorem spans_nested_spread :
    ∃ p, parse "a" spreadText = .ok p ∧ (∀ n ∈ p.node.preorder, n.Nested) ∧ p.node.span.stop = ⟨3, 14⟩ := by
  have hok : (parse "a" spreadText).toBool = true := by decide +kernel
  cases hparse : parse "a" spreadText with
  | error e => rw [hparse] at hok; cases hok
  | ok p =>
    obtain ⟨hnested, hspan⟩ := spans_nested hparse
    refine ⟨p, rfl, hnested, ?_⟩
    rw [hspan]
    decide +kernel

end ScriptKit
