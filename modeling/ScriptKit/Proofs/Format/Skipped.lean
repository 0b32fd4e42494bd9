import ScriptKit.Proofs.Format.RoundTrip
import ScriptKit.Proofs.Grammar.Linear
import ScriptKit.Proofs.Tree.Legible

/-!
# What was passed over

A token that begins no statement is passed over, and all the tree keeps of it is its text. Such a token can be of
almost any kind, a string literal with arbitrary bytes between its quotes included. Nothing in a well-formed tree says
where the text comes from, but the words of a program do: what was passed over is one of them.

**Theorem (`isRead_of_skips`).** If bytes are parsed, the texts of the tokens that were passed over are texts that were
read from bytes: no ASCII byte is a stray in them.
-/

namespace ScriptKit

/-! ## Stray bytes in tokens -/

section Strays

variable {file before source rest lexeme v : Text} {k : Token.Kind} {t : Token} {ts : List Token} {b : UInt8}

/-- The stray bytes of a token come from where it is written. -/
theorem Written.stray_mem (h : Written rest k v lexeme) (hb : .stray b ∈ v) : .stray b ∈ lexeme := by
  cases h with
  | string => exact List.mem_cons_of_mem _ (List.mem_append_left _ hb)
  | @truth word =>
    obtain ⟨g, hg, hgb⟩ := List.mem_map.1 hb
    cases g with
    | char c => cases hgb
    | stray b' =>
      cases hgb
      exact hg
  | _ => exact hb

theorem Lexed.stray_mem (h : Lexed file before source ts) (ht : t ∈ ts) (hb : .stray b ∈ t.value) :
    .stray b ∈ source := by
  induction h with
  | stop => cases ht
  | token _ hwritten _ _ ih =>
    rcases List.mem_cons.1 ht with rfl | ht
    · exact List.mem_append_left _ (List.mem_append_right _ (hwritten.stray_mem hb))
    · exact List.mem_append_right _ (ih ht)

/-- The tokens of bytes are read texts. -/
theorem isRead_of_tokenize {bytes : List UInt8} (h : tokenize file (Text.ofBytes bytes) = .ok ts) (ht : t ∈ ts) :
    t.value.IsRead := by
  intro b hb
  obtain ⟨ts', hlexed, -, rfl⟩ := (tokenize_iff file _ ts).1 h
  rcases List.mem_append.1 ht with ht | ht
  · exact Text.le_of_stray_mem_ofBytes (hlexed.stray_mem ht hb)
  · rw [List.mem_singleton.1 ht] at hb
    cases hb

end Strays

/-! ## What was passed over -/

/-- The node or one below it is a token that was passed over, with the given text. -/
def Node.Skips (text : Text) (n : Node) : Prop := ∃ span, .skip span text ∈ n.preorder

section Skips

variable {text : Text} {n : Node} {ns : List Node} {ws : List Word}

theorem Node.skips_iff : n.Skips text ↔ (∃ span, n = .skip span text) ∨ ∃ c ∈ n.children, c.Skips text := by
  simp only [Skips, Node.mem_preorder (n := n)]
  constructor
  · rintro ⟨span, h | ⟨c, hc, h⟩⟩
    · exact .inl ⟨span, h.symm⟩
    · exact .inr ⟨c, hc, span, h⟩
  · rintro (⟨span, h⟩ | ⟨c, hc, span, h⟩)
    · exact ⟨span, .inl h.symm⟩
    · exact ⟨span, .inr ⟨c, hc, h⟩⟩

theorem Node.skips_block {braces : Braces} : (Node.block braces ns).Skips text ↔ ∃ n ∈ ns, n.Skips text := by
  rw [skips_iff]
  simp [children]

theorem not_skips_params {params : List Param} (hn : n ∈ params.map Param.node) : ¬n.Skips text := by
  obtain ⟨p, -, rfl⟩ := List.mem_map.1 hn
  rw [Node.skips_iff]
  simp [Param.node, Node.children]

variable {S : Text → Prop} {C : Text → Callee → Prop}

/-- Nothing is passed over inside an expression. -/
theorem IsExpr.not_skips (h : IsExpr S C n) : ¬n.Skips text := by
  induction h with
  | call _ _ _ ih | sign _ _ ih =>
    rw [Node.skips_iff]
    simpa [Node.children] using ih
  | arith _ _ _ ih ih' | compare _ _ _ ih ih' =>
    rw [Node.skips_iff]
    simpa [Node.children] using ⟨ih, ih'⟩
  | _ =>
    rw [Node.skips_iff]
    simp [Node.children]

/-- Among the words is a token with a text. -/
def Word.Holds (text : Text) (ws : List Word) : Prop := ∃ k, (k, text) ∈ ws

theorem Word.Holds.mono {ws' : List Word} (h : Word.Holds text ws) (hws : ws ⊆ ws') : Word.Holds text ws' := by
  obtain ⟨k, hk⟩ := h
  exact ⟨k, hws hk⟩

/-- What was passed over in a list of statements is one of its words if it is so for each statement. -/
theorem Linear.Body.holds (h : Linear.Body ns ws)
    (ih : ∀ n ∈ ns, n.Skips text → ∀ {ws}, Linear.Stmt n ws → Word.Holds text ws)
    (hns : ∃ n ∈ ns, n.Skips text) : Word.Holds text ws := by
  induction ns generalizing ws with
  | nil => simp at hns
  | cons n ns ihns =>
    obtain ⟨hn, hrest⟩ := List.forall_mem_cons.1 ih
    obtain _ | ⟨hword, hwords⟩ := h
    simp only [List.mem_cons, exists_eq_or_imp] at hns
    rcases hns with hskips | hskips
    · exact (hn hskips hword).mono (List.subset_append_left ..)
    · exact (ihns hwords hrest hskips).mono (List.subset_append_right ..)

theorem subset_inBraces (ws : List Word) : ws ⊆ Word.inBraces ws := fun w hw => by simp [Word.inBraces, hw]

/-- What was passed over in a statement is one of its words. -/
theorem IsStmt.holds (h : IsStmt S C n) (hn : n.Skips text) {ws : List Word} (hws : Linear.Stmt n ws) :
    Word.Holds text ws := by
  -- Only statements skip tokens, so of the children of a statement those that count are its blocks, and the two
  -- parts of a for loop that are statements.
  induction h generalizing ws with
  | declare =>
    rw [Node.skips_iff] at hn
    simp [Node.children] at hn
  | declareAs _ hvalue | assign _ hvalue =>
    rw [Node.skips_iff] at hn
    simp [Node.children, hvalue.not_skips] at hn
  | call hcall => exact absurd hn hcall.not_skips
  | function _ _ _ ih =>
    obtain ⟨_, heq⟩ | ⟨c, hc, hskips⟩ := Node.skips_iff.1 hn
    · cases heq
    · rcases List.mem_append.1 hc with hc | hc
      · exact absurd hskips (not_skips_params hc)
      · rw [List.mem_singleton.1 hc, Node.skips_block] at hskips
        cases hws with
        | function _ hwords => exact (hwords.holds ih hskips).mono fun w hw => by simp [subset_inBraces _ hw]
  | when hcond _ ih =>
    rw [Node.skips_iff] at hn
    have hbody := by simpa [Node.children, hcond.not_skips, Node.skips_block] using hn
    cases hws with
    | when _ hwords => exact (hwords.holds ih hbody).mono fun w hw => by simp [subset_inBraces _ hw]
  | choose hcond _ _ ih ih' =>
    rw [Node.skips_iff] at hn
    have hbody := by simpa [Node.children, hcond.not_skips, Node.skips_block] using hn
    cases hws with
    | choose _ hwords hwords' =>
      rcases hbody with hbody | hbody
      · exact (hwords.holds ih hbody).mono fun w hw => by simp [subset_inBraces _ hw]
      · exact (hwords'.holds ih' hbody).mono fun w hw => by simp [subset_inBraces _ hw]
  | whileLoop hcond _ ih =>
    rw [Node.skips_iff] at hn
    have hbody := by simpa [Node.children, hcond.not_skips, Node.skips_block] using hn
    cases hws with
    | whileLoop _ hwords => exact (hwords.holds ih hbody).mono fun w hw => by simp [subset_inBraces _ hw]
  | forLoop _ _ hcond _ _ _ _ ihinit ihstep ih =>
    rw [Node.skips_iff] at hn
    have hparts := by simpa [Node.children, hcond.not_skips, Node.skips_block] using hn
    cases hws with
    | forLoop hinit _ hstep hwords =>
      rcases hparts with hskips | hskips | hbody
      · exact (ihinit hskips hinit).mono fun w hw => by simp [hw]
      · exact (ihstep hskips hstep).mono fun w hw => by simp [hw]
      · exact (hwords.holds ih hbody).mono fun w hw => by simp [subset_inBraces _ hw]
  | skip =>
    rw [Node.skips_iff] at hn
    cases hws with
    | @skip _ k => exact ⟨k, by simp [show _ = text by simpa [Node.children] using hn]⟩

/-- A token of a program that was passed over has the text of one of its words. -/
theorem Program.Linear.holds {p : Program} (hp : p.IsFormed S C) (h : p.Linear ws) (hskips : p.node.Skips text) :
    Word.Holds text ws := by
  obtain ⟨gs, fs, hgs, hfs, rfl⟩ := h
  rw [Node.skips_iff] at hskips
  obtain ⟨c, hc, hskips⟩ := by simpa [Program.node] using hskips
  rcases List.mem_append.1 hc with hc | hc
  · refine (hgs.holds (fun n hn hskips _ => (hp.globals n hn).1.holds hskips) ⟨c, hc, hskips⟩).mono ?_
    exact fun w hw => by simp [hw]
  · refine (hfs.holds (fun n hn hskips _ hws => ?_) ⟨c, hc, hskips⟩).mono fun w hw => by simp [hw]
    obtain ⟨f, hf, rfl⟩ := List.mem_map.1 hn
    exact (hp.functions f hf).holds hskips hws

/-- What was passed over in bytes that are parsed is a read text. -/
theorem isRead_of_skips {file : Text} {bytes : List UInt8} {builtins : Option (List Text)} {p : Program}
    (h : parse file (Text.ofBytes bytes) builtins = .ok p) (hskips : p.node.Skips text) : text.IsRead := by
  obtain ⟨tokens, htokens, hlinear⟩ := linear_of_parse h
  obtain ⟨k, hk⟩ := hlinear.holds (formed_of_bytes h) hskips
  obtain ⟨t, ht, heq⟩ := List.mem_map.1 hk
  obtain ⟨-, rfl⟩ := Prod.mk.inj heq
  exact isRead_of_tokenize htokens ht

end Skips

end ScriptKit
