import ScriptKit.Proofs.Format.Lexeme
import ScriptKit.Proofs.Format.Settled
import ScriptKit.Proofs.Tree.Outline

/-!
# Outlines can be read back

An outline is written as one flat text: a kind, a label and the outlines of the children, between parentheses. Labels
hold names and literals of the program, so a reader has to know where a label ends. A label is either plain, and then it
holds no parenthesis and no quote and does not end with a space, or it is quoted, and then it ends with the first quote
that is not escaped. A child begins with a space and a parenthesis, which no label goes on with.

`Outline.Legible` says that the kinds and labels of an outline are of these forms.

**Theorem (`Outline.Legible.cancel`).** What follows two legible outlines does not blur them: if they are written alike
up to some point, they are equal, and so is what follows.

**Theorem (`Outline.Legible.write_injective`).** Legible outlines whose written forms have the same bytes are equal.

**Theorem (`IsPart.isLabel`).** The labels of well-formed nodes are legible: names, types, operators and numerals are
plain, and literals and what was passed over are quoted.
-/

namespace ScriptKit

/-! ## Labels -/

/-- Whether a glyph can stand in a label that is written as it is. -/
def Glyph.isPlain (g : Glyph) : Bool := g.isChar && g != .char '(' && g != .char ')' && g != .char '"'

/-- A label that is written as it is. -/
structure IsPlain (t : Text) : Prop where
  glyphs : ∀ g ∈ t, g.isPlain = true
  nonempty : t ≠ []
  noSpace : t.getLast? ≠ some (.char ' ')

/-- A label, written as it is or quoted. -/
inductive IsLabel : Text → Prop
  | plain {t : Text} : IsPlain t → IsLabel t
  | quoted {t : Text} : t.IsRead → IsLabel t.quoted

/-- What follows a label: the end of the outline or a child. -/
inductive Stops : Text → Prop
  | close (r : Text) : Stops (.char ')' :: r)
  | child (r : Text) : Stops (.char ' ' :: .char '(' :: r)

section Labels

variable {l l' r r' t : Text}

theorem Stops.plain (h : Stops r) :
    r.takeWhile Glyph.isPlain = [] ∨ r.takeWhile Glyph.isPlain = [.char ' '] := by
  cases h with
  | close => exact .inl rfl
  | child => exact .inr rfl

theorem IsPlain.cancel (h : IsPlain l) (h' : IsPlain l') (hr : Stops r) (hr' : Stops r')
    (heq : l ++ r = l' ++ r') : l = l' := by
  have htake := congrArg (List.takeWhile Glyph.isPlain) heq
  rw [List.takeWhile_append_of_pos h.glyphs, List.takeWhile_append_of_pos h'.glyphs] at htake
  -- One label could only be longer than the other by the space in front of a child.
  rcases hr.plain with hnil | hspace <;> rcases hr'.plain with hnil' | hspace'
  · rwa [hnil, hnil', List.append_nil, List.append_nil] at htake
  · rw [hnil, hspace', List.append_nil] at htake
    exact absurd (by rw [htake, List.getLast?_concat]) h.noSpace
  · rw [hspace, hnil', List.append_nil] at htake
    exact absurd (by rw [← htake, List.getLast?_concat]) h'.noSpace
  · rw [hspace, hspace'] at htake
    exact List.append_cancel_right htake

theorem IsPlain.ne_quote (h : IsPlain l) : l ++ r ≠ .char '"' :: t := by
  obtain ⟨g, rest, rfl⟩ := List.exists_cons_of_ne_nil h.nonempty
  intro heq
  obtain ⟨rfl, -⟩ := List.cons.inj heq
  cases h.glyphs _ (List.mem_cons_self ..)

/-- A label ends where it stops. -/
theorem IsLabel.cancel (h : IsLabel l) (h' : IsLabel l') (hr : Stops r) (hr' : Stops r')
    (heq : l ++ r = l' ++ r') : l = l' := by
  cases h with
  | plain h =>
    cases h' with
    | plain h' => exact h.cancel h' hr hr' heq
    | quoted ht' => exact absurd (heq.trans (Text.quoted_append _ r')) h.ne_quote
  | quoted ht =>
    cases h' with
    | plain h' => exact absurd (heq.symm.trans (Text.quoted_append _ r)) h'.ne_quote
    | quoted ht' => rw [Text.quoted_cancel ht ht' heq]

/-- A label does not begin a child. -/
theorem IsLabel.ne_paren (h : IsLabel l) : l ++ r ≠ .char '(' :: t := by
  cases h with
  | plain h =>
    obtain ⟨g, rest, rfl⟩ := List.exists_cons_of_ne_nil h.nonempty
    intro heq
    obtain ⟨rfl, -⟩ := List.cons.inj heq
    cases h.glyphs _ (List.mem_cons_self ..)
  | quoted =>
    rw [Text.quoted_append]
    intro heq
    cases (List.cons.inj heq).1

theorem IsLabel.ne_nil (h : IsLabel l) : l ≠ [] := by
  cases h with
  | plain h => exact h.nonempty
  | quoted => exact nofun

end Labels

/-! ## Outlines -/

namespace Outline

/-- Whether a glyph can stand in a kind. -/
def isKindPart (g : Glyph) : Bool := g.isPlain && g != .char ' '

/-- The kinds and labels of an outline have the forms that are written. -/
inductive Legible : Outline → Prop
  | mk {kind label : Text} {children : List Outline} :
      (∀ g ∈ kind, isKindPart g = true) → (label = [] ∨ IsLabel label) → (∀ o ∈ children, Legible o) →
      Legible ⟨kind, label, children⟩

variable {o o' : Outline} {label label' r r' : Text}

/-- A label after a space, unless it is empty. -/
def spaced (label : Text) : Text := if label.isEmpty then [] else .char ' ' :: label

theorem write_append (kind label : Text) (children : List Outline) (r : Text) :
    write ⟨kind, label, children⟩ ++ r =
      .char '(' :: (kind ++ (spaced label ++ (writeAll children ++ .char ')' :: r))) := by
  rw [write, Node.shapeOf, spaced]
  split <;> simp [Text.ofString, Text.ofChars]

theorem write_head (o : Outline) (r : Text) : ∃ rest, o.write ++ r = .char '(' :: rest := by
  obtain ⟨kind, label, children⟩ := o
  exact ⟨_, write_append kind label children r⟩

theorem writeAll_cons (o : Outline) (os : List Outline) (r : Text) :
    writeAll (o :: os) ++ r = .char ' ' :: (o.write ++ (writeAll os ++ r)) := by
  rw [writeAll]
  simp [Text.ofString, Text.ofChars]

theorem stops_writeAll (os : List Outline) (r : Text) : Stops (writeAll os ++ .char ')' :: r) := by
  cases os with
  | nil => exact .close r
  | cons o os =>
    obtain ⟨rest, hrest⟩ := write_head o (writeAll os ++ .char ')' :: r)
    rw [writeAll_cons, hrest]
    exact .child rest

theorem breaks_spaced (label : Text) (hr : Stops r) : Breaks isKindPart (spaced label ++ r) := by
  rw [spaced]
  split
  · cases hr <;> rintro g ⟨⟩ <;> rfl
  · rintro g ⟨⟩
    rfl

/-- A label may be missing, but it is not taken for a child. -/
theorem spaced_cancel (h : label = [] ∨ IsLabel label) (h' : label' = [] ∨ IsLabel label') (hr : Stops r)
    (hr' : Stops r') (heq : spaced label ++ r = spaced label' ++ r') : label = label' ∧ r = r' := by
  have hlabelled : ∀ {l : Text}, IsLabel l → spaced l = .char ' ' :: l := fun hl =>
    if_neg (by simpa using hl.ne_nil)
  have hmissing : ∀ {l r r' : Text}, IsLabel l → Stops r → r ≠ spaced l ++ r' := by
    intro l r r' hl hr heq
    rw [hlabelled hl] at heq
    cases hr with
    | close => cases (List.cons.inj heq).1
    | child => exact hl.ne_paren (List.cons.inj heq).2.symm
  rcases h with rfl | h <;> rcases h' with rfl | h'
  · exact ⟨rfl, heq⟩
  · exact absurd heq (hmissing h' hr)
  · exact absurd heq.symm (hmissing h hr')
  · rw [hlabelled h, hlabelled h'] at heq
    have hrest := (List.cons.inj heq).2
    obtain rfl := h.cancel h' hr hr' hrest
    exact ⟨rfl, List.append_cancel_left hrest⟩

/-- The children of an outline end with the parenthesis that closes it. -/
theorem cancel_writeAll {os os' : List Outline}
    (h : ∀ o ∈ os, ∀ {o' r r'}, Legible o' → o.write ++ r = o'.write ++ r' → o = o' ∧ r = r')
    (h' : ∀ o ∈ os', Legible o) (heq : writeAll os ++ .char ')' :: r = writeAll os' ++ .char ')' :: r') :
    os = os' ∧ r = r' := by
  induction os generalizing os' with
  | nil =>
    cases os' with
    | nil => exact ⟨rfl, (List.cons.inj heq).2⟩
    | cons o' os' =>
      rw [writeAll_cons] at heq
      cases (List.cons.inj heq).1
  | cons o os ih =>
    cases os' with
    | nil =>
      rw [writeAll_cons] at heq
      cases (List.cons.inj heq).1
    | cons o' os' =>
      obtain ⟨ho, hos⟩ := List.forall_mem_cons.1 h
      obtain ⟨ho', hos'⟩ := List.forall_mem_cons.1 h'
      rw [writeAll_cons, writeAll_cons] at heq
      obtain ⟨rfl, hrest⟩ := ho ho' (List.cons.inj heq).2
      obtain ⟨rfl, hr⟩ := ih hos hos' hrest
      exact ⟨rfl, hr⟩

/-- Outlines that are written alike up to some point are equal, and so is what follows. -/
theorem Legible.cancel (h : o.Legible) (h' : o'.Legible) (heq : o.write ++ r = o'.write ++ r') :
    o = o' ∧ r = r' := by
  induction h generalizing o' r r' with
  | @mk kind label children hkind hlabel hchildren ih =>
    obtain @⟨kind', label', children', hkind', hlabel', hchildren'⟩ := h'
    have hstops := stops_writeAll children r
    have hstops' := stops_writeAll children' r'
    rw [write_append, write_append] at heq
    have heads := (List.cons.inj heq).2
    have htake := (takeWhile_append_boundary hkind (breaks_spaced label hstops)).1
    have htake' := (takeWhile_append_boundary hkind' (breaks_spaced label' hstops')).1
    obtain rfl : kind = kind' := by rw [← htake, ← htake', heads]
    obtain ⟨rfl, hrest⟩ := spaced_cancel hlabel hlabel' hstops hstops' (List.append_cancel_left heads)
    obtain ⟨rfl, hr⟩ := cancel_writeAll (fun o ho => ih o ho) hchildren' hrest
    exact ⟨rfl, hr⟩

/-! ## Bytes -/

theorem isChar_quoteGlyph {mark : Char} {g g' : Glyph} (h : g' ∈ Text.quoteGlyph mark g) : g'.isChar = true := by
  have hchars : ∀ cs : List Char, g' ∈ Text.ofChars cs → g'.isChar = true := by
    intro cs h
    obtain ⟨c, -, rfl⟩ := List.mem_map.1 h
    rfl
  have hhex : ∀ {s : String} {w n : Nat}, g' ∈ (Text.ofString s ++ Text.ofHex w n) → g'.isChar = true := by
    intro s w n h
    rcases List.mem_append.1 h with h | h
    · exact hchars _ h
    · rcases List.mem_append.1 h with h | h
      · rw [List.eq_of_mem_replicate h]
        rfl
      · exact hchars _ h
  cases g with
  | stray b => exact hhex h
  | char c =>
    rw [Text.quoteGlyph] at h
    split at h
    · exact hchars ['\\', c] h
    · split at h
      · exact hchars [c] h
      · split at h
        · next l _ => exact hchars ['\\', l] h
        · split at h
          · exact hhex h
          · split at h <;> exact hhex h

theorem sealed_label (h : IsLabel label) : Sealed label := by
  cases h with
  | plain h =>
    refine sealed_of_isChar fun g hg => ?_
    have hplain := h.glyphs g hg
    simp only [Glyph.isPlain, Bool.and_eq_true] at hplain
    exact hplain.1.1.1
  | @quoted t =>
    refine ((sealed_ofString "\"").append (sealed_of_isChar fun g hg => ?_)).append (sealed_ofString "\"")
    obtain ⟨g', -, hg'⟩ := List.mem_flatMap.1 hg
    exact isChar_quoteGlyph hg'

/-- No stray byte is in a legible outline that was written, not even from a literal. -/
theorem Legible.sealed (h : o.Legible) : Sealed o.write := by
  induction h with
  | @mk kind label children hkind hlabel _ ih =>
    have hkind : Sealed kind := sealed_of_isChar fun g hg => by
      have hpart := hkind g hg
      simp only [isKindPart, Glyph.isPlain, Bool.and_eq_true] at hpart
      exact hpart.1.1.1.1
    have hchildren : ∀ os : List Outline, (∀ o ∈ os, Sealed o.write) → Sealed (writeAll os) := by
      intro os hos
      induction os with
      | nil => exact sealed_nil
      | cons o os ihall =>
        obtain ⟨ho, hos⟩ := List.forall_mem_cons.1 hos
        exact ((sealed_ofString " ").append ho).append (ihall hos)
    have hopen := (sealed_ofString "(").append hkind
    rw [write, Node.shapeOf]
    split
    · exact (hopen.append (hchildren children ih)).append (sealed_ofString ")")
    · next hne =>
      have hlabel : Sealed label := sealed_label (hlabel.resolve_left fun hnil => hne (by rw [hnil]; rfl))
      exact (((hopen.append (sealed_ofString " ")).append hlabel).append (hchildren children ih)).append
        (sealed_ofString ")")

/-- Legible outlines whose written forms have the same bytes are equal. -/
theorem Legible.write_injective (h : o.Legible) (h' : o'.Legible) (heq : o.write.toBytes = o'.write.toBytes) :
    o = o' := by
  have hsettled : o.write = Text.ofBytes o.write.toBytes := h.sealed.settled.symm
  have hwrite : o.write = o'.write := by rw [hsettled, heq, h'.sealed.settled]
  exact (h.cancel h' (congrArg (· ++ []) hwrite)).1

end Outline

/-! ## The labels of well-formed nodes -/

section Nodes

variable {S : Text → Prop} {C : Text → Callee → Prop} {n : Node} {name t u : Text} {g : Glyph} {p : Glyph → Bool}

open Outline (isKindPart)

theorem IsPlain.of_parts (h : ∀ g ∈ t, isKindPart g = true) (hne : t ≠ []) : IsPlain t where
  glyphs g hg := (Bool.and_eq_true_iff.1 (h g hg)).1
  nonempty := hne
  noSpace hlast := by cases h _ (List.mem_of_getLast? hlast)

theorem IsPlain.ofString (s : String) (h : (Text.ofString s).all isKindPart = true) (hne : Text.ofString s ≠ []) :
    IsPlain s := .of_parts (List.all_eq_true.1 h) hne

/-- A text without parentheses and quotes may stand in front of a plain label. -/
theorem IsPlain.append (ht : ∀ g ∈ t, g.isPlain = true) (hu : IsPlain u) : IsPlain (t ++ u) where
  glyphs := List.forall_mem_append.2 ⟨ht, hu.glyphs⟩
  nonempty := by simp [hu.nonempty]
  noSpace := by
    cases hlast : u.getLast? with
    | none => exact absurd (List.getLast?_eq_none_iff.1 hlast) hu.nonempty
    | some g =>
      have hspace := hu.noSpace
      rw [hlast] at hspace
      rw [List.getLast?_append, hlast]
      exact hspace

/-- What holds of no stray and of no character below the digit `0` holds of what kinds are made of only. -/
theorem isKindPart_of (hstray : ∀ b, p (.stray b) = false)
    (hlow : ∀ c : Char, c.toNat < 0x30 → p (.char c) = false) (h : p g = true) : isKindPart g = true := by
  cases g with
  | stray b => cases (hstray b).symm.trans h
  | char c =>
    have hc : c ∉ ['(', ')', '"', ' '] := by
      intro hc
      have hlt : c.toNat < 0x30 := by
        simp only [List.mem_cons, List.not_mem_nil, or_false] at hc
        rcases hc with rfl | rfl | rfl | rfl <;> decide
      cases (hlow c hlt).symm.trans h
    simpa [isKindPart, Glyph.isPlain, Glyph.isChar, and_assoc] using hc

theorem isKindPart_of_isNamePart (h : g.isNamePart = true) : isKindPart g = true :=
  isKindPart_of Glyph.isNamePart_stray (fun _ hc => Glyph.isNamePart_eq_false hc) h

theorem isKindPart_of_isNumeralPart (h : g.isNumeralPart = true) : isKindPart g = true := by
  refine isKindPart_of (fun _ => rfl) (fun c hc => ?_) h
  have hzero : ¬ '0' ≤ c := fun hle => absurd (show 0x30 ≤ c.toNat from hle) (by omega)
  simp [Glyph.isNumeralPart, hzero]

theorem isKindPart_kind (n : Node) : ∀ g ∈ n.kind, isKindPart g = true :=
  List.all_eq_true.1 (by cases n <;> rfl)

theorem IsName.plain (h : IsName name) : IsPlain name := by
  refine .of_parts (fun g hg => isKindPart_of_isNamePart (h.parts g hg)) ?_
  obtain ⟨g, rest, rfl, -⟩ := h.letter
  exact List.cons_ne_nil g rest

theorem IsVariable.plain {type : VarType} (h : IsVariable name type) : IsPlain (type.name ++ " " ++ name) := by
  refine .append (List.all_eq_true.1 ?_) h.name.plain
  cases type <;> rfl

theorem plain_symbol_sign {op : Sign} (hop : ∀ symbol, op ≠ .other symbol) : IsPlain op.symbol := by
  cases op with
  | other symbol => exact absurd rfl (hop symbol)
  | _ => exact .of_parts (List.all_eq_true.1 rfl) (by decide)

theorem plain_symbol_arith {op : Arith} (hop : ∀ symbol, op ≠ .other symbol) : IsPlain op.symbol := by
  cases op with
  | other symbol => exact absurd rfl (hop symbol)
  | _ => exact .of_parts (List.all_eq_true.1 rfl) (by decide)

theorem plain_symbol_relation {op : Relation} (hop : ∀ symbol, op ≠ .other symbol) : IsPlain op.symbol := by
  cases op with
  | other symbol => exact absurd rfl (hop symbol)
  | _ => exact .of_parts (List.all_eq_true.1 rfl) (by decide)

theorem isLabel_call {span : Span} {callee : Callee} {args : List Node} (h : IsName name) :
    IsLabel (Node.call span name callee args).label := by
  cases callee with
  | builtin =>
    have hmark : IsPlain (" builtin" : Text) := .append (t := " ") (by decide) (.ofString "builtin" rfl (by decide))
    exact .plain (.append h.plain.glyphs hmark)
  | function number => exact .plain h.plain

theorem IsExpr.isLabel (hS : ∀ v, S v → v.IsRead) (h : IsExpr S C n) : IsLabel n.label := by
  cases h with
  | @number span v hv =>
    obtain ⟨m, hm⟩ := Int.eq_ofNat_of_zero_le hv
    rw [Node.label, hm]
    have hdigits := fun g hg => isKindPart_of_isNumeralPart (Text.isNumeralPart_of_mem_ofNat m g hg)
    exact .plain (.of_parts hdigits (Text.ofNat_ne_nil m))
  | str hv => exact .quoted (hS _ hv)
  | @bool span b =>
    cases b with
    | false => exact .plain (.ofString "false" rfl (by decide))
    | true => exact .plain (.ofString "true" rfl (by decide))
  | use hname => exact .plain hname.plain
  | call hname => exact isLabel_call hname
  | sign hop => exact .plain (plain_symbol_sign hop)
  | arith hop => exact .plain (plain_symbol_arith hop)
  | compare hop => exact .plain (plain_symbol_relation hop)

/-- The label of a part of a program is legible if literals and what was passed over are read texts. -/
theorem IsPart.isLabel (hS : ∀ v, S v → v.IsRead) (hskip : ∀ span text, n = .skip span text → text.IsRead)
    (h : IsPart S C n) : n.label = [] ∨ IsLabel n.label := by
  cases h with
  | expr h => exact .inr (h.isLabel hS)
  | block => exact .inl rfl
  | stmt h =>
    cases h with
    | declare hvar | declareAs hvar => exact .inr (.plain hvar.plain)
    | assign hname | function hname => exact .inr (.plain hname.plain)
    | call hcall => exact .inr (hcall.isLabel hS)
    | when | choose | whileLoop | forLoop => exact .inl rfl
    | skip => exact .inr (.quoted (hskip _ _ rfl))

/-- The outline of a node whose parts are legible is legible. -/
theorem Node.legible_outline (h : ∀ m ∈ n.preorder, m.label = [] ∨ IsLabel m.label) : n.outline.Legible := by
  induction n using Node.induction_children with
  | step n ih =>
    rw [outline_eq]
    refine .mk (isKindPart_kind n) (h n (mem_preorder_self n)) fun o ho => ?_
    obtain ⟨c, hc, rfl⟩ := List.mem_map.1 ho
    exact ih c hc fun m hm => h m (mem_preorder_of_child hc hm)

end Nodes

end ScriptKit
