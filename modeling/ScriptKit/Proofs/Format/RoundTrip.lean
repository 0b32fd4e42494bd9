import ScriptKit.Proofs.Format.Reread
import ScriptKit.Proofs.Format.Settled
import ScriptKit.Proofs.Tree.Outline

/-!
# Formatting and parsing

The canonical text of a program is scanned into its words, and these are read as a program of the same core
again. Since the canonical text depends on the core alone, formatting twice is formatting once. In the
other direction the outline of a program, without what was passed over, fixes its canonical text.

**Theorem (`parse_format`).** The canonical text of a program that was parsed is parsed as a program of the
same core.

**Theorem (`format_round_trip`).** It has the same outline and the same canonical text, and two programs
have the same canonical text exactly if they have the same outline.
-/

namespace ScriptKit

open Parse Word

/-! ## Reading the canonical text -/

theorem headKind_functionWords (fs : List Function) :
    headKind (fs.flatMap fun f => f.node.stmtWords) = .func ∨
      headKind (fs.flatMap fun f => f.node.stmtWords) = .endOfFile := by
  cases fs with
  | nil => exact Or.inr rfl
  | cons f fs => exact Or.inl rfl

/-- The canonical text of a program is parsed as a program of the same core, in which nothing was passed
over. -/
theorem parse_format {file source : Text} {builtins : Option (List Text)} {p : Program}
    (h : parse file source builtins = .ok p) (file' : Text) :
    ∃ q, parse file' p.format = .ok q ∧ q.core = p.core ∧ q.withoutSkips = q := by
  obtain ⟨s₁, s₂, hglobals, hfunctions⟩ := reads_of_parse h
  have hs := Scanned.isSpelled_state file source
  have hformed : p.IsFormed (fun v => Glyph.quote ∉ v) (fun _ _ => True) :=
    formed_of_parse (I := fun _ => True) (fun _ h _ => h) (fun _ _ _ => trivial) trivial
      (fun _ _ _ _ _ => trivial) h
  obtain ⟨hwords, eof, heof⟩ := scan_format (fun _ h => h) hformed file'
  -- The tokens of the canonical text are read as the declarations and then as the functions.
  have hat : (scan file' p.format).state.At [] 0
      (Phrase.words (.globals p.globals) ++ (Phrase.words (.functions p.functions) ++ [])) :=
    ⟨by rw [List.append_nil]; exact hwords, rfl, rfl⟩
  obtain ⟨gs, t₁, hgs, hbare, ht₁⟩ := hglobals.rereads hs _ _
    (by rw [List.append_nil]; exact headKind_functionWords p.functions) hat
  obtain ⟨fs, t₂, hfs, hcore, hwhole, ht₂⟩ := hfunctions.rereads (hglobals.isSpelled hs) [] _
    (rfl : headKind [] = .endOfFile) ht₁
  have hctx : (scanContext file' p.format none).ending = .ok eof := heof
  obtain ⟨t', hprogram⟩ := program_of_reads hctx (scan_ending heof) hgs hfs
    (List.map_eq_nil_iff.1 ht₂.words)
  refine ⟨⟨⟨file', .first, eof.span.stop⟩, gs, fs⟩, ?_, ?_, ?_⟩
  · unfold parse parseScanned
    rw [show Parser.program ⟨file', (scan file' p.format).ending, none⟩
      ⟨(scan file' p.format).tokens, .first, [], 0⟩ = _ from hprogram]
    rfl
  · rw [Program.core, hbare, hcore]
    rfl
  · rw [Program.withoutSkips, hwhole]

/-! ## Outlines of programs -/

/-- The outline of a program. -/
def Program.outline (p : Program) : Outline := p.node.outline

theorem Program.node_withoutSkips_bare (p : Program) : p.withoutSkips.node.bare = p.core.node := by
  simp [Program.withoutSkips, Program.node, Program.core, Node.bare, Node.bareAll_eq_map,
    Function.node_core, Function.node_withoutSkips, Node.core]

theorem Program.outline_of_core {p q : Program} (h : q.core = p.core) :
    q.withoutSkips.outline = p.withoutSkips.outline := by
  rw [outline, outline, ← Node.outline_bare, ← Node.outline_bare p.withoutSkips.node,
    node_withoutSkips_bare, node_withoutSkips_bare, h]

theorem Program.shape_of_outline {p q : Program} (h : q.outline = p.outline) : q.shape = p.shape := by
  rw [shape, shape, Node.shape_eq_write, Node.shape_eq_write, show q.node.outline = p.node.outline from h]

/-- Whether an outline is that of a function. -/
def Outline.isFunction : Outline → Bool
  | ⟨kind, _, _⟩ => kind == ("Function" : Text)

theorem append_inj_of_forall {α : Type} {p : α → Bool} {l₁ l₂ l₁' l₂' : List α}
    (h₁ : ∀ a ∈ l₁, p a = false) (h₁' : ∀ a ∈ l₁', p a = false) (h₂ : ∀ a ∈ l₂, p a = true)
    (h₂' : ∀ a ∈ l₂', p a = true) (h : l₁ ++ l₂ = l₁' ++ l₂') : l₁ = l₁' ∧ l₂ = l₂' := by
  have hfilter : l₂ = l₂' := by
    have hnil : ∀ {l : List α}, (∀ a ∈ l, p a = false) → l.filter p = [] := fun hl =>
      List.filter_eq_nil_iff.2 fun a ha => by simp [hl a ha]
    have hp := congrArg (List.filter p) h
    rwa [List.filter_append, List.filter_append, hnil h₁, hnil h₁', List.filter_eq_self.2 h₂,
      List.filter_eq_self.2 h₂'] at hp
  subst hfilter
  exact ⟨List.append_cancel_right h, rfl⟩

theorem formatFunctions_eq (follows : Bool) {fs fs' : List Function}
    (h : fs.map (fun f => f.node.formatStmt 0) = fs'.map fun f => f.node.formatStmt 0) :
    Program.formatFunctions follows fs = Program.formatFunctions follows fs' := by
  induction fs generalizing fs' follows with
  | nil =>
    rw [List.map_nil, eq_comm, List.map_eq_nil_iff] at h
    rw [h]
  | cons f fs ih =>
    cases fs' with
    | nil => cases h
    | cons f' fs' =>
      obtain ⟨hf, hrest⟩ := List.cons.inj h
      have hline : f.node.formatStmt 0 = f'.node.formatStmt 0 := hf
      rw [Program.formatFunctions, Program.formatFunctions, hline, ih true hrest]

section Fixed

variable {S : Text → Prop} {C : Text → Callee → Prop}

/-- The outline of a program tells its declarations from its functions. -/
theorem Program.IsFormed.outline_inj {p p' : Program} (h : p.IsFormed S C) (h' : p'.IsFormed S C)
    (heq : p.outline = p'.outline) :
    p.globals.map Node.outline = p'.globals.map Node.outline ∧
      (p.functions.map Function.node).map Node.outline =
        (p'.functions.map Function.node).map Node.outline := by
  have hchildren := (Node.outline_inj heq).2.2
  simp only [Program.node, Node.children, List.map_append] at hchildren
  have hglobals : ∀ {p : Program}, p.IsFormed S C →
      ∀ o ∈ p.globals.map Node.outline, o.isFunction = false := by
    intro p h o ho
    obtain ⟨n, hn, rfl⟩ := List.mem_map.1 ho
    obtain ⟨hstmt, hdecl⟩ := h.globals n hn
    rw [Node.outline_eq]
    cases hstmt <;> first | rfl | cases hdecl
  have hfunctions : ∀ {p : Program}, ∀ o ∈ (p.functions.map Function.node).map Node.outline,
      o.isFunction = true := by
    intro p o ho
    obtain ⟨n, hn, rfl⟩ := List.mem_map.1 ho
    obtain ⟨f, -, rfl⟩ := List.mem_map.1 hn
    rw [Node.outline_eq]
    rfl
  exact append_inj_of_forall (hglobals h) (hglobals h') hfunctions hfunctions hchildren

/-- Well-formed programs with the same outline have the same canonical text. -/
theorem format_of_outline {p p' : Program} (hS : ∀ v, S v → v.Settled) (h : p.IsFormed S C)
    (h' : p'.IsFormed S C) (heq : p.outline = p'.outline) : p.format = p'.format := by
  obtain ⟨hglobals, hfunctions⟩ := h.outline_inj h' heq
  have hempty : p.globals.isEmpty = p'.globals.isEmpty := by
    have hlength := congrArg List.isEmpty hglobals
    rwa [List.isEmpty_map, List.isEmpty_map] at hlength
  have hglobals' := map_eq_of_map_eq
    (fun n hn n' hn' heq => (h.globals n hn).1.formatStmt_eq hS (h'.globals n' hn').1 heq 0) hglobals
  rw [List.map_map, List.map_map] at hfunctions
  have hfunctions' := map_eq_of_map_eq
    (fun f hf f' hf' heq => (h.functions f hf).formatStmt_eq hS (h'.functions f' hf') heq 0) hfunctions
  rw [Program.format, Program.format, hglobals', hempty, formatFunctions_eq _ hfunctions']

end Fixed

/-! ## Programs that were parsed -/

theorem Quoted.settled {source v : Text} (h : Quoted source v) (hsource : source.Settled) :
    v.Settled := by
  obtain ⟨before, after, rfl⟩ := h
  rw [List.append_assoc, List.cons_append] at hsource
  exact hsource.suffix.tail.front

/-- A program that was parsed from bytes is well-formed, with settled literals that hold no quote. -/
theorem formed_of_bytes {file : Text} {bytes : List UInt8} {builtins : Option (List Text)} {p : Program}
    (h : parse file (Text.ofBytes bytes) builtins = .ok p) :
    p.IsFormed (fun v => Glyph.quote ∉ v ∧ v.Settled) (fun _ _ => True) :=
  formed_of_parse (I := fun _ => True) (fun _ hv hq => ⟨hv, hq.settled (Text.settled_ofBytes bytes)⟩)
    (fun _ _ _ => trivial) trivial (fun _ _ _ _ _ => trivial) h

/-- The bytes of the canonical text of a program are parsed as a program with the same outline, apart from
what was passed over, and the same canonical text. Two programs have the same canonical text exactly if
they have the same outline, apart from what was passed over. -/
theorem format_round_trip {file : Text} {bytes : List UInt8} {p : Program}
    (h : parse file (Text.ofBytes bytes) = .ok p) :
    (∀ file', ∃ q, parse file' (Text.ofBytes p.format.toBytes) = .ok q ∧
      q.outline = p.withoutSkips.outline ∧ q.shape = p.withoutSkips.shape ∧ q.format = p.format) ∧
    ∀ file' bytes' p', parse file' (Text.ofBytes bytes') = .ok p' →
      (p.format.toBytes = p'.format.toBytes ↔ p.withoutSkips.outline = p'.withoutSkips.outline) := by
  -- A program and its canonical text, read again.
  have hagain : ∀ {file bytes p}, parse file (Text.ofBytes bytes) = .ok p → ∀ file',
      ∃ q, parse file' (Text.ofBytes p.format.toBytes) = .ok q ∧ q.outline = p.withoutSkips.outline ∧
        q.format = p.format := by
    intro file bytes p h file'
    obtain ⟨q, hq, hcore, hwhole⟩ := parse_format h file'
    have hsettled : p.format.Settled := settled_format (fun _ hv => hv.2) (formed_of_bytes h)
    refine ⟨q, by rw [hsettled]; exact hq, ?_, ?_⟩
    · rw [← hwhole]
      exact Program.outline_of_core hcore
    · rw [← q.format_core, hcore, p.format_core]
  refine ⟨fun file' => ?_, fun file' bytes' p' h' => ⟨fun heq => ?_, fun heq => ?_⟩⟩
  · obtain ⟨q, hq, houtline, hformat⟩ := hagain h file'
    exact ⟨q, hq, houtline, Program.shape_of_outline houtline, hformat⟩
  · obtain ⟨q, hq, houtline, -⟩ := hagain h file
    obtain ⟨q', hq', houtline', -⟩ := hagain h' file
    rw [heq, hq'] at hq
    cases hq
    rw [← houtline, houtline']
  · obtain ⟨q, hq, houtline, hformat⟩ := hagain h file
    obtain ⟨q', hq', houtline', hformat'⟩ := hagain h' file
    have hsame := format_of_outline (fun _ hv => hv.2) (formed_of_bytes hq) (formed_of_bytes hq')
      (houtline.trans (heq.trans houtline'.symm))
    rw [← hformat, ← hformat', hsame]

/-- A program with something that is passed over, and its canonical text. -/
theorem format_round_trip_skip : ∃ p, parse "a" (Text.ofBytes (Text.toBytes
      "int a=1 func Main()\x7b ; a=(a+2)*3 ; \x7d")) = .ok p ∧
    ∃ q, parse "b" (Text.ofBytes p.format.toBytes) = .ok q ∧ q.outline = p.withoutSkips.outline ∧
      q.format = p.format := by
  have hok : (parse "a" (Text.ofBytes (Text.toBytes
      "int a=1 func Main()\x7b ; a=(a+2)*3 ; \x7d"))).toOption.isSome = true := by decide +kernel
  cases hparse : parse "a" (Text.ofBytes (Text.toBytes
      "int a=1 func Main()\x7b ; a=(a+2)*3 ; \x7d")) with
  | error e =>
    rw [hparse] at hok
    cases hok
  | ok p =>
    obtain ⟨q, hq, houtline, -, hformat⟩ := (format_round_trip hparse).1 "b"
    exact ⟨p, rfl, q, hq, houtline, hformat⟩

end ScriptKit
