import ScriptKit.Proofs.Format.Lexeme

/-!
# The canonical text is scanned into the canonical words

The canonical text is put together from three sorts of pieces. A piece `Prints` words if it is scanned into
them wherever a boundary follows: names, numbers and whole expressions do. It `Opens` with words if
they are scanned whatever follows, and it `Separates` if it is also a boundary for what stands in
front of it. These compose: a piece that prints becomes one that opens when something that separates
follows, and what opens can be put in front of anything.

**Theorem (`scan_format`).** The canonical text of a well-formed program is scanned into its words.
-/

namespace ScriptKit

open Word Cursor

/-! ## Pieces -/

/-- The text is scanned into the words where a boundary follows. -/
def Prints (x : Text) (ws : List Word) : Prop := ∀ t, Bounded t → Lexes (x ++ t) ws t

/-- The text is scanned into the words whatever follows. -/
def Opens (x : Text) (ws : List Word) : Prop :=
  ∀ t ws' rest, Lexes t ws' rest → Lexes (x ++ t) (ws ++ ws') rest

/-- The text is scanned into the words whatever follows, and ends any word in front of it. -/
structure Separates (x : Text) (ws : List Word) : Prop where
  opens : Opens x ws
  bounded : ∀ t, Bounded (x ++ t)

section Pieces

variable {x y : Text} {ws ws' : List Word} {w : Word}

theorem Opens.append (hx : Opens x ws) (hy : Opens y ws') : Opens (x ++ y) (ws ++ ws') := by
  intro t ws'' rest h
  rw [List.append_assoc, List.append_assoc]
  exact hx _ _ _ (hy _ _ _ h)

theorem Opens.prints (hx : Opens x ws) (hy : Prints y ws') : Prints (x ++ y) (ws ++ ws') := by
  intro t ht
  rw [List.append_assoc]
  exact hx _ _ _ (hy t ht)

theorem Prints.opens (hx : Prints x ws) (hy : Separates y ws') : Opens (x ++ y) (ws ++ ws') := by
  intro t ws'' rest h
  rw [List.append_assoc, List.append_assoc]
  exact (hx _ (hy.bounded t)).append (hy.opens _ _ _ h)

theorem Prints.of_lexeme (h : ∀ t, Bounded t → Lexeme (x ++ t) w t) : Prints x [w] :=
  fun t ht => .word (h t ht) (.done t)

theorem Separates.of_boundary {g : Glyph} (hg : g.isBoundary = true) (h : Opens (g :: x) ws) :
    Separates (g :: x) ws :=
  ⟨h, fun t => bounded_cons (x ++ t) hg⟩

theorem prints_nil : Prints [] [] := fun t _ => .done t

theorem opens_blank {g : Glyph} (hg : g.isBlank = true) : Opens [g] [] := fun _ _ _ h => .blank hg h

theorem opens_single {ch : Char} {k : Token.Kind} (h : single? ch = some k) : Opens [.char ch] [of k] :=
  fun _ _ _ ht => .word (lexeme_single _ h) ht

theorem separates_blank : Separates " " [] := .of_boundary rfl (opens_blank rfl)

theorem separates_newline : Separates "\n" [] := .of_boundary rfl (opens_blank rfl)

theorem separates_rightParen : Separates ")" [of .rightParen] := .of_boundary rfl (opens_single rfl)

/-- A word of letters opens with the blank behind it. -/
theorem opens_keyword {v : Text} {k : Token.Kind} (h : Token.Kind.ofWord? v = some k) :
    Opens (v ++ " ") [of k] :=
  (Prints.of_lexeme fun _ ht => lexeme_keyword h ht.breaks_name).opens separates_blank

theorem opens_indent (level : Nat) : Opens (Node.indent level) [] := by
  have hblanks : ∀ n, Opens (Text.repeated n ' ') [] := by
    intro n
    induction n with
    | zero => exact fun _ _ _ h => h
    | succ n ih => exact (opens_blank (g := .char ' ') rfl).append ih
  exact hblanks _

theorem Prints.parens (wrap : Bool) (h : Prints x ws) :
    Prints (Node.parens wrap x) (wrapped wrap ws) := by
  cases wrap with
  | false => exact h
  | true =>
    have hopen : Opens "(" [of .leftParen] := opens_single rfl
    have hclose := ((hopen.prints h).opens separates_rightParen).prints prints_nil
    simpa [Node.parens] using hclose

/-- An operator stands between blanks. -/
theorem Prints.operation {symbol : Text} (hx : Prints x ws)
    (hop : ∀ t, Lexeme (symbol ++ .char ' ' :: t) w (.char ' ' :: t)) (hy : Prints y ws') :
    Prints (x ++ " " ++ symbol ++ " " ++ y) (ws ++ w :: ws') := by
  have hsymbol : Opens (symbol ++ " ") [w] := by
    intro t ws'' rest h
    rw [List.append_assoc]
    exact .word (hop t) (.blank rfl h)
  have hprints := ((hx.opens separates_blank).append hsymbol).prints hy
  simpa using hprints

/-- Pieces between commas. -/
theorem prints_commas {α : Type} {f : α → Text} {words : α → List Word} {l : List α}
    (h : ∀ a ∈ l, Prints (f a) (words a)) :
    Prints (Text.join ", " (l.map f)) (commas (l.map words)) := by
  have hcomma : Separates ", " [of .comma] :=
    .of_boundary rfl (Opens.append (x := [.char ',']) (opens_single rfl) (opens_blank (g := .char ' ') rfl))
  induction l with
  | nil => exact prints_nil
  | cons a l ih =>
    have ha := h a (List.mem_cons_self ..)
    cases l with
    | nil => exact ha
    | cons b l =>
      have hrest := ih fun c hc => h c (List.mem_cons_of_mem _ hc)
      have hprints := (ha.opens hcomma).prints hrest
      simpa [Text.join, commas] using hprints

/-- One more line in front of others. -/
theorem Prints.line {xs : List Text} (hx : Prints x ws) (hxs : Prints (Text.join "\n" xs) ws') :
    Prints (Text.join "\n" (x :: xs)) (ws ++ ws') := by
  cases xs with
  | nil => exact fun t ht => (hx t ht).append (hxs t ht)
  | cons y ys =>
    have hprints := (hx.opens separates_newline).prints hxs
    simpa [Text.join] using hprints

/-- Lines in braces. -/
theorem Prints.braced {xs : List Text} (level : Nat) (h : Prints (Text.join "\n" xs) ws) :
    Prints (Node.braced level xs) (inBraces ws) := by
  have hclose : Separates "\x7d" [of .rightBrace] := .of_boundary rfl (opens_single rfl)
  cases xs with
  | nil =>
    have hopen : Opens "\x7b" [of .leftBrace] := opens_single rfl
    have hprints := ((hopen.prints h).opens hclose).prints prints_nil
    rw [List.append_nil, List.append_nil] at hprints
    exact hprints
  | cons y ys =>
    have hopen : Opens "\x7b\n" [of .leftBrace] :=
      Opens.append (x := [.char '\x7b']) (opens_single rfl) (opens_blank (g := .char '\n') rfl)
    have hinner := ((hopen.prints h).opens separates_newline).append (opens_indent level)
    have hprints := (hinner.append hclose.opens).prints prints_nil
    simpa [Node.braced, inBraces] using hprints

end Pieces

/-! ## Expressions -/

theorem Arith.lexeme {op : Arith} (h : ∀ symbol, op ≠ .other symbol) (t : Text) :
    Lexeme (op.symbol ++ .char ' ' :: t) op.word (.char ' ' :: t) := by
  cases op with
  | add | sub | mul => exact lexeme_single _ rfl
  | div => exact lexeme_slash (List.cons_ne_nil _ _) ((bounded_cons t rfl).head_ne rfl)
  | other symbol => exact absurd rfl (h symbol)

theorem Relation.lexeme {op : Relation} (h : ∀ symbol, op ≠ .other symbol) (t : Text) :
    Lexeme (op.symbol ++ .char ' ' :: t) op.word (.char ' ' :: t) := by
  cases op with
  | eq | ne | ge | le => exact lexeme_double _ rfl
  | gt | lt => exact lexeme_lone rfl rfl ((bounded_cons t rfl).head_ne rfl)
  | other symbol => exact absurd rfl (h symbol)

theorem Sign.opens {op : Sign} (h : ∀ symbol, op ≠ .other symbol) : Opens op.symbol [op.word] := by
  cases op with
  | plus | minus => exact opens_single rfl
  | other symbol => exact absurd rfl (h symbol)

namespace Node

theorem argWords_eq_map (ns : List Node) : argWords ns = ns.map exprWords := by
  induction ns with
  | nil => rfl
  | cons n ns ih => rw [argWords, ih, List.map_cons]

end Node

section Trees

variable {S : Text → Prop} {C : Text → Callee → Prop} {n : Node}

theorem prints_number {v : Int32} (h : 0 ≤ v.toInt) :
    Prints (Text.ofInt v.toInt) [(.number, Text.ofInt v.toInt)] := by
  obtain ⟨m, hm⟩ := Int.eq_ofNat_of_zero_le h
  rw [hm]
  exact Prints.of_lexeme fun t ht =>
    lexeme_number (Text.ofNat_ne_nil m) (Text.isNumeralPart_of_mem_ofNat m) ht.breaks_number

theorem prints_name {name : Text} (h : IsName name) : Prints name [(.name, name)] :=
  Prints.of_lexeme fun _ ht => lexeme_name h ht.breaks_name (ht.head_ne rfl)

theorem prints_call {name : Text} {args : List Node} (hname : IsName name)
    (h : ∀ a ∈ args, Prints a.formatExpr a.exprWords) :
    Prints (name ++ "(" ++ Text.join ", " (Node.formatArgs args) ++ ")")
      ((.call, name) :: of .leftParen :: (commas (Node.argWords args) ++ [of .rightParen])) := by
  have hopen : Opens (name ++ "(") [(.call, name), of .leftParen] := by
    intro t ws rest ht
    rw [List.append_assoc]
    exact .word (lexeme_call t hname) (.word (lexeme_single t rfl) ht)
  rw [Node.formatArgs_eq_map, Node.argWords_eq_map]
  have hprints := ((hopen.prints (prints_commas h)).opens separates_rightParen).prints prints_nil
  simpa using hprints

/-- Expressions are scanned into their words. -/
theorem IsExpr.prints (hS : ∀ v, S v → Glyph.quote ∉ v) (h : IsExpr S C n) :
    Prints n.formatExpr n.exprWords := by
  induction h with
  | number hv => exact prints_number hv
  | @str span v hv =>
    refine Prints.of_lexeme fun t _ => ?_
    have hlexeme := lexeme_string t (hS v hv)
    simpa [Node.formatExpr, Text.ofString, Text.ofChars] using hlexeme
  | @bool span b => exact Prints.of_lexeme fun t ht => lexeme_bool (b := b) rfl ht
  | use hname => exact prints_name hname
  | call hname _ _ ih => exact prints_call hname ih
  | sign hop _ ih => exact (Sign.opens hop).prints (ih.parens _)
  | @arith span left right op hop _ _ ihl ihr =>
    rw [Node.formatExpr, Node.exprWords]
    split
    · exact ihl.operation (Arith.lexeme hop) (ihr.parens _)
    · exact (ihl.parens _).operation (Arith.lexeme hop) (ihr.parens _)
  | compare hop _ _ ihl ihr => exact (ihl.parens _).operation (Relation.lexeme hop) (ihr.parens _)

/-! ## Statements -/

theorem VarType.opens {type : VarType} (h : type ≠ .unknown) : Opens (type.name ++ " ") [type.word] := by
  cases type with
  | unknown => exact absurd rfl h
  | _ => exact opens_keyword rfl

theorem prints_variable {name : Text} {type : VarType} (h : IsVariable name type) :
    Prints (type.name ++ " " ++ name) [type.word, (.name, name)] :=
  (VarType.opens h.type).prints (prints_name h.name)

/-- Values stand behind an equals sign. -/
theorem Prints.assigned {x y : Text} {ws ws' : List Word} (hx : Prints x ws) (hy : Prints y ws') :
    Prints (x ++ " = " ++ y) (ws ++ of .assign :: ws') := by
  have hequals : Separates " = " [of .assign] := by
    refine .of_boundary rfl fun t ws rest h => ?_
    exact .blank rfl (.word (lexeme_lone rfl rfl ((bounded_cons t rfl).head_ne rfl)) (.blank rfl h))
  have hprints := (hx.opens hequals).prints hy
  simpa using hprints

/-- A head in parentheses with a braced body behind it. -/
theorem Prints.headed {head inner body : Text} {ws ws' ws'' : List Word} (hhead : Opens head ws)
    (hinner : Prints inner ws') (hbody : Prints body (inBraces ws'')) :
    Prints (head ++ inner ++ ") " ++ body) (ws ++ (ws' ++ of .rightParen :: inBraces ws'')) := by
  have hclose : Separates ") " [of .rightParen] :=
    .of_boundary rfl (Opens.append (x := [.char ')']) (opens_single rfl) (opens_blank (g := .char ' ') rfl))
  have hprints := ((hhead.prints hinner).opens hclose).prints hbody
  simpa using hprints

/-! ## Blanks at the ends -/

/-- The text ends with something that is not blank. -/
def Tight (x : Text) : Prop := ∃ y g, x = y ++ [g] ∧ g.isBlank = false

theorem Tight.append {y : Text} (x : Text) (h : Tight y) : Tight (x ++ y) := by
  obtain ⟨z, g, rfl, hg⟩ := h
  exact ⟨x ++ z, g, by rw [List.append_assoc], hg⟩

theorem tight_singleton {g : Glyph} (hg : g.isBlank = false) : Tight [g] := ⟨[], g, rfl, hg⟩

theorem tight_parens {x : Text} (wrap : Bool) (h : Tight x) : Tight (Node.parens wrap x) := by
  cases wrap with
  | false => exact h
  | true => exact (tight_singleton (g := .char ')') rfl).append _

theorem tight_of_forall {x : Text} (hne : x ≠ []) (h : ∀ g ∈ x, g.isBlank = false) : Tight x :=
  ⟨x.dropLast, x.getLast hne, (List.dropLast_concat_getLast hne).symm, h _ (List.getLast_mem hne)⟩

theorem IsName.tight {v : Text} (h : IsName v) : Tight v := by
  obtain ⟨g, rest, rfl, -⟩ := h.letter
  exact tight_of_forall (List.cons_ne_nil _ _) fun g hg => Glyph.isBlank_eq_false (h.parts g hg)

theorem isBlank_of_isNumeralPart {g : Glyph} (h : g.isNumeralPart = true) : g.isBlank = false := by
  cases g with
  | stray b => rfl
  | char c =>
    simp only [Glyph.isNumeralPart, Bool.and_eq_true, decide_eq_true_eq] at h
    have hlo : 0x30 ≤ c.toNat := h.1
    have hhi : c.toNat ≤ 0x39 := h.2
    rw [Bool.eq_false_iff]
    simp only [Glyph.isBlank, Text.isBlankChar, ne_eq, Bool.or_eq_true, Bool.and_eq_true,
      decide_eq_true_eq, beq_iff_eq]
    omega

theorem IsExpr.tight (h : IsExpr S C n) : Tight n.formatExpr := by
  induction h with
  | @number span v hv =>
    obtain ⟨m, hm⟩ := Int.eq_ofNat_of_zero_le hv
    rw [Node.formatExpr, hm]
    exact tight_of_forall (Text.ofNat_ne_nil m) fun g hg =>
      isBlank_of_isNumeralPart (Text.isNumeralPart_of_mem_ofNat m g hg)
  | str => exact (tight_singleton (g := .char '"') rfl).append _
  | @bool span b =>
    cases b with
    | false => exact (tight_singleton (g := .char 'e') rfl).append "fals"
    | true => exact (tight_singleton (g := .char 'e') rfl).append "tru"
  | use hname => exact hname.tight
  | call => exact (tight_singleton (g := .char ')') rfl).append _
  | sign _ _ ih => exact (tight_parens _ ih).append _
  | arith _ _ _ _ ih =>
    rw [Node.formatExpr]
    split <;> exact (tight_parens _ ih).append _
  | compare _ _ _ _ ih => exact (tight_parens _ ih).append _

theorem trim_eq {g : Glyph} {x : Text} (hg : g.isBlank = false) (h : Tight (g :: x)) :
    Text.trim (g :: x) = g :: x := by
  obtain ⟨y, g', heq, hg'⟩ := h
  rw [Text.trim, Text.strip, List.dropWhile_cons_of_neg (by simp [hg]), Text.dropRightWhile, heq]
  rw [List.reverse_append, List.reverse_singleton, List.singleton_append,
    List.dropWhile_cons_of_neg (by simp [hg'])]
  simp

/-- What begins with a name and does not end with a blank has no blanks to trim. -/
theorem trim_name {name : Text} (rest : Text) (hname : IsName name) (h : Tight (name ++ rest)) :
    Text.trim (name ++ rest) = name ++ rest := by
  obtain ⟨g, v, rfl, -⟩ := hname.letter
  exact trim_eq (Glyph.isBlank_eq_false (hname.parts g (List.mem_cons_self ..))) h

theorem trim_type {type : VarType} (rest : Text) (htype : type ≠ .unknown)
    (h : Tight (type.name ++ rest)) : Text.trim (type.name ++ rest) = type.name ++ rest := by
  cases type with
  | unknown => exact absurd rfl htype
  | _ => exact trim_eq rfl h

/-- The first and the last part of a loop head have no blanks to trim. -/
theorem IsStmt.trim (h : IsStmt S C n) (hn : (n.isDeclaration || n.isAssignment) = true) :
    (n.formatStmt 0).trim = n.formatStmt 0 := by
  have hindent : Node.indent 0 = [] := rfl
  cases h with
  | @declare span name type hvar =>
    simp only [Node.formatStmt, hindent, List.nil_append, List.append_assoc]
    exact trim_type _ hvar.type ((hvar.name.tight.append _).append _)
  | @declareAs span name type value hvar hvalue =>
    simp only [Node.formatStmt, hindent, List.nil_append, List.append_assoc]
    exact trim_type _ hvar.type ((((hvalue.tight.append _).append _).append _).append _)
  | @assign span name value hname hvalue =>
    simp only [Node.formatStmt, hindent, List.nil_append, List.append_assoc]
    exact trim_name _ hname ((hvalue.tight.append _).append _)
  | _ => simp [Node.isDeclaration, Node.isAssignment] at hn

/-! ## Bodies and whole programs -/

/-- The statements of a body stand on lines of their own. -/
theorem prints_body {ns : List Node} (level : Nat)
    (h : ∀ n ∈ ns, Prints (n.formatStmt level) n.stmtWords) :
    Prints (Text.join "\n" (Node.formatBody level ns)) (Node.bodyWords ns) := by
  induction ns with
  | nil => exact prints_nil
  | cons n ns ih =>
    have hrest := ih fun m hm => h m (List.mem_cons_of_mem _ hm)
    rw [Node.formatBody_cons, Node.bodyWords_cons]
    split
    · exact hrest
    · exact (h n (List.mem_cons_self ..)).line hrest

theorem opens_head {x : Text} (level : Nat) (v : Text) {k : Token.Kind} (hx : x = v ++ " (")
    (h : Token.Kind.ofWord? v = some k) :
    Opens (Node.indent level ++ x) [of k, of .leftParen] := by
  have hparen : Opens "(" [of .leftParen] := opens_single rfl
  have hopen := (opens_keyword h).append hparen
  rw [List.append_assoc] at hopen
  exact (opens_indent level).append (hx ▸ hopen)

theorem prints_function {name : Text} {params : List Param} {body : Text} {ws : List Word} (level : Nat)
    (hname : IsName name) (hparams : ∀ p ∈ params, IsVariable p.name p.type)
    (hbody : Prints body (inBraces ws)) :
    Prints (Node.indent level ++ Node.header name params ++ body)
      (of .func :: (.call, name) :: of .leftParen ::
        (commas (params.map Node.paramWords) ++ of .rightParen :: inBraces ws)) := by
  have hopen : Opens (name ++ "(") [(.call, name), of .leftParen] := by
    intro t ws rest ht
    rw [List.append_assoc]
    exact .word (lexeme_call t hname) (.word (lexeme_single t rfl) ht)
  have hfunc : Opens "func " [of .func] := opens_keyword (v := "func") rfl
  have hinner : Prints (Text.join ", " (params.map fun p => p.type.name ++ " " ++ p.name))
      (commas (params.map Node.paramWords)) :=
    prints_commas fun p hp => prints_variable (hparams p hp)
  have hprints := Prints.headed (((opens_indent level).append hfunc).append hopen) hinner hbody
  simpa [Node.header] using hprints

/-- Statements are scanned into their words. -/
theorem IsStmt.prints (hS : ∀ v, S v → Glyph.quote ∉ v) (h : IsStmt S C n) (level : Nat) :
    Prints (n.formatStmt level) n.stmtWords := by
  induction h generalizing level with
  | declare hvar =>
    have hprints := (opens_indent level).prints (prints_variable hvar)
    simpa [Node.formatStmt, Node.stmtWords] using hprints
  | declareAs hvar hvalue =>
    have hprints := (opens_indent level).prints ((prints_variable hvar).assigned (hvalue.prints hS))
    simpa [Node.formatStmt, Node.stmtWords] using hprints
  | assign hname hvalue =>
    have hprints := (opens_indent level).prints
      ((prints_name hname).assigned (hvalue.prints hS))
    simpa [Node.formatStmt, Node.stmtWords] using hprints
  | call hcall => exact (opens_indent level).prints (hcall.prints hS)
  | function hname hparams _ ih =>
    exact prints_function level hname hparams ((prints_body _ fun n hn => ih n hn _).braced level)
  | when hcond _ ih =>
    exact Prints.headed (opens_head level "if" rfl rfl) (hcond.prints hS)
      ((prints_body _ fun n hn => ih n hn _).braced level)
  | choose hcond _ _ ihyes ihno =>
    have hyes := (prints_body (level + 1) fun n hn => ihyes n hn _).braced level
    have hno := (prints_body (level + 1) fun n hn => ihno n hn _).braced level
    have helse : Separates " else " [of .else] :=
      .of_boundary rfl (Opens.append (x := [.char ' ']) (opens_blank rfl) (opens_keyword (v := "else") rfl))
    have hfirst := Prints.headed (opens_head (x := "if (") level "if" rfl rfl) (hcond.prints hS) hyes
    have hprints := (hfirst.opens helse).prints hno
    simpa [Node.formatStmt, Node.stmtWords] using hprints
  | whileLoop hcond _ ih =>
    exact Prints.headed (opens_head level "while" rfl rfl) (hcond.prints hS)
      ((prints_body _ fun n hn => ih n hn _).braced level)
  | forLoop hinit hinit' hcond _ hstep hstep' _ ihinit ihstep ih =>
    have hsemicolon : Separates "; " [of .semicolon] :=
      .of_boundary rfl (Opens.append (x := [.char ';']) (opens_single rfl) (opens_blank (g := .char ' ') rfl))
    have hfirst := ((opens_head (x := "for (") level "for" rfl rfl).prints (ihinit 0)).opens hsemicolon
    have hsecond := (hfirst.prints (hcond.prints hS)).opens hsemicolon
    have hprints := Prints.headed hsecond (ihstep 0)
      ((prints_body (level + 1) fun n hn => ih n hn _).braced level)
    -- at level 0 there is no indentation to trim
    rw [Node.formatStmt, hinit.trim hinit', hstep.trim (by rw [hstep', Bool.or_true])]
    simpa [Node.stmtWords] using hprints
  | skip =>
    have hprints := (opens_indent level).prints prints_nil
    simpa [Node.formatStmt, Node.stmtWords, Node.formatExpr, Node.exprWords] using hprints

/-- Functions stand on lines of their own, with empty lines between them. -/
theorem prints_functions {fs : List Function} (follows : Bool)
    (h : ∀ f ∈ fs, Prints (f.node.formatStmt 0) f.node.stmtWords) :
    Prints (Text.join "\n" (Program.formatFunctions follows fs))
      (fs.flatMap fun f => f.node.stmtWords) := by
  induction fs generalizing follows with
  | nil => exact prints_nil
  | cons f fs ih =>
    have hrest := ih true fun g hg => h g (List.mem_cons_of_mem _ hg)
    have hlines := (h f (List.mem_cons_self ..)).line hrest
    cases follows with
    | false => exact hlines
    | true => exact prints_nil.line hlines

theorem prints_globals {ns : List Node} {xs : List Text} {ws : List Word}
    (h : ∀ n ∈ ns, Prints (n.formatStmt 0) n.stmtWords) (hxs : Prints (Text.join "\n" xs) ws) :
    Prints (Text.join "\n" (ns.map (Node.formatStmt 0) ++ xs)) (ns.flatMap Node.stmtWords ++ ws) := by
  induction ns with
  | nil => exact hxs
  | cons n ns ih =>
    have hlines := (h n (List.mem_cons_self ..)).line (ih fun m hm => h m (List.mem_cons_of_mem _ hm))
    rw [List.map_cons, List.cons_append, List.flatMap_cons, List.append_assoc]
    exact hlines

/-- The canonical text of a well-formed program is scanned into its words. -/
theorem scan_format {p : Program} (hS : ∀ v, S v → Glyph.quote ∉ v) (h : p.IsFormed S C) (file : Text) :
    (scan file p.format).tokens.map (fun t => (t.kind, t.value)) = p.words ∧
      ∃ eof, (scan file p.format).ending = .ok eof := by
  have hfunctions := prints_functions (!p.globals.isEmpty) fun f hf => (h.functions f hf).prints hS 0
  have hprints := prints_globals (fun n hn => (h.globals n hn).1.prints hS 0) hfunctions
  have hlexes : Lexes p.format p.words "\n" := hprints "\n" (bounded_cons [] rfl)
  exact scan_of_lexes file hlexes (by decide)

end Trees

end ScriptKit
