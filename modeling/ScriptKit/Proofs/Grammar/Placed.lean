import ScriptKit.Proofs.Tree.Formed
import ScriptKit.Proofs.Tree.Laid

/-!
# Where things are read

Tokens stand in a source one after the other, and so does what is read from them. A `Stretch s s' ns` is a
part of a source, between the states `s` and `s'` of the parser, on which the trees `ns` are read: they stand
in a row and are laid out, and the functions they declare are numbered and entered into the table that
resolves calls. A function is entered when its closing brace is taken, so the table lists functions in the
order in which they end, and a call finds those that end before it. Stretches that meet make a longer
stretch (`Stretch.append`), and a node with its children makes one of its own (`Stretch.box`).

**Theorem (`Reads.placed`).** What is read from tokens in order is a stretch.

**Theorem (`placed_of_parse`).** A parsed program is laid out in its source, and each of its calls was resolved
against the functions that end before it.
-/

namespace ScriptKit

namespace Parse

/-! ## Tokens in order -/

/-- Tokens that stand one after the other behind a position, none of them empty. -/
def TokensFrom : Pos → List Token → Prop
  | _, [] => True
  | a, t :: ts => a ≤ t.span.start ∧ t.span.start < t.span.stop ∧ TokensFrom t.span.stop ts

theorem tokensFrom_take (file : Text) (n : Nat) (c : Cursor) :
    TokensFrom c.pos (Scanned.take file n c).tokens := by
  induction n generalizing c with
  | zero => trivial
  | succ n ih =>
    unfold Scanned.take
    split
    · trivial
    · next t c' hnext =>
      split
      · trivial
      · next hne =>
        obtain ⟨trivia, c₁, -, -, hpos, hcovers⟩ := Cursor.next_covers hnext hne
        obtain ⟨lexeme, hlexeme, -, hpos'⟩ := hcovers.lexeme
        have hle : c.pos ≤ c₁.pos := hpos ▸ Pos.le_afterText c.pos trivia
        have hlt : c₁.pos < c'.pos := hpos' ▸ Pos.lt_afterText c₁.pos hlexeme
        refine ⟨?_, ?_, ?_⟩
        all_goals rw [hcovers.span]
        · exact hle
        · exact hlt
        · exact ih c'

/-- The tokens that are left stand behind the token taken last. -/
def State.Ordered (s : State) : Prop := TokensFrom s.prev s.tokens

section Takes

variable {k : Token.Kind} {t : Token} {s s' : State}

theorem Takes.prev (h : Takes k t s s') : s'.prev = t.span.stop := by
  rw [h.next]
  rfl

theorem Takes.tokensFrom (h : Takes k t s s') (hs : s.Ordered) :
    s.prev ≤ t.span.start ∧ t.span.start < s'.prev ∧ s'.Ordered := by
  unfold State.Ordered at hs ⊢
  rw [h.tokens] at hs
  rw [h.prev]
  exact hs

end Takes

/-! ## Stretches -/

/-- A function under its number, as it stands in the table that resolves calls. -/
def entry (e : Function × Nat) : Text × Nat := (e.1.name, e.2)

/-- What a call at `start` finds under its name: of the functions `new`, the last one to end first, those that
end before it, and then those of `table`. -/
def ResolvedAt (new : List (Function × Nat)) (table : List (Text × Nat)) (start : Pos) (name : Text)
    (callee : Callee) : Prop :=
  ∃ late early, new = late ++ early ∧ callee = calleeOf (early.map entry ++ table) name ∧
    (∀ e ∈ early, e.1.span.stop ≤ start) ∧ ∀ e ∈ late, start < e.1.span.stop

/-- The functions that trees declare, with their numbers, as they are completed between two states, the last
one first, and the calls of the trees resolved as they go. -/
structure Completes (s s' : State) (ns : List Node) (new : List (Function × Nat)) : Prop where
  table : s'.functions = new.map entry ++ s.functions
  numbered : new.Perm ((ns.flatMap Node.functions).zipIdx s.begun)
  descending : new.Pairwise fun e e' => e'.1.span.stop < e.1.span.stop
  calls : ∀ n ∈ ns, ∀ span name callee args, .call span name callee args ∈ n.preorder →
    ResolvedAt new s.functions span.start name callee

/-- Trees that are read between two states. -/
structure Stretch (s s' : State) (ns : List Node) : Prop where
  ordered : s'.Ordered
  row : Row s.prev ns s'.prev
  laid : ∀ n ∈ ns, n.Laid
  begun : s'.begun = s.begun + (ns.flatMap Node.functions).length
  completes : ∃ new, Completes s s' ns new

section Stretch

variable {s s₁ s' : State} {n : Node} {ns ms : List Node}

theorem Completes.mem {new : List (Function × Nat)} (h : Completes s s' ns new) {e : Function × Nat}
    (he : e ∈ new) : ∃ n ∈ ns, e.1.node ∈ n.preorder := by
  have he := h.numbered.mem_iff.1 he
  obtain ⟨n, hn, he⟩ := List.mem_flatMap.1 (List.fst_mem_of_mem_zipIdx he)
  exact ⟨n, hn, Node.mem_functions.1 he⟩

/-- The functions completed on a stretch end on it. -/
theorem Stretch.within (h : Stretch s s' ns) {new : List (Function × Nat)} (hnew : Completes s s' ns new)
    {e : Function × Nat} (he : e ∈ new) : s.prev < e.1.span.stop ∧ e.1.span.stop ≤ s'.prev := by
  obtain ⟨n, hn, he⟩ := hnew.mem he
  have hin := Node.Row.inside h.row h.laid hn he
  have hspan : e.1.node.span = e.1.span := rfl
  grind

theorem Stretch.nil (hs : s'.Ordered) (hprev : s.prev ≤ s'.prev) (hfunctions : s'.functions = s.functions)
    (hbegun : s'.begun = s.begun) : Stretch s s' [] where
  ordered := hs
  row := hprev
  laid := by simp
  begun := hbegun
  completes := ⟨[], hfunctions, .nil, .nil, by simp⟩

theorem Stretch.refl (hs : s.Ordered) : Stretch s s [] := .nil hs (Std.le_refl _) rfl rfl

theorem Takes.stretch {k : Token.Kind} {t : Token} (h : Takes k t s s') (hs : s.Ordered) :
    Stretch s s' [] := by
  obtain ⟨hstart, hstop, hs'⟩ := h.tokensFrom hs
  exact .nil hs' (by grind) h.functions h.begun

theorem State.stretch_pastComma (hs : s.Ordered) : Stretch s s.pastComma [] := by
  rcases s.pastComma_eq with h | ⟨t, h⟩
  · rw [h]
    exact .refl hs
  · exact h.stretch hs

theorem Stretch.append (h : Stretch s s₁ ns) (h' : Stretch s₁ s' ms) : Stretch s s' (ns ++ ms) := by
  obtain ⟨new, hnew⟩ := h.completes
  obtain ⟨new', hnew'⟩ := h'.completes
  -- the later part completes its functions behind those of the earlier, so its entries come first in the table
  refine ⟨h'.ordered, h.row.append h'.row, ?_, ?_, new' ++ new, ?_, ?_, ?_, ?_⟩
  · exact List.forall_mem_append.2 ⟨h.laid, h'.laid⟩
  · rw [h'.begun, h.begun, List.flatMap_append, List.length_append, Nat.add_assoc]
  · rw [hnew'.table, hnew.table, List.map_append, List.append_assoc]
  · rw [List.flatMap_append, List.zipIdx_append, ← h.begun]
    exact List.perm_append_comm.trans (hnew.numbered.append hnew'.numbered)
  · refine List.pairwise_append.2 ⟨hnew'.descending, hnew.descending, fun e he e' he' => ?_⟩
    have hlate := h'.within hnew' he
    have hearly := h.within hnew he'
    grind
  · intro n hn span name callee args hcall
    rcases List.mem_append.1 hn with hn | hn
    · obtain ⟨late, early, rfl, hcallee, hearly, hlate⟩ := hnew.calls n hn span name callee args hcall
      refine ⟨new' ++ late, early, by rw [List.append_assoc], hcallee, hearly, fun e he => ?_⟩
      rcases List.mem_append.1 he with he | he
      · have hin := Node.Row.inside h.row h.laid hn hcall
        have hend := h'.within hnew' he
        have hspan : (Node.call span name callee args).span = span := rfl
        grind
      · exact hlate e he
    · obtain ⟨late, early, rfl, hcallee, hearly, hlate⟩ := hnew'.calls n hn span name callee args hcall
      refine ⟨late, early ++ new, by rw [List.append_assoc], ?_, fun e he => ?_, hlate⟩
      · rw [hcallee, hnew.table, List.map_append, List.append_assoc]
      · rcases List.mem_append.1 he with he | he
        · exact hearly e he
        · have hin := Node.Row.inside h'.row h'.laid hn hcall
          have hend := h.within hnew he
          have hspan : (Node.call span name callee args).span = span := rfl
          grind

/-- A node whose children are read on a stretch, if it is no function and, where it is a call, it is resolved
against the table at hand. -/
theorem Stretch.box (h : Stretch s s' n.children) (hboxed : n.Boxed) (hstart : s.prev ≤ n.span.start)
    (hstop : n.span.stop ≤ s'.prev) (hfunction : n.function? = none)
    (hcall : ∀ span name callee args, n = .call span name callee args →
      callee = calleeOf s.functions name ∧ s'.functions = s.functions) : Stretch s s' [n] := by
  have hfunctions : [n].flatMap Node.functions = n.children.flatMap Node.functions := by
    rw [List.flatMap_singleton, Node.functions_eq, hfunction]
    rfl
  obtain ⟨new, hnew⟩ := h.completes
  refine ⟨h.ordered, ⟨hstart, hboxed.nonempty, hstop⟩, ?_, ?_, new, hnew.table, ?_, hnew.descending, ?_⟩
  · exact fun m hm => List.mem_singleton.1 hm ▸ Node.laid_iff.2 ⟨hboxed, h.laid⟩
  · rw [hfunctions, h.begun]
  · rw [hfunctions]
    exact hnew.numbered
  · intro m hm span name callee args hmem
    rw [List.mem_singleton.1 hm] at hmem
    rcases Node.mem_preorder.1 hmem with hn | ⟨c, hc, hmem⟩
    · obtain ⟨hcallee, htable⟩ := hcall span name callee args hn.symm
      have hnil : new.map entry = [] := by
        have htable' := hnew.table
        rwa [htable, List.self_eq_append_left] at htable'
      rw [List.map_eq_nil_iff] at hnil
      subst hnil
      exact ⟨[], [], rfl, hcallee, by simp, by simp⟩
    · exact hnew.calls c hc span name callee args hmem

/-- A function, whose children are read after it has begun and which is entered after them. -/
theorem Stretch.function {f : Function} (h : Stretch s₁ s' f.node.children) (hboxed : f.node.Boxed)
    (hstart : s.prev ≤ f.span.start) (hstop : f.span.stop = s'.prev)
    (hfunctions : s₁.functions = s.functions) (hbegun : s₁.begun = s.begun + 1) :
    Stretch s (s'.register f.name s.begun) [f.node] := by
  have hlaid : f.node.Laid := Node.laid_iff.2 ⟨hboxed, h.laid⟩
  have hdeclared : [f.node].flatMap Node.functions = f :: f.node.children.flatMap Node.functions := by
    rw [List.flatMap_singleton, Node.functions_eq]
    rfl
  -- the function is completed after those in its body, so its entry is the first of the table
  obtain ⟨new, hnew⟩ := h.completes
  have hspan : f.node.span = f.span := rfl
  refine ⟨h.ordered, ⟨hstart, hboxed.nonempty, Std.le_of_eq hstop⟩, ?_, ?_, (f, s.begun) :: new, ?_, ?_, ?_, ?_⟩
  · exact fun m hm => List.mem_singleton.1 hm ▸ hlaid
  · rw [hdeclared, List.length_cons]
    show s'.begun = _
    rw [h.begun, hbegun]
    omega
  · show _ :: s'.functions = _
    rw [hnew.table, hfunctions]
    rfl
  · rw [hdeclared, List.zipIdx_cons, ← hbegun]
    exact hnew.numbered.cons _
  · refine List.pairwise_cons.2 ⟨fun e he => ?_, hnew.descending⟩
    obtain ⟨c, hc, he⟩ := hnew.mem he
    exact hlaid.nested hc he
  · intro m hm span name callee args hmem
    rw [List.mem_singleton.1 hm] at hmem
    rcases Node.mem_preorder.1 hmem with hn | ⟨c, hc, hmem⟩
    · cases hn
    · obtain ⟨late, early, rfl, hcallee, hearly, hlate⟩ := hnew.calls c hc span name callee args hmem
      rw [hfunctions] at hcallee
      refine ⟨(f, s.begun) :: late, early, rfl, hcallee, hearly, List.forall_mem_cons.2 ⟨?_, hlate⟩⟩
      have hin := hlaid.inside (Node.mem_preorder_of_child hc hmem)
      have hspan' : (Node.call span name callee args).span = span := rfl
      grind

end Stretch

/-! ## What is read is a stretch -/

/-- A phrase is a stretch with its trees; a rest makes one together with what it continues. -/
def Phrase.Placed (s s' : State) : Phrase → Prop
  | .factor n | .term n | .expr n | .call n | .declaration n | .assignment n | .condition n
  | .loopStart n | .stmt _ n => Stretch s s' [n]
  | .termRest left n | .exprRest left n => ∀ s₀, Stretch s₀ s [left] → Stretch s₀ s' [n]
  | .args ns | .stmts _ ns | .globals ns => Stretch s s' ns
  | .params ps => Stretch s s' (ps.map Param.node)
  | .block _ braces ns => Stretch s s' [.block braces ns]
  | .function _ f => Stretch s s' [f.node]
  | .functions fs => Stretch s s' (fs.map Function.node)

section Boxes

variable {s s₁ s₂ s' : State} {k k' : Token.Kind} {t t' : Token} {n : Node}

/-- A node that is neither a function nor a block is boxed if its children stand inside it. -/
theorem boxed_of_row {a b : Pos} (hrow : Row a n.children b) (ha : n.span.start ≤ a)
    (hb : b ≤ n.span.stop) (hne : n.span.start < n.span.stop)
    (hfunction : n.function? = none) (hblock : ∀ braces body, n ≠ .block braces body) : n.Boxed where
  nonempty := hne
  row := hrow.mono ha hb
  function f hn := by
    rw [hn] at hfunction
    cases hfunction
  block braces body hn := absurd hn (hblock braces body)

theorem stretch_token (ht : Takes k t s s') (hs : s.Ordered) (hspan : n.span = t.span)
    (hchildren : n.children = []) (hfunction : n.function? = none)
    (hblock : ∀ braces body, n ≠ .block braces body)
    (hcall : ∀ span name callee args, n ≠ .call span name callee args) : Stretch s s' [n] := by
  obtain ⟨hstart, hstop, -⟩ := ht.tokensFrom hs
  have hprev := ht.prev
  have hne : n.span.start < n.span.stop := by grind
  refine Stretch.box (by rw [hchildren]; exact ht.stretch hs) ?_ (by grind) (by grind) hfunction
    fun span name callee args hn => absurd hn (hcall span name callee args)
  refine boxed_of_row ?_ (Std.le_refl _) (Std.le_refl _) hne hfunction hblock
  rw [hchildren]
  exact Std.le_of_lt hne

/-- A node that begins with a token and ends with what is read after it. -/
theorem stretch_opened (ht : Takes k t s s₁) (hs : s.Ordered) (h : Stretch s₁ s' n.children)
    (hstart : n.span.start = t.span.start) (hstop : n.span.stop = s'.prev)
    (hfunction : n.function? = none) (hblock : ∀ braces body, n ≠ .block braces body)
    (hcall : ∀ span name callee args, n = .call span name callee args →
      callee = calleeOf s.functions name ∧ s'.functions = s.functions) : Stretch s s' [n] := by
  obtain ⟨hle, hlt, -⟩ := ht.tokensFrom hs
  have hend := h.row.le
  refine ((ht.stretch hs).append h).box ?_ (by grind) (by grind) hfunction hcall
  exact boxed_of_row h.row (by grind) (by grind) (by grind) hfunction hblock

theorem stretch_operands {left right : Node} (hleft : Stretch s s₁ [left]) (ht : Takes k t s₁ s₂)
    (hright : Stretch s₂ s' [right]) (hchildren : n.children = [left, right])
    (hspan : n.span = left.span.through right.span) (hfunction : n.function? = none)
    (hblock : ∀ braces body, n ≠ .block braces body)
    (hcall : ∀ span name callee args, n ≠ .call span name callee args) : Stretch s s' [n] := by
  obtain ⟨hle, hlt, -⟩ := ht.tokensFrom hleft.ordered
  have hl := row_singleton.1 hleft.row
  have hr := row_singleton.1 hright.row
  have hstart : n.span.start = left.span.start := by rw [hspan]; rfl
  have hstop : n.span.stop = right.span.stop := by rw [hspan]; rfl
  have hboth : Stretch s s' [left, right] := (hleft.append (ht.stretch hleft.ordered)).append hright
  refine Stretch.box (by rwa [hchildren]) ?_ (by grind) (by grind) hfunction
    fun span name callee args hn => absurd hn (hcall span name callee args)
  have hrow : Row left.span.start n.children right.span.stop := by
    rw [hchildren]
    exact ⟨Std.le_refl _, hl.2.1, by grind, hr.2.1, Std.le_refl _⟩
  exact boxed_of_row hrow (by grind) (by grind) (by grind) hfunction hblock

/-- An operator and its operand, whose span may end before a parenthesis that was read after it. -/
theorem stretch_signed {op : Sign} (ht : Takes k t s s₁) (hs : s.Ordered) (hn : Stretch s₁ s' [n]) :
    Stretch s s' [.sign (t.span.through n.span) op n] := by
  obtain ⟨hle, hlt, -⟩ := ht.tokensFrom hs
  have hrow := row_singleton.1 hn.row
  have hstop : (t.span.through n.span).stop = n.span.stop := rfl
  have hstart : (t.span.through n.span).start = t.span.start := rfl
  refine ((ht.stretch hs).append hn).box ?_ hle (by exact hrow.2.2) rfl (by simp)
  have hinner : Row s₁.prev [n] n.span.stop := ⟨hrow.1, hrow.2.1, Std.le_refl _⟩
  refine boxed_of_row hinner ?_ (Std.le_refl _) ?_ rfl (by simp)
  · exact Std.le_of_lt hlt
  · show t.span.start < n.span.stop
    grind

theorem stretch_block {parent : Option Pos} {depth : Nat} {ns : List Node} (hl : Takes k t s s₁) (hs : s.Ordered)
    (hbody : Stretch s₁ s₂ ns) (hr : Takes k' t' s₂ s') :
    Stretch s s' [.block ⟨t.span.upTo t'.span.stop, parent, depth⟩ ns] := by
  obtain ⟨hle, hlt, -⟩ := hl.tokensFrom hs
  obtain ⟨hle', hlt', -⟩ := hr.tokensFrom hbody.ordered
  have hmiddle := hbody.row.le
  have hend : (t.span.upTo t'.span.stop).stop = s'.prev := hr.prev.symm
  have hall : Stretch s s' ns := by
    simpa using ((hl.stretch hs).append hbody).append (hr.stretch hbody.ordered)
  refine Stretch.box (n := .block ..) hall ?_ hle (Std.le_of_eq hend) rfl (by simp)
  refine ⟨?_, hbody.row.mono ?_ ?_, ?_, ?_⟩
  · show t.span.start < (t.span.upTo t'.span.stop).stop
    grind
  · exact Std.le_of_lt hlt
  · show s₂.prev ≤ (t.span.upTo t'.span.stop).stop
    grind
  · intro f hf
    cases hf
  · intro braces body hblock c hc
    cases hblock
    have hin := hbody.row.within hc
    show c.span.stop < (t.span.upTo t'.span.stop).stop
    grind

/-- A function that ends with its body. Its children are read after its name, where it has begun. -/
theorem stretch_function {name : Text} {ps : List Param} {braces : Braces} {body : List Node} (ht : Takes k t s s₁)
    (hs : s.Ordered) (hname : Takes k' t' s₁ s₂)
    (hall : Stretch s₂.begin s' (ps.map Param.node ++ [.block braces body])) (hstop : braces.span.stop = s'.prev) :
    Stretch s (s'.register name s.begun) [(Function.mk (t.span.upTo s'.prev) name ps braces body).node] := by
  obtain ⟨hle, hlt, hs₁⟩ := ht.tokensFrom hs
  obtain ⟨hle', hlt', -⟩ := hname.tokensFrom hs₁
  have hprev : s₂.begin.prev = s₂.prev := rfl
  have hend := hall.row.le
  refine Stretch.function (f := ⟨t.span.upTo s'.prev, name, ps, braces, body⟩) hall ?_ hle rfl ?_ ?_
  · refine ⟨?_, hall.row.mono ?_ (Std.le_refl _), ?_, ?_⟩
    · show t.span.start < s'.prev
      grind
    · show t.span.start ≤ s₂.prev
      grind
    · intro f hf
      cases Node.function?_eq_some.2 hf
      refine ⟨hstop, fun c hc => ?_⟩
      have hin := hall.row.within hc
      show t.span.start < c.span.start
      grind
    · intro braces body hf
      cases hf
  · exact hname.functions.trans ht.functions
  · exact congrArg (· + 1) (hname.begun.trans ht.begun)

end Boxes

/-- What is read from tokens in order is a stretch. -/
theorem Reads.placed {known : Option (List Text)} {φ : Phrase} {s s' : State} (h : Reads known φ s s')
    (hs : s.Ordered) : φ.Placed s s' := by
  induction h with
  | sign ht _ _ ih => exact stretch_signed ht hs (ih (ht.tokensFrom hs).2.2)
  | number ht | str ht | bool ht | use ht | skip ht => exact stretch_token ht hs rfl rfl rfl (by simp) (by simp)
  | paren ht _ ht' ih =>
    have hn := ih (ht.tokensFrom hs).2.2
    exact ((ht.stretch hs).append hn).append (ht'.stretch hn.ordered)
  | called _ ih | startDeclaration _ ih | startAssignment _ ih | stmtFunction _ ih | stmtDeclaration _ ih
  | stmtAssignment _ ih | stmtCall _ ih => exact ih hs
  | termStop | exprStop => exact fun _ hleft => hleft
  | times ht _ _ _ ih ih' | plus ht _ _ _ ih ih' =>
    -- the operation begins where its left operand does, before the state the rest is read from
    intro s₀ hleft
    have hright := ih (ht.tokensFrom hleft.ordered).2.2
    exact ih' hright.ordered s₀ (stretch_operands hleft ht hright rfl rfl rfl (by simp) (by simp))
  | compare ht _ _ ih =>
    intro s₀ hleft
    have hright := ih (ht.tokensFrom hleft.ordered).2.2
    exact stretch_operands hleft ht hright rfl rfl rfl (by simp) (by simp)
  | term _ _ ih ih' | expr _ _ ih ih' =>
    have hleft := ih hs
    exact ih' hleft.ordered _ hleft
  | argsNil | paramsNil | stmtsNil | globalsNil | functionsNil => exact .refl hs
  | argsCons _ _ _ ih ih' | paramsCons _ _ ih ih' =>
    have hn := ih hs
    have hcomma := State.stretch_pastComma hn.ordered
    exact (hn.append hcomma).append (ih' hcomma.ordered)
  | @call t l r args s s₁ s₂ s₃ s' ht hl hargs hr _ ih =>
    have hparen := hl.stretch (ht.tokensFrom hs).2.2
    have hinner := ih hparen.ordered
    have hall : Stretch s₁ s' args := by
      simpa using (hparen.append hinner).append (hr.stretch hinner.ordered)
    -- arguments hold no functions, so the callee is looked up in the table the call began with
    have htable : s'.functions = s.functions := by
      rw [hr.functions, hargs.functions_flat rfl, hl.functions, ht.functions]
    refine stretch_opened (n := .call ..) ht hs hall rfl hr.prev.symm rfl (by simp) ?_
    intro span name callee args' hn
    cases hn
    exact ⟨by rw [htable], htable⟩
  | declare ht _ hname _ =>
    have hinner := hname.stretch (ht.tokensFrom hs).2.2
    exact stretch_opened ht hs hinner rfl hname.prev.symm rfl (by simp) (by simp)
  | declareAs ht _ hname heq _ ih =>
    have hname' := hname.stretch (ht.tokensFrom hs).2.2
    have heq' := heq.stretch hname'.ordered
    exact stretch_opened ht hs ((hname'.append heq').append (ih heq'.ordered)) rfl rfl rfl (by simp) (by simp)
  | assign hname heq _ ih =>
    have heq' := heq.stretch (hname.tokensFrom hs).2.2
    exact stretch_opened hname hs (heq'.append (ih heq'.ordered)) rfl rfl rfl (by simp) (by simp)
  | condition hl _ hr ih =>
    have hn := ih (hl.tokensFrom hs).2.2
    exact ((hl.stretch hs).append hn).append (hr.stretch hn.ordered)
  | block hl _ hr ih => exact stretch_block hl hs (ih (hl.tokensFrom hs).2.2) hr
  | @function _ _ _ _ _ ps braces body _ _ s₂ _ _ _ s' ht hname _ hl _ hr hblock ih ih' =>
    have hparen := hl.stretch (s := s₂.begin) (hname.tokensFrom (ht.tokensFrom hs).2.2).2.2
    have hparams := ih hparen.ordered
    have hparen' := hr.stretch hparams.ordered
    have hall : Stretch s₂.begin s' (ps.map Param.node ++ [.block braces body]) := by
      simpa using ((hparen.append hparams).append hparen').append (ih' hparen'.ordered)
    have hstop : braces.span.stop = s'.prev := by
      cases hblock with
      | block _ _ hr' => exact hr'.prev.symm
    exact stretch_function ht hs hname hall hstop
  | when ht _ _ _ ih ih' | whileLoop ht _ _ ih ih' =>
    have hcond := ih (ht.tokensFrom hs).2.2
    exact stretch_opened ht hs (hcond.append (ih' hcond.ordered)) rfl rfl rfl (by simp) (by simp)
  | choose ht _ _ he _ ih ih' ih'' =>
    have hcond := ih (ht.tokensFrom hs).2.2
    have hyes := ih' hcond.ordered
    have helse := he.stretch hyes.ordered
    have hall := ((hcond.append hyes).append helse).append (ih'' helse.ordered)
    exact stretch_opened ht hs hall rfl rfl rfl (by simp) (by simp)
  | forLoop ht hl _ hc _ _ hc' _ hr _ ih ih' ih'' ihbody =>
    have hparen := hl.stretch (ht.tokensFrom hs).2.2
    have hinit := ih hparen.ordered
    have hsemi := hc.stretch hinit.ordered
    have hcond := ih' hsemi.ordered
    have hsemi' := hc'.stretch hcond.ordered
    have hstep := ih'' hsemi'.ordered
    have hparen' := hr.stretch hstep.ordered
    have hheader := ((hparen.append hinit).append (hsemi.append hcond)).append (hsemi'.append hstep)
    have hall := hheader.append (hparen'.append (ihbody hparen'.ordered))
    exact stretch_opened ht hs hall rfl rfl rfl (by simp) (by simp)
  | stmtsCons _ _ _ _ ih ih' | globalsCons _ _ ih ih' | functionsCons _ _ ih ih' =>
    have hn := ih hs
    exact hn.append (ih' hn.ordered)

end Parse

/-! ## Parsed programs -/

open Parse

/-- A program in its source. `ended` are its functions with their numbers, the last one to end first. -/
structure Program.Placed (p : Program) (ended : List (Function × Nat)) : Prop where
  row : ∃ stop, Row .first p.node.children stop
  laid : ∀ n ∈ p.node.children, n.Laid
  numbered : ended.Perm p.allFunctions.zipIdx
  descending : ended.Pairwise fun e e' => e'.1.span.stop < e.1.span.stop
  calls : ∀ span name callee args, .call span name callee args ∈ p.node.preorder →
    ResolvedAt ended [] span.start name callee

/-- A parsed program is laid out in its source, with its calls resolved against the functions that end before
them. -/
theorem placed_of_parse {file source : Text} {builtins : Option (List Text)} {p : Program}
    (h : parse file source builtins = .ok p) : ∃ ended, p.Placed ended := by
  obtain ⟨s₁, s₂, hglobals, hfunctions⟩ := reads_of_parse h
  have hstart : (scan file source).state.Ordered := tokensFrom_take file _ (.start source)
  have hfirst : Stretch _ s₁ p.globals := hglobals.placed hstart
  have hall : Stretch _ s₂ p.node.children := hfirst.append (hfunctions.placed hfirst.ordered)
  obtain ⟨ended, hended⟩ := hall.completes
  refine ⟨ended, ⟨s₂.prev, hall.row⟩, hall.laid, ?_, hended.descending, fun span name callee args hcall => ?_⟩
  · have hnumbered := hended.numbered
    have hall' : p.allFunctions = p.node.children.flatMap Node.functions := by
      show p.node.functions = _
      rw [Node.functions_eq]
      rfl
    rwa [hall']
  · rcases Node.mem_preorder.1 hcall with hn | ⟨n, hn, hcall⟩
    · cases hn
    · exact hended.calls n hn span name callee args hcall

/-! ## The functions a call can find -/

section Targets

variable {p : Program} {ended : List (Function × Nat)} {span : Span} {name : Text} {callee : Callee}
  {args : List Node} {k : Nat} {f : Function}

theorem Program.Placed.mem_ended (hp : p.Placed ended) : (f, k) ∈ ended ↔ p.function? k = some f := by
  rw [hp.numbered.mem_iff, List.mem_zipIdx_iff_getElem?]
  rfl

theorem Program.mem_preorder_of_function? (h : p.function? k = some f) : f.node ∈ p.node.preorder :=
  Node.mem_functions.1 (List.mem_of_getElem? h)

theorem Program.Placed.laid_below (hp : p.Placed ended) {n : Node} (hn : n ∈ p.node.preorder)
    (hne : n ≠ p.node) : n.Laid := by
  rcases Node.mem_preorder.1 hn with rfl | ⟨c, hc, hn⟩
  · exact absurd rfl hne
  · exact (hp.laid c hc).below hn

theorem Program.Placed.laid_function (hp : p.Placed ended) (h : f.node ∈ p.node.preorder) : f.node.Laid :=
  hp.laid_below h fun hf => by cases hf

theorem Program.Placed.stop_braces (hp : p.Placed ended) (h : f.node ∈ p.node.preorder) :
    f.braces.span.stop = f.span.stop :=
  ((hp.laid_function h _ (Node.mem_preorder_self _)).function f rfl).1

/-- A function that ends before a call was in the table when the call was resolved. -/
theorem ResolvedAt.mem_early {new late early : List (Function × Nat)} {start : Pos} {e : Function × Nat}
    (hnew : new = late ++ early) (hlate : ∀ e ∈ late, start < e.1.span.stop) (he : e ∈ new)
    (hend : e.1.span.stop ≤ start) : e ∈ early := by
  rw [hnew, List.mem_append] at he
  rcases he with he | he
  · have := hlate e he
    grind
  · exact he

/-- A call that is resolved to a function calls the last one of its name to end before it. -/
theorem Program.Placed.target (hp : p.Placed ended)
    (hcall : .call span name (.function k) args ∈ p.node.preorder) :
    ∃ f, p.function? k = some f ∧ f.name = name ∧ f.span.stop ≤ span.start ∧
      ∀ j g, p.function? j = some g → g.name = name → g.span.stop ≤ span.start →
        j = k ∨ g.span.stop < f.span.stop := by
  obtain ⟨late, early, hended, hcallee, hearly, hlate⟩ := hp.calls _ _ _ _ hcall
  rw [List.append_nil] at hcallee
  have hlookup : (early.map entry).lookup name = some k := by
    unfold calleeOf at hcallee
    split at hcallee
    · next hlookup => rw [hlookup, Callee.function.inj hcallee]
    · cases hcallee
  obtain ⟨l₁, l₂, hsplit, hfirst⟩ := List.lookup_eq_some_iff.1 hlookup
  obtain ⟨newer, rest, hearlier, hnewer, hrest⟩ := List.map_eq_append_iff.1 hsplit
  obtain ⟨⟨f, k'⟩, older, rfl, hentry, -⟩ := List.map_eq_cons_iff.1 hrest
  obtain ⟨rfl, rfl⟩ := Prod.mk.inj hentry
  subst hearlier
  have hmem : (f, k') ∈ newer ++ (f, k') :: older := by simp
  have hf : p.function? k' = some f := hp.mem_ended.1 (by rw [hended]; exact List.mem_append_right _ hmem)
  refine ⟨f, hf, rfl, hearly _ hmem, fun j g hg hname hend => ?_⟩
  have hin := ResolvedAt.mem_early hended hlate (hp.mem_ended.2 hg) hend
  have hdescending := hp.descending
  rw [hended] at hdescending
  have hdescending := (List.pairwise_append.1 (List.pairwise_append.1 hdescending).2.1).2.1
  rcases List.mem_append.1 hin with hin | hin
  · -- A newer function of that name would have been found first.
    have hmem' : entry (g, j) ∈ l₁ := hnewer ▸ List.mem_map_of_mem hin
    exact absurd hname.symm (by simpa [entry] using hfirst _ hmem')
  · rcases List.mem_cons.1 hin with heq | hin
    · exact Or.inl (Prod.mk.inj heq).2
    · exact Or.inr ((List.pairwise_cons.1 hdescending).1 _ hin)

/-- A call is resolved to no function exactly if none of its name ends before it. -/
theorem Program.Placed.untargeted (hp : p.Placed ended)
    (hcall : .call span name callee args ∈ p.node.preorder) :
    callee = .builtin ↔ ∀ j g, p.function? j = some g → g.name = name → ¬g.span.stop ≤ span.start := by
  constructor
  · rintro rfl j g hg hname hend
    obtain ⟨late, early, hended, hcallee, -, hlate⟩ := hp.calls _ _ _ _ hcall
    have hin := ResolvedAt.mem_early hended hlate (hp.mem_ended.2 hg) hend
    rw [List.append_nil] at hcallee
    unfold calleeOf at hcallee
    split at hcallee
    · cases hcallee
    · next hlookup =>
      have hnone := List.lookup_eq_none_iff.1 hlookup (entry (g, j)) (List.mem_map_of_mem hin)
      simp [entry, hname] at hnone
  · intro hnone
    cases callee with
    | builtin => rfl
    | function k =>
      obtain ⟨f, hf, hname, hend, -⟩ := hp.target hcall
      exact absurd hend (hnone k f hf hname)

/-- A call inside a function calls a function that ends before the one around it. -/
theorem Program.Placed.target_lt (hp : p.Placed ended) (hf : f.node ∈ p.node.preorder) {c : Node}
    (hc : c ∈ f.node.children) (hcall : .call span name (.function k) args ∈ c.preorder) :
    ∃ g, p.function? k = some g ∧ g.span.stop < f.span.stop := by
  have hbelow := Node.mem_preorder_trans (Node.mem_preorder_of_child hc hcall) hf
  obtain ⟨g, hg, -, hend, -⟩ := hp.target hbelow
  have hin := (hp.laid_function hf).inside (Node.mem_preorder_of_child hc hcall)
  have hspan : (Node.call span name (.function k) args).span = span := rfl
  have hspan' : f.node.span = f.span := rfl
  exact ⟨g, hg, by grind⟩

end Targets

end ScriptKit
