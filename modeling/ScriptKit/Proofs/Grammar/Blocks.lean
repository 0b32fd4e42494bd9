import ScriptKit.Proofs.Grammar.Spans
import ScriptKit.Tree.Dump

/-!
# The chain of blocks

Every block says where the block around it begins and how many blocks are around it. The parser takes this from the
place it hands on to the statements of a block, long before the block around it is complete, so the link is a position
and no tree. It is a link all the same: blocks begin one after the other, each of them behind the beginning of the block
around it, so that a position names one block at most, and the first position of the source names none.

`Node.Chained` says of a tree that its blocks carry on the chain from the place where the tree stands. It holds of
whatever is read there (`Reads.chained`). `Program.Encloses` finds the innermost block around a node by going down the
tree, and knows nothing of links.

**Theorem (`blocks_chained`).** In a parsed program the link of every block leads to the innermost block around it,
which is one level less deep.
-/

namespace ScriptKit

/-! ## Chains -/

/-- The place of what stands directly in a block. -/
def Braces.place (b : Braces) : Parser.Place := ⟨b.span.start, b.depth⟩

namespace Node

/-- The blocks of a tree that stands at a place carry on the chain of the blocks around it, and each of them begins
behind the beginning of the block around it. -/
inductive Chained : Parser.Place → Node → Prop
  | block {place : Parser.Place} {b : Braces} {body : List Node} :
      b.parent = some place.opening → b.depth = place.depth + 1 → place.opening < b.span.start →
      (∀ n ∈ body, Chained b.place n) → Chained place (.block b body)
  | other {place : Parser.Place} {n : Node} :
      (∀ b body, n ≠ .block b body) → (∀ c ∈ n.children, Chained place c) → Chained place n

/-- No two blocks among some nodes begin at the same position. -/
def BlocksApart (ns : List Node) : Prop :=
  ∀ b body b' body', .block b body ∈ ns → .block b' body' ∈ ns → b.span.start = b'.span.start →
    Node.block b body = .block b' body'

section Chained

variable {place : Parser.Place} {n : Node} {ns : List Node}

theorem Chained.of_children (hne : ∀ b body, n ≠ .block b body) (hns : n.children = ns)
    (h : ∀ c ∈ ns, c.Chained place) : n.Chained place :=
  .other hne (hns ▸ h)

theorem chained_leaf (hne : ∀ b body, n ≠ .block b body) (hnil : n.children = []) (place : Parser.Place) :
    n.Chained place :=
  .of_children hne hnil (by simp)

/-- The blocks of a tree begin behind the beginning of the block around it. -/
theorem Chained.behind (h : n.Chained place) {b : Braces} {body : List Node} (hb : .block b body ∈ n.preorder) :
    place.opening < b.span.start := by
  induction h with
  | @block place b' body' _ _ hlt _ ih =>
    rcases mem_preorder.1 hb with heq | ⟨c, hc, hb⟩
    · cases heq
      exact hlt
    · have hinner : b'.span.start < b.span.start := ih c hc hb
      grind
  | other hne _ ih =>
    rcases mem_preorder.1 hb with heq | ⟨c, hc, hb⟩
    · exact absurd heq.symm (hne _ _)
    · exact ih c hc hb

theorem BlocksApart.row {a z : Pos} (hrow : Row a ns z) (hlaid : ∀ n ∈ ns, n.Laid)
    (h : ∀ n ∈ ns, BlocksApart n.preorder) : BlocksApart (ns.flatMap preorder) := by
  intro b body b' body' hb hb' hstart
  obtain ⟨n, hn, hb⟩ := List.mem_flatMap.1 hb
  obtain ⟨n', hn', hb'⟩ := List.mem_flatMap.1 hb'
  rcases hrow.apart hn hn' with rfl | hbefore
  · exact h n hn b body b' body' hb hb' hstart
  · have hin : n.span.start ≤ b.span.start ∧ b.span.start < b.span.stop ∧ b.span.stop ≤ n.span.stop :=
      (hlaid n hn).inside hb
    have hin' : n'.span.start ≤ b'.span.start ∧ b'.span.start < b'.span.stop ∧ b'.span.stop ≤ n'.span.stop :=
      (hlaid n' hn').inside hb'
    grind

theorem BlocksApart.other (hne : ∀ b body, n ≠ .block b body) (h : BlocksApart (n.children.flatMap preorder)) :
    BlocksApart n.preorder := by
  intro b body b' body' hb hb'
  rw [preorder_eq] at hb hb'
  exact h b body b' body' ((List.mem_cons.1 hb).resolve_left fun heq => hne _ _ heq.symm)
    ((List.mem_cons.1 hb').resolve_left fun heq => hne _ _ heq.symm)

/-- In a chained tree no two blocks begin at the same position. -/
theorem Chained.apart (h : n.Chained place) (hlaid : n.Laid) : BlocksApart n.preorder := by
  induction h with
  | @block place b body _ _ _ hbody ih =>
    obtain ⟨hbox, hchildren⟩ := laid_iff.1 hlaid
    have hrest : BlocksApart (body.flatMap preorder) :=
      .row hbox.row hchildren fun n hn => ih n hn (hchildren n hn)
    have hbehind : ∀ b' body', .block b' body' ∈ body.flatMap preorder → b.span.start < b'.span.start := by
      intro b' body' hb'
      obtain ⟨n, hn, hb'⟩ := List.mem_flatMap.1 hb'
      exact (hbody n hn).behind hb'
    intro b₁ body₁ b₂ body₂ h₁ h₂ hstart
    rw [preorder_eq] at h₁ h₂
    rcases List.mem_cons.1 h₁ with heq₁ | h₁ <;> rcases List.mem_cons.1 h₂ with heq₂ | h₂
    · rw [heq₁, heq₂]
    · cases heq₁
      have hlt := hbehind _ _ h₂
      grind
    · cases heq₂
      have hlt := hbehind _ _ h₁
      grind
    · exact hrest _ _ _ _ h₁ h₂ hstart
  | other hne _ ih =>
    obtain ⟨hbox, hchildren⟩ := laid_iff.1 hlaid
    exact .other hne (.row hbox.row hchildren fun c hc => ih c hc (hchildren c hc))

end Chained

end Node

/-! ## What is read is chained -/

namespace Parse

open ScriptKit.Parser

/-- The trees of a phrase that is read from the state `s` on are chained to the place where they stand. Expressions and
declarations hold no blocks, so that they may stand anywhere. -/
def Phrase.Chained (s : State) : Phrase → Prop
  | .factor n | .term n | .expr n | .call n | .declaration n | .assignment n | .condition n | .loopStart n =>
    ∀ place, n.Chained place
  | .termRest left n | .exprRest left n => ∀ place, left.Chained place → n.Chained place
  | .args ns | .globals ns => ∀ place, ∀ n ∈ ns, n.Chained place
  | .params _ => True
  | .block place b ns => place.opening < s.prev → (Node.block b ns).Chained place
  | .function place f => place.opening ≤ s.prev → f.node.Chained place
  | .stmt place n => place.opening ≤ s.prev → n.Chained place
  | .stmts place ns => place.opening ≤ s.prev → ∀ n ∈ ns, n.Chained place
  | .functions fs => Place.top.opening ≤ s.prev → ∀ f ∈ fs, f.node.Chained .top

/-- What is read is chained to the place where it stands. -/
theorem Reads.chained {known : Option (List Text)} {φ : Phrase} {s s' : State} (h : Reads known φ s s')
    (hs : s.Ordered) : φ.Chained s := by
  induction h with
  | sign ht _ _ ih =>
    intro place
    exact .of_children (by simp) rfl (List.forall_mem_singleton.2 (ih (ht.tokensFrom hs).2.2 place))
  | number | str | bool | use | declare => exact Node.chained_leaf (by simp) rfl
  | paren ht _ _ ih => exact ih (ht.tokensFrom hs).2.2
  | called _ ih => exact ih hs
  | termStop | exprStop => exact fun _ hleft => hleft
  | times ht _ hright _ ih ih' | plus ht _ hright _ ih ih' =>
    intro place hleft
    have hs₁ := (ht.tokensFrom hs).2.2
    have hstretch : Stretch _ _ [_] := hright.placed hs₁
    refine ih' hstretch.ordered place (.of_children (by simp) rfl ?_)
    exact List.forall_mem_cons.2 ⟨hleft, List.forall_mem_singleton.2 (ih hs₁ place)⟩
  | compare ht _ _ ih =>
    intro place hleft
    refine .of_children (by simp) rfl ?_
    exact List.forall_mem_cons.2 ⟨hleft, List.forall_mem_singleton.2 (ih (ht.tokensFrom hs).2.2 place)⟩
  | term hleft _ ih ih' | expr hleft _ ih ih' =>
    intro place
    have hstretch : Stretch _ _ [_] := hleft.placed hs
    exact ih' hstretch.ordered place (ih hs place)
  | argsNil | globalsNil => simp [Phrase.Chained]
  | argsCons _ hn _ ih ih' =>
    intro place
    have hstretch : Stretch _ _ [_] := hn.placed hs
    have hcomma := State.stretch_pastComma hstretch.ordered
    exact List.forall_mem_cons.2 ⟨ih hs place, ih' hcomma.ordered place⟩
  | call ht hl _ _ _ ih =>
    intro place
    exact .of_children (by simp) rfl (ih (hl.tokensFrom (ht.tokensFrom hs).2.2).2.2 place)
  | declareAs ht _ hname heq _ ih =>
    intro place
    have hs₃ := (heq.tokensFrom (hname.tokensFrom (ht.tokensFrom hs).2.2).2.2).2.2
    exact .of_children (by simp) rfl (List.forall_mem_singleton.2 (ih hs₃ place))
  | assign hname heq _ ih =>
    intro place
    have hs₂ := (heq.tokensFrom (hname.tokensFrom hs).2.2).2.2
    exact .of_children (by simp) rfl (List.forall_mem_singleton.2 (ih hs₂ place))
  | paramsNil | paramsCons => trivial
  | condition hl _ _ ih => exact ih (hl.tokensFrom hs).2.2
  | startDeclaration _ ih | startAssignment _ ih => exact ih hs
  | @block place l r ns s s₁ s₂ s' hl _ _ ih =>
    intro hplace
    -- the brace stands behind the beginning of the block around it, and the statements behind the brace
    obtain ⟨hle, hlt, hs₁⟩ := hl.tokensFrom hs
    have hopening : place.opening < l.span.start := by grind
    exact .block rfl rfl hopening (ih hs₁ (Std.le_of_lt hlt))
  | @function place t name l r ps braces body s s₁ s₂ s₃ s₄ s₅ s' ht hname _ hl hps hr _ _ ih =>
    intro hplace
    obtain ⟨hle, hlt, hs₁⟩ := ht.tokensFrom hs
    have hname' := hname.stretch hs₁
    have hparen := hl.stretch (s := s₂.begin) hname'.ordered
    have hparams : Stretch s₃ s₄ (ps.map Param.node) := hps.placed hparen.ordered
    have hparen' := hr.stretch hparams.ordered
    -- the header has led behind the place, where the body may be read
    have hheader : s₁.prev ≤ s₅.prev :=
      Std.le_trans hname'.row.le (Std.le_trans hparen.row.le (Std.le_trans hparams.row.le hparen'.row.le))
    refine .of_children (by simp [Function.node]) rfl (List.forall_mem_append.2 ⟨?_, List.forall_mem_singleton.2 ?_⟩)
    · intro n hn
      obtain ⟨p, -, rfl⟩ := List.mem_map.1 hn
      exact Node.chained_leaf (by simp [Param.node]) rfl place
    · exact ih hparen'.ordered (by grind)
  | stmtFunction _ ih => exact ih hs
  | stmtDeclaration _ ih | stmtAssignment _ ih | stmtCall _ ih => exact fun _ => ih hs _
  | @when _ _ cond _ _ _ s₁ s₂ _ ht hcond _ _ ih ih' | @whileLoop _ _ cond _ _ _ s₁ s₂ _ ht hcond _ ih ih' =>
    intro hplace
    obtain ⟨hle, hlt, hs₁⟩ := ht.tokensFrom hs
    have hcond' : Stretch s₁ s₂ [cond] := hcond.placed hs₁
    have hheader := hcond'.row.le
    refine .of_children (by simp) rfl (List.forall_mem_cons.2 ⟨ih hs₁ _, List.forall_mem_singleton.2 ?_⟩)
    exact ih' hcond'.ordered (by grind)
  | @choose place t e cond braces braces' yes no s s₁ s₂ s₃ s₄ s' ht hcond hyes he _ ih ih' ih'' =>
    intro hplace
    obtain ⟨hle, hlt, hs₁⟩ := ht.tokensFrom hs
    have hcond' : Stretch s₁ s₂ [cond] := hcond.placed hs₁
    have hyes' : Stretch s₂ s₃ [.block braces yes] := hyes.placed hcond'.ordered
    have he' := he.stretch hyes'.ordered
    have hheader := hcond'.row.le
    have hbetween := Std.le_trans hyes'.row.le he'.row.le
    refine .of_children (by simp) rfl (List.forall_mem_cons.2 ⟨ih hs₁ place, List.forall_mem_cons.2 ⟨?_, ?_⟩⟩)
    · exact ih' hcond'.ordered (by grind)
    · exact List.forall_mem_singleton.2 (ih'' he'.ordered (by grind))
  | @forLoop place t l c c' r init cond step braces body s s₁ s₂ s₃ s₄ s₅ s₆ s₇ s₈ s' ht hl hinit hc hcond _ hc' hstep
      hr _ ih ih' ih'' ihbody =>
    intro hplace
    obtain ⟨hle, hlt, hs₁⟩ := ht.tokensFrom hs
    have hparen := hl.stretch hs₁
    have hinit' : Stretch s₂ s₃ [init] := hinit.placed hparen.ordered
    have hsemi := hc.stretch hinit'.ordered
    have hcond' : Stretch s₄ s₅ [cond] := hcond.placed hsemi.ordered
    have hsemi' := hc'.stretch hcond'.ordered
    have hstep' : Stretch s₆ s₇ [step] := hstep.placed hsemi'.ordered
    have hparen' := hr.stretch hstep'.ordered
    have hall := (((hparen.append hinit').append (hsemi.append hcond')).append (hsemi'.append hstep')).append hparen'
    have hheader := hall.row.le
    refine .of_children (by simp) rfl ?_
    refine List.forall_mem_cons.2 ⟨ih hparen.ordered place, List.forall_mem_cons.2 ⟨ih' hsemi.ordered place, ?_⟩⟩
    refine List.forall_mem_cons.2 ⟨ih'' hsemi'.ordered place, List.forall_mem_singleton.2 ?_⟩
    exact ihbody hparen'.ordered (by grind)
  | skip => exact fun _ => Node.chained_leaf (by simp) rfl _
  | stmtsNil | functionsNil => simp [Phrase.Chained]
  | stmtsCons _ _ hn _ ih ih' =>
    intro hplace
    have hstretch : Stretch _ _ [_] := hn.placed hs
    have hle := hstretch.row.le
    exact List.forall_mem_cons.2 ⟨ih hs hplace, ih' hstretch.ordered (Std.le_trans hplace hle)⟩
  | globalsCons hn _ ih ih' =>
    intro place
    have hstretch : Stretch _ _ [_] := hn.placed hs
    exact List.forall_mem_cons.2 ⟨ih hs place, ih' hstretch.ordered place⟩
  | functionsCons hf _ ih ih' =>
    intro hplace
    have hstretch : Stretch _ _ [_] := hf.placed hs
    have hle := hstretch.row.le
    exact List.forall_mem_cons.2 ⟨ih hs hplace, ih' hstretch.ordered (Std.le_trans hplace hle)⟩

end Parse

/-! ## Links -/

section Links

variable {p : Program} {around n : Node}

namespace Program

/-- The block around all others, as a node. -/
def rootBlock (p : Program) : Node := .block p.rootBraces []

/-- The block `around` is the innermost one around the node `n`, which is somewhere below a program. -/
inductive Encloses (p : Program) : Node → Node → Prop
  | top {n : Node} : n ∈ p.node.children → p.Encloses p.rootBlock n
  | inner {around n : Node} {b : Braces} {body : List Node} :
      p.Encloses around (.block b body) → n ∈ body → p.Encloses (.block b body) n
  | beside {around m n : Node} :
      p.Encloses around m → (∀ b body, m ≠ .block b body) → n ∈ m.children → p.Encloses around n

theorem Encloses.exists_inner (h : p.Encloses around n) {m : Node} (hm : m ∈ n.preorder) :
    ∃ inner, p.Encloses inner m := by
  induction n using Node.induction_children generalizing around with
  | step n ih =>
    rcases Node.mem_preorder.1 hm with rfl | ⟨c, hc, hbelow⟩
    · exact ⟨around, h⟩
    · by_cases hblock : ∃ b body, n = .block b body
      · obtain ⟨b, body, rfl⟩ := hblock
        exact ih c hc (h.inner hc) hbelow
      · exact ih c hc (h.beside (fun b body hn => hblock ⟨b, body, hn⟩) hc) hbelow

theorem exists_encloses {m : Node} (hm : m ∈ p.node.preorder) (hne : m ≠ p.node) : ∃ around, p.Encloses around m := by
  rcases Node.mem_preorder.1 hm with heq | ⟨c, hc, hm⟩
  · exact absurd heq hne
  · exact Encloses.exists_inner (.top hc) hm

theorem Encloses.mem (h : p.Encloses around n) : n ∈ p.node.preorder := by
  induction h with
  | top hn => exact Node.mem_preorder_child hn
  | @inner _ n b body _ hn ih => exact Node.mem_preorder_trans (Node.mem_preorder_child (n := .block b body) hn) ih
  | beside _ _ hn ih => exact Node.mem_preorder_trans (Node.mem_preorder_child hn) ih

/-- What encloses a node is a block of the program or the block around all others, and the node is chained to it. -/
theorem Encloses.chained (hp : ∀ n ∈ p.node.children, n.Chained p.rootBraces.place) (h : p.Encloses around n) :
    ∃ b body, around = .block b body ∧ n.Chained b.place ∧ (around = p.rootBlock ∨ around ∈ p.node.preorder) := by
  induction h with
  | top hn => exact ⟨_, _, rfl, hp _ hn, Or.inl rfl⟩
  | inner h hn ih =>
    obtain ⟨_, _, _, hchained, _⟩ := ih
    cases hchained with
    | block _ _ _ hbody => exact ⟨_, _, rfl, hbody _ hn, Or.inr h.mem⟩
    | other hne => exact absurd rfl (hne _ _)
  | beside _ hne hn ih =>
    obtain ⟨b, body, hb, hchained, hmem⟩ := ih
    cases hchained with
    | block => exact absurd rfl (hne _ _)
    | other _ hchildren => exact ⟨b, body, hb, hchildren _ hn, hmem⟩

end Program

theorem Dump.blockAt_eq (h : Node.BlocksApart p.node.preorder) {b : Braces} {body : List Node}
    (hb : .block b body ∈ p.node.preorder) : Dump.blockAt p b.span.start = .block b body := by
  unfold Dump.blockAt
  cases hfind : p.node.preorder.find? _ with
  | none => exact absurd (List.find?_eq_none.1 hfind _ hb) (by simp)
  | some m =>
    have hm := List.find?_some hfind
    have hmem := List.mem_of_find?_eq_some hfind
    cases m with
    | block b' body' => exact h _ _ _ _ hmem hb (by simpa using hm)
    | _ => cases hm

/-- A position where no block begins leads to the block around all others. -/
theorem Dump.blockAt_root {start : Pos} (h : ∀ b body, .block b body ∈ p.node.preorder → start < b.span.start) :
    Dump.blockAt p start = p.rootBlock := by
  unfold Dump.blockAt
  cases hfind : p.node.preorder.find? _ with
  | none => rfl
  | some m =>
    have hm := List.find?_some hfind
    have hmem := List.mem_of_find?_eq_some hfind
    cases m with
    | block b body =>
      have hlt := h b body hmem
      have hstart : b.span.start = start := by simpa using hm
      grind
    | _ => cases hm

end Links

/-! ## Parsed programs -/

open Parse

theorem chained_of_parse {file source : Text} {builtins : Option (List Text)} {p : Program}
    (h : parse file source builtins = .ok p) : ∀ n ∈ p.node.children, n.Chained p.rootBraces.place := by
  obtain ⟨s₁, s₂, hglobals, hfunctions⟩ := reads_of_parse h
  have hordered : (scan file source).state.Ordered := tokensFrom_take file _ (.start source)
  have hfirst : Stretch _ s₁ p.globals := hglobals.placed hordered
  have hplace : p.rootBraces.place = .top := by
    show Parser.Place.mk p.span.start 0 = _
    rw [span_of_parse h]
    rfl
  rw [hplace]
  refine List.forall_mem_append.2 ⟨hglobals.chained hordered .top, fun n hn => ?_⟩
  obtain ⟨f, hf, rfl⟩ := List.mem_map.1 hn
  exact hfunctions.chained hfirst.ordered hfirst.row.le f hf

theorem blocksApart_of_parse {file source : Text} {builtins : Option (List Text)} {p : Program}
    (h : parse file source builtins = .ok p) :
    Node.BlocksApart p.node.preorder ∧
      ∀ b body, .block b body ∈ p.node.preorder → p.rootBraces.span.start < b.span.start := by
  have hchained := chained_of_parse h
  obtain ⟨ended, hplaced⟩ := placed_of_parse h
  obtain ⟨stop, hrow⟩ := hplaced.row
  have hprogram : ∀ b body, p.node ≠ .block b body := by simp [Program.node]
  refine ⟨.other hprogram (.row hrow hplaced.laid fun n hn => (hchained n hn).apart (hplaced.laid n hn)), ?_⟩
  intro b body hb
  rcases Node.mem_preorder.1 hb with heq | ⟨n, hn, hb⟩
  · exact absurd heq.symm (hprogram b body)
  · exact (hchained n hn).behind hb

/-- In a parsed program what encloses a block is the block its link leads to, and is one level less deep. -/
theorem Program.Encloses.link {file source : Text} {builtins : Option (List Text)} {p : Program}
    (h : parse file source builtins = .ok p) {around : Node} {b : Braces} {body : List Node}
    (hb : p.Encloses around (.block b body)) :
    b.parent.map (Dump.blockAt p) = some around ∧ ∃ outer outerBody, around = .block outer outerBody ∧
      b.depth = outer.depth + 1 := by
  obtain ⟨hapart, hbehind⟩ := blocksApart_of_parse h
  obtain ⟨outer, outerBody, rfl, hchained, hmem⟩ := hb.chained (chained_of_parse h)
  have hleads : Dump.blockAt p outer.span.start = .block outer outerBody := by
    rcases hmem with hroot | hmem
    · obtain ⟨rfl, rfl⟩ := Node.block.inj hroot
      exact Dump.blockAt_root hbehind
    · exact Dump.blockAt_eq hapart hmem
  cases hchained with
  | block hparent hdepth =>
    refine ⟨?_, outer, outerBody, rfl, hdepth⟩
    rw [hparent]
    exact congrArg some hleads
  | other hne => exact absurd rfl (hne b body)

/-- In a parsed program each block has one innermost block around it. Its link leads to that block, and it is one level
deeper. The block around all others has no link and the depth zero. -/
theorem blocks_chained {file source : Text} {builtins : Option (List Text)} {p : Program}
    (h : parse file source builtins = .ok p) :
    (p.rootBraces.parent = none ∧ p.rootBraces.depth = 0) ∧
      ∀ b body, .block b body ∈ p.node.preorder →
        ∃ outer outerBody, (∀ around, p.Encloses around (.block b body) ↔ around = .block outer outerBody) ∧
          b.parent.map (Dump.blockAt p) = some (.block outer outerBody) ∧ b.depth = outer.depth + 1 := by
  refine ⟨⟨rfl, rfl⟩, fun b body hb => ?_⟩
  obtain ⟨around, hencloses⟩ := Program.exists_encloses hb (by simp [Program.node])
  obtain ⟨hlink, outer, outerBody, rfl, hdepth⟩ := hencloses.link h
  refine ⟨outer, outerBody, fun around => ⟨fun haround => ?_, ?_⟩, hlink, hdepth⟩
  · exact Option.some.inj ((haround.link h).1.symm.trans hlink)
  · rintro rfl
    exact hencloses

/-- Blocks of a function inside a function, of a choice and of a loop. -/
def nestedBlocksText : Text :=
  "func A() \x7b func B() \x7b \x7d if (1 == 1) \x7b while (1 == 2) \x7b \x7d \x7d else \x7b \x7d \x7d"

/-- The chain of five blocks, the one of the loop three levels below the root. -/
theorem blocks_chained_nested :
    ∃ p, parse "a" nestedBlocksText = .ok p ∧ (p.node.preorder.map Node.kind).count ("Block" : Text) = 5 ∧
      (p.rootBraces.parent = none ∧ p.rootBraces.depth = 0) ∧
      ∀ b body, .block b body ∈ p.node.preorder →
        ∃ outer outerBody, (∀ around, p.Encloses around (.block b body) ↔ around = .block outer outerBody) ∧
          b.parent.map (Dump.blockAt p) = some (.block outer outerBody) ∧ b.depth = outer.depth + 1 := by
  have hcount : (parse "a" nestedBlocksText).toOption.map
      (fun p => (p.node.preorder.map Node.kind).count ("Block" : Text)) = some 5 := by
    decide +kernel
  cases hparse : parse "a" nestedBlocksText with
  | error e => rw [hparse] at hcount; cases hcount
  | ok p =>
    rw [hparse] at hcount
    exact ⟨p, rfl, Option.some.inj hcount, blocks_chained hparse⟩

end ScriptKit
