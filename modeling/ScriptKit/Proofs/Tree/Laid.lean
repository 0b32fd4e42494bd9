import ScriptKit.Proofs.Token.Spelling
import ScriptKit.Proofs.Tree.Walk

/-!
# Trees laid out in a source

Positions are linearly ordered, and a tree that is read from a source lies in it like nested boxes: the
children of a node stand inside the node, one after the other, and no node is empty. `Node.Laid` says so of a
whole tree; it is a condition on each node and its direct children, `Node.Boxed`.

What follows is where nodes can be. A node below another one stands inside it. A node that is not inside a
function either avoids the function altogether or surrounds it (`Laid.apart`), so nothing outside a function
lies in it.
-/

namespace ScriptKit

/-! ## The order of positions -/

namespace Pos

instance : LE Pos := ⟨Pos.Le⟩

instance : LT Pos := ⟨Pos.Lt⟩

instance : Std.IsLinearOrder Pos where
  le_refl := Le.refl
  le_trans _ _ _ := Le.trans
  le_antisymm p q hpq hqp := by
    obtain ⟨line, col⟩ := p
    obtain ⟨line', col'⟩ := q
    have hpq : line < line' ∨ line = line' ∧ col ≤ col' := hpq
    have hqp : line' < line ∨ line' = line ∧ col' ≤ col := hqp
    rw [mk.injEq]
    omega
  le_total p q := by
    show p.Le q ∨ q.Le p
    unfold Le
    omega

instance : Std.LawfulOrderLT Pos where
  lt_iff p q := by
    show p.Lt q ↔ p.Le q ∧ ¬q.Le p
    unfold Lt Le
    omega

end Pos

/-! ## Rows -/

/-- Trees that stand one after the other between two positions, none of them empty. -/
def Row : Pos → List Node → Pos → Prop
  | a, [], b => a ≤ b
  | a, n :: ns, b => a ≤ n.span.start ∧ n.span.start < n.span.stop ∧ Row n.span.stop ns b

section Row

variable {a b c : Pos} {n : Node} {ns ms : List Node}

theorem row_singleton : Row a [n] b ↔ a ≤ n.span.start ∧ n.span.start < n.span.stop ∧ n.span.stop ≤ b :=
  Iff.rfl

theorem Row.le (h : Row a ns b) : a ≤ b := by
  induction ns generalizing a with
  | nil => exact h
  | cons n ns ih =>
    obtain ⟨hstart, hne, hrest⟩ := h
    have := ih hrest
    grind

theorem Row.append (h : Row a ns b) (h' : Row b ms c) : Row a (ns ++ ms) c := by
  induction ns generalizing a with
  | nil =>
    have hab : a ≤ b := h
    cases ms with
    | nil =>
      have hbc : b ≤ c := h'
      show a ≤ c
      grind
    | cons m ms =>
      obtain ⟨hstart, hrest⟩ := h'
      exact ⟨by grind, hrest⟩
  | cons n ns ih => exact ⟨h.1, h.2.1, ih h.2.2⟩

theorem Row.split (h : Row a (ns ++ ms) c) : ∃ b, Row a ns b ∧ Row b ms c := by
  induction ns generalizing a with
  | nil => exact ⟨a, Std.le_refl _, h⟩
  | cons n ns ih =>
    obtain ⟨hstart, hne, hrest⟩ := h
    obtain ⟨b, hns, hms⟩ := ih hrest
    exact ⟨b, ⟨hstart, hne, hns⟩, hms⟩

theorem Row.mono {a' b' : Pos} (h : Row a ns b) (ha : a' ≤ a) (hb : b ≤ b') : Row a' ns b' := by
  have hleft : Row a' [] a := ha
  have hright : Row b [] b' := hb
  simpa using (hleft.append h).append hright

/-- A tree of a row stands between its ends. -/
theorem Row.within (h : Row a ns b) (hn : n ∈ ns) :
    a ≤ n.span.start ∧ n.span.start < n.span.stop ∧ n.span.stop ≤ b := by
  induction ns generalizing a with
  | nil => simp at hn
  | cons m ms ih =>
    obtain ⟨hstart, hne, hrest⟩ := h
    rcases List.mem_cons.1 hn with rfl | hn
    · exact ⟨hstart, hne, hrest.le⟩
    · have := ih hrest hn
      grind

/-- Of two trees of a row one stands before the other. -/
theorem Row.apart {m : Node} (h : Row a ns b) (hn : n ∈ ns) (hm : m ∈ ns) :
    n = m ∨ n.span.stop ≤ m.span.start ∨ m.span.stop ≤ n.span.start := by
  induction ns generalizing a with
  | nil => simp at hn
  | cons k ks ih =>
    obtain ⟨-, -, hrest⟩ := h
    rcases List.mem_cons.1 hn with rfl | hn'
    · rcases List.mem_cons.1 hm with rfl | hm'
      · exact Or.inl rfl
      · exact Or.inr (Or.inl (hrest.within hm').1)
    · rcases List.mem_cons.1 hm with rfl | hm'
      · exact Or.inr (Or.inr (hrest.within hn').1)
      · exact ih hrest hn' hm'

/-- The last tree of a row ends last. -/
theorem Row.last {m : Node} (h : Row a ns b) (hlast : ns.getLast? = some m) (hn : n ∈ ns) :
    n.span.stop ≤ m.span.stop := by
  induction ns generalizing a with
  | nil => simp at hn
  | cons k ks ih =>
    obtain ⟨-, -, hrest⟩ := h
    cases ks with
    | nil =>
      cases hlast
      rw [List.mem_singleton.1 hn]
      exact Std.le_refl _
    | cons k' ks =>
      have hlast' : (k' :: ks).getLast? = some m := by simpa using hlast
      rcases List.mem_cons.1 hn with rfl | hn
      · have hm := hrest.within (List.mem_of_getLast? hlast')
        grind
      · exact ih hrest hlast' hn

end Row

/-! ## Boxes -/

namespace Node

/-- A node with its children inside, one after the other. What is inside a function begins after the
function does, and a block ends after everything inside it and together with the function it belongs to. -/
structure Boxed (n : Node) : Prop where
  nonempty : n.span.start < n.span.stop
  row : Row n.span.start n.children n.span.stop
  function : ∀ f : Function, n = f.node →
    f.braces.span.stop = f.span.stop ∧ ∀ c ∈ n.children, f.span.start < c.span.start
  block : ∀ braces body, n = .block braces body → ∀ c ∈ body, c.span.stop < braces.span.stop

/-- A tree laid out in a source: every node of it is boxed. -/
def Laid (n : Node) : Prop := ∀ m ∈ n.preorder, m.Boxed

variable {k m n : Node}

theorem laid_iff : n.Laid ↔ n.Boxed ∧ ∀ c ∈ n.children, c.Laid := by
  constructor
  · exact fun h => ⟨h n (mem_preorder_self n), fun c hc m hm => h m (mem_preorder_of_child hc hm)⟩
  · rintro ⟨hn, hchildren⟩ m hm
    rcases mem_preorder.1 hm with rfl | ⟨c, hc, hm⟩
    · exact hn
    · exact hchildren c hc m hm

theorem Laid.below (h : n.Laid) (hm : m ∈ n.preorder) : m.Laid :=
  fun k hk => h k (mem_preorder_trans hk hm)

/-- A node below another one stands inside it. -/
theorem Laid.inside (h : n.Laid) (hm : m ∈ n.preorder) :
    n.span.start ≤ m.span.start ∧ m.span.start < m.span.stop ∧ m.span.stop ≤ n.span.stop := by
  induction n using induction_children with
  | step n ih =>
    obtain ⟨hbox, hchildren⟩ := laid_iff.1 h
    rcases mem_preorder.1 hm with rfl | ⟨c, hc, hm⟩
    · have := hbox.nonempty
      grind
    · have hin := ih c hc (hchildren c hc) hm
      have hrow := hbox.row.within hc
      grind

/-- What is declared by a row of laid trees stands between its ends. -/
theorem Row.inside {a b : Pos} {ns : List Node} (h : Row a ns b) (hlaid : ∀ n ∈ ns, n.Laid)
    (hn : n ∈ ns) (hm : m ∈ n.preorder) :
    a ≤ m.span.start ∧ m.span.start < m.span.stop ∧ m.span.stop ≤ b := by
  have hin := (hlaid n hn).inside hm
  have hrow := h.within hn
  grind

/-- Of two trees of a row, what is in the one does not stand inside of what is in the other. -/
theorem Row.owner {a b : Pos} {ns : List Node} {n' : Node} (h : Row a ns b) (hlaid : ∀ n ∈ ns, n.Laid)
    (hn : n ∈ ns) (hn' : n' ∈ ns) (hm : m ∈ n.preorder) (hk : k ∈ n'.preorder)
    (hstart : k.span.start ≤ m.span.start) (hstop : m.span.stop ≤ k.span.stop) : n = n' := by
  rcases h.apart hn hn' with heq | hbefore
  · exact heq
  · have hin := (hlaid n hn).inside hm
    have hin' := (hlaid n' hn').inside hk
    grind

/-! ## Inside and outside of functions -/

/-- What is below a function begins after it and ends with it at the latest. -/
theorem Laid.inside_function {f : Function} (h : f.node.Laid) {c : Node} (hc : c ∈ f.node.children)
    (hm : m ∈ c.preorder) : f.span.start < m.span.start ∧ m.span.stop ≤ f.span.stop := by
  obtain ⟨hbox, hchildren⟩ := laid_iff.1 h
  have hin := (hchildren c hc).inside hm
  have hrow := hbox.row.within hc
  have hstart := (hbox.function f rfl).2 c hc
  have hspan : f.node.span = f.span := rfl
  grind

/-- A function declared inside another one ends before it. -/
theorem Laid.nested {f g : Function} (h : f.node.Laid) {c : Node} (hc : c ∈ f.node.children)
    (hg : g.node ∈ c.preorder) : g.span.stop < f.span.stop := by
  obtain ⟨hbox, hchildren⟩ := laid_iff.1 h
  have hstop := (hbox.function f rfl).1
  rcases List.mem_append.1 hc with hc | hc
  · obtain ⟨p, -, rfl⟩ := List.mem_map.1 hc
    rcases mem_preorder.1 hg with hg | ⟨c, hc, -⟩
    · cases hg
    · cases hc
  · rw [List.mem_singleton] at hc
    subst hc
    rcases mem_preorder.1 hg with hg | ⟨s, hs, hg⟩
    · cases hg
    · have hblock := hchildren _ (block_mem_children f)
      have hin := (hblock.below (mem_preorder_child hs)).inside hg
      have hend := (hblock _ (mem_preorder_self _)).block _ _ rfl s hs
      have hspan : g.node.span = g.span := rfl
      grind

/-- Whether a walk that stays outside of functions goes below a node. -/
def isOpen (n : Node) : Bool := n.function?.isNone

/-- The nodes of a tree that are not inside a function it declares. -/
abbrev own (n : Node) : List Node := n.met isOpen

theorem mem_own : m ∈ n.own ↔ m = n ∨ n.function? = none ∧ ∃ c ∈ n.children, m ∈ c.own := by
  rw [own, met_eq]
  cases hn : n.function? <;> simp [isOpen, hn]

theorem mem_own_self (n : Node) : n ∈ n.own := mem_own.2 (Or.inl rfl)

theorem mem_preorder_of_own (h : m ∈ n.own) : m ∈ n.preorder := by
  induction n using induction_children with
  | step n ih =>
    rcases mem_own.1 h with rfl | ⟨-, c, hc, hm⟩
    · exact mem_preorder_self _
    · exact mem_preorder_of_child hc (ih c hc hm)

theorem mem_own_of_child {c : Node} (hn : n.function? = none) (hc : c ∈ n.children) (hm : m ∈ c.own) :
    m ∈ n.own :=
  mem_own.2 (Or.inr ⟨hn, c, hc, hm⟩)

/-- What is outside of functions in a statement of a block is so in the node the block belongs to. -/
theorem mem_own_of_body (braces : Braces) {body : List Node} {s : Node} (hn : n.function? = none)
    (hblock : .block braces body ∈ n.children) (hs : s ∈ body) (hm : m ∈ s.own) : m ∈ n.own :=
  mem_own_of_child hn hblock (mem_own_of_child rfl hs hm)

/-- A node outside of all functions stands before a function, after it or around it. -/
theorem Laid.apart {g : Function} (h : n.Laid) (hm : m ∈ n.own) (hg : g.node ∈ n.preorder) :
    m.span.stop ≤ g.span.start ∨ g.span.stop ≤ m.span.start ∨
      m.span.start ≤ g.span.start ∧ g.span.stop ≤ m.span.stop := by
  induction n using induction_children with
  | step n ih =>
    obtain ⟨hbox, hchildren⟩ := laid_iff.1 h
    have hspan : g.node.span = g.span := rfl
    rcases mem_own.1 hm with rfl | ⟨hopen, c, hc, hm⟩
    · have := h.inside hg
      grind
    · rcases mem_preorder.1 hg with rfl | ⟨c', hc', hg⟩
      · cases hopen
      rcases hbox.row.apart hc hc' with rfl | hbefore
      · exact ih c hc (hchildren c hc) hm hg
      · have hin := (hchildren c hc).inside (mem_preorder_of_own hm)
        have hin' := (hchildren c' hc').inside hg
        grind

end Node

end ScriptKit
