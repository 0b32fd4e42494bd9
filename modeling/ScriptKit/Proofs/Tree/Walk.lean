import ScriptKit.Tree.Walk

/-!
# Walks and children

A walk is what the children of a node say it is: the node, and then the walks of its children if they
are entered. Levels do not matter to which nodes are met. A child is smaller than its parent, so what
passes from the children of a node to the node holds of every node.
-/

namespace ScriptKit.Node

/-! ## Children -/

theorem sizeOf_lt_of_mem_children {c n : Node} (h : c ∈ n.children) : sizeOf c < sizeOf n := by
  cases n <;> simp only [children, List.mem_cons, List.mem_append, List.not_mem_nil, or_false] at h
  case declareAs | assign | sign =>
    subst h
    simp only [declareAs.sizeOf_spec, assign.sizeOf_spec, sign.sizeOf_spec]
    omega
  case arith | compare =>
    rcases h with rfl | rfl <;>
      (simp only [arith.sizeOf_spec, compare.sizeOf_spec]; omega)
  case block | call =>
    have := List.sizeOf_lt_of_mem h
    simp
    omega
  case function span name params braces body =>
    rcases h with h | rfl
    · obtain ⟨p, hp, rfl⟩ := List.mem_map.1 h
      have := List.sizeOf_lt_of_mem hp
      cases p
      simp [Param.node] at this ⊢
      omega
    · cases span
      simp
      omega
  case when span _ _ _ | whileLoop span _ _ _ =>
    cases span
    rcases h with rfl | rfl <;> simp <;> omega
  case choose span _ _ _ _ _ =>
    cases span
    rcases h with rfl | rfl | rfl <;> simp <;> omega
  case forLoop span _ _ _ _ _ =>
    cases span
    rcases h with rfl | rfl | rfl | rfl <;> simp <;> omega
  case program =>
    rcases h with h | h
    all_goals
      have := List.sizeOf_lt_of_mem h
      simp
      omega

/-- What holds of a node if it holds of its children holds of every node. -/
theorem induction_children {P : Node → Prop} (step : ∀ n, (∀ c ∈ n.children, P c) → P n) (n : Node) :
    P n := by
  induction hsize : sizeOf n using Nat.strongRecOn generalizing n with
  | ind size ih =>
    subst hsize
    exact step n fun c hc => ih (sizeOf c) (sizeOf_lt_of_mem_children hc) c rfl

/-! ## Walks -/

theorem walkAll_eq (enter : Node → Bool) (level : Nat) (ns : List Node) :
    walkAll enter level ns = ns.flatMap (walk enter level) := by
  induction ns with
  | nil => simp [walkAll]
  | cons n ns ih => simp [walkAll, ih]

/-- A walk enters a node before its children, which are one level deeper. -/
theorem walk_eq (enter : Node → Bool) (level : Nat) (n : Node) :
    n.walk enter level =
      (level, n) :: if enter n then n.children.flatMap (walk enter (level + 1)) else [] := by
  cases n <;> simp [walk, visit, children, walkAll_eq, Param.node, List.map_eq_flatMap,
    List.flatMap_assoc]

/-- The nodes met on a walk. -/
def met (enter : Node → Bool) (n : Node) : List Node := (n.walk enter 0).map Prod.snd

theorem map_walk (enter : Node → Bool) (level : Nat) (n : Node) :
    (n.walk enter level).map Prod.snd = n.met enter := by
  unfold met
  generalize 0 = level'
  induction n using induction_children generalizing level level' with
  | step n ih =>
    rw [walk_eq enter level, walk_eq enter level']
    cases enter n with
    | false => simp
    | true =>
      simp only [if_true, List.map_cons, List.map_flatMap]
      congr 1
      rw [List.flatMap_def, List.flatMap_def]
      exact congrArg List.flatten (List.map_congr_left fun c hc => ih c hc (level + 1) (level' + 1))

theorem met_eq (enter : Node → Bool) (n : Node) :
    n.met enter = n :: if enter n then n.children.flatMap (met enter) else [] := by
  rw [met, walk_eq]
  cases enter n <;> simp [List.map_flatMap, map_walk]

theorem preorder_eq (n : Node) : n.preorder = n :: n.children.flatMap preorder := by
  show n.met _ = n :: n.children.flatMap (met _)
  rw [met_eq]
  rfl

/-! ## Below a node -/

/-- What is below a node is the node itself or below one of its children. -/
theorem mem_preorder {m n : Node} : m ∈ n.preorder ↔ m = n ∨ ∃ c ∈ n.children, m ∈ c.preorder := by
  rw [preorder_eq, List.mem_cons, List.mem_flatMap]

theorem mem_preorder_self (n : Node) : n ∈ n.preorder := mem_preorder.2 (Or.inl rfl)

theorem mem_preorder_of_child {m c n : Node} (hc : c ∈ n.children) (hm : m ∈ c.preorder) :
    m ∈ n.preorder :=
  mem_preorder.2 (Or.inr ⟨c, hc, hm⟩)

theorem mem_preorder_child {c n : Node} (hc : c ∈ n.children) : c ∈ n.preorder :=
  mem_preorder_of_child hc (mem_preorder_self c)

theorem mem_preorder_trans {k m n : Node} (hk : k ∈ m.preorder) (hm : m ∈ n.preorder) :
    k ∈ n.preorder := by
  induction n using induction_children with
  | step n ih =>
    rcases mem_preorder.1 hm with rfl | ⟨c, hc, hm⟩
    · exact hk
    · exact mem_preorder_of_child hc (ih c hc hm)

/-! ## Functions below a node -/

/-- The functions a node declares, nested ones included, in the order in which they begin. -/
def functions (n : Node) : List Function := n.preorder.filterMap function?

theorem functions_eq (n : Node) :
    n.functions = n.function?.toList ++ n.children.flatMap functions := by
  rw [functions, preorder_eq, List.filterMap_cons, List.filterMap_flatMap]
  cases n.function? <;> rfl

theorem function?_eq_some {n : Node} {f : Function} : n.function? = some f ↔ n = f.node := by
  constructor
  · intro h
    cases n <;> cases h
    rfl
  · rintro rfl
    rfl

/-- The functions of a tree are those among its nodes. -/
theorem mem_functions {f : Function} {n : Node} : f ∈ n.functions ↔ f.node ∈ n.preorder := by
  simp [functions, List.mem_filterMap, function?_eq_some]

theorem block_mem_children (f : Function) : .block f.braces f.body ∈ f.node.children := by
  simp [Function.node, children]

/-- The statements of a function that is declared below a node are below the node. -/
theorem mem_preorder_body {f : Function} {s n : Node} (hf : f.node ∈ n.preorder) (hs : s ∈ f.body) :
    s ∈ n.preorder :=
  mem_preorder_trans (mem_preorder_of_child (block_mem_children f) (mem_preorder_child hs)) hf

end ScriptKit.Node
