import ScriptKit.Proofs.Run.Growth
import ScriptKit.Proofs.Run.Script

/-!
# Shadowing

A name that is visible cannot be declared again, so no variable shadows another one, with one exception. The
parameters of a call are declared where only the globals are visible, and then their frame is put on top of the
frames of the caller, whichever those are. So a parameter may shadow a local variable of a caller, but never a
global variable.

`Nested` says so of the headers of frames together with their origins. It holds at the start of a run, every step
keeps it because what is declared was not visible before, and a frame that is added for a block or for a call
satisfies it.

**Theorem (`shadowed_by_parameters`).** At every point of every run the frames end in the root, names that the root
has are in no other frame, and a name that two frames have is a parameter of the call that made the inner one.
-/

namespace ScriptKit

/-- The names declared in a frame. -/
def Header.names (h : Header) : List Text := h.signature.map Prod.fst

namespace Run

open Chain

variable {α β : Type}

/-! ## Nested frames -/

/-- Frames, the innermost first, that shadow parameters only. -/
inductive Nested : List Header → List Origin → Prop
  | run {root : Header} : root.isRoot = true → Nested [root] [.run]
  | inner {h : Header} {hs : List Header} {o : Origin} {origins : List Origin} :
      Nested hs origins → h.isRoot = false →
      (∀ name ∈ h.names, ∀ root ∈ hs.getLast?, name ∉ root.names) →
      (∀ name ∈ h.names, (∃ g ∈ hs, name ∈ g.names) → ∃ f, o = .call f ∧ name ∈ f.params.map Param.name) →
      Nested (h :: hs) (o :: origins)

namespace Nested

variable {h : Header} {hs : List Header} {o : Origin} {origins : List Origin} {new : List (Text × VarType)}
  {c c' : Chain}

/-- An empty frame shadows nothing. -/
theorem push (h : Nested hs origins) (o : Origin) : Nested (Frame.header {} :: hs) (o :: origins) :=
  .inner h rfl (fun _ hname => by cases hname) fun _ hname => by cases hname

/-- What is declared was visible nowhere, so it shadows nothing. -/
theorem grow (h : Nested hs origins) (hfree : ∀ d ∈ new, ∀ g ∈ hs, d.1 ∉ g.names) :
    Nested (Chain.grow new hs) origins := by
  cases h with
  | run hroot => exact .run hroot
  | @inner h hs o origins hnested hinner hglobal hshadow =>
    have hnames : ∀ name ∈ Header.names { h with signature := new ++ h.signature },
        (∀ g ∈ hs, name ∉ g.names) ∨ name ∈ h.names := by
      intro name hname
      simp only [Header.names, List.map_append, List.mem_append] at hname
      rcases hname with hname | hname
      · obtain ⟨d, hd, rfl⟩ := List.mem_map.1 hname
        exact Or.inl fun g hg => hfree d hd g (List.mem_cons_of_mem _ hg)
      · exact Or.inr hname
    refine .inner hnested hinner (fun name hname root hroot => ?_) fun name hname hvisible => ?_
    · rcases hnames name hname with hnew | hold
      · exact hnew root (List.mem_of_getLast? hroot)
      · exact hglobal name hold root hroot
    · rcases hnames name hname with hnew | hold
      · obtain ⟨g, hg, hgname⟩ := hvisible
        exact absurd hgname (hnew g hg)
      · exact hshadow name hold hvisible

theorem free_of_has {name : Text} (h : c.names.has name = false) : ∀ g ∈ c.headers, name ∉ g.names := by
  intro g hg hname
  rw [names_eq_headers] at h
  simp only [Check.Names.has, List.any_eq_false, List.mem_map] at h
  exact h g.names ⟨g, hg, rfl⟩ (List.contains_iff_mem.2 hname)

theorem gains (h : Nested c.headers origins) (hgains : Gains new c c') : Nested c'.headers origins := by
  rw [hgains.headers]
  exact h.grow fun d hd => free_of_has (hgains.free d hd)

/-- The frame of a call: its names are parameters, and none of them is global. -/
theorem enter (hn : Nested hs origins) {f : Function} (hinner : h.isRoot = false)
    (hparams : ∀ name ∈ h.names, name ∈ f.params.map Param.name)
    (hglobal : ∀ name ∈ h.names, ∀ root ∈ hs.getLast?, name ∉ root.names) :
    Nested (h :: hs) (.call f :: origins) :=
  .inner hn hinner hglobal fun name hname _ => ⟨f, rfl, hparams name hname⟩

/-- The last frame is the only root, and no other frame has a name of it. -/
theorem root (h : Nested hs origins) : ∃ inner root, hs = inner ++ [root] ∧ root.isRoot = true ∧
    ∀ g ∈ inner, g.isRoot = false ∧ ∀ name ∈ g.names, name ∉ root.names := by
  induction h with
  | @run root hroot => exact ⟨[], root, rfl, hroot, fun g hg => by cases hg⟩
  | @inner h hs o origins _ hinner hglobal _ ih =>
    obtain ⟨inner, root, rfl, hroot, hall⟩ := ih
    refine ⟨h :: inner, root, rfl, hroot, List.forall_mem_cons.2 ⟨⟨hinner, fun name hname => ?_⟩, hall⟩⟩
    exact hglobal name hname root (by simp)

/-- The frames in which the parameters of a call are declared. -/
theorem base (h : Nested c.headers origins) (f : Function) :
    Nested (Chain.headers ({} :: c.getLast?.toList)) [.call f, .run] := by
  obtain ⟨inner, root, hheaders, hroot, -⟩ := h.root
  have hlast : c.headers.getLast? = some root := by rw [hheaders, List.getLast?_concat]
  rw [Chain.headers, List.getLast?_map] at hlast
  obtain ⟨frame, hframe, rfl⟩ := Option.map_eq_some_iff.1 hlast
  rw [hframe]
  exact .push (.run hroot) _

end Nested

/-! ## Steps and scripts -/

theorem declares_step (env : Env) (s : Step α) : Declares (fun _ => True) (s.run env) := by
  cases s with
  | look x h => exact .idle fun m => congrArg Machine.chain (h m)
  | check => exact .check
  | declare => exact .declare trivial
  | assign => exact .assign
  | callBuiltin => exact .callBuiltin

theorem declares_runCall {f : Function} {args : List Value} {span : Span} {body : Run Unit}
    (h : Declares (fun _ => True) body) : Declares (fun _ => True) (Script.runCall f args span body) :=
  .bind .emit fun _ => .bind .callFrame fun _ => .reportEnd (.inside h)

theorem declares_script (env : Env) (s : Script α) : Declares (fun _ => True) (s.run env) := by
  induction s with
  | pure a => exact .pure
  | fail fault span => exact .fail
  | step s next ih => exact .bind (declares_step env s) ih
  | inFrame body next hbody ih => exact .bind (.inFrame hbody) ih
  | call f args span body next hbody ih => exact .bind (declares_runCall hbody) fun _ => ih

/-! ## Points -/

/-- The frames at a point shadow parameters only. -/
def Point.IsNested (q : Point) : Prop := Nested q.machine.chain.headers q.origins

theorem nested_onward {x : Run α} (hx : Declares (fun _ => True) x) {m : Machine} {origins : List Origin}
    {points : α → Machine → List Point} (hm : Point.IsNested ⟨m, origins⟩)
    (h : ∀ a m', Point.IsNested ⟨m', origins⟩ → ∀ q ∈ points a m', q.IsNested) :
    ∀ q ∈ onward (x m) origins points, q.IsNested := by
  obtain ⟨new, -, hgains⟩ := hx m
  have hafter : Nested (x m).2.chain.headers origins := Nested.gains hm hgains
  revert hafter
  cases x m with
  | mk result m' =>
    intro hafter
    cases result with
    | ok a => exact h a m' hafter
    | error e => exact List.forall_mem_singleton.2 hafter

theorem nested_paramPoints {params : List Param} {args : List Value} {m : Machine} {origins : List Origin}
    (hm : Point.IsNested ⟨m, origins⟩) : ∀ q ∈ paramPoints params args m origins, q.IsNested := by
  induction params generalizing args m with
  | nil => exact List.forall_mem_singleton.2 hm
  | cons p params ih =>
    cases args with
    | nil => exact List.forall_mem_singleton.2 hm
    | cons v args =>
      refine List.forall_mem_cons.2 ⟨hm, nested_onward (.declare trivial) hm fun _ m' hm' => ?_⟩
      exact ih hm'

theorem declares_bindParams {params : List Param} {args : List Value} :
    Declares (fun d => d.1 ∈ params.map Param.name) (bindParams params args) := by
  induction params generalizing args with
  | nil => exact .pure
  | cons p params ih =>
    cases args with
    | nil => exact .pure
    | cons v args =>
      refine .bind (.declare (List.mem_cons_self ..)) fun _ => ih.mono fun d hd => ?_
      exact List.mem_cons_of_mem _ hd

/-- The frame of a call shadows nothing but what parameters may shadow, on top of whatever frames the caller has. -/
theorem nested_callFrame {f : Function} {args : List Value} {m m' : Machine} {frame : Frame}
    {origins : List Origin} (hm : Point.IsNested ⟨m, origins⟩) (hframe : callFrame f args m = (.ok frame, m')) :
    Nested (Chain.headers (frame :: m'.chain)) (.call f :: origins) := by
  have hparams : Declares (fun d => d.1 ∈ f.params.map Param.name) (bindParams f.params args) := declares_bindParams
  obtain ⟨new, hnew, hgains⟩ := hparams { m with chain := {} :: m.chain.getLast?.toList }
  unfold callFrame at hframe
  revert hgains hframe
  cases bindParams f.params args { m with chain := {} :: m.chain.getLast?.toList } with
  | mk result m₁ =>
    cases result with
    | error e => exact fun hframe _ => by cases hframe
    | ok u =>
      intro hframe hgains
      cases hframe
      have hhead : Frame.header (m₁.chain.head?.getD {}) = ⟨false, new⟩ := hgains.head
      have hnames : ∀ name ∈ Header.names ⟨false, new⟩, ∃ d ∈ new, d.1 = name := fun name hname =>
        List.mem_map.1 hname
      show Nested (Frame.header (m₁.chain.head?.getD {}) :: m.chain.headers) _
      rw [hhead]
      refine .enter hm rfl (fun name hname => ?_) fun name hname root hroot => ?_
      · obtain ⟨d, hd, rfl⟩ := hnames name hname
        exact hnew d hd
      · obtain ⟨d, hd, rfl⟩ := hnames name hname
        refine Nested.free_of_has (hgains.free d hd) root ?_
        rw [Chain.headers, List.getLast?_map] at hroot
        obtain ⟨last, hlast, rfl⟩ := Option.map_eq_some_iff.1 hroot
        exact List.mem_map_of_mem (List.mem_cons_of_mem _ (by rw [hlast]; exact List.mem_singleton.2 rfl))

/-- Every point of a script is nested if the first one is. -/
theorem nested_points (env : Env) (s : Script α) {m : Machine} {origins : List Origin}
    (hm : Point.IsNested ⟨m, origins⟩) : ∀ q ∈ s.points env m origins, q.IsNested := by
  induction s generalizing m origins with
  | pure a => exact List.forall_mem_singleton.2 hm
  | fail fault span => exact List.forall_mem_singleton.2 hm
  | step s next ih =>
    exact List.forall_mem_cons.2 ⟨hm, nested_onward (declares_step env s) hm fun b _ hm' => ih b hm'⟩
  | inFrame body next hbody ih =>
    refine List.forall_mem_append.2 ⟨List.forall_mem_cons.2 ⟨hm, ?_⟩, ?_⟩
    · exact hbody (Nested.push hm .block)
    · exact nested_onward (.inFrame (declares_script env body)) hm fun b _ hm' => ih b hm'
  | call f args span body next hbody ih =>
    refine List.forall_mem_append.2 ⟨List.forall_mem_append.2 ⟨List.forall_mem_cons.2 ⟨hm, ?_⟩, ?_⟩, ?_⟩
    · exact nested_paramPoints (Nested.base hm f)
    · cases hframe : callFrame f args (m.entered f span) with
      | mk result m' =>
        cases result with
        | error e => exact fun q hq => by cases hq
        | ok frame => exact hbody (nested_callFrame (m := m.entered f span) hm hframe)
    · exact nested_onward (declares_runCall (declares_script env body)) hm fun _ _ hm' => ih hm'

/-! ## What nested frames come to -/

namespace Nested

variable {hs : List Header} {origins : List Origin}

theorem length_eq (h : Nested hs origins) : origins.length = hs.length := by
  induction h with
  | run => rfl
  | inner _ _ _ _ ih => rw [List.length_cons, List.length_cons, ih]

/-- A name that two frames have is a parameter of the call that made the inner one. -/
theorem shadow (h : Nested hs origins) {i j : Nat} {g g' : Header} {name : Text} (hlt : i < j) (hg : hs[i]? = some g)
    (hg' : hs[j]? = some g') (hname : name ∈ g.names) (hname' : name ∈ g'.names) :
    ∃ f, origins[i]? = some (.call f) ∧ name ∈ f.params.map Param.name := by
  induction h generalizing i j with
  | run =>
    obtain ⟨hj, -⟩ := List.getElem?_eq_some_iff.1 hg'
    rw [List.length_singleton] at hj
    omega
  | inner _ _ _ hshadow ih =>
    obtain ⟨j, rfl⟩ : ∃ k, j = k + 1 := ⟨j - 1, by omega⟩
    cases i with
    | zero =>
      obtain rfl := Option.some.inj hg
      obtain ⟨f, rfl, hparam⟩ := hshadow name hname ⟨g', List.mem_of_getElem? hg', hname'⟩
      exact ⟨f, rfl, hparam⟩
    | succ i => exact ih (Nat.lt_of_succ_lt_succ hlt) hg hg'

end Nested

end Run

theorem Frame.mem_names_header {f : Frame} {name : Text} : name ∈ f.header.names ↔ (f.lookup name).isSome = true := by
  rw [← Chain.contains_of_lookup, List.contains_iff_mem, ← Frame.signature_names]
  rfl

namespace Chain

variable {inner : Chain} {root : Frame} {name : Text}

/-- A name that no inner frame has is looked up in the root. -/
theorem find_root {v : Variable} (hinner : ∀ f ∈ inner, f.lookup name = none) (hv : root.lookup name = some v) :
    Chain.find name (inner ++ [root]) = .ok v := by
  induction inner with
  | nil =>
    rw [List.nil_append, Chain.find, hv]
  | cons f inner ih =>
    obtain ⟨hf, hinner⟩ := List.forall_mem_cons.1 hinner
    rw [List.cons_append, Chain.find, hf]
    have hmore : (inner ++ [root]).isEmpty = false := by cases inner <;> rfl
    simp only [hmore, Bool.false_and, Bool.false_eq_true, if_false]
    exact ih hinner

/-- A name that no inner frame has is changed in the root. -/
theorem update_root {v : Variable} (hinner : ∀ f ∈ inner, f.lookup name = none) (hv : root.lookup name = some v)
    (value : Option Value) :
    Chain.update name value (inner ++ [root]) = inner ++ [root.update name value] := by
  induction inner with
  | nil =>
    show (if (root.lookup name).isSome then _ else _) = _
    rw [hv]
    rfl
  | cons f inner ih =>
    obtain ⟨hf, hinner⟩ := List.forall_mem_cons.1 hinner
    rw [List.cons_append, Chain.update, hf, ih hinner]
    rfl

end Chain

open Run

/-- Shadowing in runs. At every point of a run the frames end in the root, which is their only root, and a name
that the root has is in no other frame, so whoever reads or changes it reaches the global variable. If two frames
have the same name, it is a parameter of the call for which the inner one of them was made. -/
theorem shadowed_by_parameters (p : Program) (registry : Registry) (world : World) (budget : Nat) (q : Point)
    (hq : q ∈ p.points registry world budget) :
    ∃ inner root, q.machine.chain = inner ++ [root] ∧ root.isRoot = true ∧ (∀ f ∈ inner, f.isRoot = false) ∧
      (∀ name v, root.lookup name = some v → (∀ f ∈ inner, f.lookup name = none) ∧
        q.machine.chain.find name = .ok v ∧
        ∀ value, q.machine.chain.update name value = inner ++ [root.update name value]) ∧
      q.origins.length = q.machine.chain.length ∧
      ∀ (i j : Nat) (f g : Frame) name, i < j → q.machine.chain[i]? = some f → q.machine.chain[j]? = some g →
        (f.lookup name).isSome = true → (g.lookup name).isSome = true →
        ∃ called, q.origins[i]? = some (.call called) ∧ name ∈ called.params.map Param.name := by
  have hnested : Nested q.machine.chain.headers q.origins :=
    nested_points _ _ (show Point.IsNested ⟨.start world budget, [.run]⟩ from .run rfl) q hq
  obtain ⟨inner, root, hheaders, hroot, hinner⟩ := hnested.root
  obtain ⟨inner, last, hchain, rfl, hlast⟩ := List.map_eq_append_iff.1 hheaders
  obtain ⟨root, rfl, rfl⟩ := List.map_eq_singleton_iff.1 hlast
  -- the invariant is about headers, which have names and no values
  have hglobal : ∀ name v, root.lookup name = some v → ∀ f ∈ inner, f.lookup name = none := by
    intro name v hv f hf
    cases hlookup : f.lookup name with
    | none => rfl
    | some w =>
      have hname := Frame.mem_names_header.2 (Option.isSome_iff_exists.2 ⟨w, hlookup⟩)
      refine absurd ?_ ((hinner _ (List.mem_map_of_mem hf)).2 name hname)
      exact Frame.mem_names_header.2 (Option.isSome_iff_exists.2 ⟨v, hv⟩)
  refine ⟨inner, root, hchain, hroot, fun f hf => (hinner _ (List.mem_map_of_mem hf)).1, fun name v hv => ?_, ?_, ?_⟩
  · have hfree := hglobal name v hv
    rw [hchain]
    exact ⟨hfree, Chain.find_root hfree hv, Chain.update_root hfree hv⟩
  · rw [hnested.length_eq]
    exact List.length_map _
  · intro i j f g name hlt hf hg hfname hgname
    have hheader : ∀ (k : Nat) (f : Frame), q.machine.chain[k]? = some f →
        q.machine.chain.headers[k]? = some f.header := by
      intro k f hf
      rw [Chain.headers, List.getElem?_map, hf]
      rfl
    exact hnested.shadow hlt (hheader i f hf) (hheader j g hg) (Frame.mem_names_header.2 hfname)
      (Frame.mem_names_header.2 hgname)

/-- Whether the frame with a given number has a name. -/
def Run.Point.has (q : Point) (i : Nat) (name : Text) : Bool :=
  (q.machine.chain[i]?).any fun f => (f.lookup name).isSome

/-- A program that calls a function with a parameter named like a local variable of the caller. -/
def localParam : Text := "func F(int x) \x7b WriteLine(x) \x7d func Main() \x7b int x F(1) \x7d"

/-- In the call the two innermost frames have the same name, and the inner one of them was made for the call. -/
theorem shadowed_by_parameters_local :
    ∃ p, parse "a" localParam = .ok p ∧ ∃ q ∈ p.points .default {} 9, q.has 0 "x" = true ∧ q.has 1 "x" = true ∧
      ∃ f, q.origins[0]? = some (.call f) ∧ Text.ofString "x" ∈ f.params.map Param.name := by
  have hread : (parse "a" localParam).toOption.map (fun p =>
      (p.points .default {} 9).any fun q => q.has 0 "x" && q.has 1 "x") = some true := by decide +kernel
  cases hparse : parse "a" localParam with
  | error e =>
    rw [hparse] at hread
    cases hread
  | ok p =>
    rw [hparse] at hread
    obtain ⟨q, hq, hboth⟩ := List.any_eq_true.1 (Option.some.inj hread)
    obtain ⟨hinner, houter⟩ := Bool.and_eq_true_iff.1 hboth
    refine ⟨p, rfl, q, hq, hinner, houter, ?_⟩
    obtain ⟨-, -, -, -, -, -, -, hshadow⟩ := shadowed_by_parameters p .default {} 9 q hq
    obtain ⟨f, hf, hfname⟩ := (Option.any_eq_true _ _).1 hinner
    obtain ⟨g, hg, hgname⟩ := (Option.any_eq_true _ _).1 houter
    exact hshadow 0 1 f g "x" Nat.zero_lt_one hf hg hfname hgname

end ScriptKit
