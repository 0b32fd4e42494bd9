import ScriptKit.Check

/-!
# The names in a chain of frames

The check knows which names are visible at a statement, block by block, and a run has the frames themselves.
`Chain.Shows names c` says that the two agree: the frames of `c` hold the names in `names`, frame by frame and
in the order in which they were declared, and the last frame is the root of a run. For such a chain every
action on a name is decided by `names.has`: a name can be declared if it is not there, and assigned or read if
it is.

Code that was called runs on top of the frames of its caller and must leave the names in them alone.
`Chain.Above names c` says that `c` has a frame on top of frames that show `names`.
-/

namespace ScriptKit

open Check (Names)

namespace Chain

/-- The names in the frames of a chain. -/
def names (c : Chain) : Names := c.map fun f => f.vars.map Prod.fst

/-- The last frame of a chain is the root of a run. -/
def Rooted (c : Chain) : Prop := ∃ f, c.getLast? = some f ∧ f.isRoot = true

/-- The frames of a chain hold the given names, and the last one is a root. -/
structure Shows (names : Names) (c : Chain) : Prop where
  names_eq : c.names = names
  rooted : c.Rooted

/-- A chain with one frame on top of frames that show the given names. -/
def Above (names : Names) (c : Chain) : Prop := ∃ f c₀, c = f :: c₀ ∧ Shows names c₀

variable {c c' : Chain} {f : Frame} {names : Names} {name : Text} {e : Scope.Error}

/-! ## Looking up -/

theorem contains_of_lookup (f : Frame) (name : Text) :
    (f.vars.map Prod.fst).contains name = (f.lookup name).isSome := by
  unfold Frame.lookup
  induction f.vars with
  | nil => rfl
  | cons entry vars ih =>
    obtain ⟨key, v⟩ := entry
    rw [List.map_cons, List.contains_cons, ih, List.lookup_cons]
    cases hkey : name == key <;> simp

theorem rooted_cons (h : c.Rooted) : Rooted (f :: c) := by
  obtain ⟨root, hlast, hroot⟩ := h
  refine ⟨root, ?_, hroot⟩
  rw [List.getLast?_cons, hlast]
  rfl

/-- In a chain that ends with a root, a name is found if it is there and is free otherwise. -/
theorem find_cases (h : c.Rooted) (name : Text) :
    (c.names.has name = true ∧ ∃ v, c.find name = .ok v) ∨
      (c.names.has name = false ∧ c.find name = .error .notFound) := by
  induction c with
  | nil =>
    obtain ⟨root, hlast, -⟩ := h
    cases hlast
  | cons f outer ih =>
    have hhas : Names.has (Chain.names (f :: outer)) name =
        ((f.lookup name).isSome || Names.has (Chain.names outer) name) := by
      rw [← contains_of_lookup]
      rfl
    rw [hhas, find]
    cases hf : f.lookup name with
    | some v => exact Or.inl ⟨rfl, v, rfl⟩
    | none =>
      cases outer with
      | nil =>
        obtain ⟨root, hlast, hroot⟩ := h
        obtain rfl : f = root := Option.some.inj hlast
        exact Or.inr (by simp [hroot, find, Chain.names, Names.has])
      | cons g outer =>
        obtain ⟨root, hlast, hroot⟩ := h
        have hrest := ih ⟨root, by simpa using hlast, hroot⟩
        simpa using hrest

section Shows

theorem Shows.find_ok (h : Shows names c) {v : Variable} (hv : c.find name = .ok v) :
    names.has name = true := by
  rcases find_cases h.rooted name with ⟨hhas, -⟩ | ⟨-, hfind⟩
  · rwa [h.names_eq] at hhas
  · rw [hv] at hfind
    cases hfind

theorem Shows.find_error (h : Shows names c) {cause : Scope.Cause} (hcause : c.find name = .error cause) :
    names.has name = false ∧ cause = .notFound := by
  rcases find_cases h.rooted name with ⟨-, v, hfind⟩ | ⟨hhas, hfind⟩
  · rw [hcause] at hfind
    cases hfind
  · rw [hcause] at hfind
    rw [h.names_eq] at hhas
    exact ⟨hhas, Except.error.inj hfind⟩

/-! ## Reading -/

theorem Shows.resolve_ok (h : Shows names c) {v : Option Value} (hv : c.resolve name = .ok v) :
    names.has name = true := by
  unfold resolve at hv
  cases hfind : c.find name with
  | ok _ => exact h.find_ok hfind
  | error cause =>
    rw [hfind] at hv
    cases hv

theorem Shows.resolve_error (h : Shows names c) (he : c.resolve name = .error e) :
    names.has name = false ∧ e = ⟨.resolve, name, .notFound⟩ := by
  unfold resolve at he
  cases hfind : c.find name with
  | ok v =>
    rw [hfind] at he
    cases he
  | error cause =>
    rw [hfind] at he
    obtain ⟨hhas, rfl⟩ := h.find_error hfind
    cases he
    exact ⟨hhas, rfl⟩

/-- The pieces of a literal are filled if all its names are there, and fail for one that is not. -/
theorem Shows.fill (h : Shows names c) (pieces : List Piece) :
    (∀ t, Piece.fill c pieces = .ok t → ∀ name ∈ pieces.filterMap Piece.name?, names.has name = true) ∧
    ∀ e, Piece.fill c pieces = .error e →
      ∃ name ∈ pieces.filterMap Piece.name?, names.has name = false ∧ e = ⟨.resolve, name, .notFound⟩ := by
  -- A glyph never fails, and of two missing names the first one is reported.
  induction pieces with
  | nil => exact ⟨fun _ _ => by simp, fun e he => by cases he⟩
  | cons piece pieces ih =>
    obtain ⟨ihok, iherror⟩ := ih
    cases piece with
    | glyph g =>
      simp only [Piece.fill]
      cases hrest : Piece.fill c pieces with
      | ok t => exact ⟨fun _ _ => ihok t hrest, fun e he => by cases he⟩
      | error e =>
        refine ⟨fun t ht => (by cases ht), fun e' he => ?_⟩
        cases he
        exact iherror e hrest
    | «variable» name =>
      simp only [Piece.fill]
      cases hvalue : c.resolve name with
      | error e =>
        refine ⟨fun t ht => (by cases ht), fun e' he => ?_⟩
        cases he
        exact ⟨name, List.mem_cons_self .., h.resolve_error hvalue⟩
      | ok v =>
        cases hrest : Piece.fill c pieces with
        | ok t =>
          refine ⟨fun _ _ => ?_, fun e he => by cases he⟩
          exact List.forall_mem_cons.2 ⟨h.resolve_ok hvalue, ihok t hrest⟩
        | error e =>
          refine ⟨fun t ht => (by cases ht), fun e' he => ?_⟩
          cases he
          obtain ⟨other, hother, hnot⟩ := iherror e hrest
          exact ⟨other, List.mem_cons_of_mem _ hother, hnot⟩

theorem Shows.interpolate_ok (h : Shows names c) {t t' : Text} (ht : interpolate c t = .ok t') :
    ∀ name ∈ placeholders t, names.has name = true := by
  unfold interpolate at ht
  cases hfill : Piece.fill c (Piece.ofLiteral t) with
  | ok filled => exact (h.fill _).1 filled hfill
  | error e =>
    rw [hfill] at ht
    cases ht

theorem Shows.interpolate_error (h : Shows names c) {t : Text} (he : interpolate c t = .error e) :
    ∃ name ∈ placeholders t, names.has name = false ∧ e = ⟨.resolve, name, .notFound⟩ := by
  unfold interpolate at he
  cases hfill : Piece.fill c (Piece.ofLiteral t) with
  | ok filled =>
    rw [hfill] at he
    cases he
  | error e' =>
    rw [hfill] at he
    cases he
    exact (h.fill _).2 e hfill

/-! ## Declaring and assigning -/

/-- A declaration succeeds only for a name that is free, and takes the name. -/
theorem Shows.declare_ok (h : Shows names c) {type : VarType} {value : Option Value}
    (hc : c.declare name type value = .ok c') : names.has name = false ∧ Shows (names.add name) c' := by
  unfold declare at hc
  rcases find_cases h.rooted name with ⟨-, v, hfind⟩ | ⟨hhas, hfind⟩
  · rw [hfind] at hc
    cases hc
  · rw [hfind] at hc
    cases c with
    | nil => cases hc
    | cons f outer =>
      cases hc
      rw [← h.names_eq]
      refine ⟨hhas, rfl, ?_⟩
      obtain ⟨root, hlast, hroot⟩ := h.rooted
      cases outer with
      | nil =>
        cases hlast
        exact ⟨_, rfl, hroot⟩
      | cons g outer => exact rooted_cons ⟨root, by simpa using hlast, hroot⟩

theorem Shows.declare_error (h : Shows names c) {type : VarType} {value : Option Value}
    (he : c.declare name type value = .error e) :
    names.has name = true ∧ e = ⟨.declare, name, .redeclared⟩ := by
  unfold declare at he
  rcases find_cases h.rooted name with ⟨hhas, v, hfind⟩ | ⟨-, hfind⟩
  · rw [hfind] at he
    cases he
    rw [h.names_eq] at hhas
    exact ⟨hhas, rfl⟩
  · rw [hfind] at he
    cases c with
    | nil =>
      obtain ⟨root, hlast, -⟩ := h.rooted
      cases hlast
    | cons f outer => cases he

/-- Giving a variable a value changes no names. -/
theorem names_update (c : Chain) (name : Text) (value : Option Value) :
    (c.update name value).names = c.names := by
  have hframe : ∀ f : Frame, (f.update name value).vars.map Prod.fst = f.vars.map Prod.fst := by
    intro f
    simp only [Frame.update, List.map_map]
    refine List.map_congr_left fun entry _ => ?_
    obtain ⟨key, v⟩ := entry
    by_cases hkey : key = name <;> simp [hkey]
  induction c with
  | nil => rfl
  | cons f outer ih =>
    unfold update
    split
    · exact congrArg (· :: Chain.names outer) (hframe f)
    · exact congrArg (_ :: ·) ih

theorem rooted_update (h : c.Rooted) (name : Text) (value : Option Value) :
    (c.update name value).Rooted := by
  induction c with
  | nil => exact h
  | cons f outer ih =>
    obtain ⟨root, hlast, hroot⟩ := h
    unfold update
    cases outer with
    | nil =>
      cases hlast
      split
      · exact ⟨_, rfl, hroot⟩
      · exact ⟨f, rfl, hroot⟩
    | cons g outer =>
      have hrest : Rooted (g :: outer) := ⟨root, by simpa using hlast, hroot⟩
      split
      · exact rooted_cons hrest
      · exact rooted_cons (ih hrest)

theorem Shows.update (h : Shows names c) (name : Text) (value : Option Value) :
    Shows names (c.update name value) :=
  ⟨(names_update c name value).trans h.names_eq, rooted_update h.rooted name value⟩

theorem Shows.assign_ok (h : Shows names c) {value : Option Value} (hc : c.assign name value = .ok c') :
    names.has name = true ∧ Shows names c' := by
  unfold assign at hc
  cases hfind : c.find name with
  | ok v =>
    rw [hfind] at hc
    cases hc
    exact ⟨h.find_ok hfind, h.update name value⟩
  | error cause =>
    rw [hfind] at hc
    cases hc

/-- An assignment fails only for a name that is not there. -/
theorem Shows.assign_error (h : Shows names c) {value : Option Value} (he : c.assign name value = .error e) :
    names.has name = false ∧ e = ⟨.assign, name, .notFound⟩ := by
  unfold assign at he
  cases hfind : c.find name with
  | ok v =>
    rw [hfind] at he
    cases he
  | error cause =>
    rw [hfind] at he
    obtain ⟨hhas, rfl⟩ := h.find_error hfind
    cases he
    exact ⟨hhas, rfl⟩

theorem Shows.push (h : Shows names c) : Shows ([] :: names) ({} :: c) :=
  ⟨congrArg ([] :: ·) h.names_eq, rooted_cons h.rooted⟩

/-- Without its first frame a chain shows what is left of the names. -/
theorem Shows.pop {block : List Text} (h : Shows (block :: names) c) (hne : names ≠ []) :
    Shows names c.tail := by
  obtain ⟨hnames, root, hlast, hroot⟩ := h
  match c with
  | [] => cases hnames
  | [f] =>
    cases hnames
    exact absurd rfl hne
  | f :: g :: outer =>
    exact ⟨(List.cons.inj hnames).2, root, by simpa using hlast, hroot⟩

end Shows

/-! ## Under a frame of its own -/

theorem Shows.ne_nil (h : Shows names c) : names ≠ [] := by
  rintro rfl
  obtain ⟨root, hlast, -⟩ := h.rooted
  rw [List.map_eq_nil_iff.1 h.names_eq] at hlast
  cases hlast

theorem Shows.cons (h : Shows names c) (f : Frame) : Shows (f.vars.map Prod.fst :: names) (f :: c) :=
  ⟨congrArg (_ :: ·) h.names_eq, rooted_cons h.rooted⟩

theorem Shows.above {block : List Text} (h : Shows (block :: names) c) (hne : names ≠ []) :
    Above names c := by
  have hpop := h.pop hne
  cases c with
  | nil => cases h.names_eq
  | cons f outer => exact ⟨f, outer, rfl, hpop⟩

theorem Above.declare (h : Above names c) {type : VarType} {value : Option Value}
    (hc : c.declare name type value = .ok c') : Above names c' := by
  obtain ⟨f, c₀, rfl, h⟩ := h
  unfold Chain.declare at hc
  split at hc
  · cases hc
  · next heq =>
    cases heq
    cases hc
    exact ⟨_, c₀, rfl, h⟩
  · cases hc

theorem Above.assign (h : Above names c) {value : Option Value} (hc : c.assign name value = .ok c') :
    Above names c' := by
  obtain ⟨f, c₀, rfl, h⟩ := h
  unfold Chain.assign at hc
  split at hc
  · cases hc
    unfold Chain.update
    split
    · exact ⟨_, c₀, rfl, h⟩
    · exact ⟨f, _, rfl, h.update name value⟩
  · cases hc

end Chain

end ScriptKit
