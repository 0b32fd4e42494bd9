import ScriptKit.Interpolate
import ScriptKit.Proofs.Run.Rules
import ScriptKit.Proofs.Text.Bytes
import ScriptKit.Proofs.Token.Spelling
import Mathlib.Data.List.TakeWhile

/-!
# Interpolation

A string literal is read twice. The check asks which names stand in it, to report those that are not visible; a run
fills it. A literal that passes the check must not fail in a run, so both have to cut it into the same pieces.

**The cut** (`Piece.Cuts`). A dollar sign and the name glyphs after it, as many as there are, are one piece. A dollar
sign with no name glyph after it is a piece for itself, and so is every other glyph. There is one such cut, and
`Piece.ofLiteral` gives it.

**The searches.** `fillFrom` and `namesFrom` cut the literal on their own: each searches for the next dollar sign, takes
the name after it and goes on behind the name. They part only where there is no name: the first then writes the dollar
sign, the second drops it. Both agree with the pieces.

**Theorem (`str_follows_placeholders`).** Evaluating a literal succeeds if and only if all its names resolve. Then
every name has been replaced by what its variable shows and all else has been kept, and otherwise the failure is the
one of the first name that does not resolve.
-/

namespace ScriptKit

namespace Piece

/-! ## The cut -/

/-- The pieces of a literal, as a reader sees them. -/
inductive Cuts : Text → List Piece → Prop
  | nil : Cuts [] []
  | plain {g : Glyph} {rest : Text} {pieces : List Piece} (hg : g ≠ .char '$') (h : Cuts rest pieces) :
      Cuts (g :: rest) (.glyph g :: pieces)
  | lone {rest : Text} {pieces : List Piece} (hend : Breaks inName rest) (h : Cuts rest pieces) :
      Cuts (.char '$' :: rest) (.glyph (.char '$') :: pieces)
  | name {name rest : Text} {pieces : List Piece} (hne : name ≠ []) (hname : ∀ g ∈ name, inName g = true)
      (hend : Breaks inName rest) (h : Cuts rest pieces) :
      Cuts (.char '$' :: (name ++ rest)) (.variable name :: pieces)

variable {t name rest : Text} {g : Glyph} {pieces : List Piece}

theorem takeWhile_of_breaks (h : Breaks inName t) : t.takeWhile inName = [] :=
  (takeWhile_append_boundary (v := []) nofun h).1

theorem dropWhile_of_takeWhile (h : t.takeWhile inName = []) : t.dropWhile inName = t := by
  have happend := List.takeWhile_append_dropWhile (p := inName) (l := t)
  rwa [h, List.nil_append] at happend

/-! ## The pieces one by one -/

theorem split_taken (n : Nat) (t : Text) : split n t = split 0 (t.drop n) := by
  induction n generalizing t with
  | zero => rfl
  | succ n ih =>
    cases t with
    | nil => rfl
    | cons g t => exact ih t

theorem ofLiteral_plain (hg : g ≠ .char '$') (rest : Text) :
    ofLiteral (g :: rest) = .glyph g :: ofLiteral rest := by
  rw [ofLiteral, split, if_neg hg]
  rfl

theorem ofLiteral_lone (h : rest.takeWhile inName = []) :
    ofLiteral (.char '$' :: rest) = .glyph (.char '$') :: ofLiteral rest := by
  rw [ofLiteral, split, if_pos rfl, h]
  rfl

theorem ofLiteral_name (hne : name ≠ []) (h : (name ++ rest).takeWhile inName = name) :
    ofLiteral (.char '$' :: (name ++ rest)) = .variable name :: ofLiteral rest := by
  rw [ofLiteral, split, if_pos rfl, h]
  cases name with
  | nil => exact absurd rfl hne
  | cons g name =>
    show _ :: split _ _ = _
    rw [split_taken, List.drop_left]
    rfl

/-- The name after a dollar sign, with what follows it. -/
theorem ofLiteral_dollar (h : rest.takeWhile inName ≠ []) :
    ofLiteral (.char '$' :: rest) = .variable (rest.takeWhile inName) :: ofLiteral (rest.dropWhile inName) := by
  have hname := @ofLiteral_name (rest.takeWhile inName) (rest.dropWhile inName) h
  rw [List.takeWhile_append_dropWhile] at hname
  exact hname rfl

theorem cuts_ofLiteral (t : Text) : Cuts t (ofLiteral t) := by
  induction hn : t.length using Nat.strongRecOn generalizing t with
  | ind n ih =>
    cases t with
    | nil => exact .nil
    | cons g rest =>
      have hrest : ∀ u : Text, u.length ≤ rest.length → Cuts u (ofLiteral u) := fun u hu =>
        ih u.length (by rw [← hn, List.length_cons]; omega) u rfl
      by_cases hg : g = .char '$'
      · subst hg
        by_cases hname : rest.takeWhile inName = []
        · have hend : Breaks inName rest := dropWhile_of_takeWhile hname ▸ breaks_dropWhile inName rest
          rw [ofLiteral_lone hname]
          exact .lone hend (hrest rest (le_refl _))
        · have hcut := Cuts.name hname (fun g hg => List.mem_takeWhile_imp hg) (breaks_dropWhile inName rest)
            (hrest _ (List.length_dropWhile_le ..))
          rw [List.takeWhile_append_dropWhile] at hcut
          rwa [ofLiteral_dollar hname]
      · rw [ofLiteral_plain hg]
        exact .plain hg (hrest rest (le_refl _))

/-- There is one cut of a literal. -/
theorem cuts_iff (t : Text) (pieces : List Piece) : Cuts t pieces ↔ pieces = ofLiteral t := by
  refine ⟨fun h => ?_, fun h => h ▸ cuts_ofLiteral t⟩
  induction h with
  | nil => rfl
  | plain hg _ ih => rw [ofLiteral_plain hg, ih]
  | lone hend _ ih => rw [ofLiteral_lone (takeWhile_of_breaks hend), ih]
  | name hne hname hend _ ih => rw [ofLiteral_name hne (takeWhile_append_boundary hname hend).1, ih]

end Piece

/-! ## Searching for dollar signs -/

/-- Whether a glyph is no dollar sign. -/
def notDollar (g : Glyph) : Bool := g != .char '$'

/-- What a variable shows. -/
def Value.shown (v : Option Value) : Text := (v.map Value.text).getD []

/-- Fill what is left of a literal after `out` was written. -/
def fillFrom (chain : Chain) (out t : Text) : Except Scope.Error Text :=
  match _h : t.dropWhile notDollar with
  | [] => .ok (out ++ t)
  | _ :: rest =>
    let out := out ++ t.takeWhile notDollar
    match rest.takeWhile Piece.inName with
    | [] => fillFrom chain (out ++ [.char '$']) rest
    | g :: name => do
      let value ← chain.resolve (g :: name)
      fillFrom chain (out ++ Value.shown value) (rest.dropWhile Piece.inName)
termination_by t.length
decreasing_by
  all_goals
    have hdrop := List.length_dropWhile_le notDollar t
    have hname := List.length_dropWhile_le Piece.inName rest
    rw [_h, List.length_cons] at hdrop
    omega

/-- The names in what is left of a literal after `names` were found. -/
def namesFrom (names : List Text) (t : Text) : List Text :=
  match _h : t.dropWhile notDollar with
  | [] => names
  | _ :: rest =>
    let name := rest.takeWhile Piece.inName
    namesFrom (if name = [] then names else names ++ [name]) (rest.dropWhile Piece.inName)
termination_by t.length
decreasing_by
  have hdrop := List.length_dropWhile_le notDollar t
  have hname := List.length_dropWhile_le Piece.inName rest
  rw [_h, List.length_cons] at hdrop
  omega

/-! ## The searches agree with the cut -/

section Searches

variable {t : Text} {g : Glyph} {rest : Text}

/-- A search stops at a dollar sign. -/
theorem eq_dollar_of_dropWhile (h : t.dropWhile notDollar = g :: rest) : g = .char '$' := by
  have hhead := List.head?_dropWhile_not notDollar t
  rw [h] at hhead
  simpa [notDollar] using hhead

/-- What is passed over on the way to the next dollar sign stands for itself. -/
theorem Piece.ofLiteral_front (t : Text) :
    ofLiteral t = (t.takeWhile notDollar).map .glyph ++ ofLiteral (t.dropWhile notDollar) := by
  induction t with
  | nil => rfl
  | cons g t ih =>
    by_cases hg : g = .char '$'
    · subst hg
      rfl
    · have hnot : notDollar g = true := by simpa [notDollar] using hg
      rw [ofLiteral_plain hg, List.takeWhile_cons_of_pos hnot, List.dropWhile_cons_of_pos hnot, ih]
      rfl

theorem Piece.fill_glyphs (chain : Chain) (front : Text) (pieces : List Piece) :
    fill chain (front.map .glyph ++ pieces) = (fill chain pieces).map (front ++ ·) := by
  induction front with
  | nil => cases h : fill chain pieces <;> simp [h, Except.map]
  | cons g front ih =>
    rw [List.map_cons, List.cons_append, fill, ih]
    cases fill chain pieces <;> rfl

theorem Piece.names_glyphs (front : Text) (pieces : List Piece) :
    (front.map Piece.glyph ++ pieces).filterMap name? = pieces.filterMap name? := by
  induction front with
  | nil => rfl
  | cons g front ih => exact ih

theorem Piece.ofLiteral_of_no_dollar (h : t.dropWhile notDollar = []) : ofLiteral t = t.map .glyph := by
  have happend := List.takeWhile_append_dropWhile (p := notDollar) (l := t)
  rw [h, List.append_nil] at happend
  rw [ofLiteral_front, h, happend]
  exact List.append_nil _

/-- Searching and filling is filling the pieces. -/
theorem fillFrom_eq (chain : Chain) (out t : Text) :
    fillFrom chain out t = (Piece.fill chain (Piece.ofLiteral t)).map (out ++ ·) := by
  -- The loop goes from one dollar sign to the next: none is left, or no name follows it, or a name does.
  fun_induction fillFrom chain out t with
  | case1 out t h =>
    have hfill := Piece.fill_glyphs chain t []
    rw [List.append_nil] at hfill
    rw [Piece.ofLiteral_of_no_dollar h, hfill]
    simp [Piece.fill, Except.map]
  | case2 out t g rest h before hname ih =>
    obtain rfl := eq_dollar_of_dropWhile h
    rw [ih, Piece.ofLiteral_front t, h, Piece.ofLiteral_lone hname, Piece.fill_glyphs, Piece.fill]
    cases Piece.fill chain (Piece.ofLiteral rest) <;> simp [Except.map, before, bind, Except.bind, pure, Except.pure]
  | case3 out t d rest h before g name hname ih =>
    obtain rfl := eq_dollar_of_dropWhile h
    have hne : rest.takeWhile Piece.inName ≠ [] := by simp [hname]
    rw [Piece.ofLiteral_front t, h, Piece.ofLiteral_dollar hne, Piece.fill_glyphs, Piece.fill, hname]
    cases chain.resolve (g :: name) with
    | error e => rfl
    | ok v =>
      show fillFrom chain _ _ = _
      rw [ih v]
      cases Piece.fill chain (Piece.ofLiteral (rest.dropWhile Piece.inName)) <;>
        simp [Except.map, before, bind, Except.bind, pure, Except.pure, Value.shown]

/-- Searching for names finds the names among the pieces. -/
theorem namesFrom_eq (names : List Text) (t : Text) : namesFrom names t = names ++ placeholders t := by
  fun_induction namesFrom names t with
  | case1 names t h =>
    have hnames := Piece.names_glyphs t []
    rw [List.append_nil] at hnames
    rw [placeholders, Piece.ofLiteral_of_no_dollar h, hnames]
    exact (List.append_nil names).symm
  | case2 names t g rest h name ih =>
    obtain rfl := eq_dollar_of_dropWhile h
    simp only [dite_eq_ite] at ih
    rw [ih, placeholders, placeholders, Piece.ofLiteral_front t, h, Piece.names_glyphs]
    by_cases hname : rest.takeWhile Piece.inName = []
    · rw [if_pos hname, Piece.ofLiteral_lone hname, Piece.dropWhile_of_takeWhile hname]
      rfl
    · rw [if_neg hname, Piece.ofLiteral_dollar hname]
      exact List.append_assoc ..

/-- Dollar signs in a row, at the end and inside a name. -/
example : placeholders "$$a $ $b$c\"$" = [("$a" : Text), ("b$c" : Text)] := by decide +kernel

end Searches

/-! ## Filling -/

/-- What a piece becomes where the variables of a chain are visible. -/
def Piece.shown (chain : Chain) : Piece → Text
  | .glyph g => [g]
  | .variable name =>
    match chain.resolve name with
    | .ok v => Value.shown v
    | .error _ => []

/-- All names resolve in a chain. -/
def Chain.Knows (chain : Chain) (names : List Text) : Prop := ∀ name ∈ names, ∃ v, chain.resolve name = .ok v

/-- The first of the names that does not resolve is the one in `e`. -/
def Chain.FailsFirst (chain : Chain) (names : List Text) (e : Scope.Error) : Prop :=
  ∃ before after, names = before ++ e.name :: after ∧ chain.Knows before ∧ chain.resolve e.name = .error e

theorem Chain.name_of_resolve {chain : Chain} {name : Text} {e : Scope.Error} (h : chain.resolve name = .error e) :
    e.name = name := by
  unfold resolve at h
  split at h
  · cases h
  · cases h
    rfl

theorem Chain.FailsFirst.cons {chain : Chain} {name : Text} {names : List Text} {v : Option Value} {e : Scope.Error}
    (hname : chain.resolve name = .ok v) (h : chain.FailsFirst names e) : chain.FailsFirst (name :: names) e := by
  obtain ⟨before, after, hnames, hbefore, he⟩ := h
  exact ⟨name :: before, after, by rw [hnames]; rfl, List.forall_mem_cons.2 ⟨⟨v, hname⟩, hbefore⟩, he⟩

/-- Not all names resolve if one of them fails. -/
theorem Chain.FailsFirst.not_knows {chain : Chain} {names : List Text} {e : Scope.Error}
    (h : chain.FailsFirst names e) : ¬chain.Knows names := by
  obtain ⟨before, after, hnames, -, he⟩ := h
  intro hall
  obtain ⟨v, hv⟩ := hall e.name (by simp [hnames])
  rw [he] at hv
  cases hv

/-- Pieces are filled from left to right, up to the first name that does not resolve. -/
theorem Piece.fill_cases (chain : Chain) (pieces : List Piece) :
    (chain.Knows (pieces.filterMap name?) ∧ fill chain pieces = .ok (pieces.flatMap (shown chain))) ∨
      ∃ e, chain.FailsFirst (pieces.filterMap name?) e ∧ fill chain pieces = .error e := by
  induction pieces with
  | nil => exact .inl ⟨by simp [Chain.Knows], rfl⟩
  | cons piece pieces ih =>
    cases piece with
    | glyph g =>
      rcases ih with ⟨hall, hfill⟩ | ⟨e, hfirst, hfill⟩
      · exact .inl ⟨hall, by rw [fill, hfill]; rfl⟩
      · exact .inr ⟨e, hfirst, by rw [fill, hfill]; rfl⟩
    | «variable» name =>
      cases hname : chain.resolve name with
      | error e =>
        obtain rfl := Chain.name_of_resolve hname
        exact .inr ⟨e, ⟨[], _, rfl, by simp [Chain.Knows], hname⟩, by rw [fill, hname]; rfl⟩
      | ok v =>
        rcases ih with ⟨hall, hfill⟩ | ⟨e, hfirst, hfill⟩
        · refine .inl ⟨List.forall_mem_cons.2 ⟨⟨v, hname⟩, hall⟩, ?_⟩
          rw [fill, hname, hfill, List.flatMap_cons, shown, hname]
          rfl
        · exact .inr ⟨e, hfirst.cons hname, by rw [fill, hname, hfill]; rfl⟩

/-- Reading a text again changes none of its bytes. -/
theorem Text.toBytes_settle (t : Text) : t.settle.toBytes = t.toBytes := by
  unfold settle
  split
  · rfl
  · exact toBytes_ofBytes _

namespace Run

/-- Evaluating a string literal looks at the frames and changes nothing. -/
theorem eval_str (env : Env) (level : Nat) (span : Span) (t : Text) (m : Machine) :
    eval env level (.str span t) m =
      match interpolate m.chain t with
      | .ok filled => (.ok (some (.str filled)), m)
      | .error e => (.error ⟨.scope e, span⟩, m) := by
  rw [eval_eq, evalWith]
  show (liftScope span (interpolate m.chain t) >>= fun filled => Pure.pure (some (Value.str filled))) m = _
  cases interpolate m.chain t <;> rfl

/-- A literal has one cut, the two searches agree with it, and evaluating the literal succeeds if and only if all its
names resolve. On success the value has the bytes of what the pieces show, one after the other; otherwise the failure is
the one of the first name that does not resolve. -/
theorem str_follows_placeholders (env : Env) (level : Nat) (span : Span) (t : Text) (m : Machine) :
    ∃ pieces, (∀ other, Piece.Cuts t other ↔ other = pieces) ∧ placeholders t = pieces.filterMap Piece.name? ∧
      namesFrom [] t = placeholders t ∧ (fillFrom m.chain [] t).map Text.settle = interpolate m.chain t ∧
      ((∃ v m', eval env level (.str span t) m = (.ok v, m')) ↔ m.chain.Knows (placeholders t)) ∧
      (∀ v m', eval env level (.str span t) m = (.ok v, m') →
        m' = m ∧ ∃ out, v = some (.str out) ∧ out.toBytes = Text.toBytes (pieces.flatMap (Piece.shown m.chain))) ∧
      ∀ f m', eval env level (.str span t) m = (.error f, m') →
        m' = m ∧ f.span = span ∧ f.fault.code = .scope ∧
          ∃ e, f.fault = .scope e ∧ m.chain.FailsFirst (placeholders t) e := by
  refine ⟨_, Piece.cuts_iff t, rfl, namesFrom_eq [] t, ?_, ?_⟩
  · rw [fillFrom_eq, interpolate]
    cases Piece.fill m.chain (Piece.ofLiteral t) <;> rfl
  rw [eval_str, interpolate]
  rcases Piece.fill_cases m.chain (Piece.ofLiteral t) with ⟨hall, hfill⟩ | ⟨e, hfirst, hfill⟩
  · rw [hfill]
    refine ⟨iff_of_true ⟨_, m, rfl⟩ hall, ?_, fun f m' h => (by cases h)⟩
    rintro _ _ ⟨⟩
    exact ⟨rfl, _, rfl, Text.toBytes_settle _⟩
  · rw [hfill]
    refine ⟨iff_of_false ?_ hfirst.not_knows, fun v m' h => (by cases h), ?_⟩
    · rintro ⟨v, m', h⟩
      cases h
    · rintro _ _ ⟨⟩
      exact ⟨rfl, rfl, rfl, e, rfl, hfirst⟩

end Run

end ScriptKit
