import ScriptKit.Proofs.Format.Print
import ScriptKit.Proofs.Text.Bytes

/-!
# The canonical text survives being written as bytes

Stray bytes occur in the canonical text only inside string literals, between two quotes. A literal that was
read from bytes holds no strays that form a character, and the quotes keep those at its ends apart from
everything else. So the bytes of the canonical text are read as the same text.

**Theorem (`settled_format`).** The canonical text of a well-formed program whose literals are settled is
settled.
-/

namespace ScriptKit

open Text

/-! ## Sealed pieces -/

/-- A settled text that does not begin with a stray byte. -/
def Closed (t : Text) : Prop := t.Settled ∧ ∀ b rest, t ≠ .stray b :: rest

/-- A piece of text that can be put in front of others. -/
def Sealed (t : Text) : Prop := ∀ u, Closed u → Closed (t ++ u)

theorem sealed_nil : Sealed [] := fun _ h => h

theorem Sealed.append {t u : Text} (ht : Sealed t) (hu : Sealed u) : Sealed (t ++ u) := by
  intro v hv
  rw [List.append_assoc]
  exact ht _ (hu v hv)

/-- What keeps its glyphs apart from any text behind it is read from its bytes as it is. -/
theorem Sealed.settled {t : Text} (h : Sealed t) : t.Settled := by
  have hclosed := h [] ⟨settled_nil, nofun⟩
  rw [List.append_nil] at hclosed
  exact hclosed.1

theorem sealed_of_isChar {t : Text} (h : ∀ g ∈ t, g.isChar = true) : Sealed t := by
  induction t with
  | nil => exact sealed_nil
  | cons g t ih =>
    intro u hu
    have hg := h g (List.mem_cons_self ..)
    cases g with
    | stray b => cases hg
    | char c =>
      have hrest := ih (fun g hg => h g (List.mem_cons_of_mem _ hg)) u hu
      exact ⟨(settled_char_iff c _).2 hrest.1, nofun⟩

theorem sealed_ofString (s : String) : Sealed (ofString s) := by
  refine sealed_of_isChar fun g hg => ?_
  obtain ⟨c, -, rfl⟩ := List.mem_map.1 hg
  rfl

/-- Quotes keep what is between them apart. -/
theorem sealed_literal {v : Text} (hv : v.Settled) : Sealed ("\"" ++ v ++ "\"") := by
  intro u hu
  have hclosing : Settled (.char '"' :: u) := (settled_char_iff '"' u).2 hu.1
  rw [List.append_assoc, List.append_assoc]
  exact ⟨(settled_char_iff '"' _).2 (hv.append_char hclosing), nofun⟩

/-- A name is made of characters only. -/
theorem sealed_name {v : Text} (hv : IsName v) : Sealed v := by
  refine sealed_of_isChar fun g hg => ?_
  have hpart := hv.parts g hg
  cases g with
  | char c => rfl
  | stray b => cases (Glyph.isNamePart_stray b).symm.trans hpart

theorem sealed_join {sep : Text} {ts : List Text} (hsep : Sealed sep) (h : ∀ t ∈ ts, Sealed t) :
    Sealed (join sep ts) := by
  induction ts with
  | nil => exact sealed_nil
  | cons t ts ih =>
    have ht := h t (List.mem_cons_self ..)
    have hts := ih fun u hu => h u (List.mem_cons_of_mem _ hu)
    cases ts with
    | nil => exact ht
    | cons u ts => exact (ht.append hsep).append hts

theorem sealed_indent (level : Nat) : Sealed (Node.indent level) := by
  refine sealed_of_isChar fun g hg => ?_
  rw [List.eq_of_mem_replicate hg]
  rfl

theorem sealed_parens {t : Text} (wrap : Bool) (h : Sealed t) : Sealed (Node.parens wrap t) := by
  cases wrap with
  | false => exact h
  | true => exact ((sealed_ofString _).append h).append (sealed_ofString _)

theorem sealed_braced {lines : List Text} (level : Nat) (h : ∀ t ∈ lines, Sealed t) :
    Sealed (Node.braced level lines) := by
  rw [Node.braced]
  split
  · exact sealed_ofString _
  · exact ((((sealed_ofString _).append (sealed_join (sealed_ofString _) h)).append
      (sealed_ofString _)).append (sealed_indent level)).append (sealed_ofString _)

/-! ## Trees -/

section Trees

variable {S : Text → Prop} {C : Text → Callee → Prop} {n : Node}

/-- The text of an expression is sealed if its literals are settled. -/
theorem IsExpr.sealed (hS : ∀ v, S v → v.Settled) (h : IsExpr S C n) : Sealed n.formatExpr := by
  induction h with
  | @number span v hv =>
    obtain ⟨m, hm⟩ := Int.eq_ofNat_of_zero_le hv
    rw [Node.formatExpr, hm]
    -- the value of a literal is not negative, so that it is written in digits
    refine sealed_of_isChar fun g hg => ?_
    have hdigit := isNumeralPart_of_mem_ofNat m g hg
    cases g with
    | char c => rfl
    | stray b => cases hdigit
  | str hv => exact sealed_literal (hS _ hv)
  | @bool span b => cases b <;> exact sealed_ofString _
  | use hname => exact sealed_name hname
  | call hname _ _ ih =>
    rw [Node.formatExpr, Node.formatArgs_eq_map]
    refine (((sealed_name hname).append (sealed_ofString _)).append
      (sealed_join (sealed_ofString _) fun t ht => ?_)).append (sealed_ofString _)
    obtain ⟨a, ha, rfl⟩ := List.mem_map.1 ht
    exact ih a ha
  | @sign span op n hop _ ih =>
    have hsymbol : Sealed op.symbol := by
      cases op with
      | other symbol => exact absurd rfl (hop symbol)
      | _ => exact sealed_ofString _
    exact hsymbol.append (sealed_parens _ ih)
  | @arith span left right op hop _ _ ihl ihr =>
    have hsymbol : Sealed op.symbol := by
      cases op with
      | other symbol => exact absurd rfl (hop symbol)
      | _ => exact sealed_ofString _
    have hoperation : ∀ {x y}, Sealed x → Sealed y → Sealed (x ++ " " ++ op.symbol ++ " " ++ y) :=
      fun hx hy => (((hx.append (sealed_ofString _)).append hsymbol).append (sealed_ofString _)).append hy
    rw [Node.formatExpr]
    split
    · exact hoperation ihl (sealed_parens _ ihr)
    · exact hoperation (sealed_parens _ ihl) (sealed_parens _ ihr)
  | @compare span left right op hop _ _ ihl ihr =>
    have hsymbol : Sealed op.symbol := by
      cases op with
      | other symbol => exact absurd rfl (hop symbol)
      | _ => exact sealed_ofString _
    exact ((((sealed_parens _ ihl).append (sealed_ofString _)).append hsymbol).append
      (sealed_ofString _)).append (sealed_parens _ ihr)

theorem sealed_type (type : VarType) : Sealed type.name := by cases type <;> exact sealed_ofString _

theorem sealed_variable {name : Text} {type : VarType} (h : IsVariable name type) :
    Sealed (type.name ++ " " ++ name) :=
  ((sealed_type type).append (sealed_ofString _)).append (sealed_name h.name)

theorem sealed_body {ns : List Node} (level : Nat) (h : ∀ n ∈ ns, Sealed (n.formatStmt level)) :
    ∀ t ∈ Node.formatBody level ns, Sealed t := by
  induction ns with
  | nil => nofun
  | cons n ns ih =>
    have hrest := ih fun m hm => h m (List.mem_cons_of_mem _ hm)
    rw [Node.formatBody_cons]
    split
    · exact hrest
    · intro t ht
      rcases List.mem_cons.1 ht with rfl | ht
      · exact h n (List.mem_cons_self ..)
      · exact hrest t ht

theorem sealed_headed {head inner body : Text} (hhead : Sealed head) (hinner : Sealed inner)
    (hbody : Sealed body) (level : Nat) : Sealed (Node.indent level ++ head ++ inner ++ ") " ++ body) :=
  ((((sealed_indent level).append hhead).append hinner).append (sealed_ofString _)).append hbody

/-- The text of a statement is sealed if its literals are settled. -/
theorem IsStmt.sealed (hS : ∀ v, S v → v.Settled) (h : IsStmt S C n) (level : Nat) :
    Sealed (n.formatStmt level) := by
  induction h generalizing level with
  | declare hvar =>
    have hpiece := (sealed_indent level).append (sealed_variable hvar)
    simpa [Node.formatStmt] using hpiece
  | declareAs hvar hvalue =>
    have hpiece := (((sealed_indent level).append (sealed_variable hvar)).append
      (sealed_ofString " = ")).append (hvalue.sealed hS)
    simpa [Node.formatStmt] using hpiece
  | assign hname hvalue =>
    exact (((sealed_indent level).append (sealed_name hname)).append (sealed_ofString " = ")).append
      (hvalue.sealed hS)
  | call hcall => exact (sealed_indent level).append (hcall.sealed hS)
  | @function span name params braces body hname hparams _ ih =>
    have hheader : Sealed (Node.header name params) := by
      refine ((((sealed_ofString _).append (sealed_name hname)).append (sealed_ofString _)).append
        (sealed_join (sealed_ofString _) fun t ht => ?_)).append (sealed_ofString _)
      obtain ⟨p, hp, rfl⟩ := List.mem_map.1 ht
      exact sealed_variable (hparams p hp)
    exact ((sealed_indent level).append hheader).append
      (sealed_braced level (sealed_body _ fun n hn => ih n hn _))
  | when hcond _ ih =>
    exact sealed_headed (sealed_ofString _) (hcond.sealed hS)
      (sealed_braced level (sealed_body _ fun n hn => ih n hn _)) level
  | choose hcond _ _ ihyes ihno =>
    exact ((sealed_headed (sealed_ofString _) (hcond.sealed hS)
      (sealed_braced level (sealed_body _ fun n hn => ihyes n hn _)) level).append
      (sealed_ofString _)).append (sealed_braced level (sealed_body _ fun n hn => ihno n hn _))
  | whileLoop hcond _ ih =>
    exact sealed_headed (sealed_ofString _) (hcond.sealed hS)
      (sealed_braced level (sealed_body _ fun n hn => ih n hn _)) level
  | forLoop hinit hinit' hcond _ hstep hstep' _ ihinit ihstep ih =>
    rw [Node.formatStmt, hinit.trim hinit', hstep.trim (by rw [hstep', Bool.or_true])]
    have hhead := (((sealed_indent level).append (sealed_ofString "for (")).append (ihinit 0)).append
      (sealed_ofString "; ")
    have hsecond := (hhead.append (hcond.sealed hS)).append (sealed_ofString "; ")
    exact ((hsecond.append (ihstep 0)).append (sealed_ofString _)).append
      (sealed_braced level (sealed_body _ fun n hn => ih n hn _))
  | skip => exact (sealed_indent level).append sealed_nil

theorem sealed_functions {fs : List Function} (follows : Bool)
    (h : ∀ f ∈ fs, Sealed (f.node.formatStmt 0)) :
    ∀ t ∈ Program.formatFunctions follows fs, Sealed t := by
  induction fs generalizing follows with
  | nil => nofun
  | cons f fs ih =>
    have hrest := ih true fun g hg => h g (List.mem_cons_of_mem _ hg)
    intro t ht
    rw [Program.formatFunctions, List.mem_append, List.mem_cons] at ht
    rcases ht with ht | rfl | ht
    · cases follows with
      | false => cases ht
      | true => exact List.mem_singleton.1 ht ▸ sealed_nil
    · exact h f (List.mem_cons_self ..)
    · exact hrest t ht

/-- The canonical text of a well-formed program whose literals are settled is settled. -/
theorem settled_format {p : Program} (hS : ∀ v, S v → v.Settled) (h : p.IsFormed S C) :
    p.format.Settled := by
  refine Sealed.settled ((sealed_join (sealed_ofString _) fun t ht => ?_).append (sealed_ofString _))
  rcases List.mem_append.1 ht with ht | ht
  · obtain ⟨n, hn, rfl⟩ := List.mem_map.1 ht
    exact (h.globals n hn).1.sealed hS 0
  · exact sealed_functions _ (fun f hf => (h.functions f hf).sealed hS 0) t ht

end Trees

end ScriptKit
