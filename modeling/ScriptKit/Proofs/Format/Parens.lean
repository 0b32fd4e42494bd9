import Mathlib.Algebra.GroupWithZero.Nat
import ScriptKit.Proofs.Format.RoundTrip
import ScriptKit.Proofs.Grammar.Linear

/-!
# No parentheses to spare

No text of a program opens fewer parentheses than its canonical text does. What a parser reads pays for what is
printed: between two states of the parser there are at least as many opening parentheses as the canonical form of
what is read there has (`Reads.spends`). An operand is charged for the parentheses that the formatter would put around
it in its place, so an operand of a product is charged more than one of a sum; the grammar asks it to stand in
parentheses in the same cases.

Hence a pair of parentheses cannot be taken out of the canonical text. The text without it opens one parenthesis less,
so it is no text of the same program. It does not matter where the pair stands, nor whether the two belong together.

**Theorem (`opens_format_le`).** The canonical text of a program opens at most as many parentheses as its source.

**Theorem (`no_spare_parens`).** Without an opening and a closing parenthesis the canonical text of a program is not
parsed, or parsed as a program with another outline.
-/

namespace ScriptKit

open Parse

/-! ## Parentheses in a text -/

namespace Text

/-- How many parentheses a text opens. -/
def opens (t : Text) : Nat := t.count (.char '(')

@[simp] theorem opens_ofString (s : String) : (ofString s).opens = s.toList.count '(' := by
  rw [opens, ofString, ofChars, List.count, List.countP_map]
  exact List.countP_congr fun c _ => by simp

@[simp] theorem opens_append (t u : Text) : (t ++ u).opens = t.opens + u.opens := List.count_append

theorem opens_of_notMem {t : Text} (h : .char '(' ∉ t) : t.opens = 0 := List.count_eq_zero.2 h

theorem opens_join {sep : Text} (hsep : sep.opens = 0) (ts : List Text) :
    (join sep ts).opens = (ts.map opens).sum := by
  induction ts with
  | nil => rfl
  | cons t ts ih =>
    cases ts with
    | nil => simp [join]
    | cons u ts =>
      show (t ++ sep ++ join sep (u :: ts)).opens = t.opens + ((u :: ts).map opens).sum
      rw [opens_append, opens_append, ih, hsep, Nat.add_zero]

theorem opens_ofInt (n : Int) : (ofInt n).opens = 0 := by
  have hdigits : ∀ m : Nat, .char '(' ∉ ofNat m := fun m hm =>
    absurd (isNumeralPart_of_mem_ofNat m _ hm) (by decide)
  cases n with
  | ofNat m => exact opens_of_notMem (hdigits m)
  | negSucc m => exact opens_of_notMem (by simp [ofInt, hdigits])

theorem opens_trim_le (t : Text) : t.trim.opens ≤ t.opens := by
  refine List.Sublist.count_le _ ?_
  have hback : (dropRightWhile Glyph.isBlank (t.dropWhile Glyph.isBlank)).Sublist (t.dropWhile Glyph.isBlank) := by
    have := (List.dropWhile_sublist Glyph.isBlank (l := (t.dropWhile Glyph.isBlank).reverse)).reverse
    rwa [List.reverse_reverse] at this
  exact hback.trans (List.dropWhile_sublist _)

/-- The byte of a parenthesis is part of no other character. -/
theorem count_utf8EncodeChar (c : Char) :
    (String.utf8EncodeChar c).count 0x28 = if c = '(' then 1 else 0 := by
  split
  · next h =>
    subst h
    decide
  · next hne => exact List.count_eq_zero.2 fun hmem => hne (eq_of_mem_utf8EncodeChar (by decide) hmem)

/-- Parentheses are counted in the bytes of a text as well. -/
theorem opens_ofBytes (bs : List UInt8) : (ofBytes bs).opens = bs.count 0x28 := by
  induction bs using ofBytes_induction with
  | nil => rfl
  | char c rest ih =>
    rw [ofBytes_utf8EncodeChar, List.count_append, count_utf8EncodeChar, ← ih]
    simp [opens, List.count_cons, Nat.add_comm]
  | stray b rest hb hread ih =>
    have hne : b ≠ 0x28 := fun h => by subst h; exact absurd hb (by decide)
    rw [hread, List.count_cons_of_ne hne, ← ih]
    exact List.count_cons_of_ne (by simp)

end Text

namespace Node

@[simp] theorem opens_parens (wrap : Bool) (t : Text) : (parens wrap t).opens = wrap.toNat + t.opens := by
  cases wrap <;> simp [parens]

@[simp] theorem opens_indent (level : Nat) : (indent level).opens = 0 :=
  Text.opens_of_notMem fun h => by cases List.eq_of_mem_replicate h

@[simp] theorem opens_type (type : VarType) : type.name.opens = 0 := by
  cases type <;> simp [VarType.name]

@[simp] theorem opens_braced (level : Nat) (lines : List Text) :
    (braced level lines).opens = (lines.map Text.opens).sum := by
  rw [braced]
  split
  · next h => simp [List.isEmpty_iff.1 h]
  · simp [Text.opens_join]

/-- An operand that gets parentheses beside a product or a comparison is an operation. -/
theorem toNat_left_le (n : Node) : (n.isComparison || n.isAdditive).toNat ≤ n.isOperation.toNat := by
  cases n <;> simp [isComparison, isAdditive, isOperation, Bool.toNat_le]

theorem toNat_right_le (n : Node) : n.isAdditive.toNat ≤ (n.isComparison || n.isAdditive).toNat := by
  cases n.isComparison <;> simp [Bool.toNat_le]

section Operators

variable {span : Span} {left right operand : Node}

theorem opens_sign {op : Sign} (hop : ∀ symbol, op ≠ .other symbol) :
    (Node.sign span op operand).formatExpr.opens = (parens operand.isOperation operand.formatExpr).opens := by
  cases op with
  | other symbol => exact absurd rfl (hop symbol)
  | _ => simp [formatExpr, Sign.symbol]

theorem opens_sum {op : Arith} (hop : op = .add ∨ op = .sub) :
    (Node.arith span left op right).formatExpr.opens =
      left.formatExpr.opens + (parens right.isAdditive right.formatExpr).opens := by
  rcases hop with rfl | rfl <;> simp [formatExpr, Arith.isAdditive, Arith.symbol]

/-- A product is no sum, and stands without parentheses on the left of another one. -/
theorem opens_product {op : Arith} (hop : op = .mul ∨ op = .div) :
    (parens ((Node.arith span left op right).isComparison || (Node.arith span left op right).isAdditive)
        (Node.arith span left op right).formatExpr).opens =
      (parens (left.isComparison || left.isAdditive) left.formatExpr).opens +
        (parens right.isOperation right.formatExpr).opens := by
  rcases hop with rfl | rfl <;> simp [formatExpr, isComparison, isAdditive, Arith.isAdditive, Arith.symbol]

theorem opens_compare {op : Relation} (hop : ∀ symbol, op ≠ .other symbol) :
    (Node.compare span left op right).formatExpr.opens =
      (parens (left.isComparison || left.isAdditive) left.formatExpr).opens +
        (parens right.isOperation right.formatExpr).opens := by
  cases op with
  | other symbol => exact absurd rfl (hop symbol)
  | _ => simp [formatExpr, Relation.symbol]

end Operators

theorem opens_call (span : Span) (name : Text) (callee : Callee) (args : List Node) :
    (Node.call span name callee args).formatExpr.opens =
      name.opens + 1 + (args.map fun n => n.formatExpr.opens).sum := by
  have hargs : (Text.join ", " (formatArgs args)).opens = (args.map fun n => n.formatExpr.opens).sum := by
    rw [formatArgs_eq_map, Text.opens_join (by simp), List.map_map]
    rfl
  simp [formatExpr, hargs, Nat.add_assoc]

theorem opens_header (name : Text) (params : List Param) :
    (header name params).opens = name.opens + 1 + (params.map fun p => p.name.opens).sum := by
  have hparams : (Text.join ", " (params.map fun p => p.type.name ++ " " ++ p.name)).opens =
      (params.map fun p => p.name.opens).sum := by
    rw [Text.opens_join (by simp), List.map_map]
    exact congrArg List.sum (List.map_congr_left fun p _ => by simp)
  simp only [header, Text.opens_append, hparams]
  simp

section Statements

variable (level : Nat) (span : Span) (name : Text) (type : VarType) (value cond init step : Node) (braces braces' : Braces)
  (body no : List Node)

theorem opens_declare : ((Node.declare span name type).formatStmt level).opens = name.opens := by simp [formatStmt]

theorem opens_declareAs :
    ((Node.declareAs span name type value).formatStmt level).opens = name.opens + value.formatExpr.opens := by
  simp [formatStmt]

theorem opens_assign :
    ((Node.assign span name value).formatStmt level).opens = name.opens + value.formatExpr.opens := by
  simp [formatStmt]

theorem opens_function (params : List Param) :
    ((Node.function span name params braces body).formatStmt level).opens =
      name.opens + 1 + (params.map fun p => p.name.opens).sum +
        ((formatBody (level + 1) body).map Text.opens).sum := by
  simp [formatStmt, opens_header]

theorem opens_when :
    ((Node.when span cond braces body).formatStmt level).opens =
      1 + cond.formatExpr.opens + ((formatBody (level + 1) body).map Text.opens).sum := by
  simp [formatStmt, Nat.add_assoc]

theorem opens_choose :
    ((Node.choose span cond braces body braces' no).formatStmt level).opens =
      1 + cond.formatExpr.opens + ((formatBody (level + 1) body).map Text.opens).sum +
        ((formatBody (level + 1) no).map Text.opens).sum := by
  simp [formatStmt, Nat.add_assoc]

theorem opens_whileLoop :
    ((Node.whileLoop span cond braces body).formatStmt level).opens =
      1 + cond.formatExpr.opens + ((formatBody (level + 1) body).map Text.opens).sum := by
  simp [formatStmt, Nat.add_assoc]

theorem opens_forLoop_le :
    ((Node.forLoop span init cond step braces body).formatStmt level).opens ≤
      1 + (init.formatStmt 0).opens + cond.formatExpr.opens + (step.formatStmt 0).opens +
        ((formatBody (level + 1) body).map Text.opens).sum := by
  have hinit := (init.formatStmt 0).opens_trim_le
  have hstep := (step.formatStmt 0).opens_trim_le
  simp [formatStmt]
  omega

end Statements

theorem opens_formatBody_le (level : Nat) (n : Node) (ns : List Node) :
    ((formatBody level (n :: ns)).map Text.opens).sum ≤
      (n.formatStmt level).opens + ((formatBody level ns).map Text.opens).sum := by
  rw [formatBody_cons]
  split
  · exact Nat.le_add_left _ _
  · exact Nat.le_refl _

end Node

/-! ## Parentheses in tokens -/

/-- How many parentheses stand in a token. A truth value is not written as its value, and has none. -/
def Token.opens (t : Token) : Nat :=
  match t.kind with
  | .leftParen => 1
  | .bool => 0
  | _ => t.value.opens

theorem Token.opens_of_spelling {t : Token} (ht : t.kind.spelling? = some t.value) : t.opens ≤ t.value.opens := by
  unfold Token.opens
  split
  · next hparen =>
    rw [hparen] at ht
    rw [← Option.some.inj ht]
    exact Nat.le_refl _
  · exact Nat.zero_le _
  · exact Nat.le_refl _

/-- A token has no more parentheses than what it is written as. -/
theorem Written.opens_le {rest lexeme : Text} {t : Token} (h : Written rest t.kind t.value lexeme) :
    t.opens ≤ lexeme.opens := by
  obtain ⟨k, v, span⟩ := t
  cases h with
  | symbol hk => exact Token.opens_of_spelling hk
  | keyword hk => exact Token.opens_of_spelling (spelling?_of_ofWord? hk)
  | string =>
    show v.opens ≤ Text.opens ([Glyph.quote] ++ v ++ [Glyph.quote])
    rw [Text.opens_append, Text.opens_append]
    omega
  | truth => exact Nat.zero_le _
  | number | name | call => exact Nat.le_refl _

/-- The tokens of a cut have no more parentheses than the source. -/
theorem Lexed.opens_le {file before source : Text} {ts : List Token} (h : Lexed file before source ts) :
    (ts.map Token.opens).sum ≤ source.opens := by
  induction h with
  | stop => exact Nat.zero_le _
  | token _ hwritten _ _ ih =>
    have hlexeme := hwritten.opens_le
    rw [List.map_cons, List.sum_cons, Text.opens_append, Text.opens_append]
    omega

namespace Parse

/-- How many parentheses stand in the tokens that are left. -/
def State.opens (s : State) : Nat := (s.tokens.map Token.opens).sum

section Takes

variable {k : Token.Kind} {t : Token} {s s' : State}

theorem Takes.opens (h : Takes k t s s') : s.opens = t.opens + s'.opens := by
  rw [State.opens, h.tokens, List.map_cons, List.sum_cons]
  rfl

theorem Takes.opens_le (h : Takes k t s s') : s'.opens ≤ s.opens := by
  rw [h.opens]
  exact Nat.le_add_left _ _

theorem Takes.opens_paren (h : Takes .leftParen t s s') : s.opens = 1 + s'.opens := by
  rw [h.opens, Token.opens, h.kind]

theorem Takes.opens_value (h : Takes k t s s') (hk : k ≠ .leftParen) (hk' : k ≠ .bool) :
    s.opens = t.value.opens + s'.opens := by
  rw [h.opens, Token.opens, h.kind]
  split
  · exact absurd rfl hk
  · exact absurd rfl hk'
  · rfl

theorem State.opens_pastComma (s : State) : s.pastComma.opens ≤ s.opens := by
  rcases s.pastComma_eq with h | ⟨t, h⟩
  · exact Nat.le_of_eq (congrArg State.opens h)
  · exact h.opens_le

end Takes

/-! ## What is read pays for what is printed -/

/-- The canonical form of a phrase opens no more parentheses than stand between two states. A rest has those of what it
continues at its disposal as well. -/
def Phrase.Spends (s s' : State) : Phrase → Prop
  | .factor n | .call n => (Node.parens n.isOperation n.formatExpr).opens + s'.opens ≤ s.opens
  | .termRest left n =>
    (Node.parens n.isAdditive n.formatExpr).opens + s'.opens ≤
      (Node.parens (left.isComparison || left.isAdditive) left.formatExpr).opens + s.opens
  | .term n => (Node.parens n.isAdditive n.formatExpr).opens + s'.opens ≤ s.opens
  | .exprRest left n => n.formatExpr.opens + s'.opens ≤ left.formatExpr.opens + s.opens
  | .expr n => n.formatExpr.opens + s'.opens ≤ s.opens
  | .condition n => 1 + n.formatExpr.opens + s'.opens ≤ s.opens
  | .args ns => (ns.map fun n => n.formatExpr.opens).sum + s'.opens ≤ s.opens
  | .params ps => (ps.map fun p => p.name.opens).sum + s'.opens ≤ s.opens
  | .declaration n | .assignment n | .loopStart n | .stmt _ n =>
    ∀ level, (n.formatStmt level).opens + s'.opens ≤ s.opens
  | .block _ _ ns | .stmts _ ns => ∀ level, ((Node.formatBody level ns).map Text.opens).sum + s'.opens ≤ s.opens
  | .globals ns => (ns.map fun n => (n.formatStmt 0).opens).sum + s'.opens ≤ s.opens
  | .function _ f => ∀ level, (f.node.formatStmt level).opens + s'.opens ≤ s.opens
  | .functions fs => (fs.map fun f => (f.node.formatStmt 0).opens).sum + s'.opens ≤ s.opens

section Spending

variable {source : Text} {k : Token.Kind} {t : Token} {s s' : State}

theorem Takes.product (h : Takes k t s s') (hs : s.IsSpelled source) (hk : k = .star ∨ k = .slash) :
    Arith.ofSymbol t.value = .mul ∨ Arith.ofSymbol t.value = .div := by
  have hfixed := fun w hw => (h.spelled hs).fixed w hw
  rcases hk with rfl | rfl
  · exact Or.inl (by rw [hfixed _ rfl]; rfl)
  · exact Or.inr (by rw [hfixed _ rfl]; rfl)

theorem Takes.sum (h : Takes k t s s') (hs : s.IsSpelled source) (hk : k = .plus ∨ k = .minus) :
    Arith.ofSymbol t.value = .add ∨ Arith.ofSymbol t.value = .sub := by
  have hfixed := fun w hw => (h.spelled hs).fixed w hw
  rcases hk with rfl | rfl
  · exact Or.inl (by rw [hfixed _ rfl]; rfl)
  · exact Or.inr (by rw [hfixed _ rfl]; rfl)

end Spending

/-- Between two states stand at least so many opening parentheses. -/
def Pays (s s' : State) (n : Nat) : Prop := n + s'.opens ≤ s.opens

section Pays

variable {source : Text} {k : Token.Kind} {t l r : Token} {s s₁ s₂ s' : State} {m n : Nat}

theorem Pays.refl (s : State) : Pays s s 0 := Nat.le_of_eq (Nat.zero_add _)

theorem Pays.mono (h : Pays s s' m) (hle : n ≤ m) : Pays s s' n := Nat.le_trans (Nat.add_le_add_right hle _) h

/-- What stands between states that meet is paid one after the other. -/
theorem Pays.append (h : Pays s s₁ m) (h' : Pays s₁ s' n) : Pays s s' (m + n) := by
  unfold Pays at *
  omega

theorem Takes.pays (h : Takes k t s s') : Pays s s' 0 := by
  rw [Pays, Nat.zero_add]
  exact h.opens_le

theorem Takes.pays_value (h : Takes k t s s') (hk : k ≠ .leftParen) (hk' : k ≠ .bool) :
    Pays s s' t.value.opens := Nat.le_of_eq (h.opens_value hk hk').symm

theorem State.pays_pastComma (s : State) : Pays s s.pastComma 0 := by
  rw [Pays, Nat.zero_add]
  exact s.opens_pastComma

/-- What stands in parentheses pays for one more. -/
theorem Pays.inParens (h : Pays s₁ s₂ n) (hl : Takes .leftParen l s s₁) (hr : Takes .rightParen r s₂ s') :
    Pays s s' (1 + n) :=
  Pays.append (Nat.le_of_eq hl.opens_paren.symm) (h.append hr.pays)

end Pays

/-- What is read pays for what is printed. -/
theorem Reads.spends {known : Option (List Text)} {source : Text} {φ : Phrase} {s s' : State}
    (h : Reads known φ s s') (hs : s.IsSpelled source) : φ.Spends s s' := by
  -- What is printed for a part is paid by what was read for it. An operation is printed in parentheses where it
  -- could not have been read without them, and `Spends` charges these to the phrase that stands there.
  induction h with
  | sign ht hk _ ih =>
    refine (ht.pays.append (ih (ht.isSpelled hs))).mono ?_
    show (Node.parens false _).opens ≤ _
    rw [Node.opens_parens, Node.opens_sign ((ht.spelled hs).sign_ne_other hk)]
    exact Nat.le_refl _
  | number ht _ =>
    refine ht.pays.mono ?_
    simp [Node.isOperation, Node.formatExpr, Text.opens_ofInt]
  | str ht | use ht =>
    refine (ht.pays_value (by decide) (by decide)).mono ?_
    simp [Node.isOperation, Node.formatExpr]
  | bool ht =>
    refine ht.pays.mono ?_
    show (Node.parens false (if _ then ("true" : Text) else "false")).opens ≤ 0
    split <;> simp
  | @paren _ _ n _ _ _ _ hl _ hr ih =>
    -- an operand has one pair of parentheses at most
    have hwrap := Bool.toNat_le n.isOperation
    refine (Pays.inParens (ih (hl.isSpelled hs)) hl hr).mono ?_
    rw [Node.opens_parens]
    omega
  | called _ ih | startDeclaration _ ih | startAssignment _ ih | stmtFunction _ ih | stmtDeclaration _ ih
  | stmtAssignment _ ih => exact ih hs
  | @termStop left s =>
    -- as a left operand the term has paid for a comparison as well
    have hwrap := Node.toNat_right_le left
    show (Node.parens left.isAdditive left.formatExpr).opens + s.opens ≤
      (Node.parens (left.isComparison || left.isAdditive) left.formatExpr).opens + s.opens
    rw [Node.opens_parens, Node.opens_parens]
    omega
  | @times k t left right n s s₁ s₂ s' ht hk hread _ ih ih' =>
    have hs₁ := ht.isSpelled hs
    have hright : Pays s s₂ _ := ht.pays.append (ih hs₁)
    have hrest : _ ≤ (Node.parens _ _).opens + s₂.opens := ih' (hread.isSpelled hs₁)
    rw [Node.opens_product (ht.product hs hk)] at hrest
    unfold Pays at hright
    show _ ≤ (Node.parens (left.isComparison || left.isAdditive) left.formatExpr).opens + s.opens
    omega
  | @compare k t left right s s₁ s' ht hk _ ih =>
    have hright : Pays s s' _ := ht.pays.append (ih (ht.isSpelled hs))
    unfold Pays at hright
    show (Node.parens false _).opens + s'.opens ≤
      (Node.parens (left.isComparison || left.isAdditive) left.formatExpr).opens + s.opens
    rw [Node.opens_parens, Node.opens_compare ((ht.spelled hs).relation_ne_other hk)]
    simp only [Bool.toNat_false]
    omega
  | @term left n s s₁ s' hread _ ih ih' =>
    have hleft : (Node.parens left.isOperation left.formatExpr).opens + s₁.opens ≤ s.opens := ih hs
    have hrest : _ ≤ (Node.parens (left.isComparison || left.isAdditive) left.formatExpr).opens + s₁.opens :=
      ih' (hread.isSpelled hs)
    -- as a factor it has paid for any operation
    have hwrap := Node.toNat_left_le left
    rw [Node.opens_parens _ left.formatExpr] at hleft hrest
    show _ ≤ s.opens
    omega
  | exprStop => exact Nat.le_refl _
  | @plus k t left right n s s₁ s₂ s' ht hk hread _ ih ih' =>
    have hs₁ := ht.isSpelled hs
    have hright : Pays s s₂ _ := ht.pays.append (ih hs₁)
    have hrest : n.formatExpr.opens + s'.opens ≤ (Node.formatExpr _).opens + s₂.opens := ih' (hread.isSpelled hs₁)
    rw [Node.opens_sum (ht.sum hs hk)] at hrest
    unfold Pays at hright
    show n.formatExpr.opens + s'.opens ≤ left.formatExpr.opens + s.opens
    omega
  | @expr left n s s₁ s' hread _ ih ih' =>
    have hleft : (Node.parens left.isAdditive left.formatExpr).opens + s₁.opens ≤ s.opens := ih hs
    have hrest : n.formatExpr.opens + s'.opens ≤ left.formatExpr.opens + s₁.opens := ih' (hread.isSpelled hs)
    rw [Node.opens_parens] at hleft
    show n.formatExpr.opens + s'.opens ≤ s.opens
    omega
  | argsNil | paramsNil | globalsNil | functionsNil => exact Pays.refl _
  | stmtsNil => exact fun _ => Pays.refl _
  | @argsCons _ _ _ s₁ _ _ hread _ ih ih' =>
    have hrest := s₁.pays_pastComma.append (ih' (State.isSpelled_pastComma (hread.isSpelled hs)))
    refine (Pays.append (ih hs) hrest).mono ?_
    rw [List.map_cons, List.sum_cons]
    omega
  | call ht hl _ hr _ ih =>
    have hargs := Pays.inParens (ih (hl.isSpelled (ht.isSpelled hs))) hl hr
    refine ((ht.pays_value (by decide) (by decide)).append hargs).mono ?_
    show (Node.parens false _).opens ≤ _
    rw [Node.opens_parens, Node.opens_call, Bool.toNat_false]
    omega
  | declare ht _ hname _ =>
    intro level
    refine (ht.pays.append (hname.pays_value (by decide) (by decide))).mono ?_
    rw [Node.opens_declare]
    omega
  | declareAs ht _ hname heq _ ih =>
    intro level
    have hvalue := heq.pays.append (ih (heq.isSpelled (hname.isSpelled (ht.isSpelled hs))))
    refine (ht.pays.append ((hname.pays_value (by decide) (by decide)).append hvalue)).mono ?_
    rw [Node.opens_declareAs]
    omega
  | assign hname heq _ ih =>
    intro level
    have hvalue := heq.pays.append (ih (heq.isSpelled (hname.isSpelled hs)))
    refine ((hname.pays_value (by decide) (by decide)).append hvalue).mono ?_
    rw [Node.opens_assign]
    omega
  | @paramsCons _ name _ ps _ s₁ _ hread _ ih ih' =>
    have hrest := s₁.pays_pastComma.append (ih' (State.isSpelled_pastComma (hread.isSpelled hs)))
    refine (Pays.append (ih hs 0) hrest).mono ?_
    rw [Node.opens_declare]
    show name.opens + (ps.map fun p => p.name.opens).sum ≤ _
    omega
  | condition hl _ hr ih => exact Pays.inParens (ih (hl.isSpelled hs)) hl hr
  | block hl _ hr ih =>
    intro level
    refine (hl.pays.append (Pays.append (ih (hl.isSpelled hs) level) hr.pays)).mono ?_
    omega
  | @function _ _ _ _ _ _ _ _ _ _ s₂ _ _ _ _ ht hname _ hl hparams hr _ ih ih' =>
    intro level
    have hs₃ := hl.isSpelled (s := s₂.begin) (hname.isSpelled (ht.isSpelled hs))
    have hname' : Pays _ s₂.begin _ := hname.pays_value (by decide) (by decide)
    have hheader := hname'.append (Pays.inParens (ih hs₃) hl hr)
    have hbody := ih' (hr.isSpelled (hparams.isSpelled hs₃)) (level + 1)
    refine (ht.pays.append (hheader.append hbody)).mono ?_
    refine Nat.le_trans (Nat.le_of_eq (Node.opens_function ..)) ?_
    dsimp only
    omega
  | stmtCall hcall ih =>
    intro level
    have hn : Pays _ _ _ := ih hs
    -- a call is no operation, so that as a factor it has no parentheses a statement would leave out
    cases hcall with
    | call =>
      refine hn.mono ?_
      show (Node.indent level ++ Node.formatExpr _).opens ≤ (Node.parens false _).opens
      rw [Text.opens_append, Node.opens_indent, Node.opens_parens]
      exact Nat.le_refl _
  | when ht hcond _ _ ih ih' =>
    intro level
    have hs₁ := ht.isSpelled hs
    refine (ht.pays.append (Pays.append (ih hs₁) (ih' (hcond.isSpelled hs₁) (level + 1)))).mono ?_
    rw [Node.opens_when]
    omega
  | choose ht hcond hyes he _ ih ih' ih'' =>
    intro level
    have hs₁ := ht.isSpelled hs
    have hs₂ := hcond.isSpelled hs₁
    have hno := he.pays.append (ih'' (he.isSpelled (hyes.isSpelled hs₂)) (level + 1))
    refine (ht.pays.append (Pays.append (ih hs₁) (Pays.append (ih' hs₂ (level + 1)) hno))).mono ?_
    rw [Node.opens_choose]
    omega
  | whileLoop ht hcond _ ih ih' =>
    intro level
    have hs₁ := ht.isSpelled hs
    refine (ht.pays.append (Pays.append (ih hs₁) (ih' (hcond.isSpelled hs₁) (level + 1)))).mono ?_
    rw [Node.opens_whileLoop]
    omega
  | @forLoop _ _ _ _ _ _ init cond step braces body _ _ _ _ _ _ _ _ _ _ ht hl hinit hc hcond _ hc' hstep hr _ ih ih'
      ih'' ihbody =>
    intro level
    have hs₂ := hl.isSpelled (ht.isSpelled hs)
    have hs₄ := hc.isSpelled (hinit.isSpelled hs₂)
    have hs₆ := hc'.isSpelled (hcond.isSpelled hs₄)
    have hcond' := hc.pays.append (ih' hs₄)
    have hstep' := hc'.pays.append (ih'' hs₆ 0)
    have hheader := Pays.inParens (Pays.append (ih hs₂ 0) (hcond'.append hstep')) hl hr
    have hbody := ihbody (hr.isSpelled (hstep.isSpelled hs₆)) (level + 1)
    refine (ht.pays.append (hheader.append hbody)).mono ?_
    -- the first and the last part are trimmed when they are printed, hence an inequality
    refine Nat.le_trans (Node.opens_forLoop_le level _ cond init step braces body) ?_
    rw [Node.opens_parens]
    omega
  | skip ht _ _ =>
    intro level
    refine ht.pays.mono ?_
    show (Node.indent level ++ []).opens ≤ 0
    rw [List.append_nil]
    exact Nat.le_of_eq (Node.opens_indent level)
  | @stmtsCons _ n ns _ _ _ _ _ hread _ ih ih' =>
    intro level
    exact (Pays.append (ih hs level) (ih' (hread.isSpelled hs) level)).mono (Node.opens_formatBody_le level n ns)
  | globalsCons hread _ ih ih' =>
    refine (Pays.append (ih hs 0) (ih' (hread.isSpelled hs))).mono ?_
    exact Nat.le_of_eq List.sum_cons
  | functionsCons hread _ ih ih' =>
    refine (Pays.append (ih hs 0) (ih' (hread.isSpelled hs))).mono ?_
    exact Nat.le_of_eq List.sum_cons

end Parse

/-! ## Canonical texts -/

theorem Program.opens_formatFunctions (follows : Bool) (fs : List Function) :
    ((formatFunctions follows fs).map Text.opens).sum = (fs.map fun f => (f.node.formatStmt 0).opens).sum := by
  induction fs generalizing follows with
  | nil => rfl
  | cons f fs ih =>
    have hblank : ((if follows then [[]] else [] : List Text).map Text.opens).sum = 0 := by cases follows <;> rfl
    simp only [formatFunctions, List.map_append, List.sum_append, List.map_cons, List.sum_cons, ih, hblank]
    omega

/-- The canonical text of a program opens no more parentheses than the source does. -/
theorem opens_format_le {file source : Text} {builtins : Option (List Text)} {p : Program}
    (h : parse file source builtins = .ok p) : p.format.opens ≤ source.opens := by
  obtain ⟨s₁, s₂, eof, hglobals, hfunctions, -, hending⟩ := reads_all_of_parse h
  have hs := Scanned.isSpelled_state file source
  have hgs : (p.globals.map fun n => (n.formatStmt 0).opens).sum + s₁.opens ≤ (scan file source).state.opens :=
    hglobals.spends hs
  have hfs : (p.functions.map fun f => (f.node.formatStmt 0).opens).sum + s₂.opens ≤ s₁.opens :=
    hfunctions.spends (hglobals.isSpelled hs)
  have hsource : (scan file source).state.opens ≤ source.opens := (scan_end hending).1.opens_le
  rw [Program.format, Text.opens_append, Text.opens_join (by simp), List.map_append, List.sum_append, List.map_map,
    Program.opens_formatFunctions]
  show (p.globals.map fun n => (n.formatStmt 0).opens).sum + _ + _ ≤ _
  simp
  omega

/-- The canonical text of a program that was parsed from bytes has as many parentheses as its bytes say. -/
theorem opens_format {file : Text} {bytes : List UInt8} {builtins : Option (List Text)} {p : Program}
    (h : parse file (Text.ofBytes bytes) builtins = .ok p) : p.format.opens = p.format.toBytes.count 0x28 := by
  have hsettled : p.format.Settled := settled_format (fun _ hv => hv.2) (formed_of_bytes h)
  rw [← Text.opens_ofBytes, hsettled]

/-- Without one of its pairs of parentheses the canonical text of a program is no text of that program. -/
theorem no_spare_parens {file file' : Text} {bytes before inside after : List UInt8}
    {builtins builtins' : Option (List Text)} {p q : Program} (h : parse file (Text.ofBytes bytes) builtins = .ok p)
    (hpair : p.format.toBytes = before ++ 0x28 :: (inside ++ 0x29 :: after))
    (hq : parse file' (Text.ofBytes (before ++ inside ++ after)) builtins' = .ok q) :
    q.format ≠ p.format ∧ q.outline ≠ p.outline ∧ q.outline ≠ p.withoutSkips.outline := by
  have hpaid : q.format.opens ≤ (before ++ inside ++ after).count 0x28 := by
    rw [← Text.opens_ofBytes]
    exact opens_format_le hq
  have hspent : p.format.opens = (before ++ inside ++ after).count 0x28 + 1 := by
    rw [opens_format h, hpair]
    simp [List.count_append]
    omega
  have hne : q.format ≠ p.format := fun heq => by
    rw [heq] at hpaid
    omega
  -- The canonical text itself is a text of the program, without what was passed over.
  obtain ⟨r, hr, hcore, hwhole⟩ := parse_format h file
  have hsettled : p.format.Settled := settled_format (fun _ hv => hv.2) (formed_of_bytes h)
  rw [← hsettled] at hr
  have hformat : r.format = p.format := by rw [← r.format_core, hcore, p.format_core]
  have houtline : r.outline = p.withoutSkips.outline := by
    rw [← hwhole]
    exact Program.outline_of_core hcore
  refine ⟨hne, fun heq => hne ?_, fun heq => hne ?_⟩
  · exact format_of_outline (fun _ hv => hv.2) (formed_of_bytes hq) (formed_of_bytes h) heq
  · rw [← hformat]
    exact format_of_outline (fun _ hv => hv.2) (formed_of_bytes hq) (formed_of_bytes hr) (heq.trans houtline.symm)

/-- The parentheses around a sum that is multiplied. -/
theorem no_spare_parens_product :
    ∃ p q, parse "a" (Text.ofBytes (Text.toBytes "int a=(2*(1+3))")) = .ok p ∧
      parse "b" (Text.ofBytes (Text.toBytes "int a = 2 * " ++ Text.toBytes "1 + 3" ++ Text.toBytes "\n")) = .ok q ∧
      q.format ≠ p.format ∧ q.outline ≠ p.outline ∧ q.outline ≠ p.withoutSkips.outline := by
  have hp : (parse "a" (Text.ofBytes (Text.toBytes "int a=(2*(1+3))"))).toOption.map (fun p => p.format.toBytes) =
      some (Text.toBytes "int a = 2 * " ++ 0x28 :: (Text.toBytes "1 + 3" ++ 0x29 :: Text.toBytes "\n")) := by
    decide +kernel
  have hok : (parse "b" (Text.ofBytes (Text.toBytes "int a = 2 * " ++ Text.toBytes "1 + 3" ++
      Text.toBytes "\n"))).toBool = true := by decide +kernel
  cases hparse : parse "a" (Text.ofBytes (Text.toBytes "int a=(2*(1+3))")) with
  | error e => rw [hparse] at hp; cases hp
  | ok p =>
    rw [hparse] at hp
    cases hparse' : parse "b" (Text.ofBytes (Text.toBytes "int a = 2 * " ++ Text.toBytes "1 + 3" ++
        Text.toBytes "\n")) with
    | error e => rw [hparse'] at hok; cases hok
    | ok q => exact ⟨p, q, rfl, rfl, no_spare_parens hparse (Option.some.inj hp) hparse'⟩

end ScriptKit
