import ScriptKit.Proofs.Grammar.Sound
import ScriptKit.Proofs.Text.Numeral
import ScriptKit.Proofs.Token.Spelling
import ScriptKit.Proofs.Tree.Walk

/-!
# Well-formed trees

The type of nodes allows any node in any position. What is read from tokens is more regular: expressions
are built from expressions, statements from expressions and statements, numbers are not negative, names
are names, and operators and types are those of the language. `IsExpr S C` and `IsStmt S C` say so, where
string literals satisfy `S` and the name and the callee of each call satisfy `C`.

**Theorem (`Reads.formed`).** What is read from spelled tokens is well-formed. As functions are read they
are numbered without gaps in the order in which they begin, and their names enter the table that
resolves calls. An invariant `I` of that table therefore holds throughout if every function keeps it
when it is entered under its number, and then every call satisfies what `I` says of resolved names.
-/

namespace ScriptKit

/-! ## Expressions and statements -/

/-- An expression as it is read. -/
inductive IsExpr (S : Text → Prop) (C : Text → Callee → Prop) : Node → Prop
  | number {span : Span} {v : Int32} : 0 ≤ v.toInt → IsExpr S C (.number span v)
  | str {span : Span} {t : Text} : S t → IsExpr S C (.str span t)
  | bool {span : Span} {b : Bool} : IsExpr S C (.bool span b)
  | use {span : Span} {name : Text} : IsName name → IsExpr S C (.use span name)
  | call {span : Span} {name : Text} {callee : Callee} {args : List Node} :
      IsName name → C name callee → (∀ a ∈ args, IsExpr S C a) →
      IsExpr S C (.call span name callee args)
  | sign {span : Span} {op : Sign} {n : Node} :
      (∀ symbol, op ≠ .other symbol) → IsExpr S C n → IsExpr S C (.sign span op n)
  | arith {span : Span} {left right : Node} {op : Arith} :
      (∀ symbol, op ≠ .other symbol) → IsExpr S C left → IsExpr S C right →
      IsExpr S C (.arith span left op right)
  | compare {span : Span} {left right : Node} {op : Relation} :
      (∀ symbol, op ≠ .other symbol) → IsExpr S C left → IsExpr S C right →
      IsExpr S C (.compare span left op right)

namespace Node

/-- Whether a node declares a variable. -/
def isDeclaration : Node → Bool
  | .declare .. | .declareAs .. => true
  | _ => false

/-- Whether a node assigns to a variable. -/
def isAssignment : Node → Bool
  | .assign .. => true
  | _ => false

end Node

/-- A variable with a name and a type of the language. -/
structure IsVariable (name : Text) (type : VarType) : Prop where
  name : IsName name
  type : type ≠ .unknown

/-- A statement as it is read. -/
inductive IsStmt (S : Text → Prop) (C : Text → Callee → Prop) : Node → Prop
  | declare {span : Span} {name : Text} {type : VarType} :
      IsVariable name type → IsStmt S C (.declare span name type)
  | declareAs {span : Span} {name : Text} {type : VarType} {value : Node} :
      IsVariable name type → IsExpr S C value → IsStmt S C (.declareAs span name type value)
  | assign {span : Span} {name : Text} {value : Node} :
      IsName name → IsExpr S C value → IsStmt S C (.assign span name value)
  | call {span : Span} {name : Text} {callee : Callee} {args : List Node} :
      IsExpr S C (.call span name callee args) → IsStmt S C (.call span name callee args)
  | function {span : Span} {name : Text} {params : List Param} {braces : Braces} {body : List Node} :
      IsName name → (∀ p ∈ params, IsVariable p.name p.type) → (∀ n ∈ body, IsStmt S C n) →
      IsStmt S C (.function span name params braces body)
  | when {span : Span} {cond : Node} {braces : Braces} {yes : List Node} :
      IsExpr S C cond → (∀ n ∈ yes, IsStmt S C n) → IsStmt S C (.when span cond braces yes)
  | choose {span : Span} {cond : Node} {braces braces' : Braces} {yes no : List Node} :
      IsExpr S C cond → (∀ n ∈ yes, IsStmt S C n) → (∀ n ∈ no, IsStmt S C n) →
      IsStmt S C (.choose span cond braces yes braces' no)
  | whileLoop {span : Span} {cond : Node} {braces : Braces} {body : List Node} :
      IsExpr S C cond → (∀ n ∈ body, IsStmt S C n) → IsStmt S C (.whileLoop span cond braces body)
  | forLoop {span : Span} {init cond step : Node} {braces : Braces} {body : List Node} :
      IsStmt S C init → (init.isDeclaration || init.isAssignment) = true → IsExpr S C cond →
      cond.isComparison = true → IsStmt S C step → step.isAssignment = true →
      (∀ n ∈ body, IsStmt S C n) → IsStmt S C (.forLoop span init cond step braces body)
  | skip {span : Span} {text : Text} : IsStmt S C (.skip span text)

/-- A program as it is read. -/
structure Program.IsFormed (S : Text → Prop) (C : Text → Callee → Prop) (p : Program) : Prop where
  globals : ∀ n ∈ p.globals, IsStmt S C n ∧ n.isDeclaration = true
  functions : ∀ f ∈ p.functions, IsStmt S C f.node

section Nested

variable {S : Text → Prop} {C : Text → Callee → Prop}

/-- No function is declared inside an expression. -/
theorem IsExpr.functions {n : Node} (h : IsExpr S C n) : n.functions = [] := by
  induction h with
  | call _ _ _ ih => rw [Node.functions_eq]; simpa [Node.function?, Node.children] using ih
  | sign _ _ ih => rw [Node.functions_eq]; simpa [Node.function?, Node.children] using ih
  | arith _ _ _ ih ih' | compare _ _ _ ih ih' =>
    rw [Node.functions_eq]
    simpa [Node.function?, Node.children] using ⟨ih, ih'⟩
  | _ => rw [Node.functions_eq]; simp [Node.function?, Node.children]

/-- No function is declared inside a declaration or an assignment. -/
theorem IsStmt.functions {n : Node} (h : IsStmt S C n)
    (hn : (n.isDeclaration || n.isAssignment) = true) : n.functions = [] := by
  rw [Node.functions_eq]
  cases h with
  | declare => simp [Node.function?, Node.children]
  | declareAs _ hvalue => simpa [Node.function?, Node.children] using hvalue.functions
  | assign _ hvalue => simpa [Node.function?, Node.children] using hvalue.functions
  | _ => simp [Node.isDeclaration, Node.isAssignment] at hn

theorem functions_block (braces : Braces) (body : List Node) :
    (Node.block braces body).functions = body.flatMap Node.functions := by
  rw [Node.functions_eq]
  rfl

theorem functions_function (f : Function) :
    f.node.functions = f :: f.body.flatMap Node.functions := by
  have hparams : (f.params.map Param.node).flatMap Node.functions = [] := by
    rw [List.flatMap_eq_nil_iff]
    intro n hn
    obtain ⟨p, -, rfl⟩ := List.mem_map.1 hn
    rw [Node.functions_eq]
    rfl
  rw [Node.functions_eq]
  show f :: (f.params.map Param.node ++ [Node.block f.braces f.body]).flatMap Node.functions = _
  rw [List.flatMap_append, hparams]
  simp [functions_block]

theorem functions_when {span : Span} {cond : Node} {braces : Braces} {yes : List Node}
    (h : cond.functions = []) :
    (Node.when span cond braces yes).functions = yes.flatMap Node.functions := by
  rw [Node.functions_eq]
  show [cond, .block braces yes].flatMap Node.functions = _
  simp [h, functions_block]

theorem functions_choose {span : Span} {cond : Node} {braces braces' : Braces} {yes no : List Node}
    (h : cond.functions = []) : (Node.choose span cond braces yes braces' no).functions =
      yes.flatMap Node.functions ++ no.flatMap Node.functions := by
  rw [Node.functions_eq]
  show [cond, .block braces yes, .block braces' no].flatMap Node.functions = _
  simp [h, functions_block]

theorem functions_whileLoop {span : Span} {cond : Node} {braces : Braces} {body : List Node}
    (h : cond.functions = []) :
    (Node.whileLoop span cond braces body).functions = body.flatMap Node.functions := by
  rw [Node.functions_eq]
  show [cond, .block braces body].flatMap Node.functions = _
  simp [h, functions_block]

theorem functions_forLoop {span : Span} {init cond step : Node} {braces : Braces} {body : List Node}
    (hinit : init.functions = []) (hcond : cond.functions = []) (hstep : step.functions = []) :
    (Node.forLoop span init cond step braces body).functions = body.flatMap Node.functions := by
  rw [Node.functions_eq]
  show [init, cond, step, .block braces body].flatMap Node.functions = _
  simp [hinit, hcond, hstep, functions_block]

theorem functions_skip (span : Span) (text : Text) : (Node.skip span text).functions = [] := by
  rw [Node.functions_eq]
  rfl

end Nested

/-! ## The nodes of a program -/

/-- What the nodes of a program are: expressions, statements and blocks of statements. -/
inductive IsPart (S : Text → Prop) (C : Text → Callee → Prop) : Node → Prop
  | expr {n : Node} : IsExpr S C n → IsPart S C n
  | stmt {n : Node} : IsStmt S C n → IsPart S C n
  | block {braces : Braces} {body : List Node} : (∀ n ∈ body, IsStmt S C n) → IsPart S C (.block braces body)

section Parts

variable {S : Text → Prop} {C : Text → Callee → Prop} {n c : Node}

theorem IsExpr.child (h : IsExpr S C n) (hc : c ∈ n.children) : IsExpr S C c := by
  cases h <;> simp only [Node.children, List.mem_cons, List.not_mem_nil, or_false] at hc
  case call _ _ hargs => exact hargs c hc
  case sign _ hn => exact hc ▸ hn
  all_goals
    next hleft hright =>
    rcases hc with rfl | rfl
    · exact hleft
    · exact hright

theorem IsPart.child (h : IsPart S C n) (hc : c ∈ n.children) : IsPart S C c := by
  cases h with
  | expr h => exact .expr (h.child hc)
  | block h => exact .stmt (h c hc)
  | stmt h =>
    cases h <;> simp only [Node.children, List.mem_cons, List.mem_append, List.not_mem_nil, or_false] at hc
    case declareAs _ hvalue => exact hc ▸ .expr hvalue
    case assign _ hvalue => exact hc ▸ .expr hvalue
    case call hcall => exact .expr (hcall.child hc)
    case function _ hparams hbody =>
      rcases hc with hc | rfl
      · obtain ⟨p, hp, rfl⟩ := List.mem_map.1 hc
        exact .stmt (.declare (hparams p hp))
      · exact .block hbody
    case when hcond hyes =>
      rcases hc with rfl | rfl
      · exact .expr hcond
      · exact .block hyes
    case choose hcond hyes hno =>
      rcases hc with rfl | rfl | rfl
      · exact .expr hcond
      · exact .block hyes
      · exact .block hno
    case whileLoop hcond hbody =>
      rcases hc with rfl | rfl
      · exact .expr hcond
      · exact .block hbody
    case forLoop hinit _ hcond _ hstep _ hbody =>
      rcases hc with rfl | rfl | rfl | rfl
      · exact .stmt hinit
      · exact .expr hcond
      · exact .stmt hstep
      · exact .block hbody

theorem IsPart.preorder (h : IsPart S C n) {m : Node} (hm : m ∈ n.preorder) : IsPart S C m := by
  induction n using Node.induction_children with
  | step n ih =>
    rcases Node.mem_preorder.1 hm with rfl | ⟨c, hc, hmc⟩
    · exact h
    · exact ih c hc (h.child hc) hmc

/-- Every node of a program but the program itself is a part of it. -/
theorem Program.IsFormed.part {p : Program} (hp : p.IsFormed S C) (hn : n ∈ p.node.preorder) :
    n = p.node ∨ IsPart S C n := by
  rcases Node.mem_preorder.1 hn with rfl | ⟨c, hc, hnc⟩
  · exact Or.inl rfl
  · refine Or.inr (IsPart.preorder (.stmt ?_) hnc)
    rcases List.mem_append.1 hc with hc | hc
    · exact (hp.globals c hc).1
    · obtain ⟨f, hf, rfl⟩ := List.mem_map.1 hc
      exact hp.functions f hf

end Parts

/-! ## Operators -/

section Operators

variable {source v : Text} {k : Token.Kind}

theorem Spelled.sign_ne_other (h : Spelled source k v) (hk : k = .plus ∨ k = .minus) (symbol : Text) :
    Sign.ofSymbol v ≠ .other symbol := by
  rcases hk with rfl | rfl
  all_goals
    rw [h.fixed _ rfl]
    exact fun h => by cases h

theorem Spelled.arith_ne_other (h : Spelled source k v)
    (hk : (k = .star ∨ k = .slash) ∨ (k = .plus ∨ k = .minus)) (symbol : Text) :
    Arith.ofSymbol v ≠ .other symbol := by
  rcases hk with (rfl | rfl) | (rfl | rfl)
  all_goals
    rw [h.fixed _ rfl]
    exact fun h => by cases h

theorem Spelled.relation_ne_other (h : Spelled source k v) (hk : k.isComparison = true)
    (symbol : Text) : Relation.ofSymbol v ≠ .other symbol := by
  cases k <;> simp only [Token.Kind.isComparison, Bool.false_eq_true] at hk
  all_goals
    rw [h.fixed _ rfl]
    exact fun h => by cases h

end Operators

namespace Parse

/-! ## Spelled states -/

/-- The tokens that are left are spelled as in a source. -/
def State.IsSpelled (source : Text) (s : State) : Prop :=
  ∀ t ∈ s.tokens, Spelled source t.kind t.value

section Taking

variable {source : Text} {k : Token.Kind} {t : Token} {s s' : State}

theorem Takes.functions (h : Takes k t s s') : s'.functions = s.functions := by rw [h.next]; rfl

theorem Takes.begun (h : Takes k t s s') : s'.begun = s.begun := by rw [h.next]; rfl

theorem Takes.spelled (h : Takes k t s s') (hs : s.IsSpelled source) : Spelled source k t.value := by
  have := hs t (h.tokens ▸ List.mem_cons_self ..)
  rwa [h.kind] at this

theorem Takes.isSpelled (h : Takes k t s s') (hs : s.IsSpelled source) : s'.IsSpelled source :=
  fun u hu => hs u (h.tokens ▸ List.mem_cons_of_mem t hu)

theorem State.isSpelled_pastComma (hs : s.IsSpelled source) : s.pastComma.IsSpelled source := by
  rcases s.pastComma_eq with h | ⟨t, h⟩
  · rwa [h]
  · exact h.isSpelled hs

/-- The file ends where no token is left. -/
theorem State.IsSpelled.tokens_eq_nil (hs : s.IsSpelled source) (hend : s.kind = .endOfFile) : s.tokens = [] := by
  cases htokens : s.tokens with
  | nil => rfl
  | cons t ts =>
    rw [State.kind, htokens] at hend
    exact absurd hend (hs t (htokens ▸ List.mem_cons_self ..)).notEnd

theorem State.functions_begin (s : State) : s.begin.functions = s.functions := rfl

theorem State.functions_pastComma (s : State) : s.pastComma.functions = s.functions := by
  rcases s.pastComma_eq with h | ⟨t, h⟩
  · rw [h]
  · exact h.functions

theorem State.begun_pastComma (s : State) : s.pastComma.begun = s.begun := by
  rcases s.pastComma_eq with h | ⟨t, h⟩
  · rw [h]
  · exact h.begun

/-- Whether a phrase holds no statement list. -/
def Phrase.isFlat : Phrase → Bool
  | .block .. | .function .. | .stmt .. | .stmts .. | .functions _ => false
  | _ => true

theorem Reads.functions_flat {known : Option (List Text)} {φ : Phrase} (h : Reads known φ s s')
    (hφ : φ.isFlat = true) : s'.functions = s.functions := by
  -- the tables of both ends are chained by equations, so the arithmetic solvers stay out
  induction h <;> grind -ring -linarith [Phrase.isFlat, → Takes.functions, State.functions_pastComma]

/-- Reading takes tokens from the front. -/
theorem Reads.suffix {known : Option (List Text)} {φ : Phrase} (h : Reads known φ s s') :
    s'.tokens <:+ s.tokens := by
  have htakes : ∀ {k t s s'}, Takes k t s s' → s'.tokens <:+ s.tokens := by
    intro k t s s' h
    rw [h.tokens]
    exact List.suffix_cons t _
  have hcomma : ∀ s : State, s.pastComma.tokens <:+ s.tokens := by
    intro s
    rcases s.pastComma_eq with h | ⟨t, h⟩
    · exact (congrArg State.tokens h).symm ▸ List.suffix_rfl
    · exact htakes h
  induction h with
  | forLoop ht hl _ hc _ _ hc' _ hr _ hinit hcond hstep hbody =>
    have hheader := hinit.trans ((htakes hl).trans (htakes ht))
    have hmiddle := hcond.trans ((htakes hc).trans hheader)
    have hend := hstep.trans ((htakes hc').trans hmiddle)
    exact hbody.trans ((htakes hr).trans hend)
  | _ => grind -ring -linarith [List.IsSuffix.trans]

theorem Reads.isSpelled {known : Option (List Text)} {φ : Phrase} (h : Reads known φ s s')
    (hs : s.IsSpelled source) : s'.IsSpelled source :=
  fun t ht => hs t (h.suffix.subset ht)

end Taking

/-! ## What is read is well-formed -/

/-- The functions declared in a phrase, in the order in which they begin. -/
def Phrase.declared : Phrase → List Function
  | .block _ _ ns | .stmts _ ns => ns.flatMap Node.functions
  | .function _ f => f.node.functions
  | .stmt _ n => n.functions
  | .functions fs => fs.flatMap fun f => f.node.functions
  | _ => []

/-- The trees of a phrase are well-formed. -/
def Phrase.Formed (S : Text → Prop) (C : Text → Callee → Prop) : Phrase → Prop
  | .factor n | .term n | .expr n | .condition n => IsExpr S C n
  | .termRest left n | .exprRest left n => IsExpr S C left → IsExpr S C n
  | .args ns => ∀ n ∈ ns, IsExpr S C n
  | .call n => IsExpr S C n ∧ IsStmt S C n
  | .declaration n => IsStmt S C n ∧ n.isDeclaration = true
  | .assignment n => IsStmt S C n ∧ n.isAssignment = true
  | .params ps => ∀ p ∈ ps, IsVariable p.name p.type
  | .loopStart n => IsStmt S C n ∧ (n.isDeclaration || n.isAssignment) = true
  | .block _ _ ns | .stmts _ ns => ∀ n ∈ ns, IsStmt S C n
  | .function _ f => IsStmt S C f.node
  | .stmt _ n => IsStmt S C n
  | .globals ns => ∀ n ∈ ns, IsStmt S C n ∧ n.isDeclaration = true
  | .functions fs => ∀ f ∈ fs, IsStmt S C f.node

/-- Entering functions into the table under the numbers from `number` on keeps `I`. -/
def Registers (I : List (Text × Nat) → Prop) (number : Nat) (fs : List Function) : Prop :=
  ∀ i f table, fs[i]? = some f → I table → I ((f.name, number + i) :: table)

section Registers

variable {I : List (Text × Nat) → Prop} {number : Nat} {f : Function} {fs gs : List Function}

theorem registers_nil : Registers I number [] := by
  intro i f table h
  simp at h

theorem Registers.head (h : Registers I number (f :: fs)) (table : List (Text × Nat))
    (hI : I table) : I ((f.name, number) :: table) :=
  h 0 f table rfl hI

theorem Registers.tail (h : Registers I number (f :: fs)) : Registers I (number + 1) fs := by
  intro i g table hg hI
  rw [Nat.add_right_comm]
  exact h (i + 1) g table (by simpa using hg) hI

theorem Registers.left (h : Registers I number (fs ++ gs)) : Registers I number fs := by
  intro i g table hg hI
  obtain ⟨hi, -⟩ := List.getElem?_eq_some_iff.1 hg
  exact h i g table (by rw [List.getElem?_append_left hi, hg]) hI

theorem Registers.right (h : Registers I number (fs ++ gs)) : Registers I (number + fs.length) gs := by
  intro i g table hg hI
  rw [Nat.add_assoc]
  exact h (fs.length + i) g table (by rw [List.getElem?_append_right (by omega)]; simpa using hg) hI

end Registers

/-- What reading a phrase establishes: well-formed trees, the invariant of the table, and a number
for each function. -/
structure Established (S : Text → Prop) (C : Text → Callee → Prop) (I : List (Text × Nat) → Prop)
    (φ : Phrase) (s s' : State) : Prop where
  formed : φ.Formed S C
  table : I s'.functions
  begun : s'.begun = s.begun + φ.declared.length

section Established

variable {known : Option (List Text)} {source : Text} {S : Text → Prop} {C : Text → Callee → Prop}
  {I : List (Text × Nat) → Prop}

/-- A name after a type declares a variable. -/
theorem Takes.isVariable {t : Token} {s s' : State} (h : Takes .name t s s') (hs : s.IsSpelled source)
    (k : Token.Kind) : IsVariable t.value (Parser.typeOf k) := by
  refine ⟨(h.spelled hs).name (Or.inl rfl), ?_⟩
  unfold Parser.typeOf
  split <;> simp

/-- What is read from spelled tokens is well-formed. -/
theorem Reads.established (hS : ∀ v, Glyph.quote ∉ v → Quoted source v → S v)
    (hC : ∀ table name, I table → C name (calleeOf table name)) {φ : Phrase} {s s' : State}
    (h : Reads known φ s s') (hs : s.IsSpelled source) (hI : I s.functions)
    (hnew : Registers I s.begun φ.declared) : Established S C I φ s s' := by
  -- The functions of a phrase are numbered from `s.begun` on in the order in which they begin. That is what
  -- `hnew` is about, and it is handed to the parts from left to right; a phrase without functions has
  -- `registers_nil`.
  induction h with
  | sign ht hk _ ih =>
    obtain ⟨hn, hI', hb⟩ := ih (ht.isSpelled hs) (ht.functions ▸ hI) registers_nil
    exact ⟨IsExpr.sign ((ht.spelled hs).sign_ne_other hk) hn, hI', hb.trans (by rw [ht.begun]; rfl)⟩
  | number ht hv =>
    exact ⟨IsExpr.number (Text.toInt_nonneg_of_readInt32 ((ht.spelled hs).digits rfl) hv),
      ht.functions ▸ hI, ht.begun⟩
  | str ht =>
    obtain ⟨hquote, hquoted⟩ := (ht.spelled hs).literal rfl
    exact ⟨IsExpr.str (hS _ hquote hquoted), ht.functions ▸ hI, ht.begun⟩
  | bool ht => exact ⟨IsExpr.bool, ht.functions ▸ hI, ht.begun⟩
  | paren ht hn ht' ih =>
    obtain ⟨hn, hI', hb⟩ := ih (ht.isSpelled hs) (ht.functions ▸ hI) registers_nil
    exact ⟨hn, ht'.functions ▸ hI', by rw [ht'.begun, hb, ht.begun]; rfl⟩
  | called _ ih =>
    obtain ⟨hn, hI', hb⟩ := ih hs hI registers_nil
    exact ⟨hn.1, hI', hb⟩
  | use ht => exact ⟨IsExpr.use ((ht.spelled hs).name (Or.inl rfl)), ht.functions ▸ hI, ht.begun⟩
  | termStop | exprStop => exact ⟨fun hleft => hleft, hI, rfl⟩
  | times ht hk hright _ ih ih' =>
    obtain ⟨hr, hI₁, hb⟩ := ih (ht.isSpelled hs) (ht.functions ▸ hI) registers_nil
    obtain ⟨hn, hI₂, hb'⟩ := ih' (hright.isSpelled (ht.isSpelled hs)) hI₁ registers_nil
    refine ⟨fun hleft => hn (IsExpr.arith ?_ hleft hr), hI₂, by rw [hb', hb, ht.begun]; rfl⟩
    exact (ht.spelled hs).arith_ne_other (Or.inl hk)
  | compare ht hk _ ih =>
    obtain ⟨hr, hI₁, hb⟩ := ih (ht.isSpelled hs) (ht.functions ▸ hI) registers_nil
    refine ⟨fun hleft => IsExpr.compare ?_ hleft hr, hI₁, by rw [hb, ht.begun]; rfl⟩
    exact (ht.spelled hs).relation_ne_other hk
  | term hleft _ ih ih' | expr hleft _ ih ih' =>
    obtain ⟨hl, hI₁, hb⟩ := ih hs hI registers_nil
    obtain ⟨hn, hI₂, hb'⟩ := ih' (hleft.isSpelled hs) hI₁ registers_nil
    exact ⟨hn hl, hI₂, by rw [hb', hb]; rfl⟩
  | plus ht hk hright _ ih ih' =>
    obtain ⟨hr, hI₁, hb⟩ := ih (ht.isSpelled hs) (ht.functions ▸ hI) registers_nil
    obtain ⟨hn, hI₂, hb'⟩ := ih' (hright.isSpelled (ht.isSpelled hs)) hI₁ registers_nil
    refine ⟨fun hleft => hn (IsExpr.arith ?_ hleft hr), hI₂, by rw [hb', hb, ht.begun]; rfl⟩
    exact (ht.spelled hs).arith_ne_other (Or.inr hk)
  | argsNil | paramsNil | stmtsNil | globalsNil | functionsNil => exact ⟨by simp [Phrase.Formed], hI, rfl⟩
  | argsCons _ hn _ ih ih' =>
    obtain ⟨hn', hI₁, hb⟩ := ih hs hI registers_nil
    obtain ⟨hns, hI₂, hb'⟩ := ih' (State.isSpelled_pastComma (hn.isSpelled hs))
      (by rwa [State.functions_pastComma]) registers_nil
    exact ⟨List.forall_mem_cons.2 ⟨hn', hns⟩, hI₂, by rw [hb', State.begun_pastComma, hb]; rfl⟩
  | call ht hl hargs hr _ ih =>
    obtain ⟨hns, hI₁, hb⟩ := ih (hl.isSpelled (ht.isSpelled hs))
      (by rw [hl.functions, ht.functions]; exact hI) registers_nil
    -- the callee is looked up behind the arguments, in the table they have left
    rw [← hr.functions] at hI₁
    refine ⟨⟨?_, IsStmt.call ?_⟩, hI₁, by rw [hr.begun, hb, hl.begun, ht.begun]; rfl⟩
    all_goals exact IsExpr.call ((ht.spelled hs).name (Or.inr rfl)) (hC _ _ hI₁) hns
  | @declare k _ _ _ _ _ ht _ hname _ =>
    have hv := hname.isVariable (ht.isSpelled hs) k
    exact ⟨⟨IsStmt.declare hv, rfl⟩, by rw [hname.functions, ht.functions]; exact hI,
      by rw [hname.begun, ht.begun]; rfl⟩
  | @declareAs k _ _ _ _ _ _ _ _ _ ht _ hname heq _ ih =>
    have hs₁ := ht.isSpelled hs
    obtain ⟨hvalue, hI₁, hb⟩ := ih (heq.isSpelled (hname.isSpelled hs₁))
      (by rw [heq.functions, hname.functions, ht.functions]; exact hI) registers_nil
    exact ⟨⟨IsStmt.declareAs (hname.isVariable hs₁ k) hvalue, rfl⟩, hI₁,
      by rw [hb, heq.begun, hname.begun, ht.begun]; rfl⟩
  | assign hname heq _ ih =>
    obtain ⟨hvalue, hI₁, hb⟩ := ih (heq.isSpelled (hname.isSpelled hs))
      (by rw [heq.functions, hname.functions]; exact hI) registers_nil
    exact ⟨⟨IsStmt.assign ((hname.spelled hs).name (Or.inl rfl)) hvalue, rfl⟩, hI₁,
      by rw [hb, heq.begun, hname.begun]; rfl⟩
  | paramsCons hdecl _ ih ih' =>
    obtain ⟨⟨hv, -⟩, hI₁, hb⟩ := ih hs hI registers_nil
    obtain ⟨hps, hI₂, hb'⟩ := ih' (State.isSpelled_pastComma (hdecl.isSpelled hs))
      (by rwa [State.functions_pastComma]) registers_nil
    cases hv with
    | declare hv =>
      exact ⟨List.forall_mem_cons.2 ⟨hv, hps⟩, hI₂, by rw [hb', State.begun_pastComma, hb]; rfl⟩
  | condition hl _ hr ih =>
    obtain ⟨hn, hI₁, hb⟩ := ih (hl.isSpelled hs) (hl.functions ▸ hI) registers_nil
    exact ⟨hn, hr.functions ▸ hI₁, by rw [hr.begun, hb, hl.begun]; rfl⟩
  | startDeclaration _ ih =>
    obtain ⟨⟨hn, hdecl⟩, hI₁, hb⟩ := ih hs hI registers_nil
    exact ⟨⟨hn, by simp [hdecl]⟩, hI₁, hb⟩
  | startAssignment _ ih =>
    obtain ⟨⟨hn, hassign⟩, hI₁, hb⟩ := ih hs hI registers_nil
    exact ⟨⟨hn, by simp [hassign]⟩, hI₁, hb⟩
  | block hl _ hr ih =>
    obtain ⟨hns, hI₁, hb⟩ := ih (hl.isSpelled hs) (hl.functions ▸ hI) (by rwa [hl.begun])
    exact ⟨hns, hr.functions ▸ hI₁, by rw [hr.begun, hb, hl.begun]; rfl⟩
  | @function place t name l r ps braces body s s₁ s₂ s₃ s₄ s₅ s' ht hname _ hl hps hr _ ih ih' =>
    simp only [Phrase.declared, functions_function] at hnew
    have hs₃ := hl.isSpelled (hname.isSpelled (ht.isSpelled hs))
    obtain ⟨hparams, hI₁, hb⟩ := ih hs₃
      (by rw [hl.functions, State.functions_begin, hname.functions, ht.functions]; exact hI) registers_nil
    -- the body is read when the function is begun, and the name is entered behind the body
    have hb₅ : s₅.begun = s.begun + 1 := by
      rw [hr.begun, hb, hl.begun]
      exact congrArg (· + 1) (hname.begun.trans ht.begun)
    obtain ⟨hbody, hI₂, hb'⟩ := ih' (hr.isSpelled (hps.isSpelled hs₃)) (hr.functions ▸ hI₁)
      (by rw [hb₅]; exact hnew.tail)
    refine ⟨IsStmt.function ((hname.spelled (ht.isSpelled hs)).name (Or.inr rfl)) hparams hbody,
      hnew.head _ hI₂, ?_⟩
    simp only [Phrase.declared, functions_function, List.length_cons] at hb' ⊢
    show s'.begun = _
    rw [hb', hb₅]
    omega
  | stmtFunction _ ih =>
    obtain ⟨hf, hI₁, hb⟩ := ih hs hI hnew
    exact ⟨hf, hI₁, hb⟩
  | stmtDeclaration _ ih =>
    obtain ⟨⟨hn, hdecl⟩, hI₁, hb⟩ := ih hs hI registers_nil
    exact ⟨hn, hI₁, by simpa [Phrase.declared, hn.functions (by simp [hdecl])] using hb⟩
  | stmtAssignment _ ih =>
    obtain ⟨⟨hn, hassign⟩, hI₁, hb⟩ := ih hs hI registers_nil
    exact ⟨hn, hI₁, by simpa [Phrase.declared, hn.functions (by simp [hassign])] using hb⟩
  | stmtCall _ ih =>
    obtain ⟨⟨hn, hn'⟩, hI₁, hb⟩ := ih hs hI registers_nil
    exact ⟨hn', hI₁, by simpa [Phrase.declared, hn.functions] using hb⟩
  | when ht hcond _ _ ih ih' =>
    obtain ⟨hn, hI₁, hb⟩ := ih (ht.isSpelled hs) (ht.functions ▸ hI) registers_nil
    have hb₂ := hb.trans ht.begun
    simp only [Phrase.declared, functions_when hn.functions] at hnew
    obtain ⟨hyes, hI₂, hb'⟩ := ih' (hcond.isSpelled (ht.isSpelled hs)) hI₁ (by rw [hb₂]; exact hnew)
    exact ⟨IsStmt.when hn hyes, hI₂,
      by simp only [Phrase.declared, functions_when hn.functions] at hb' ⊢; rw [hb', hb₂]⟩
  | choose ht hcond hyes he _ ih ih' ih'' =>
    obtain ⟨hn, hI₁, hb⟩ := ih (ht.isSpelled hs) (ht.functions ▸ hI) registers_nil
    have hb₂ := hb.trans ht.begun
    have hs₂ := hcond.isSpelled (ht.isSpelled hs)
    simp only [Phrase.declared, functions_choose hn.functions] at hnew
    obtain ⟨hyes', hI₂, hb'⟩ := ih' hs₂ hI₁ (by rw [hb₂]; exact hnew.left)
    obtain ⟨hno, hI₃, hb''⟩ := ih'' (he.isSpelled (hyes.isSpelled hs₂)) (he.functions ▸ hI₂)
      (by rw [he.begun, hb', hb₂]; exact hnew.right)
    refine ⟨IsStmt.choose hn hyes' hno, hI₃, ?_⟩
    simp only [Phrase.declared, functions_choose hn.functions, List.length_append] at hb' hb'' ⊢
    rw [hb'', he.begun, hb', hb₂, Nat.add_assoc]
  | whileLoop ht hcond _ ih ih' =>
    obtain ⟨hn, hI₁, hb⟩ := ih (ht.isSpelled hs) (ht.functions ▸ hI) registers_nil
    have hb₂ := hb.trans ht.begun
    simp only [Phrase.declared, functions_whileLoop hn.functions] at hnew
    obtain ⟨hbody, hI₂, hb'⟩ := ih' (hcond.isSpelled (ht.isSpelled hs)) hI₁ (by rw [hb₂]; exact hnew)
    exact ⟨IsStmt.whileLoop hn hbody, hI₂,
      by simp only [Phrase.declared, functions_whileLoop hn.functions] at hb' ⊢; rw [hb', hb₂]⟩
  | @forLoop place t l c c' r init cond step braces body s s₁ s₂ s₃ s₄ s₅ s₆ s₇ s₈ s' ht hl hinit hc hcond hcmp
      hc' hstep hr _ ih ih' ih'' ihbody =>
    have hs₂ := hl.isSpelled (ht.isSpelled hs)
    have hs₄ := hc.isSpelled (hinit.isSpelled hs₂)
    have hs₆ := hc'.isSpelled (hcond.isSpelled hs₄)
    obtain ⟨⟨hi, hkind⟩, hI₁, hb⟩ := ih hs₂ (by rw [hl.functions, ht.functions]; exact hI)
      registers_nil
    obtain ⟨hn, hI₂, hb'⟩ := ih' hs₄ (hc.functions ▸ hI₁) registers_nil
    obtain ⟨⟨hst, hassign⟩, hI₃, hb''⟩ := ih'' hs₆ (hc'.functions ▸ hI₂) registers_nil
    have hfun : (Node.forLoop (t.span.upTo s'.prev) init cond step braces body).functions = _ :=
      functions_forLoop (hi.functions hkind) hn.functions (hst.functions (by simp [hassign]))
    have hb₈ : s₈.begun = s.begun := by
      rw [hr.begun, hb'', hc'.begun, hb', hc.begun, hb, hl.begun, ht.begun]
      rfl
    simp only [Phrase.declared, hfun] at hnew
    obtain ⟨hbody, hI₄, hb₉⟩ := ihbody (hr.isSpelled (hstep.isSpelled hs₆)) (hr.functions ▸ hI₃)
      (by rw [hb₈]; exact hnew)
    exact ⟨IsStmt.forLoop hi hkind hn hcmp hst hassign hbody, hI₄,
      by simp only [Phrase.declared, hfun] at hb₉ ⊢; rw [hb₉, hb₈]⟩
  | skip ht _ _ => exact ⟨IsStmt.skip, ht.functions ▸ hI, by simp [Phrase.declared, functions_skip, ht.begun]⟩
  | stmtsCons _ _ hn _ ih ih' | functionsCons hn _ ih ih' =>
    simp only [Phrase.declared, List.flatMap_cons] at hnew
    obtain ⟨hn', hI₁, hb⟩ := ih hs hI hnew.left
    obtain ⟨hns, hI₂, hb'⟩ := ih' (hn.isSpelled hs) hI₁ (by rw [hb]; exact hnew.right)
    refine ⟨List.forall_mem_cons.2 ⟨hn', hns⟩, hI₂, ?_⟩
    simp only [Phrase.declared, List.flatMap_cons, List.length_append] at hb hb' ⊢
    rw [hb', hb, Nat.add_assoc]
  | globalsCons hn _ ih ih' =>
    obtain ⟨hn', hI₁, hb⟩ := ih hs hI registers_nil
    obtain ⟨hns, hI₂, hb'⟩ := ih' (hn.isSpelled hs) hI₁ registers_nil
    exact ⟨List.forall_mem_cons.2 ⟨hn', hns⟩, hI₂, hb'.trans hb⟩

end Established

end Parse

/-! ## What is parsed is well-formed -/

open Parse

/-- The state in which the parser begins to read scanned tokens. -/
def Scanned.state (s : Scanned) : State := ⟨s.tokens, .first, [], 0⟩

theorem Scanned.isSpelled_state (file source : Text) :
    (scan file source).state.IsSpelled source := scan_spelled file source

/-- The context in which the parser reads a source. -/
def scanContext (file source : Text) (builtins : Option (List Text)) : Context :=
  ⟨file, (scan file source).ending, builtins⟩

theorem ended_scanContext (file source : Text) (builtins : Option (List Text)) :
    (scanContext file source builtins).Ended := by
  unfold Context.Ended Parser.endToken scanContext
  cases h : (scan file source).ending with
  | ok eof => exact scan_ending h
  | error e => rfl

/-- A source that is parsed is read from its first token to the end of the file, where its program ends. -/
theorem program_of_parse {file source : Text} {builtins : Option (List Text)} {p : Program}
    (h : parse file source builtins = .ok p) :
    ∃ s₁ s₂ eof, Reads builtins (.globals p.globals) (scan file source).state s₁ ∧
      Reads builtins (.functions p.functions) s₁ s₂ ∧ s₂.tokens = [] ∧
      (scan file source).ending = .ok eof ∧ p.span = ⟨file, .first, eof.span.stop⟩ := by
  unfold parse parseScanned at h
  split at h
  · next q s' hq =>
    cases h
    obtain ⟨s₁, s₂, last, hglobals, hfunctions, hend, hlast, hspan, hended⟩ :=
      Parser.program_reads (ended_scanContext file source builtins) hq
    have hs₂ := hfunctions.isSpelled (hglobals.isSpelled (Scanned.isSpelled_state file source))
    have hnil := hs₂.tokens_eq_nil hend
    obtain ⟨eof, heof⟩ := hended (by rw [hnil]; rfl)
    have hlast : last = eof := by
      rw [hlast, hnil]
      show Parser.endToken (scanContext file source builtins) = eof
      rw [Parser.endToken, heof]
    exact ⟨s₁, s₂, eof, hglobals, hfunctions, hnil, heof, hlast ▸ hspan⟩
  · cases h

theorem reads_all_of_parse {file source : Text} {builtins : Option (List Text)} {p : Program}
    (h : parse file source builtins = .ok p) :
    ∃ s₁ s₂ eof, Reads builtins (.globals p.globals) (scan file source).state s₁ ∧
      Reads builtins (.functions p.functions) s₁ s₂ ∧ s₂.tokens = [] ∧
      (scan file source).ending = .ok eof := by
  obtain ⟨s₁, s₂, eof, hglobals, hfunctions, hnil, hending, -⟩ := program_of_parse h
  exact ⟨s₁, s₂, eof, hglobals, hfunctions, hnil, hending⟩

/-- The parts of a program that is parsed are read from its tokens, one after the other. -/
theorem reads_of_parse {file source : Text} {builtins : Option (List Text)} {p : Program}
    (h : parse file source builtins = .ok p) :
    ∃ s₁ s₂, Reads builtins (.globals p.globals) (scan file source).state s₁ ∧
      Reads builtins (.functions p.functions) s₁ s₂ := by
  obtain ⟨s₁, s₂, -, hglobals, hfunctions, -, -⟩ := reads_all_of_parse h
  exact ⟨s₁, s₂, hglobals, hfunctions⟩

/-- The functions of a program are those its functions declare. -/
theorem Program.allFunctions_eq {S : Text → Prop} {C : Text → Callee → Prop} {p : Program}
    (h : p.IsFormed S C) : p.allFunctions = p.functions.flatMap fun f => f.node.functions := by
  have hglobals : p.globals.flatMap Node.functions = [] := by
    rw [List.flatMap_eq_nil_iff]
    intro n hn
    obtain ⟨hstmt, hdecl⟩ := h.globals n hn
    exact hstmt.functions (by simp [hdecl])
  show p.node.functions = _
  rw [Node.functions_eq]
  simp [Program.node, Node.function?, Node.children, hglobals, List.flatMap_map]

theorem formed_of_reads {known : Option (List Text)} {source : Text} {p : Program}
    {S : Text → Prop} {C : Text → Callee → Prop} {I : List (Text × Nat) → Prop} {s s₁ s₂ : State}
    (hS : ∀ v, Glyph.quote ∉ v → Quoted source v → S v)
    (hC : ∀ table name, I table → C name (calleeOf table name))
    (hglobals : Reads known (.globals p.globals) s s₁)
    (hfunctions : Reads known (.functions p.functions) s₁ s₂) (hs : s.IsSpelled source)
    (hI : I s.functions)
    (hnew : Registers I s.begun (p.functions.flatMap fun f => f.node.functions)) :
    p.IsFormed S C := by
  obtain ⟨hg, hI₁, hb⟩ := hglobals.established hS hC hs hI registers_nil
  obtain ⟨hf, -, -⟩ := hfunctions.established hS hC (hglobals.isSpelled hs) hI₁ (by rw [hb]; exact hnew)
  exact ⟨hg, hf⟩

/-- A program that is parsed is well-formed, with calls that satisfy what holds of resolved names. -/
theorem formed_of_parse {file source : Text} {builtins : Option (List Text)} {p : Program}
    {S : Text → Prop} {C : Text → Callee → Prop} {I : List (Text × Nat) → Prop}
    (hS : ∀ v, Glyph.quote ∉ v → Quoted source v → S v)
    (hC : ∀ table name, I table → C name (calleeOf table name)) (hI : I [])
    (hnew : ∀ k f table, p.allFunctions[k]? = some f → I table → I ((f.name, k) :: table))
    (h : parse file source builtins = .ok p) : p.IsFormed S C := by
  obtain ⟨s₁, s₂, hglobals, hfunctions⟩ := reads_of_parse h
  have hs := Scanned.isSpelled_state file source
  -- Which functions there are has to be known before the calls can be judged.
  have hshape : p.IsFormed (fun _ => True) (fun _ _ => True) :=
    formed_of_reads (I := fun _ => True) (fun _ _ _ => trivial) (fun _ _ _ => trivial) hglobals hfunctions
      hs trivial fun _ _ _ _ _ => trivial
  refine formed_of_reads hS hC hglobals hfunctions hs hI fun i f table hf hI => ?_
  rw [← Program.allFunctions_eq hshape] at hf
  exact (Nat.zero_add i).symm ▸ hnew i f table hf hI

end ScriptKit
