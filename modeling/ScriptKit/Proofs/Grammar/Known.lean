import ScriptKit.Proofs.Grammar.Complete
import ScriptKit.Proofs.Grammar.Sound
import ScriptKit.Proofs.Tree.Core

/-!
# Parsing against known builtins

The names of the builtins matter to the parser in one place only: where a call is resolved. So a program
that is read when any name may be called is read in the same way when the names are given, up to the
first call of a name that is not among them, and there it is refused.

`Node.externals` lists the builtins a tree calls, in the order in which the calls are resolved: a call
comes after its arguments. `Sieve` relates the two ways to read along the parser, with the names called so
far before and after each step.

**Theorem (`parse_known`).** A source that is parsed without regard to builtins is parsed against a list of
names as the same program, or refused for the first of its calls that is not in the list.

**Theorem (`parse_failed`).** A source that is not parsed without regard to builtins is not parsed against a
list of names either.
-/

namespace ScriptKit

/-! ## The builtins a tree calls -/

namespace Node

/-- The builtin a node calls itself. -/
def external? : Node → Option Text
  | .call _ name .builtin _ => some name
  | _ => none

/-- The builtins called in a tree, in the order in which the calls are resolved. -/
def externals (n : Node) : List Text :=
  (n.children.attach.flatMap fun c => c.1.externals) ++ n.external?.toList
termination_by sizeOf n
decreasing_by exact sizeOf_lt_of_mem_children c.2

/-- The builtins a tree calls, gathered node by node. -/
theorem externals_eq (n : Node) :
    n.externals = n.children.flatMap externals ++ n.external?.toList := by
  rw [externals]
  congr 1
  rw [List.flatMap_def, List.flatMap_def, List.map_attach_eq_pmap, List.pmap_eq_map]

theorem externals_block (braces : Braces) (body : List Node) :
    (block braces body).externals = body.flatMap externals := by
  rw [externals_eq]
  simp [children, external?]

theorem externals_params (params : List Param) : (params.map Param.node).flatMap externals = [] := by
  rw [List.flatMap_eq_nil_iff]
  intro n hn
  obtain ⟨p, -, rfl⟩ := List.mem_map.1 hn
  rw [externals_eq]
  rfl

section Equations

variable (span : Span) (braces braces' : Braces)

theorem externals_function (name : Text) (params : List Param) (body : List Node) :
    (function span name params braces body).externals = body.flatMap externals := by
  rw [externals_eq]
  simp [children, external?, externals_params, externals_block]

theorem externals_when (cond : Node) (yes : List Node) :
    (when span cond braces yes).externals = cond.externals ++ yes.flatMap externals := by
  rw [externals_eq]
  simp [children, external?, externals_block]

theorem externals_choose (cond : Node) (yes no : List Node) :
    (choose span cond braces yes braces' no).externals =
      cond.externals ++ yes.flatMap externals ++ no.flatMap externals := by
  rw [externals_eq]
  simp [children, external?, externals_block]

theorem externals_whileLoop (cond : Node) (body : List Node) :
    (whileLoop span cond braces body).externals = cond.externals ++ body.flatMap externals := by
  rw [externals_eq]
  simp [children, external?, externals_block]

theorem externals_forLoop (init cond step : Node) (body : List Node) :
    (forLoop span init cond step braces body).externals =
      init.externals ++ cond.externals ++ step.externals ++ body.flatMap externals := by
  rw [externals_eq]
  simp [children, external?, externals_block]

end Equations

theorem external?_eq_some {n : Node} {name : Text} :
    n.external? = some name ↔ ∃ span args, n = .call span name .builtin args := by
  constructor
  · intro h
    cases n with
    | call span name' callee args =>
      cases callee with
      | builtin =>
        cases h
        exact ⟨span, args, rfl⟩
      | function k => cases h
    | _ => cases h
  · rintro ⟨span, args, rfl⟩
    rfl

/-- The builtins a tree calls are the names of its calls without a target. -/
theorem mem_externals {n : Node} {name : Text} :
    name ∈ n.externals ↔ ∃ span args, .call span name .builtin args ∈ n.preorder := by
  induction n using induction_children with
  | step n ih =>
    rw [externals_eq, List.mem_append, List.mem_flatMap, Option.mem_toList, external?_eq_some]
    constructor
    · rintro (⟨c, hc, hname⟩ | ⟨span, args, rfl⟩)
      · obtain ⟨span, args, hcall⟩ := (ih c hc).1 hname
        exact ⟨span, args, mem_preorder_of_child hc hcall⟩
      · exact ⟨span, args, mem_preorder_self _⟩
    · rintro ⟨span, args, hcall⟩
      rcases mem_preorder.1 hcall with hn | ⟨c, hc, hcall⟩
      · exact Or.inr ⟨span, args, hn.symm⟩
      · exact Or.inl ⟨c, hc, (ih c hc).2 ⟨span, args, hcall⟩⟩

end Node

/-- The builtins called in a function. -/
def Function.externals (f : Function) : List Text := f.body.flatMap Node.externals

theorem Function.externals_node (f : Function) : f.node.externals = f.externals :=
  Node.externals_function ..

/-- The builtins called in a program. -/
def Program.externals (p : Program) : List Text :=
  p.globals.flatMap Node.externals ++ p.functions.flatMap Function.externals

theorem Program.externals_node (p : Program) : p.node.externals = p.externals := by
  rw [Node.externals_eq]
  simp only [Program.node, Node.children, Node.external?, Option.toList_none, List.append_nil,
    List.flatMap_append, List.flatMap_map]
  exact congrArg (_ ++ List.flatMap · _) (funext Function.externals_node)

namespace Node

/-! ## They belong to the core -/

theorem external?_bare (n : Node) : n.bare.external? = n.external? := by
  cases n with
  | call _ _ callee _ => cases callee <;> rfl
  | _ => rfl

theorem external?_withoutSkips (n : Node) : n.withoutSkips.external? = n.external? := by
  cases n <;> rfl

/-- The builtins a node calls itself come after those its children call. -/
theorem externals_gathered (n : Node) :
    n.externals = [] ++ n.children.flatMap externals ++ n.external?.toList :=
  externals_eq n

theorem externals_bare (n : Node) : n.bare.externals = n.externals :=
  gather_bare externals_gathered (fun _ => rfl) (fun n => congrArg _ (external?_bare n)) n

theorem externals_dropSkips (ns : List Node) :
    (dropSkips ns).flatMap externals = ns.flatMap externals := by
  have hskip : ∀ span text, (skip span text).externals = [] := by
    intro span text
    rw [externals_eq]
    rfl
  exact gather_dropSkips hskip fun n _ => gather_withoutSkips externals_gathered (fun _ => rfl)
    (fun n => congrArg _ (external?_withoutSkips n)) hskip n

end Node

theorem Program.externals_core (p : Program) : p.core.externals = p.externals := by
  have hfunction : ∀ f : Function, f.core.externals = f.externals := by
    intro f
    rw [Function.externals, Function.externals, Function.core, Node.coreAll, Node.bareAll_eq_map,
      List.flatMap_map, ← Node.externals_dropSkips f.body]
    exact congrArg (List.flatMap · _) (funext Node.externals_bare)
  rw [externals, externals, core, List.flatMap_map, List.flatMap_map]
  congr 1
  · exact congrArg (List.flatMap · _) (funext Node.externals_bare)
  · exact congrArg (List.flatMap · _) (funext hfunction)

/-! ## Two ways to read -/

namespace Parser

open Parse

section Sieve

variable (file : Text) (ending : Except Token.Error Token) (known : List Text)

/-- The first of some names that is not known. -/
def unknown? (names : List Text) : Option Text := names.find? fun name => !known.contains name

/-- A result where `names` are called: the one that is given if all of them are known, and otherwise the
refusal of the first one that is not. -/
def Sifted {β : Type} (names : List Text) (result : Except Error β) (b : β) : Prop :=
  match unknown? known names with
  | none => result = .ok b
  | some name => ∃ e, result = .error e ∧ e.fault = .unknownFunction name

/-- What looks at no builtins. -/
def Blind {α : Type} (x : Parser α) : Prop :=
  ∀ s, x ⟨file, ending, some known⟩ s = x ⟨file, ending, none⟩ s

/-- A result that refuses a name that is not known. -/
def Refused {β : Type} (result : Except Error β) : Prop :=
  ∃ e name, result = .error e ∧ e.fault = .unknownFunction name ∧ name ∉ known

/-- Whatever `x` reads without regard to builtins, it reads with known ones up to the first call that is not
known, and where it fails without regard to them, it fails with known ones, in the same way or at such a
call. `pre` are the names called before, and `post` tells those called in all from what was read. -/
structure Sieve {α : Type} (pre : List Text) (x : Parser α) (post : α → List Text) : Prop where
  ok : ∀ s a s', x ⟨file, ending, none⟩ s = .ok (a, s') →
    ∃ new, post a = pre ++ new ∧ Sifted known new (x ⟨file, ending, some known⟩ s) (a, s')
  error : ∀ s e, x ⟨file, ending, none⟩ s = .error e →
    x ⟨file, ending, some known⟩ s = .error e ∨ Refused known (x ⟨file, ending, some known⟩ s)

variable {file ending known} {α β : Type} {pre : List Text} {x : Parser α}

/-- The first unknown name of two lists is that of the first list, if it has one. -/
theorem unknown?_append (names names' : List Text) :
    unknown? known (names ++ names') = (unknown? known names).or (unknown? known names') :=
  List.find?_append

theorem unknown?_not_mem {names : List Text} {name : Text} (h : unknown? known names = some name) :
    name ∉ known := by
  have hname := @List.find?_some _ (fun name => !known.contains name) name names h
  simpa using hname

theorem sifted_nil (b : β) : Sifted known [] (.ok b) b := rfl

/-- A sifted result is the one that is given or a refusal. -/
theorem Sifted.cases {names : List Text} {result : Except Error β} {b : β}
    (h : Sifted known names result b) : result = .ok b ∨ Refused known result := by
  unfold Sifted at h
  cases hfind : unknown? known names with
  | none =>
    rw [hfind] at h
    exact Or.inl h
  | some name =>
    rw [hfind] at h
    obtain ⟨e, he, hfault⟩ := h
    exact Or.inr ⟨e, name, he, hfault, unknown?_not_mem hfind⟩

/-- What looks at no builtins is closed under sequencing. -/
theorem Blind.bind {f : α → Parser β} (hx : Blind file ending known x)
    (hf : ∀ a, Blind file ending known (f a)) : Blind file ending known (x >>= f) := by
  intro s
  show (x ⟨file, ending, some known⟩ s >>= fun r => f r.1 ⟨file, ending, some known⟩ r.2) =
    (x ⟨file, ending, none⟩ s >>= fun r => f r.1 ⟨file, ending, none⟩ r.2)
  rw [hx s]
  exact congrArg _ (funext fun r => hf r.1 r.2)

theorem Blind.ite {c : Prop} [Decidable c] {y : Parser α} (hx : Blind file ending known x)
    (hy : Blind file ending known y) : Blind file ending known (if c then x else y) := by
  split
  · exact hx
  · exact hy

theorem blind_guardEnding (rest : List Token) : Blind file ending known (guardEnding rest) := by
  intro s
  cases rest <;> cases ending <;> rfl

theorem blind_advance : Blind file ending known advance :=
  .bind (fun _ => rfl) fun _ => .bind (fun _ => rfl) fun _ => .bind (blind_guardEnding _) fun _ _ => rfl

theorem Blind.discard (hx : Blind file ending known x) : Blind file ending known (discard x) := by
  show Blind file ending known (x >>= fun _ => Pure.pure PUnit.unit)
  exact .bind hx fun _ _ => rfl

theorem blind_expect (kind : Token.Kind) : Blind file ending known (expect kind) :=
  .bind (fun _ => rfl) fun _ => .ite blind_advance fun _ => rfl

theorem blind_optionalComma : Blind file ending known optionalComma :=
  .bind (fun _ => rfl) fun _ => .ite blind_advance.discard fun _ => rfl

/-- What looks at no builtins reads the same. -/
theorem Sieve.blind (h : Blind file ending known x) :
    Sieve file ending known pre x fun _ => pre where
  ok s a s' hx := by
    refine ⟨[], (List.append_nil pre).symm, ?_⟩
    rw [h, hx]
    exact sifted_nil _
  error s e hx := Or.inl ((h s).trans hx)

theorem Sieve.pure {post : α → List Text} {a : α} (h : post a = pre) :
    Sieve file ending known pre (Pure.pure a) post where
  ok s a' s' hx := by
    cases hx
    exact ⟨[], by rw [h, List.append_nil], sifted_nil _⟩
  error s e hx := by cases hx

theorem Sieve.fail {post : α → List Text} (fault : Fault) (span : Span) :
    Sieve file ending known pre (Parser.fail fault span) post where
  ok s a s' hx := by cases hx
  error s e hx := Or.inl hx

/-- What would come after a failure does not matter. -/
theorem Sieve.fail_bind {f : α → Parser β} {post : β → List Text} (fault : Fault) (span : Span) :
    Sieve file ending known pre (Parser.fail fault span >>= f) post where
  ok s a s' hx := by cases hx
  error s e hx := Or.inl hx

theorem bind_of_ok {f : α → Parser β} {ctx : Context} {s s' : State} {a : α} (h : x ctx s = .ok (a, s')) :
    (x >>= f) ctx s = f a ctx s' := by
  show (x ctx s >>= fun r => f r.1 ctx r.2) = _
  rw [h]
  rfl

theorem bind_of_error {f : α → Parser β} {ctx : Context} {s : State} {e : Error}
    (h : x ctx s = .error e) : (x >>= f) ctx s = .error e := by
  show (x ctx s >>= fun r => f r.1 ctx r.2) = _
  rw [h]
  rfl

theorem Refused.bind {f : α → Parser β} {ctx : Context} {s : State} (h : Refused known (x ctx s)) :
    Refused known ((x >>= f) ctx s) := by
  obtain ⟨e, name, he, hfault⟩ := h
  exact ⟨e, name, bind_of_error he, hfault⟩

/-- Read something and go on. -/
theorem Sieve.step {names : α → List Text} {f : α → Parser β} {post : β → List Text}
    (hx : Sieve file ending known [] x names)
    (hf : ∀ a, Sieve file ending known (pre ++ names a) (f a) post) :
    Sieve file ending known pre (x >>= f) post := by
  refine ⟨fun s b s'' hxf => ?_, fun s e hxf => ?_⟩
  · obtain ⟨a, s', ha, hb⟩ := bind_ok.1 hxf
    obtain ⟨new, hnames, hsift⟩ := hx.ok s a s' ha
    obtain ⟨new', hpost, hsift'⟩ := (hf a).ok s' b s'' hb
    rw [List.nil_append] at hnames
    refine ⟨new ++ new', by rw [hpost, hnames, List.append_assoc], ?_⟩
    unfold Sifted at hsift hsift' ⊢
    rw [unknown?_append]
    -- the first unknown name decides, so where there is one the second part is not reached
    cases hfind : unknown? known new with
    | some name =>
      rw [hfind] at hsift
      obtain ⟨e, he, hfault⟩ := hsift
      exact ⟨e, bind_of_error he, hfault⟩
    | none =>
      rw [hfind] at hsift
      rw [Option.none_or, bind_of_ok hsift]
      exact hsift'
  · cases hread : x ⟨file, ending, none⟩ s with
    | error e' =>
      rw [bind_of_error hread] at hxf
      cases hxf
      exact (hx.error s e hread).imp bind_of_error Refused.bind
    | ok r =>
      rw [bind_of_ok hread] at hxf
      obtain ⟨new, -, hsift⟩ := hx.ok s r.1 r.2 hread
      rcases hsift.cases with hok | hrefused
      · rw [bind_of_ok hok]
        exact (hf r.1).error r.2 e hxf
      · exact Or.inr hrefused.bind

/-- Go on after something that looks at no builtins. -/
theorem Sieve.skip {f : α → Parser β} {post : β → List Text}
    (hx : Blind file ending known x) (hf : ∀ a, Sieve file ending known pre (f a) post) :
    Sieve file ending known pre (x >>= f) post :=
  .step (.blind hx) fun a => by rw [List.append_nil]; exact hf a

theorem Sieve.ite {post : α → List Text} {c : Prop} [Decidable c] {y : Parser α}
    (hx : Sieve file ending known pre x post) (hy : Sieve file ending known pre y post) :
    Sieve file ending known pre (if c then x else y) post := by
  split
  · exact hx
  · exact hy

end Sieve

/-! ## Expressions -/

section Expressions

variable {file : Text} {ending : Except Token.Error Token} {known : List Text} {factor : Parser Node}

theorem externals_arith (span : Span) (left : Node) (op : Arith) (right : Node) :
    (Node.arith span left op right).externals = left.externals ++ right.externals := by
  rw [Node.externals_eq]
  simp [Node.children, Node.external?]

theorem externals_compare (span : Span) (left : Node) (op : Relation) (right : Node) :
    (Node.compare span left op right).externals = left.externals ++ right.externals := by
  rw [Node.externals_eq]
  simp [Node.children, Node.external?]

theorem sieve_termFrom (hf : Sieve file ending known [] factor Node.externals) (n : Nat) (left : Node) :
    Sieve file ending known left.externals (termFrom factor n left) Node.externals := by
  induction n generalizing left with
  | zero => exact .pure rfl
  | succ n ih =>
    refine .skip (fun _ => rfl) fun kind => .ite (.skip blind_advance fun op => .step hf fun right => ?_)
      (.ite (.skip blind_advance fun op => .step hf fun right => .pure ?_) (.pure rfl))
    · rw [← externals_arith (left.span.through right.span) left (.ofSymbol op.value) right]
      exact ih _
    · exact externals_compare ..

theorem sieve_term (hf : Sieve file ending known [] factor Node.externals) :
    Sieve file ending known [] (term factor) Node.externals :=
  .step hf fun left => .skip (fun _ => rfl) fun n => sieve_termFrom hf n left

theorem sieve_expressionFrom (hf : Sieve file ending known [] factor Node.externals) (n : Nat)
    (left : Node) :
    Sieve file ending known left.externals (expressionFrom factor n left) Node.externals := by
  induction n generalizing left with
  | zero => exact .pure rfl
  | succ n ih =>
    refine .skip (fun _ => rfl) fun kind =>
      .ite (.skip blind_advance fun op => .step (sieve_term hf) fun right => ?_) (.pure rfl)
    rw [← externals_arith (left.span.through right.span) left (.ofSymbol op.value) right]
    exact ih _

theorem sieve_expression (hf : Sieve file ending known [] factor Node.externals) :
    Sieve file ending known [] (expression factor) Node.externals :=
  .step (sieve_term hf) fun left => .skip (fun _ => rfl) fun n => sieve_expressionFrom hf n left

theorem sieve_itemsUntil {α : Type} {item : Parser α} {names : α → List Text} (stop : Token.Kind → Bool)
    (h : Sieve file ending known [] item names) (n : Nat) (items : List α) :
    Sieve file ending known (items.reverse.flatMap names) (itemsUntil stop item n items)
      (List.flatMap names) := by
  induction n generalizing items with
  | zero => exact .pure rfl
  | succ n ih =>
    refine .skip (fun _ => rfl) fun kind => .ite (.pure rfl) (.step h fun a => ?_)
    have hrest := ih (a :: items)
    rw [List.reverse_cons, List.flatMap_append, List.flatMap_singleton] at hrest
    exact hrest

theorem sieve_manyUntil {α : Type} {item : Parser α} {names : α → List Text} (stop : Token.Kind → Bool)
    (h : Sieve file ending known [] item names) :
    Sieve file ending known [] (manyUntil stop item) (List.flatMap names) :=
  .skip (fun _ => rfl) fun n => sieve_itemsUntil stop h (n + 1) []

/-- The name of a call that is resolved to a builtin. -/
def external (name : Text) : Callee → List Text
  | .builtin => [name]
  | .function _ => []

theorem externals_call (span : Span) (name : Text) (callee : Callee) (args : List Node) :
    (Node.call span name callee args).externals = args.flatMap Node.externals ++ external name callee := by
  rw [Node.externals_eq]
  cases callee <;> rfl

/-- A name that is neither a function nor known is refused where it is called. -/
theorem resolve_refused {name : Token} {s : State} (hfun : s.functions.lookup name.value = none)
    (hname : name.value ∉ known) :
    resolve name ⟨file, ending, some known⟩ s = .error ⟨.unknownFunction name.value, name.span⟩ := by
  have hget : (get : Parser State) ⟨file, ending, some known⟩ s = .ok (s, s) := rfl
  have hread : (read : Parser Context) ⟨file, ending, some known⟩ s =
    .ok (⟨file, ending, some known⟩, s) := rfl
  rw [resolve, bind_of_ok hget, bind_of_ok hread]
  simp only [hfun, if_neg hname]
  rfl

/-- Calls are where known builtins matter. -/
theorem sieve_resolve (name : Token) :
    Sieve file ending known [] (resolve name) (external name.value) := by
  refine ⟨fun s callee s' h => ?_, fun s e h => ?_⟩
  · obtain ⟨rfl, -, rfl⟩ := resolve_ok h
    refine ⟨_, (List.nil_append _).symm, ?_⟩
    by_cases hcallable : Callable (some known) s'.functions name.value
    · have hrun : resolve name ⟨file, ending, some known⟩ s' =
          .ok (calleeOf s'.functions name.value, s') := resolve_run hcallable
      have hfind : unknown? known (external name.value (calleeOf s'.functions name.value)) = none := by
        cases hfun : s'.functions.lookup name.value with
        | some number => simp [unknown?, calleeOf, external, hfun]
        | none => simp [unknown?, calleeOf, external, hfun, hcallable hfun known rfl]
      rw [Sifted, hfind]
      exact hrun
    · simp only [Callable, Option.some.injEq, forall_eq', Classical.not_imp] at hcallable
      obtain ⟨hfun, hname⟩ := hcallable
      have hfind : unknown? known (external name.value (calleeOf s'.functions name.value)) =
          some name.value := by
        simp [unknown?, calleeOf, external, hfun, hname]
      rw [Sifted, hfind]
      exact ⟨_, resolve_refused hfun hname, rfl⟩
  · have hrun : resolve name ⟨file, ending, none⟩ s = .ok (calleeOf s.functions name.value, s) :=
      resolve_run fun _ _ hnone => by cases hnone
    rw [hrun] at h
    cases h

theorem sieve_call (hf : Sieve file ending known [] factor Node.externals) :
    Sieve file ending known [] (call factor) Node.externals := by
  refine .skip blind_advance fun name => .skip (blind_expect _).discard fun _ => ?_
  have harg : Sieve file ending known [] (do
      let arg ← expression factor
      optionalComma
      return arg) Node.externals :=
    .step (sieve_expression hf) fun arg => .skip blind_optionalComma fun _ => .pure rfl
  refine .step (sieve_manyUntil _ harg) fun args => .skip blind_advance.discard fun _ =>
    .skip (fun _ => rfl) fun span => .step (sieve_resolve name) fun callee => .pure ?_
  exact externals_call span name.value callee args

theorem externals_leaf {n : Node} (hchildren : n.children = []) (hown : n.external? = none) :
    n.externals = [] := by
  rw [Node.externals_eq, hchildren, hown]
  rfl

theorem sieve_nameUse : Sieve file ending known [] nameUse Node.externals :=
  .skip (blind_expect _) fun _ => .pure (externals_leaf rfl rfl)

theorem sieve_numeral : Sieve file ending known [] numeral Node.externals := by
  refine .skip blind_advance fun t => ?_
  split
  · exact .pure (externals_leaf rfl rfl)
  · exact .fail _ _

theorem externals_sign (span : Span) (op : Sign) (operand : Node) :
    (Node.sign span op operand).externals = operand.externals := by
  rw [Node.externals_eq]
  simp [Node.children, Node.external?]

/-- One case for each token a factor begins with. -/
theorem sieve_factor (n : Nat) : Sieve file ending known [] (Parser.factor n) Node.externals := by
  induction n with
  | zero => exact sieve_nameUse
  | succ n ih =>
    refine .skip (fun _ => rfl) fun t => ?_
    have hsign : Sieve file ending known [] (do
        discard advance
        let operand ← Parser.factor n
        return .sign (t.span.through operand.span) (.ofSymbol t.value) operand) Node.externals :=
      .skip blind_advance.discard fun _ => .step ih fun operand => .pure (externals_sign ..)
    split
    · exact hsign
    · exact hsign
    · exact sieve_numeral
    · exact .skip blind_advance.discard fun _ => .pure (externals_leaf rfl rfl)
    · exact .skip blind_advance.discard fun _ => .pure (externals_leaf rfl rfl)
    · exact .skip blind_advance.discard fun _ => .step (sieve_expression ih) fun inner =>
        .skip (blind_expect _).discard fun _ => .pure rfl
    · exact sieve_call ih
    · exact sieve_nameUse

theorem sieve_anyExpression : Sieve file ending known [] anyExpression Node.externals :=
  .skip (fun _ => rfl) fun n => sieve_expression (sieve_factor n)

theorem sieve_anyTerm : Sieve file ending known [] anyTerm Node.externals :=
  .skip (fun _ => rfl) fun n => sieve_term (sieve_factor n)

theorem sieve_anyCall : Sieve file ending known [] anyCall Node.externals :=
  .skip (fun _ => rfl) fun n => sieve_call (sieve_factor n)

end Expressions

/-! ## Statements -/

section Statements

variable {file : Text} {ending : Except Token.Error Token} {known : List Text}
  {statement : Place → Parser Node} {place : Place}

theorem externals_declareAs (span : Span) (name : Text) (type : VarType) (value : Node) :
    (Node.declareAs span name type value).externals = value.externals := by
  rw [Node.externals_eq]
  simp [Node.children, Node.external?]

theorem externals_assign (span : Span) (name : Text) (value : Node) :
    (Node.assign span name value).externals = value.externals := by
  rw [Node.externals_eq]
  simp [Node.children, Node.external?]

theorem sieve_declaration : Sieve file ending known [] declaration Node.externals := by
  refine .skip blind_advance fun type => .skip (blind_expect _) fun name => ?_
  refine .skip (fun _ => rfl) fun kind => .ite ?_ ?_
  · refine .skip blind_advance.discard fun _ => .step sieve_anyExpression fun value => ?_
    exact .skip (fun _ => rfl) fun span => .pure (externals_declareAs ..)
  · exact .skip (fun _ => rfl) fun span => .pure (externals_leaf rfl rfl)

theorem sieve_assignment : Sieve file ending known [] assignment Node.externals := by
  refine .skip (blind_expect _) fun name => .skip (blind_expect _).discard fun _ => ?_
  exact .step sieve_anyExpression fun value => .skip (fun _ => rfl) fun span =>
    .pure (externals_assign ..)

theorem sieve_block (h : ∀ place, Sieve file ending known [] (statement place) Node.externals) :
    Sieve file ending known [] (block statement place) fun r => r.2.flatMap Node.externals := by
  refine .skip (blind_expect _) fun opening => .step (sieve_manyUntil _ (h _)) fun body => ?_
  exact .skip (blind_expect _).discard fun _ => .skip (fun _ => rfl) fun span => .pure rfl

theorem sieve_parameter : Sieve file ending known [] parameter fun _ => [] := by
  refine .skip (fun _ => rfl) fun t => .ite ?_ (.fail _ _)
  refine .step sieve_declaration fun n => ?_
  cases n with
  | declare span name type =>
    rw [externals_leaf rfl rfl]
    exact .skip blind_optionalComma fun _ => .pure rfl
  | _ => exact .fail _ _

/-- A function calls what its block calls. -/
theorem sieve_function (h : ∀ place, Sieve file ending known [] (statement place) Node.externals) :
    Sieve file ending known [] (function statement place) Function.externals := by
  refine .skip blind_advance fun start => .skip (fun _ => rfl) fun name => .ite ?_ (.fail _ _)
  refine .skip blind_advance.discard fun _ => .skip (fun _ => rfl) fun s => ?_
  refine .skip (fun _ => rfl) fun s' => .ite ?_ ?_
  · exact .fail_bind _ _
  · refine .skip (fun _ => rfl) fun _ => .skip (blind_expect _).discard fun _ => ?_
    refine .step (sieve_manyUntil _ sieve_parameter) fun params => .skip blind_advance.discard fun _ => ?_
    refine .step (sieve_block h) fun r => .skip (fun _ => rfl) fun _ => .skip (fun _ => rfl) fun span => ?_
    refine .pure ?_
    rw [List.flatMap_eq_nil_iff.2 fun _ _ => rfl]
    rfl

theorem sieve_condition : Sieve file ending known [] condition Node.externals :=
  .skip (blind_expect _).discard fun _ => .step sieve_anyExpression fun _ =>
    .skip (blind_expect _).discard fun _ => .pure rfl

theorem sieve_conditional (h : ∀ place, Sieve file ending known [] (statement place) Node.externals) :
    Sieve file ending known [] (conditional statement place) Node.externals := by
  refine .skip blind_advance fun start => .step sieve_condition fun cond => ?_
  refine .step (sieve_block h) fun yes => .skip (fun _ => rfl) fun kind => .ite ?_ ?_
  · refine .skip blind_advance.discard fun _ => .step (sieve_block h) fun no => ?_
    exact .skip (fun _ => rfl) fun span => .pure (Node.externals_choose ..)
  · exact .skip (fun _ => rfl) fun span => .pure (Node.externals_when ..)

theorem sieve_whileLoop (h : ∀ place, Sieve file ending known [] (statement place) Node.externals) :
    Sieve file ending known [] (whileLoop statement place) Node.externals := by
  refine .skip blind_advance fun start => .step sieve_condition fun cond => ?_
  exact .step (sieve_block h) fun body => .skip (fun _ => rfl) fun span => .pure (Node.externals_whileLoop ..)

theorem sieve_loopStart : Sieve file ending known [] loopStart Node.externals :=
  .skip (fun _ => rfl) fun _ => .ite sieve_declaration (.ite sieve_assignment (.fail _ _))

theorem sieve_loopCondition : Sieve file ending known [] loopCondition Node.externals :=
  .step sieve_anyTerm fun _ => .ite (.pure rfl) (.fail _ _)

theorem sieve_forLoop (h : ∀ place, Sieve file ending known [] (statement place) Node.externals) :
    Sieve file ending known [] (forLoop statement place) Node.externals := by
  refine .skip blind_advance fun start => .skip (blind_expect _).discard fun _ => ?_
  refine .step sieve_loopStart fun init => .skip (blind_expect _).discard fun _ => ?_
  refine .step sieve_loopCondition fun cond => .skip (blind_expect _).discard fun _ => ?_
  refine .step sieve_assignment fun step => .skip (blind_expect _).discard fun _ => ?_
  refine .step (sieve_block h) fun body => .skip (fun _ => rfl) fun span => .pure ?_
  exact Node.externals_forLoop ..

theorem sieve_passOver : Sieve file ending known [] passOver Node.externals :=
  .skip blind_advance fun _ => .pure (externals_leaf rfl rfl)

/-- One case for each way a statement begins. -/
theorem sieve_statement (n : Nat) (place : Place) :
    Sieve file ending known [] (Parser.statement n place) Node.externals := by
  induction n generalizing place with
  | zero => exact sieve_passOver
  | succ n ih =>
    refine .skip (fun _ => rfl) fun kind => ?_
    cases kind with
    | func => exact .step (sieve_function ih) fun f => .pure (Function.externals_node f)
    | intType => exact sieve_declaration
    | stringType => exact sieve_declaration
    | boolType => exact sieve_declaration
    | name => exact sieve_assignment
    | call => exact sieve_anyCall
    | «if» => exact sieve_conditional ih
    | «while» => exact sieve_whileLoop ih
    | «for» => exact sieve_forLoop ih
    | _ => exact sieve_passOver

/-! ## Programs -/

theorem sieve_globalsFrom (n : Nat) (globals : List Node) :
    Sieve file ending known (globals.reverse.flatMap Node.externals) (globalsFrom n globals)
      (List.flatMap Node.externals) := by
  induction n generalizing globals with
  | zero => exact .pure rfl
  | succ n ih =>
    refine .skip (fun _ => rfl) fun kind => .ite (.step sieve_declaration fun g => ?_) (.pure rfl)
    have hrest := ih (g :: globals)
    rw [List.reverse_cons, List.flatMap_append, List.flatMap_singleton] at hrest
    exact hrest

theorem sieve_functionsFrom (n : Nat) (functions : List Function) :
    Sieve file ending known (functions.reverse.flatMap Function.externals) (functionsFrom n functions)
      (List.flatMap Function.externals) := by
  induction n generalizing functions with
  | zero => exact .pure rfl
  | succ n ih =>
    refine .skip (fun _ => rfl) fun kind => .ite ?_ (.pure rfl)
    refine .skip (fun _ => rfl) fun m => .step (sieve_function (sieve_statement m)) fun f => ?_
    have hrest := ih (f :: functions)
    rw [List.reverse_cons, List.flatMap_append, List.flatMap_singleton] at hrest
    exact hrest

/-- A program calls what its globals and its functions call. -/
theorem sieve_program : Sieve file ending known [] program Program.externals := by
  refine .skip (fun _ => rfl) fun s => .skip (blind_guardEnding _) fun _ => .skip (fun _ => rfl) fun n => ?_
  refine .step (sieve_globalsFrom n []) fun globals => .skip (fun _ => rfl) fun m => ?_
  refine .step (sieve_functionsFrom m []) fun functions => .skip (blind_expect _) fun eof => ?_
  refine ⟨fun s p s' hp => ?_, fun s e hp => (nomatch hp)⟩
  cases hp
  exact ⟨[], by rw [List.append_nil]; rfl, rfl⟩

end Statements

end Parser

/-- Reading against known builtins gives the same program, or refuses the first call of a name that is not
known. -/
theorem parse_known {file source : Text} {p : Program} (h : parse file source = .ok p)
    (known : List Text) : Parser.Sifted known p.externals (parse file source (some known)) p := by
  simp only [parse, parseScanned] at h ⊢
  cases hrun : Parser.program ⟨file, (scan file source).ending, none⟩
      ⟨(scan file source).tokens, .first, [], 0⟩ with
  | error e =>
    rw [hrun] at h
    cases h
  | ok r =>
    rw [hrun] at h
    cases h
    obtain ⟨new, hnames, hsift⟩ := Parser.sieve_program.ok _ r.1 r.2 hrun
    rw [List.nil_append] at hnames
    rw [hnames]
    unfold Parser.Sifted at hsift ⊢
    cases hfind : Parser.unknown? known new with
    | none =>
      rw [hfind] at hsift
      rw [hsift]
    | some name =>
      rw [hfind] at hsift
      obtain ⟨e, he, hfault⟩ := hsift
      exact ⟨e, by rw [he], hfault⟩

/-- Where reading fails without regard to builtins, reading against known ones fails in the same way or
refuses a name that is not known. -/
theorem parse_failed {file source : Text} {e : Parse.Error} (h : parse file source = .error e)
    (known : List Text) :
    parse file source (some known) = .error e ∨ Parser.Refused known (parse file source (some known)) := by
  simp only [parse, parseScanned] at h ⊢
  cases hrun : Parser.program ⟨file, (scan file source).ending, none⟩
      ⟨(scan file source).tokens, .first, [], 0⟩ with
  | ok r =>
    rw [hrun] at h
    cases h
  | error e' =>
    rw [hrun] at h
    cases h
    rcases Parser.sieve_program.error _ e hrun with hsame | ⟨e', name, he, hfault⟩
    · exact Or.inl (by rw [hsame])
    · exact Or.inr ⟨e', name, by rw [he], hfault⟩

end ScriptKit
