import ScriptKit.Proofs.Text.Numeral
import ScriptKit.Proofs.Token.Lexical
import ScriptKit.Session

/-!
# The wording of failures

Some failures can only come from a defect of the evaluator: a node of a kind that it does not handle, an operator
outside the language, and an expression without a value that is no call. `InternalWording` are the texts with which
such failures are reported, and `Ordinary` are the failures that a program can meet.

A wording is told from an internal one by its first three glyphs and by its last two words. Where names that the
program has chosen stand at one of its ends, it takes into account that a name has no blanks.

**Theorem (`Ordinary.not_internal`).** No ordinary failure has an internal wording.
-/

namespace ScriptKit

/-! ## The default builtins -/

/-- The failures of the default builtins. -/
inductive Builtin.Refusal : Builtin.Fault → Prop
  | arity (name : Text) (accepted : List Nat) (got : Nat) : Refusal (arityFault name accepted got)
  | integer (name : Text) (v : Value) :
      Refusal (.argument (name ++ " needs integer arguments, got " ++ Value.typeName (some v) ++ " " ++
        v.text.quoted))
  | range (lo hi : Int) :
      Refusal (.argument ("Random range [" ++ Text.ofInt lo ++ ", " ++ Text.ofInt hi ++ ") is empty"))
  | io {detail : Text} : detail ∈ [("write failed" : Text), "end of input", "read failed"] → Refusal (.io detail)

theorem Builtin.refusal_intArg {name : Text} {v : Value} {fault : Fault} (h : intArg name v = .error fault) :
    Refusal fault := by
  unfold intArg at h
  split at h
  · cases h
  · cases h
    exact .integer ..

theorem Builtin.refusal_drawBetween {lo hi : Int32} {w : World} {fault : Fault}
    (h : (drawBetween lo hi w).1 = .error fault) : Refusal fault := by
  unfold drawBetween at h
  split at h
  · cases h
  · cases h
    exact .range ..

theorem Registry.refusal_default {b : Builtin} {args : List Value} {w : World} {fault : Builtin.Fault}
    (hb : b ∈ default.builtins) (h : (b.run args w).1 = .error fault) : Builtin.Refusal fault := by
  simp only [default, List.mem_cons, List.not_mem_nil, or_false] at hb
  rcases hb with rfl | rfl | rfl
  · simp only [Builtin.writeLine, Builtin.runWriteLine] at h
    split at h
    · split at h
      · cases h
      · cases h
        exact .io (by simp)
    · cases h
      exact .arity ..
  · simp only [Builtin.random, Builtin.runRandom] at h
    split at h
    · split at h
      · exact Builtin.refusal_drawBetween h
      · next hv =>
        cases h
        exact Builtin.refusal_intArg hv
    · split at h
      · exact Builtin.refusal_drawBetween h
      · next hu =>
        cases h
        exact Builtin.refusal_intArg hu
      · next hv =>
        cases h
        exact Builtin.refusal_intArg hv
    · cases h
      exact .arity ..
  · simp only [Builtin.readLine, Builtin.runReadLine] at h
    split at h
    · split at h
      · cases h
      · cases h
        exact .io (by simp)
      · cases h
        exact .io (by simp)
    · cases h
      exact .arity ..

namespace Run

/-- The failures of the default builtins are about their arguments and about input and output. -/
theorem code_refusal {fault : Builtin.Fault} (h : Builtin.Refusal fault) (name : Text) :
    (Fault.builtin name fault).code = .type ∨ (Fault.builtin name fault).code = .io := by
  cases h with
  | io => exact Or.inr rfl
  | _ => exact Or.inl rfl

theorem message_refusal {fault : Builtin.Fault} (h : Builtin.Refusal fault) (name : Text) :
    (Fault.builtin name fault).message = name ++ ": " ++ fault.message := by
  cases h <;> rfl

/-! ## Internal wordings -/

/-- How failures are worded that only a defect of the evaluator can lead to. -/
inductive InternalWording : Text → Prop
  | unhandled (kind : Text) : InternalWording ("unhandled node kind " ++ kind)
  | unsupported (sort symbol : Text) : InternalWording ("unsupported " ++ sort ++ " operator " ++ symbol)
  | noValue (kind : Text) : InternalWording (kind ++ " does not produce a value")

/-- A text that begins otherwise and ends otherwise is no internal wording. -/
theorem not_internal_of_ends {start t : Text} (hstart : start <+: t)
    (hother : 3 ≤ start.length ∧ start.take 3 ∉ [("unh" : Text), "uns"]) (hend : ∀ s : Text, t ≠ s ++ " a value") :
    ¬InternalWording t := by
  intro h
  obtain ⟨rest, rfl⟩ := hstart
  obtain ⟨hlength, hother⟩ := hother
  have htake : (start ++ rest).take 3 = start.take 3 := List.take_append_of_le_length hlength
  generalize start ++ rest = t at h htake hend
  rw [← htake] at hother
  cases h with
  | unhandled kind => exact hother (List.mem_cons_self ..)
  | unsupported sort symbol => exact hother (List.mem_cons_of_mem _ (List.mem_singleton.2 rfl))
  | noValue kind => exact hend (kind ++ " does not produce") (by rw [List.append_assoc]; rfl)

theorem ne_value_of_getLast? {t : Text} {g : Glyph} (h : t.getLast? = some g) (hg : g ≠ .char 'e') (s : Text) :
    t ≠ s ++ " a value" := by
  rintro rfl
  rw [List.getLast?_append] at h
  exact hg (Option.some.inj h).symm

/-! ## Names -/

theorem blank_not_mem {name : Text} (h : IsName name) : Glyph.char ' ' ∉ name := fun hmem =>
  absurd (h.parts _ hmem) (by decide)

/-- What stands in front of the first blank of a text. -/
theorem append_blank_inj {s s' t t' : Text} (hs : Glyph.char ' ' ∉ s) (hs' : Glyph.char ' ' ∉ s')
    (h : s ++ .char ' ' :: t = s' ++ .char ' ' :: t') : s = s' ∧ t = t' := by
  induction s generalizing s' with
  | nil =>
    cases s' with
    | nil => exact ⟨rfl, (List.cons.inj h).2⟩
    | cons g s' => exact absurd ((List.cons.inj h).1 ▸ List.mem_cons_self ..) hs'
  | cons g s ih =>
    cases s' with
    | nil => exact absurd ((List.cons.inj h).1 ▸ List.mem_cons_self ..) hs
    | cons g' s' =>
      obtain ⟨hg, hrest⟩ := List.cons.inj h
      obtain ⟨rfl, rfl⟩ := ih (fun hmem => hs (List.mem_cons_of_mem _ hmem))
        (fun hmem => hs' (List.mem_cons_of_mem _ hmem)) hrest
      exact ⟨congrArg (· :: s) hg, rfl⟩

/-- What stands behind the last blank of a text. -/
theorem blank_append_inj {s s' t t' : Text} (ht : Glyph.char ' ' ∉ t) (ht' : Glyph.char ' ' ∉ t')
    (h : s ++ .char ' ' :: t = s' ++ .char ' ' :: t') : s = s' ∧ t = t' := by
  have hreverse := congrArg List.reverse h
  simp only [List.reverse_append, List.reverse_cons, List.append_assoc, List.singleton_append] at hreverse
  obtain ⟨hlast, hfirst⟩ := append_blank_inj (by simpa using ht) (by simpa using ht') hreverse
  exact ⟨List.reverse_inj.1 hfirst, List.reverse_inj.1 hlast⟩

/-- The last two words of a text that ends with "a value". -/
theorem words_of_value {start s word : Text} (hstart : start.getLast? = some (.char ' '))
    (hword : Glyph.char ' ' ∉ word) (h : start ++ word = s ++ " a value") : start = s ++ " a " ∧ word = "value" := by
  obtain ⟨init, rfl⟩ := List.getLast?_eq_some_iff.1 hstart
  rw [List.append_assoc] at h
  have hsplit : s ++ (" a value" : Text) = (s ++ " a") ++ .char ' ' :: ("value" : Text) := by
    rw [List.append_assoc]
    rfl
  obtain ⟨rfl, rfl⟩ := blank_append_inj hword (by decide) (h.trans hsplit)
  refine ⟨?_, rfl⟩
  rw [List.append_assoc]
  rfl

/-! ## Ordinary failures -/

/-- The failures that a program can meet. Names in them are names of the language, the operand of a sign and a
condition are nodes, and builtins are those by default. -/
inductive Ordinary : Fault → Prop
  | emptyProgram : Ordinary .emptyProgram
  | entryName {found : Text} : IsName found → Ordinary (.entryName found)
  | scope {error : Scope.Error} : error.cause ≠ .noRoot → Ordinary (.scope error)
  | operand {symbol : Text} {value : Value} : Ordinary (.operand symbol value)
  | divisionByZero : Ordinary .divisionByZero
  | unaryOperand {op : Sign} {n : Node} :
      (∀ symbol, op ≠ .other symbol) → Ordinary (.unaryOperand op.symbol n.kind)
  | noReturn {function : Text} : IsName function → Ordinary (.noReturn function)
  | condition {statement : Text} {n : Node} :
      statement ∈ [("if" : Text), "while", "for"] → Ordinary (.condition statement n.kind)
  | arity {function : Text} {expected got : Nat} : Ordinary (.arity function expected got)
  | builtin {b : Builtin} {fault : Builtin.Fault} :
      b ∈ Registry.default.builtins → Builtin.Refusal fault → Ordinary (.builtin b.name fault)
  | canceled : Ordinary .canceled

/-- The codes of the failures that a program can meet. -/
def ordinaryCodes : List Code := [.programStructure, .scope, .type, .io, .canceled]

theorem Ordinary.code_mem {fault : Fault} (h : Ordinary fault) : fault.code ∈ ordinaryCodes := by
  cases h with
  | @builtin b fault _ hfault =>
    rcases code_refusal hfault b.name with hcode | hcode
    all_goals
      rw [hcode]
      simp [ordinaryCodes]
  | _ => simp [Fault.code, ordinaryCodes]

/-! ## Their wording -/

theorem kind_blank (n : Node) : Glyph.char ' ' ∉ n.kind := by
  cases n
  all_goals
    simp only [Node.kind]
    decide

theorem kind_ne_value (n : Node) : n.kind ≠ "value" := by
  cases n
  all_goals
    simp only [Node.kind]
    decide

/-- A text that ends with the kind of a node does not end with "a value". -/
theorem ne_value_of_kind {start : Text} (hstart : start.getLast? = some (.char ' ')) (n : Node) (s : Text) :
    start ++ n.kind ≠ s ++ " a value" :=
  fun h => kind_ne_value n (words_of_value hstart (kind_blank n) h).2

theorem getLast?_ofNat (n : Nat) : ∃ g, (Text.ofNat n).getLast? = some g ∧ g ≠ .char 'e' := by
  refine ⟨_, List.getLast?_eq_some_getLast (Text.ofNat_ne_nil n), fun h => ?_⟩
  have hdigit := Text.isNumeralPart_of_mem_ofNat n _ (List.getLast_mem (Text.ofNat_ne_nil n))
  rw [h] at hdigit
  exact absurd hdigit (by decide)

/-- The wording of a failure of a default builtin does not end with an e. -/
theorem getLast?_refusal {fault : Builtin.Fault} (h : Builtin.Refusal fault) :
    ∃ g, fault.message.getLast? = some g ∧ g ≠ .char 'e' := by
  cases h with
  | arity name accepted got =>
    obtain ⟨g, hlast, hg⟩ := getLast?_ofNat got
    refine ⟨g, ?_, hg⟩
    simp only [Builtin.arityFault, Builtin.Fault.message, List.getLast?_append, hlast]
    rfl
  | integer name v =>
    refine ⟨.char '"', ?_, by decide⟩
    simp only [Builtin.Fault.message, Text.quoted, List.getLast?_append]
    rfl
  | range lo hi =>
    refine ⟨.char 'y', ?_, by decide⟩
    simp only [Builtin.Fault.message, List.getLast?_append]
    rfl
  | io hdetail =>
    simp only [List.mem_cons, List.not_mem_nil, or_false] at hdetail
    rcases hdetail with rfl | rfl | rfl
    all_goals exact ⟨_, rfl, by decide⟩

/-- A name with "does not return a value" behind it is no internal wording. -/
theorem noReturn_not_internal {name : Text} (h : IsName name) : ¬InternalWording (Fault.noReturn name).message := by
  have hmessage : (Fault.noReturn name).message = name ++ .char ' ' :: ("does not return a value" : Text) := rfl
  rw [hmessage]
  intro hinternal
  generalize ht : name ++ .char ' ' :: ("does not return a value" : Text) = t at hinternal
  cases hinternal with
  | unhandled kind =>
    have hsplit : ("unhandled node kind " : Text) =
        ("unhandled" : Text) ++ .char ' ' :: .char 'n' :: ("ode kind " : Text) := rfl
    rw [hsplit, List.append_assoc, List.cons_append, List.cons_append] at ht
    have hrest := (append_blank_inj (blank_not_mem h) (by decide) ht).2
    have hhead : some (Glyph.char 'd') = some (Glyph.char 'n') := congrArg List.head? hrest
    exact absurd hhead (by decide)
  | unsupported sort symbol =>
    have hsplit : ("unsupported " : Text) = ("unsupported" : Text) ++ .char ' ' :: [] := rfl
    simp only [hsplit, List.append_assoc, List.cons_append, List.nil_append] at ht
    have hrest := (append_blank_inj (blank_not_mem h) (by decide) ht).2
    have hmem : Glyph.char 'p' ∈ sort ++ ((" operator " : Text) ++ symbol) :=
      List.mem_append_right _ (List.mem_append_left _ (by decide))
    rw [← hrest] at hmem
    exact absurd hmem (by decide)
  | noValue kind =>
    have hleft : (.char ' ' :: ("does not return a value" : Text)) =
        (" does not" ++ .char ' ' :: ("return" : Text)) ++ " a value" := rfl
    have hright : (" does not produce a value" : Text) =
        (" does not" ++ .char ' ' :: ("produce" : Text)) ++ " a value" := rfl
    simp only [hleft, hright, ← List.append_assoc] at ht
    exact absurd (blank_append_inj (by decide) (by decide) (List.append_cancel_right ht)).2 (by decide)

/-- No ordinary failure has an internal wording. -/
theorem Ordinary.not_internal {fault : Fault} (h : Ordinary fault) : ¬InternalWording fault.message := by
  -- The internal messages are told by their first three glyphs or by their last words. A message that ends in a
  -- text of the program could have those words, so its last glyph is looked at.
  cases h with
  | emptyProgram | divisionByZero | canceled =>
    exact not_internal_of_ends List.prefix_rfl (by decide) (ne_value_of_getLast? rfl (by decide))
  | @entryName found hfound =>
    refine not_internal_of_ends (List.prefix_append _ _) (by decide) fun s hs => ?_
    -- the name found has no blank, so it would be `value`, and the words before it would end in ` a `
    have hfront := (words_of_value (by decide) (blank_not_mem hfound) hs).1
    have hsuffix : (" a " : Text) <:+ "the last function must be Main, found " := ⟨s, hfront.symm⟩
    exact absurd hsuffix (by decide)
  | @scope error hcause =>
    obtain ⟨action, name, cause⟩ := error
    have hstart : ("variable " : Text) <+: (Fault.scope ⟨action, name, cause⟩).message := by
      simp [Fault.message, Scope.Error.message]
    refine not_internal_of_ends hstart (by decide) ?_
    cases cause with
    | noRoot => exact absurd rfl hcause
    | redeclared | notFound =>
      refine ne_value_of_getLast? (g := .char 'd') ?_ (by decide)
      simp only [Fault.message, Scope.Error.message, List.getLast?_append]
      rfl
  | @operand symbol v =>
    have hstart : ("operand of " : Text) <+: (Fault.operand symbol v).message := by
      simp [Fault.message]
    refine not_internal_of_ends hstart (by decide) ?_
    refine ne_value_of_getLast? (g := .char '"') ?_ (by decide)
    simp only [Fault.message, Text.quoted, List.getLast?_append]
    rfl
  | @unaryOperand op n hop =>
    have hstart : ("unary " : Text) <+: (Fault.unaryOperand op.symbol n.kind).message := by
      simp [Fault.message]
    refine not_internal_of_ends hstart (by decide) (ne_value_of_kind ?_ n)
    simp only [List.getLast?_append]
    rfl
  | noReturn hname => exact noReturn_not_internal hname
  | @condition statement n hstatement =>
    have hend : ∀ s : Text, (Fault.condition statement n.kind).message ≠ s ++ " a value" := by
      refine ne_value_of_kind ?_ n
      simp only [List.getLast?_append]
      rfl
    simp only [List.mem_cons, List.not_mem_nil, or_false] at hstatement
    rcases hstatement with rfl | rfl | rfl
    · exact not_internal_of_ends (List.prefix_append _ _) (by decide) hend
    · exact not_internal_of_ends (List.prefix_append _ _) (by decide) hend
    · exact not_internal_of_ends (List.prefix_append _ _) (by decide) hend
  | @arity function expected got =>
    have hstart : ("function " : Text) <+: (Fault.arity function expected got).message := by
      simp [Fault.message]
    obtain ⟨g, hlast, hg⟩ := getLast?_ofNat got
    refine not_internal_of_ends hstart (by decide) (ne_value_of_getLast? (g := g) ?_ hg)
    simp only [Fault.message, List.getLast?_append, hlast]
    rfl
  | @builtin b fault hb hfault =>
    rw [message_refusal hfault, List.append_assoc]
    obtain ⟨g, hlast, hg⟩ := getLast?_refusal hfault
    have hend := ne_value_of_getLast? (t := b.name ++ (": " ++ fault.message)) (g := g)
      (by simp only [List.getLast?_append, hlast]; rfl) hg
    simp only [Registry.default, List.mem_cons, List.not_mem_nil, or_false] at hb
    rcases hb with rfl | rfl | rfl
    all_goals exact not_internal_of_ends (List.prefix_append _ _) (by decide) hend

end Run

end ScriptKit
