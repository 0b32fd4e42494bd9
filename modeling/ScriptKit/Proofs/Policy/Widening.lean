import ScriptKit.Proofs.Grammar.Known
import ScriptKit.Proofs.Grammar.Placed
import ScriptKit.Proofs.Run.Beside
import ScriptKit.Session

/-!
# Wider policies

The names of the builtins decide whether a source is accepted and nothing else. Against a list of names a
source is read as the program that it is without regard to builtins, if every call in it that has no target
is in the list, and refused otherwise. So a source that is accepted under a policy is accepted under any
policy that allows more, as the same program, and since all the builtins it calls are there under both, it
runs in the same way.

**Theorem (`parse_filters_calls`).** Reading against known builtins is a filter on the calls without a target,
and what passes it under a policy means the same under every wider one.
-/

namespace ScriptKit

open Run

/-- A name that a program calls without a target. -/
def Program.Untargeted (p : Program) (name : Text) : Prop :=
  ∃ span args, Node.call span name .builtin args ∈ p.node.preorder

theorem Program.mem_externals {p : Program} {name : Text} : name ∈ p.externals ↔ p.Untargeted name := by
  rw [← p.externals_node, Node.mem_externals]
  rfl

/-! ## Reading against known builtins -/

section Reading

variable {file source : Text} {known : List Text} {p : Program}

theorem Parser.Refused.diagnostic {result : Except Parse.Error Program} (h : Parser.Refused known result) :
    ∃ e name, result = .error e ∧ e.diagnostic.code = .parse ∧
      e.diagnostic.message = "function " ++ name ++ " does not exist" ∧ name ∉ known := by
  obtain ⟨e, name, he, hfault, hname⟩ := h
  refine ⟨e, name, he, ?_, ?_, hname⟩
  · rw [Parse.Error.diagnostic, hfault]
    rfl
  · rw [Parse.Error.diagnostic, hfault]
    rfl

/-- A program is accepted against known builtins if all its calls without a target are known. -/
theorem parse_of_known (h : parse file source = .ok p) (hknown : ∀ name, p.Untargeted name → name ∈ known) :
    parse file source (some known) = .ok p := by
  have hsift := parse_known h known
  have hnone : Parser.unknown? known p.externals = none := by
    rw [Parser.unknown?, List.find?_eq_none]
    intro name hname
    simpa using hknown name (Program.mem_externals.1 hname)
  rwa [Parser.Sifted, hnone] at hsift

/-- A program is refused against known builtins for one of its calls without a target that is not known. -/
theorem parse_of_unknown (h : parse file source = .ok p) {name : Text} (hname : p.Untargeted name)
    (hunknown : name ∉ known) :
    ∃ e name, parse file source (some known) = .error e ∧ e.fault = .unknownFunction name ∧
      p.Untargeted name ∧ name ∉ known := by
  have hsift := parse_known h known
  unfold Parser.Sifted at hsift
  cases hfind : Parser.unknown? known p.externals with
  | none =>
    have hall := List.find?_eq_none.1 hfind name (Program.mem_externals.2 hname)
    simp [hunknown] at hall
  | some other =>
    rw [hfind] at hsift
    obtain ⟨e, he, hfault⟩ := hsift
    have hmem : other ∈ p.externals := List.mem_of_find?_eq_some hfind
    exact ⟨e, other, he, hfault, Program.mem_externals.1 hmem, Parser.unknown?_not_mem hfind⟩

/-- What is accepted against known builtins is the program that is read without regard to them, and all its
calls without a target are known. -/
theorem parse_known_ok (h : parse file source (some known) = .ok p) :
    parse file source = .ok p ∧ ∀ name, p.Untargeted name → name ∈ known := by
  cases hread : parse file source with
  | error e =>
    rcases parse_failed hread known with hsame | ⟨e', name, he, -⟩
    · rw [hsame] at h
      cases h
    · rw [he] at h
      cases h
  | ok q =>
    have hall : ∀ name, q.Untargeted name → name ∈ known := by
      intro name hname
      by_cases hunknown : name ∈ known
      · exact hunknown
      · obtain ⟨e, other, he, -⟩ := parse_of_unknown hread hname hunknown
        rw [he] at h
        cases h
    rw [parse_of_known hread hall] at h
    cases h
    exact ⟨rfl, hall⟩

end Reading

/-! ## Registries under policies -/

namespace Registry

/-- Each name once. -/
def Distinct (r : Registry) : Prop := (r.builtins.map Builtin.name).Nodup

theorem distinct_default : Registry.default.Distinct := by
  unfold Distinct
  decide

theorem Distinct.register {r : Registry} (h : r.Distinct) (b : Builtin) : (r.register b).Distinct := by
  unfold Distinct Registry.register at *
  rw [List.map_append, List.map_singleton]
  refine List.nodup_append.2 ⟨?_, by simp, ?_⟩
  · exact List.Sublist.nodup (List.Sublist.map _ List.filter_sublist) h
  · intro name hname name' hname'
    obtain ⟨other, hother, rfl⟩ := List.mem_map.1 hname
    rw [List.mem_singleton.1 hname']
    simpa using (List.mem_filter.1 hother).2

/-- A registry that is made by registering builtins one after the other has distinct names. -/
theorem distinct_foldl (bs : List Builtin) : (bs.foldl Registry.register {}).Distinct := by
  have hfold : ∀ r : Registry, r.Distinct → (bs.foldl Registry.register r).Distinct := by
    induction bs with
    | nil => exact fun r h => h
    | cons b bs ih => exact fun r h => ih (r.register b) (h.register b)
  exact hfold {} List.nodup_nil

variable {r : Registry} {policy : Policy} {name : Text} {b : Builtin}

theorem mem_names : name ∈ r.names ↔ ∃ b ∈ r.builtins, b.name = name := by
  rw [names, Text.sort, List.mem_mergeSort, List.mem_map]

theorem Distinct.eq_of_name (h : r.Distinct) {b' : Builtin} (hb : b ∈ r.builtins) (hb' : b' ∈ r.builtins)
    (hname : b.name = b'.name) : b = b' := by
  unfold Distinct at h
  revert h hb hb'
  induction r.builtins with
  | nil => simp
  | cons c cs ih =>
    intro h hb hb'
    rw [List.map_cons, List.nodup_cons] at h
    rcases List.mem_cons.1 hb with rfl | hrest
    · rcases List.mem_cons.1 hb' with rfl | hrest'
      · rfl
      · exact absurd (hname ▸ List.mem_map_of_mem hrest') h.1
    · rcases List.mem_cons.1 hb' with rfl | hrest'
      · exact absurd (hname ▸ List.mem_map_of_mem hrest) h.1
      · exact ih h.2 hrest hrest'

theorem Distinct.get?_filter (h : r.Distinct) (hb : b ∈ r.builtins) (hpermits : permits policy b = true) :
    (r.filter policy).get? b.name = some b := by
  cases hfind : (r.filter policy).get? b.name with
  | none =>
    have hall := List.find?_eq_none.1 hfind b (List.mem_filter.2 ⟨hb, hpermits⟩)
    simp at hall
  | some b' =>
    have hname := List.find?_some hfind
    have hmem := (List.mem_filter.1 (List.mem_of_find?_eq_some hfind)).1
    rw [h.eq_of_name hb hmem (Eq.symm (by simpa using hname))]

end Registry

/-- A policy that allows whatever another one does. -/
def Policy.Wider (policy wider : Policy) : Prop :=
  ∀ capability, policy.allows capability = true → wider.allows capability = true

section Sessions

variable {r : Registry} {policy wider : Policy} {file source : Text} {p : Program}

theorem permits_of_wider (h : policy.Wider wider) {b : Builtin} (hb : Registry.permits policy b = true) :
    Registry.permits wider b = true := by
  unfold Registry.permits at *
  rw [Bool.or_eq_true] at *
  exact hb.imp_right (h b.capability)

theorem get?_of_wider (hr : r.Distinct) (h : policy.Wider wider) {name : Text}
    (hname : name ∈ (r.filter policy).names) :
    ∃ b, (r.filter policy).get? name = some b ∧ (r.filter wider).get? name = some b := by
  obtain ⟨b, hb, rfl⟩ := Registry.mem_names.1 hname
  obtain ⟨hmem, hpermits⟩ := List.mem_filter.1 hb
  exact ⟨b, hr.get?_filter hmem hpermits, hr.get?_filter hmem (permits_of_wider h hpermits)⟩

theorem reaches_untargeted (h : parse file source = .ok p) (registry : Registry) :
    Env.Reaches ⟨registry, p.allFunctions⟩ p.Untargeted p.node := by
  intro span name callee args hcall htarget
  cases callee with
  | builtin => exact ⟨span, args, hcall⟩
  | function k =>
    obtain ⟨ended, hp⟩ := placed_of_parse h
    obtain ⟨f, hf, -⟩ := hp.target hcall
    have hnone : p.function? k = none := htarget
    rw [hf] at hnone
    cases hnone

/-- A program whose calls are all left by a policy runs in the same way under a wider one. -/
theorem run_of_wider (hr : r.Distinct) (h : policy.Wider wider) (hread : parse file source = .ok p)
    (hcalls : ∀ name, p.Untargeted name → name ∈ (r.filter policy).names) (world : World) (budget : Nat) :
    p.run (r.filter policy) world budget = p.run (r.filter wider) world budget := by
  have hbuiltins : ∀ name, p.Untargeted name →
      Option.Rel (Answers Eq) ((r.filter policy).get? name) ((r.filter wider).get? name) := by
    intro name hname
    obtain ⟨b, hb, hb'⟩ := get?_of_wider hr h (hcalls name hname)
    rw [hb, hb']
    refine .some fun args w w' hw => ?_
    rw [hw]
    exact ⟨rfl, rfl⟩
  obtain ⟨hfailure, hglobals, hworld, hevents⟩ :=
    run_beside p.Untargeted hbuiltins (reaches_untargeted hread _) rfl budget
  revert hfailure hglobals hworld hevents
  cases p.run (r.filter policy) world budget
  cases p.run (r.filter wider) world budget
  rintro rfl rfl rfl rfl
  rfl

end Sessions

/-- Reading against known builtins is a filter on reading without regard to them: the same program is read if
all its calls without a target are known, otherwise one of those that are not is refused, and where nothing
is read there is still nothing. So a source that is accepted under a policy is the same program under every
wider policy and runs in the same way. -/
theorem parse_filters_calls (file source : Text) :
    (∀ known p, parse file source (some known) = .ok p ↔
      parse file source = .ok p ∧ ∀ name, p.Untargeted name → name ∈ known) ∧
    (∀ known p, parse file source = .ok p → (∃ name, p.Untargeted name ∧ name ∉ known) →
      ∃ e name, parse file source (some known) = .error e ∧ e.diagnostic.code = .parse ∧
        e.diagnostic.message = "function " ++ name ++ " does not exist" ∧ p.Untargeted name ∧
        name ∉ known) ∧
    (∀ known e, parse file source = .error e →
      parse file source (some known) = .error e ∨
      ∃ e' name, parse file source (some known) = .error e' ∧ e'.diagnostic.code = .parse ∧
        e'.diagnostic.message = "function " ++ name ++ " does not exist" ∧ name ∉ known) ∧
    ∀ (registry : Registry) (policy wider : Policy) (p : Program), registry.Distinct → policy.Wider wider →
      Session.parse ⟨registry, policy⟩ file source = .ok p →
      Session.parse ⟨registry, wider⟩ file source = .ok p ∧
        ∀ world budget, Session.run ⟨registry, policy⟩ file source world budget =
          Session.run ⟨registry, wider⟩ file source world budget := by
  refine ⟨fun known p => ⟨parse_known_ok, fun ⟨h, hknown⟩ => parse_of_known h hknown⟩, ?_, ?_, ?_⟩
  · rintro known p h ⟨name, hname, hunknown⟩
    obtain ⟨e, other, he, hfault, hother, hnot⟩ := parse_of_unknown h hname hunknown
    refine ⟨e, other, he, ?_, ?_, hother, hnot⟩
    all_goals
      rw [Parse.Error.diagnostic, hfault]
      rfl
  · intro known e h
    exact (parse_failed h known).imp_right Parser.Refused.diagnostic
  · intro registry policy wider p hregistry hwider hparse
    obtain ⟨hread, hcalls⟩ := parse_known_ok hparse
    -- every name that is resolved by the narrower policy is resolved by the wider one
    have hwide : Session.parse ⟨registry, wider⟩ file source = .ok p := by
      refine parse_of_known hread fun name hname => ?_
      obtain ⟨b, -, hb⟩ := get?_of_wider hregistry hwider (hcalls name hname)
      have hfound := List.find?_some hb
      exact Registry.mem_names.2 ⟨b, List.mem_of_find?_eq_some hb, by simpa using hfound⟩
    refine ⟨hwide, fun world budget => ?_⟩
    have hrun := run_of_wider hregistry hwider hread hcalls world budget
    rw [Session.run, hparse, Session.run, hwide]
    exact congrArg Except.ok hrun

/-- A program that writes, where reading is denied and where everything is allowed. -/
theorem parse_filters_calls_write :
    ∃ p, Session.parse { policy := { denied := [Capability.read] } } "a"
        "func Main() \x7b WriteLine(1) \x7d" = .ok p ∧ p.Untargeted "WriteLine" ∧
      Session.parse {} "a" "func Main() \x7b WriteLine(1) \x7d" = .ok p ∧
      ∀ world budget, Session.run { policy := { denied := [Capability.read] } } "a"
          "func Main() \x7b WriteLine(1) \x7d" world budget =
        Session.run {} "a" "func Main() \x7b WriteLine(1) \x7d" world budget := by
  have hcalls : (parse "a" "func Main() \x7b WriteLine(1) \x7d").toOption.map
      (fun p => p.node.preorder.filterMap Node.external?) = some [Text.ofString "WriteLine"] := by
    decide +kernel
  have hwider : Policy.Wider { denied := [Capability.read] } .allowAll := fun _ _ => rfl
  have hleft : Text.ofString "WriteLine" ∈
      (Session.registry { policy := { denied := [Capability.read] } }).names :=
    Registry.mem_names.2 ⟨.writeLine, List.mem_filter.2 ⟨by simp [Registry.default], by decide⟩, rfl⟩
  obtain ⟨hfilter, -, -, hwide⟩ := parse_filters_calls "a" "func Main() \x7b WriteLine(1) \x7d"
  cases hparse : parse "a" "func Main() \x7b WriteLine(1) \x7d" with
  | error e =>
    rw [hparse] at hcalls
    cases hcalls
  | ok p =>
    rw [hparse] at hcalls
    have hexternals : ∀ name, p.Untargeted name ↔ name = "WriteLine" := by
      intro name
      rw [← List.mem_singleton, ← Option.some.inj hcalls, List.mem_filterMap]
      simp only [Node.external?_eq_some]
      constructor
      · rintro ⟨span, args, hcall⟩
        exact ⟨_, hcall, span, args, rfl⟩
      · rintro ⟨_, hcall, span, args, rfl⟩
        exact ⟨span, args, hcall⟩
    have haccepted := (hfilter _ p).2 ⟨hparse, fun name hname => (hexternals name).1 hname ▸ hleft⟩
    refine ⟨p, haccepted, (hexternals _).2 rfl, ?_⟩
    exact hwide .default { denied := [Capability.read] } .allowAll p Registry.distinct_default hwider haccepted

end ScriptKit
