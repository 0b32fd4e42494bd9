import ScriptKit.Proofs.Format.Shape
import ScriptKit.Proofs.Policy.Widening
import ScriptKit.Proofs.Trace.Counts

/-!
# The trace of a run is summarized exactly

A summary can only count calls by name if names survive being written and read. The names in a program that was parsed
consist of characters, and the events of its run take theirs from there: `Naming` says of a step that it adds no event
with another name. A builtin that is registered under another name is never called, so the run is the one without it.

**Theorem (`summary_is_exact`).** A trace file of a run of a parsed program, or of the events up to some point, is
summarized with the counts of these events, and in every summary the calls of the names add up.
-/

namespace ScriptKit

open Trace

/-- A text of characters. -/
theorem IsName.isChar {v : Text} (h : IsName v) : ∀ g ∈ v, g.isChar = true := by
  intro g hg
  have hpart := h.parts g hg
  cases g with
  | char c => rfl
  | stray b => cases (Glyph.isNamePart_stray b).symm.trans hpart

namespace Run

variable {α β : Type}

/-! ## Naming -/

/-- A step after which every event still has a name of characters, if all had. -/
def Naming (x : Run α) : Prop :=
  ∀ m : Machine, (∀ e ∈ m.events, e.Named) → ∀ e ∈ (x m).2.events, e.Named

namespace Naming

variable {span : Span} {name : Text}

theorem sequential : Sequential fun _ x => Naming x :=
  .of_trans (R := fun m m' => (∀ e ∈ m.events, e.Named) → ∀ e ∈ m'.events, e.Named) (fun _ => id)
    fun h h' hm => h' (h hm)

theorem quiet {x : Run α} (h : ∀ m, (x m).2.events = m.events) : Naming x := fun m hm => (h m).symm ▸ hm

theorem pure {a : α} : Naming (pure a) := sequential.pure a

theorem fail {fault : Fault} : Naming (fail fault span : Run α) := sequential.fail fault span

theorem bind {x : Run α} {f : α → Run β} (hx : Naming x) (hf : ∀ a, Naming (f a)) : Naming (x >>= f) :=
  sequential.bind hx hf

theorem emit {what : Happening} (h : Event.Named ⟨span, what⟩) : Naming (emit span what) :=
  fun _ hm => List.forall_mem_cons.2 ⟨h, hm⟩

theorem check : Naming (check span) := by
  refine quiet fun m => ?_
  cases hbudget : m.budget with
  | zero => rw [Sim.check_zero hbudget]
  | succ n => rw [Sim.check_succ hbudget]

theorem declare {type : VarType} {value : Option Value} : Naming (declare span name type value) := by
  intro m hm
  rw [declare_apply]
  cases m.chain.declare name type value with
  | error e => exact hm
  | ok c => exact List.forall_mem_cons.2 ⟨nofun, hm⟩

theorem assign {value : Value} : Naming (assign span name value) := by
  refine quiet fun m => ?_
  rw [assign_apply]
  cases m.chain.assign name (some value) <;> rfl

theorem liftScope {r : Except Scope.Error α} : Naming (liftScope span r) := by
  cases r with
  | ok a => exact pure
  | error e => exact fail

theorem callBuiltin {env : Env} {args : List Value}
    (h : ∀ b ∈ env.builtins.builtins, ∀ g ∈ b.name, g.isChar = true) : Naming (callBuiltin env span name args) := by
  intro m hm
  cases hb : env.builtins.get? name with
  | none =>
    unfold Run.callBuiltin
    rw [hb]
    exact hm
  | some b =>
    rw [callBuiltin_apply hb]
    refine List.forall_mem_cons.2 ⟨?_, hm⟩
    intro other hother
    cases hother
    have hname : b.name = name := by simpa using List.find?_some hb
    exact hname ▸ h b (List.mem_of_find?_eq_some hb)

theorem inside {frame : Frame} {x : Run α} (h : Naming x) : Naming (Sim.inside frame x) :=
  fun m hm => h { m with chain := frame :: m.chain } hm

theorem bindParams {params : List Param} {args : List Value} : Naming (bindParams params args) := by
  induction params generalizing args with
  | nil => exact pure
  | cons p params ih =>
    cases args with
    | nil => exact pure
    | cons v args => exact bind declare fun _ => ih

theorem callFrame {f : Function} {args : List Value} : Naming (callFrame f args) := by
  intro m hm
  have hparams : ∀ e ∈ (Run.bindParams f.params args { m with chain := {} :: m.chain.getLast?.toList }).2.events,
      e.Named := bindParams _ hm
  revert hparams
  simp only [Run.callFrame]
  cases Run.bindParams f.params args { m with chain := {} :: m.chain.getLast?.toList } with
  | mk result m' =>
    intro hparams
    cases result <;> exact hparams

theorem reportEnd {x : Run Unit} (h : Naming x) : Naming (reportEnd span name x) :=
  fun m hm => List.forall_mem_cons.2 ⟨nofun, h m hm⟩

theorem callFunction {next : Node → Run (Option Value)} {f : Function} {args : List Value}
    (hname : ∀ g ∈ f.name, g.isChar = true) (h : Naming (statements next f.body)) :
    Naming (callFunction next f args span) := by
  have hnamed : Event.Named ⟨span, .callStart f.name⟩ := by
    intro other hother
    cases hother
    exact hname
  exact sequential.ite (bind (emit hnamed) fun _ => bind callFrame fun _ => reportEnd (inside h)) fail

end Naming

/-- Where the functions and builtins have names of characters, so have the events. -/
theorem naming_rules {env : Env} (hfunctions : ∀ f ∈ env.functions, ∀ g ∈ f.name, g.isChar = true)
    (hbuiltins : ∀ b ∈ env.builtins.builtins, ∀ g ∈ b.name, g.isChar = true) : Rules env fun _ x => Naming x where
  pure _ := .pure
  fail _ _ := .fail
  bind hx hf := .bind hx hf
  check _ := .check
  declare _ _ _ _ := .declare
  assign _ _ _ := .assign
  resolve _ _ := fun m => Naming.liftScope m
  interpolate _ _ := fun m => Naming.bind Naming.liftScope (fun _ => Naming.pure) m
  callBuiltin _ _ _ := .callBuiltin hbuiltins
  inFrame hx := .inside hx
  callFunction _ _ hf hbody := .callFunction (hfunctions _ hf) hbody

end Run

/-! ## Parsed programs -/

open Run

section Programs

variable {file source : Text} {builtins : Option (List Text)} {p : Program}

theorem formed_trivially (h : parse file source builtins = .ok p) :
    p.IsFormed (fun _ => True) fun _ _ => True :=
  formed_of_parse (I := fun _ => True) (fun _ _ _ => trivial) (fun _ _ _ => trivial) trivial
    (fun _ _ _ _ _ => trivial) h

theorem isName_of_mem_functions (h : parse file source builtins = .ok p) {f : Function} (hf : f ∈ p.allFunctions) :
    IsName f.name := by
  rcases (formed_trivially h).part (Node.mem_functions.1 hf) with heq | hpart
  · cases heq
  · cases hpart with
    | expr hexpr => cases hexpr
    | stmt hstmt =>
      cases hstmt
      assumption

theorem isName_of_untargeted (h : parse file source builtins = .ok p) {name : Text} (hname : p.Untargeted name) :
    IsName name := by
  obtain ⟨span, args, hcall⟩ := hname
  rcases (formed_trivially h).part hcall with heq | hpart
  · cases heq
  · exact hpart.called

/-- The builtins whose names consist of characters. -/
def Registry.named (r : Registry) : Registry := ⟨r.builtins.filter fun b => b.name.all Glyph.isChar⟩

theorem Registry.get?_named (r : Registry) {name : Text} (h : ∀ g ∈ name, g.isChar = true) :
    r.named.get? name = r.get? name := by
  unfold Registry.get? Registry.named
  rw [List.find?_filter]
  congr 1
  funext b
  by_cases hb : b.name = name
  · simp [hb, List.all_eq_true.2 h]
  · simp [hb]

/-- In a run of a parsed program every event has a name of characters. -/
theorem Program.named_events (h : parse file source builtins = .ok p) (registry : Registry) (world : World)
    (budget : Nat) : ∀ e ∈ (p.run registry world budget).events, e.Named := by
  have hread : parse file source = .ok p := by
    cases builtins with
    | none => exact h
    | some known => exact (parse_known_ok h).1
  have hbuiltins : ∀ name, p.Untargeted name →
      Option.Rel (Answers Eq) (registry.get? name) (registry.named.get? name) := by
    intro name hname
    rw [registry.get?_named (isName_of_untargeted h hname).isChar]
    cases registry.get? name with
    | none => exact .none
    | some b => exact .some fun args w w' hw => hw ▸ ⟨rfl, rfl⟩
  -- what is registered under other names is never called, so the run is the same without it
  have hbeside := run_beside p.Untargeted hbuiltins (reaches_untargeted hread _) (rfl : world = world) budget
  rw [hbeside.events]
  have hnaming : Naming (start (eval ⟨registry.named, p.allFunctions⟩ budget) p) := by
    refine (naming_rules ?_ ?_).start rfl budget
    · exact fun f hf => (isName_of_mem_functions h hf).isChar
    · exact fun b hb => List.all_eq_true.1 (List.mem_filter.1 hb).2
  have hmachine := hnaming (.start world budget) (List.forall_mem_nil _)
  intro e he
  rcases List.mem_cons.1 he with rfl | he
  · exact nofun
  rcases List.mem_cons.1 (List.mem_reverse.1 he) with rfl | he
  · exact nofun
  · exact hmachine e he

/-- A trace file of a run, or of how far a run has come, is summarized exactly, whatever lines without an event stand
among those of the events. And in the summary of any file the counts of the names add up to the calls. -/
theorem summary_is_exact (h : parse file source builtins = .ok p) (registry : Registry) (world : World)
    (budget : Nat) {es : List Event} (hes : es <+: (p.run registry world budget).events)
    (hfits : ∀ e ∈ es, e.Fits) {run t : Text} (hfile : IsFile run es t)
    (hlimit : ∀ line ∈ lines t, line.toBytes.length < lineLimit) :
    (∃ s, summarize t = some s ∧ s.Counts es) ∧ ∀ u s, summarize u = some s → s.Sums := by
  have hnamed := p.named_events h registry world budget
  refine ⟨Summary.counts_of_isFile hfile (fun e he => ⟨hfits e he, hnamed e (hes.subset he)⟩) hlimit, ?_⟩
  exact fun u s => Summary.sums_of_summarize

/-- A source is read as a program of which something is decided. -/
theorem exists_parsed {P : Program → Prop} [DecidablePred P]
    (h : (parse file source builtins).toOption.any (fun p => decide (P p)) = true) :
    ∃ p, parse file source builtins = .ok p ∧ P p := by
  cases hparse : parse file source builtins with
  | error e =>
    rw [hparse] at h
    cases h
  | ok p =>
    rw [hparse] at h
    exact ⟨p, rfl, of_decide_eq_true h⟩

end Programs

/-- The source of a program that declares a variable and writes it. -/
def writer : Text := "int x func Main() \x7b WriteLine(x) \x7d"

/-- Its events. -/
def writerEvents : List Event :=
  [⟨⟨"a", ⟨1, 1⟩, ⟨1, 35⟩⟩, .runStart⟩, ⟨⟨"a", ⟨1, 1⟩, ⟨1, 6⟩⟩, .declared "x" .int 0⟩,
    ⟨⟨"a", ⟨1, 7⟩, ⟨1, 35⟩⟩, .callStart "Main"⟩, ⟨⟨"a", ⟨1, 21⟩, ⟨1, 33⟩⟩, .builtinCall "WriteLine" 1⟩,
    ⟨⟨"a", ⟨1, 7⟩, ⟨1, 35⟩⟩, .callEnd "Main" true⟩, ⟨⟨"a", ⟨1, 1⟩, ⟨1, 35⟩⟩, .runEnd true⟩]

/-- Its trace file, after a line that is no event. -/
def writerFile : Text := "started" ++ .char '\n' :: writerEvents.flatMap (Event.line "now" "r")

theorem summary_is_exact_writer :
    ∃ p, parse "a" writer = .ok p ∧ writerEvents <+: (p.run .default {} 10).events ∧
      (∀ e ∈ writerEvents, e.Fits) ∧ IsFile "r" writerEvents writerFile ∧
      (∀ line ∈ lines writerFile, line.toBytes.length < lineLimit) ∧
      (∃ s, summarize writerFile = some s ∧ s.Counts writerEvents) ∧ ∀ u s, summarize u = some s → s.Sums := by
  obtain ⟨p, hparse, hevents⟩ : ∃ p, parse "a" writer = .ok p ∧ (p.run .default {} 10).events = writerEvents :=
    exists_parsed (by decide +kernel)
  have hlimit : ∀ line ∈ lines writerFile, line.toBytes.length < lineLimit := by decide +kernel
  have hfile : IsFile "r" writerEvents writerFile :=
    .junk ⟨by decide, by decide⟩ (isFile_flatMap "now" "r" writerEvents)
  have hfits : ∀ e ∈ writerEvents, e.Fits := by decide +kernel
  have hes : writerEvents <+: (p.run .default {} 10).events := hevents ▸ List.prefix_rfl
  exact ⟨p, hparse, hes, hfits, hfile, hlimit, summary_is_exact hparse .default {} 10 hes hfits hfile hlimit⟩

end ScriptKit
