import ScriptKit.Proofs.Run.Beside
import ScriptKit.Session

/-!
# Denied capabilities

A policy withholds builtins, and a program reaches the world through its builtins only. So a program
under a policy that denies reading cannot tell one input from another, a program under a policy that denies
random numbers cannot tell one stream of them from another, and under a policy that denies writing nothing
is written.

Each default builtin has a footprint: the part of the world that it looks at and changes. The lemmas
`readLine_eq`, `write_eq` and `drawBelow_eq` say so of the three actions on the world, and whatever lies
outside a builtin's footprint may differ beside it.

**Theorem (`policy_confines`).** In a session with the default builtins, read against them or not, what a
run shows does not depend on the part of the world that the policy denies.
-/

namespace ScriptKit

open Run

/-! ## Footprints -/

namespace World

/-- Reading looks at the input and changes nothing else. -/
theorem readLine_eq (w : World) :
    w.readLine =
      ((readLine { input := w.input, inputFails := w.inputFails }).1,
        { w with input := (readLine { input := w.input, inputFails := w.inputFails }).2.input }) := by
  simp only [readLine]
  split
  · rfl
  · split
    · rfl
    · split <;> rfl

theorem write_eq (w : World) (t : Text) :
    w.write t =
      ((write { written := w.written, writesLeft := w.writesLeft } t).1,
        { w with
          written := (write { written := w.written, writesLeft := w.writesLeft } t).2.written
          writesLeft := (write { written := w.written, writesLeft := w.writesLeft } t).2.writesLeft }) := by
  obtain ⟨input, inputFails, written, writesLeft, draws, drawn⟩ := w
  cases writesLeft with
  | none => rfl
  | some n => cases n <;> rfl

theorem drawWithin_eq (range limit tries : Nat) (w : World) :
    w.drawWithin range limit tries =
      ((drawWithin range limit tries { draws := w.draws, drawn := w.drawn }).1,
        { w with
          drawn := (drawWithin range limit tries { draws := w.draws, drawn := w.drawn }).2.drawn }) := by
  induction tries generalizing w with
  | zero => rfl
  | succ tries ih =>
    simp only [drawWithin]
    split
    · rfl
    · rw [ih]

theorem drawBelow_eq (range : Nat) (w : World) :
    w.drawBelow range =
      ((drawBelow range { draws := w.draws, drawn := w.drawn }).1,
        { w with drawn := (drawBelow range { draws := w.draws, drawn := w.drawn }).2.drawn }) :=
  drawWithin_eq ..

end World

/-! ## The default builtins beside each other -/

section Answers

variable {W : World → World → Prop}

/-- Worlds that write alike and stay related when something is written. -/
theorem answers_writeLine
    (h : ∀ w w', W w w' → w.written = w'.written ∧ w.writesLeft = w'.writesLeft ∧
      ∀ ws left, W { w with written := ws, writesLeft := left } { w' with written := ws, writesLeft := left }) :
    Answers W .writeLine .writeLine := by
  intro args w w' hw
  obtain ⟨hwritten, hleft, hput⟩ := h w w' hw
  have hpart : ({ written := w.written, writesLeft := w.writesLeft } : World) =
      { written := w'.written, writesLeft := w'.writesLeft } := by
    rw [hwritten, hleft]
  show (Builtin.runWriteLine args w).1 = (Builtin.runWriteLine args w').1 ∧
    W (Builtin.runWriteLine args w).2 (Builtin.runWriteLine args w').2
  match args with
  | [v] =>
    simp only [Builtin.runWriteLine]
    rw [World.write_eq w, World.write_eq w', hpart]
    cases (World.write { written := w'.written, writesLeft := w'.writesLeft } (v.text ++ "\n")).1 with
    | true => exact ⟨rfl, hput _ _⟩
    | false => exact ⟨rfl, hput _ _⟩
  | [] => exact ⟨rfl, hw⟩
  | _ :: _ :: _ => exact ⟨rfl, hw⟩

theorem answers_random
    (h : ∀ w w', W w w' → w.draws = w'.draws ∧ w.drawn = w'.drawn ∧
      ∀ n, W { w with drawn := n } { w' with drawn := n }) :
    Answers W .random .random := by
  -- what is drawn depends on the draws alone, whatever else the two worlds differ in
  have hdraw : ∀ lo hi w w', W w w' →
      (Builtin.drawBetween lo hi w).1 = (Builtin.drawBetween lo hi w').1 ∧
        W (Builtin.drawBetween lo hi w).2 (Builtin.drawBetween lo hi w').2 := by
    intro lo hi w w' hw
    obtain ⟨hdraws, hdrawn, hput⟩ := h w w' hw
    unfold Builtin.drawBetween
    have hpart : ({ draws := w.draws, drawn := w.drawn } : World) =
        { draws := w'.draws, drawn := w'.drawn } := by
      rw [hdraws, hdrawn]
    split
    · rw [World.drawBelow_eq _ w, World.drawBelow_eq _ w', hpart]
      exact ⟨rfl, hput _⟩
    · exact ⟨rfl, hw⟩
  intro args w w' hw
  show (Builtin.runRandom args w).1 = (Builtin.runRandom args w').1 ∧
    W (Builtin.runRandom args w).2 (Builtin.runRandom args w').2
  match args with
  | [v] =>
    simp only [Builtin.runRandom]
    cases Builtin.intArg "Random" v with
    | ok hi => exact hdraw 0 hi w w' hw
    | error e => exact ⟨rfl, hw⟩
  | [u, v] =>
    simp only [Builtin.runRandom]
    cases Builtin.intArg "Random" u with
    | error e => exact ⟨rfl, hw⟩
    | ok lo =>
      cases Builtin.intArg "Random" v with
      | ok hi => exact hdraw lo hi w w' hw
      | error e => exact ⟨rfl, hw⟩
  | [] => exact ⟨rfl, hw⟩
  | _ :: _ :: _ :: _ => exact ⟨rfl, hw⟩

theorem answers_readLine
    (h : ∀ w w', W w w' → w.input = w'.input ∧ w.inputFails = w'.inputFails ∧
      ∀ t, W { w with input := t } { w' with input := t }) :
    Answers W .readLine .readLine := by
  intro args w w' hw
  obtain ⟨hinput, hfails, hput⟩ := h w w' hw
  have hpart : ({ input := w.input, inputFails := w.inputFails } : World) =
      { input := w'.input, inputFails := w'.inputFails } := by
    rw [hinput, hfails]
  show (Builtin.runReadLine args w).1 = (Builtin.runReadLine args w').1 ∧
    W (Builtin.runReadLine args w).2 (Builtin.runReadLine args w').2
  match args with
  | [] =>
    simp only [Builtin.runReadLine]
    rw [World.readLine_eq w, World.readLine_eq w', hpart]
    cases (World.readLine { input := w'.input, inputFails := w'.inputFails }).1 with
    | line t => exact ⟨rfl, hput _⟩
    | atEnd => exact ⟨rfl, hput _⟩
    | failed => exact ⟨rfl, hput _⟩
  | _ :: _ => exact ⟨rfl, hw⟩

/-- If the builtins of a registry answer alike in related worlds, so does the one of any name. -/
theorem Registry.rel_get? {r : Registry} (h : ∀ b ∈ r.builtins, Answers W b b) (name : Text) :
    Option.Rel (Answers W) (r.get? name) (r.get? name) := by
  cases hb : r.get? name with
  | none => exact .none
  | some b => exact .some (h b (List.mem_of_find?_eq_some hb))

end Answers

theorem mem_filter_default {policy : Policy} {b : Builtin}
    (h : b ∈ (Registry.default.filter policy).builtins) :
    (b = .writeLine ∧ policy.allows Capability.write = true) ∨
    (b = .random ∧ policy.allows Capability.random = true) ∨
    (b = .readLine ∧ policy.allows Capability.read = true) := by
  obtain ⟨hb, hpermits⟩ := List.mem_filter.1 h
  simp only [Registry.default, List.mem_cons, List.not_mem_nil, or_false] at hb
  rcases hb with rfl | rfl | rfl
  · exact Or.inl ⟨rfl, hpermits⟩
  · exact Or.inr (Or.inl ⟨rfl, hpermits⟩)
  · exact Or.inr (Or.inr ⟨rfl, hpermits⟩)

/-! ## Worlds that differ out of reach -/

/-- Worlds that differ in their inputs at most. -/
structure World.SameButInput (w w' : World) : Prop where
  written : w.written = w'.written
  writesLeft : w.writesLeft = w'.writesLeft
  draws : w.draws = w'.draws
  drawn : w.drawn = w'.drawn

/-- Worlds that differ in their random numbers at most. -/
structure World.SameButDraws (w w' : World) : Prop where
  input : w.input = w'.input
  inputFails : w.inputFails = w'.inputFails
  written : w.written = w'.written
  writesLeft : w.writesLeft = w'.writesLeft

theorem World.SameButInput.output {w w' : World} (h : w.SameButInput w') : w.output = w'.output := by
  rw [World.output, World.output, h.written]

theorem World.SameButDraws.output {w w' : World} (h : w.SameButDraws w') : w.output = w'.output := by
  rw [World.output, World.output, h.written]

section Denied

variable {policy : Policy}

theorem answers_without_read (hdenied : policy.allows Capability.read = false) :
    ∀ b ∈ (Registry.default.filter policy).builtins, Answers World.SameButInput b b := by
  intro b hb
  rcases mem_filter_default hb with ⟨rfl, -⟩ | ⟨rfl, -⟩ | ⟨rfl, hallowed⟩
  · exact answers_writeLine fun w w' h =>
      ⟨h.written, h.writesLeft, fun _ _ => ⟨rfl, rfl, h.draws, h.drawn⟩⟩
  · exact answers_random fun w w' h =>
      ⟨h.draws, h.drawn, fun _ => ⟨h.written, h.writesLeft, h.draws, rfl⟩⟩
  · rw [hdenied] at hallowed
    cases hallowed

theorem answers_without_random (hdenied : policy.allows Capability.random = false) :
    ∀ b ∈ (Registry.default.filter policy).builtins, Answers World.SameButDraws b b := by
  intro b hb
  rcases mem_filter_default hb with ⟨rfl, -⟩ | ⟨rfl, hallowed⟩ | ⟨rfl, -⟩
  · exact answers_writeLine fun w w' h =>
      ⟨h.written, h.writesLeft, fun _ _ => ⟨h.input, h.inputFails, rfl, rfl⟩⟩
  · rw [hdenied] at hallowed
    cases hallowed
  · exact answers_readLine fun w w' h =>
      ⟨h.input, h.inputFails, fun _ => ⟨rfl, h.inputFails, h.written, h.writesLeft⟩⟩

/-- Where writing is denied, a world beside itself keeps what was written before. -/
theorem answers_without_write (hdenied : policy.allows Capability.write = false) (written : List Text) :
    ∀ b ∈ (Registry.default.filter policy).builtins,
      Answers (fun w w' => w = w' ∧ w.written = written) b b := by
  intro b hb
  rcases mem_filter_default hb with ⟨rfl, hallowed⟩ | ⟨rfl, -⟩ | ⟨rfl, -⟩
  · rw [hdenied] at hallowed
    cases hallowed
  · refine answers_random ?_
    rintro w _ ⟨rfl, hw⟩
    exact ⟨rfl, rfl, fun _ => ⟨rfl, hw⟩⟩
  · refine answers_readLine ?_
    rintro w _ ⟨rfl, hw⟩
    exact ⟨rfl, rfl, fun _ => ⟨rfl, hw⟩⟩

end Denied

/-! ## Sessions -/

/-- What a run shows: its failure if it failed, the globals it left, what was written and what happened. -/
def Run.Outcome.shown (o : Outcome) : Option Failure × Frame × Text × List Trace.Event :=
  (o.failure, o.globals, o.world.output, o.events)

/-- The ways to run a source in a session: read against the builtins it may call, so that any other call is
refused, or read without regard to them, so that any other call fails when it is reached. -/
def Session.ways (s : Session) (file source : Text) : List (World → Nat → Except Parse.Error Outcome) :=
  [s.run file source,
    fun world budget => do return (← ScriptKit.parse file source).run s.registry world budget]

/-- Each way reads a source regardless of the world, and then runs what was read. -/
theorem Session.way_eq {s : Session} {file source : Text} {run : World → Nat → Except Parse.Error Outcome}
    (h : run ∈ s.ways file source) :
    (∃ e, ∀ world budget, run world budget = .error e) ∨
      ∃ p : Program, ∀ world budget, run world budget = .ok (p.run s.registry world budget) := by
  have hread : ∀ known, (∃ e, ∀ world budget,
      (do return (← ScriptKit.parse file source known).run s.registry world budget :
        Except Parse.Error Outcome) = .error e) ∨
      ∃ p : Program, ∀ world budget,
        (do return (← ScriptKit.parse file source known).run s.registry world budget :
          Except Parse.Error Outcome) = .ok (p.run s.registry world budget) := by
    intro known
    cases ScriptKit.parse file source known with
    | error e => exact Or.inl ⟨e, fun _ _ => rfl⟩
    | ok p => exact Or.inr ⟨p, fun _ _ => rfl⟩
  simp only [Session.ways, List.mem_cons, List.not_mem_nil, or_false] at h
  rcases h with rfl | rfl
  · exact hread (some s.registry.names)
  · exact hread none

/-- Worlds related by `W` show the same if the builtins of the session answer alike in them. -/
theorem Session.shown_eq {s : Session} {file source : Text} {W : World → World → Prop}
    (hanswers : ∀ b ∈ s.registry.builtins, Answers W b b)
    (houtput : ∀ w w', W w w' → w.output = w'.output)
    {run : World → Nat → Except Parse.Error Outcome} (hrun : run ∈ s.ways file source)
    {w w' : World} (hw : W w w') (budget : Nat) :
    (run w budget).map Outcome.shown = (run w' budget).map Outcome.shown := by
  obtain ⟨e, he⟩ | ⟨p, hp⟩ := Session.way_eq hrun
  · rw [he, he]
  · rw [hp, hp]
    have hbeside := run_beside (p := p) (fun _ => True)
      (fun name _ => Registry.rel_get? hanswers name) (fun _ _ _ _ _ _ => trivial) hw budget
    simp only [Except.map, Outcome.shown, hbeside.failure, hbeside.globals, hbeside.events,
      houtput _ _ hbeside.world]

/-- A denied capability is out of reach: with the default builtins, what a run shows is the same for any two
inputs if reading is denied, the same for any two streams of random numbers if those are denied, and if
writing is denied nothing is ever written. -/
theorem policy_confines (policy : Policy) (file source : Text)
    (run : World → Nat → Except Parse.Error Outcome)
    (hrun : run ∈ Session.ways { policy := policy } file source) (world : World) (budget : Nat) :
    (policy.allows Capability.read = false → ∀ input input' fails fails',
      (run { world with input := input, inputFails := fails } budget).map Outcome.shown =
        (run { world with input := input', inputFails := fails' } budget).map Outcome.shown) ∧
    (policy.allows Capability.random = false → ∀ draws draws',
      (run { world with draws := draws } budget).map Outcome.shown =
        (run { world with draws := draws' } budget).map Outcome.shown) ∧
    (policy.allows Capability.write = false → ∀ o, run world budget = .ok o →
      o.world.written = world.written) := by
  refine ⟨fun hdenied input input' fails fails' => ?_, fun hdenied draws draws' => ?_, fun hdenied o ho => ?_⟩
  · have hanswers : ∀ b ∈ (Session.registry { policy := policy }).builtins,
        Answers World.SameButInput b b := answers_without_read hdenied
    refine Session.shown_eq hanswers (fun _ _ hw => hw.output) hrun ?_ budget
    exact ⟨rfl, rfl, rfl, rfl⟩
  · have hanswers : ∀ b ∈ (Session.registry { policy := policy }).builtins,
        Answers World.SameButDraws b b := answers_without_random hdenied
    refine Session.shown_eq hanswers (fun _ _ hw => hw.output) hrun ?_ budget
    exact ⟨rfl, rfl, rfl, rfl⟩
  · obtain ⟨e, he⟩ | ⟨p, hp⟩ := Session.way_eq hrun
    · rw [he] at ho
      cases ho
    · rw [hp] at ho
      cases ho
      -- the run is set beside itself: the relation of worlds is what a run keeps
      have hanswers := answers_without_write hdenied world.written
      exact (run_beside (fun _ => True) (fun name _ => Registry.rel_get? hanswers name)
        (fun _ _ _ _ _ _ => trivial) ⟨rfl, rfl⟩ budget).world.2

/-- A program that writes a line and then tries to read one, where reading is denied. -/
theorem policy_confines_input :
    ∃ run ∈ Session.ways { policy := { denied := [Capability.read] } } "a"
        "func Main() \x7b WriteLine(1) ReadLine() \x7d",
      (run { input := "x\n" } 9).toOption.map (fun o => (o.failure.map Failure.fault, o.world.output)) =
        some (some (Run.Fault.unknownFunction "ReadLine"), Text.ofString "1\n") ∧
      (run { input := "x\n" } 9).map Outcome.shown = (run { input := "y\n" } 9).map Outcome.shown := by
  refine ⟨_, List.mem_cons_of_mem _ (List.mem_singleton.2 rfl), by decide +kernel, ?_⟩
  exact (policy_confines { denied := [Capability.read] } "a" _ _
    (List.mem_cons_of_mem _ (List.mem_singleton.2 rfl)) {} 9).1 (by decide) "x\n" "y\n" false false

end ScriptKit
