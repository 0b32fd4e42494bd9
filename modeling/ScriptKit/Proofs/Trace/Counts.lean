import Mathlib.Algebra.GroupWithZero.Nat
import ScriptKit.Proofs.Run.Brackets
import ScriptKit.Proofs.Run.Values
import ScriptKit.Proofs.Trace.Lines

/-!
# Summaries count exactly

Taking in a record of an event changes a summary as the event says, whatever the record owes to the time and the run.
`add_eq` lists the changes once, and `Summary.Counts` follows them through a whole file: each count of a summary is the
number of events of its kind, the depth is the largest one declared, and the run was successful if its last end says so.

**Theorem (`counts_of_isFile`).** The summary of a trace file has the counts of its events.

**Theorem (`sums_of_summarize`).** Whatever a file holds, the calls of the names add up to all the calls.
-/

namespace ScriptKit

namespace Trace

/-! ## What an event says -/

namespace Event

/-- Whether an event is a declaration. -/
def isDeclaration (e : Event) : Bool :=
  match e.what with
  | .declared .. => true
  | _ => false

/-- The name of the function or the builtin that an event says is called. -/
def callee? (e : Event) : Option Text :=
  match e.what with
  | .callStart function | .builtinCall function _ => some function
  | _ => none

/-- Whether the run that an event ends was successful. -/
def ok? (e : Event) : Option Bool :=
  match e.what with
  | .runEnd ok => some ok
  | _ => none

/-- The name of what is called consists of characters. -/
def Named (e : Event) : Prop := ∀ name, e.callee? = some name → ∀ g ∈ name, g.isChar = true

end Event

/-! ## Counting one event -/

namespace Summary

/-- The counts of a summary are those of some events. -/
structure Counts (s : Summary) (es : List Event) : Prop where
  events : s.events = es.length
  calls : s.calls = es.countP Event.isCallStart
  failures : s.failures = es.countP Event.isFailedCall
  builtinCalls : s.builtinCalls = es.countP Event.isBuiltinCall
  callsOf : ∀ name, s.callsOf name = es.countP fun e => e.callee? == some name
  declarations : s.declarations = es.countP Event.isDeclaration
  /-- The largest depth, or 0 if nothing is declared. -/
  maxDepth : s.maxDepth = ((es.filterMap Event.depth?).foldl max 0 : Nat)
  /-- What the last end of a run says. -/
  ok : s.ok = (es.filterMap Event.ok?).getLast?.getD false

theorem lookup_countCall (name other : Text) (calls : List (Text × Nat)) :
    ((countCall name calls).lookup other).getD 0 =
      (calls.lookup other).getD 0 + if name = other then 1 else 0 := by
  have hcons : ∀ (key : Text) (n : Nat) (rest : List (Text × Nat)),
      (((key, n) :: rest).lookup other).getD 0 = if key = other then n else (rest.lookup other).getD 0 := by
    intro key n rest
    rw [List.lookup_cons]
    by_cases h : key = other
    · simp [h]
    · rw [if_neg h, beq_eq_false_iff_ne.2 (Ne.symm h)]
  induction calls with
  | nil =>
    rw [countCall, hcons]
    exact (Nat.zero_add _).symm
  | cons entry calls ih =>
    obtain ⟨key, n⟩ := entry
    rw [countCall]
    by_cases hkey : key = name
    · rw [if_pos hkey, hcons, hcons, ← hkey]
      by_cases h : key = other <;> simp [h]
    · rw [if_neg hkey, hcons, hcons, ih]
      by_cases h : key = other
      · have hne : ¬name = other := fun heq => hkey (h.trans heq.symm)
        simp [h, hne]
      · simp [h]

section Add

variable {s : Summary} {e : Event} {es : List Event} {r : Record}

/-- What a record of an event adds to a summary. -/
theorem add_eq (h : e.IsReadAs r) (s : Summary) : s.add r =
    { run := if s.run.isEmpty then r.run else s.run
      events := s.events + 1
      calls := s.calls + if e.isCallStart then 1 else 0
      failures := s.failures + if e.isFailedCall then 1 else 0
      builtinCalls := s.builtinCalls + if e.isBuiltinCall then 1 else 0
      callsByName := (e.callee?.map fun name => countCall name.asShown s.callsByName).getD s.callsByName
      declarations := s.declarations + if e.isDeclaration then 1 else 0
      maxDepth := (e.depth?.map fun d => deeper s.maxDepth (Text.ofNat d).asShown).getD s.maxDepth
      ok := e.ok?.getD s.ok
      start := if e.what = .runStart then (if s.start.isEmpty then r.time else s.start) else s.start
      stop := if e.ok?.isSome then r.time else s.stop } := by
  obtain ⟨span, what⟩ := e
  obtain ⟨time, run, event, data⟩ := r
  obtain ⟨rfl, rfl⟩ := h
  cases what with
  | runEnd ok => cases ok <;> rfl
  | callEnd function ok => cases ok <;> rfl
  | _ => rfl

theorem deeper_ofNat {d : Nat} (h : d < Text.bound64) (depth : Int) :
    deeper depth (Text.ofNat d).asShown = max depth d := by
  have hdigits : (Text.ofNat d).asShown = Text.ofNat d := by
    refine Text.asShown_of_isChar fun g hg => ?_
    have hpart := Text.isNumeralPart_of_mem_ofNat d g hg
    cases g with
    | char c => rfl
    | stray b => cases hpart
  rw [hdigits, deeper, readSigned_ofNat h]

/-- Counting one more event. -/
theorem Counts.add (hs : s.Counts es) (h : e.IsReadAs r) (hfits : e.Fits) (hnamed : e.Named) :
    (s.add r).Counts (es ++ [e]) := by
  rw [add_eq h]
  constructor
  case events => rw [List.length_append, hs.events]; rfl
  case calls => rw [List.countP_append, List.countP_singleton, hs.calls]
  case failures => rw [List.countP_append, List.countP_singleton, hs.failures]
  case builtinCalls => rw [List.countP_append, List.countP_singleton, hs.builtinCalls]
  case declarations => rw [List.countP_append, List.countP_singleton, hs.declarations]
  case callsOf =>
    intro name
    have hbefore := hs.callsOf name
    rw [List.countP_append, List.countP_singleton, ← hbefore]
    cases hcallee : e.callee? with
    | none => rfl
    | some other =>
      have hshown := Text.asShown_of_isChar (hnamed other hcallee)
      have hlookup := lookup_countCall other name s.callsByName
      simp only [Summary.callsOf, Option.map_some, Option.getD_some, hshown, hlookup]
      simp
  case maxDepth =>
    rw [List.filterMap_append, List.foldl_append, hs.maxDepth]
    cases hdepth : e.depth? with
    | none => simp [hdepth]
    | some d =>
      simp only [Option.map_some, Option.getD_some, deeper_ofNat (hfits.depth d hdepth), List.filterMap_cons, hdepth,
        List.filterMap_nil, List.foldl_cons, List.foldl_nil]
      omega
  case ok =>
    rw [List.filterMap_append, hs.ok]
    cases hok : e.ok? with
    | none => simp [hok]
    | some ok => simp [hok]

end Add

/-! ## Counting all of them -/

/-- Counting the records of events that follow some others. -/
theorem Counts.foldl {es : List Event} {records : List Record} (h : List.Forall₂ Event.IsReadAs es records)
    (hes : ∀ e ∈ es, e.Fits ∧ e.Named) : ∀ {s : Summary} {before : List Event}, s.Counts before →
      (records.foldl Summary.add s).Counts (before ++ es) := by
  induction h with
  | nil =>
    intro s before hs
    rw [List.append_nil]
    exact hs
  | @cons e r es records hread _ ih =>
    intro s before hs
    obtain ⟨⟨hfits, hnamed⟩, hes⟩ := List.forall_mem_cons.1 hes
    have hall := ih hes (hs.add hread hfits hnamed)
    rw [List.append_assoc, List.singleton_append] at hall
    exact hall

theorem counts_empty : Counts {} [] where
  events := rfl
  calls := rfl
  failures := rfl
  builtinCalls := rfl
  callsOf _ := rfl
  declarations := rfl
  maxDepth := rfl
  ok := rfl

/-- The summary of a trace file has the counts of its events. -/
theorem counts_of_isFile {run t : Text} {es : List Event} (h : IsFile run es t) (hes : ∀ e ∈ es, e.Fits ∧ e.Named)
    (hlimit : ∀ line ∈ lines t, line.toBytes.length < lineLimit) : ∃ s, summarize t = some s ∧ s.Counts es := by
  refine ⟨ofRecords ((lines t).filterMap Record.ofLine?), if_neg ?_, ?_⟩
  · rw [List.any_eq_true]
    intro hlong
    obtain ⟨line, hline, hlong⟩ := hlong
    exact absurd (hlimit line hline) (Nat.not_lt.2 (of_decide_eq_true hlong))
  · exact Counts.foldl (h.records fun e he => (hes e he).1) hes counts_empty

/-! ## The sum of the calls -/

/-- Each name is counted once, and together the names count all the calls. -/
structure Sums (s : Summary) : Prop where
  distinct : (s.callsByName.map Prod.fst).Nodup
  sum : (s.callsByName.map Prod.snd).sum = s.calls + s.builtinCalls

theorem mem_names_countCall (name other : Text) (calls : List (Text × Nat)) :
    other ∈ (countCall name calls).map Prod.fst ↔ other = name ∨ other ∈ calls.map Prod.fst := by
  induction calls with
  | nil => simp [countCall]
  | cons entry calls ih =>
    obtain ⟨key, n⟩ := entry
    rw [countCall]
    by_cases hkey : key = name
    · rw [if_pos hkey, List.map_cons, List.map_cons, List.mem_cons, hkey]
      exact ⟨.inr, fun h => h.elim .inl id⟩
    · rw [if_neg hkey, List.map_cons, List.map_cons, List.mem_cons, List.mem_cons, ih]
      exact or_left_comm

theorem countCall_sums (name : Text) {calls : List (Text × Nat)} (h : (calls.map Prod.fst).Nodup) :
    ((countCall name calls).map Prod.fst).Nodup ∧
      ((countCall name calls).map Prod.snd).sum = (calls.map Prod.snd).sum + 1 := by
  induction calls with
  | nil => exact ⟨by simp [countCall], rfl⟩
  | cons entry calls ih =>
    obtain ⟨key, n⟩ := entry
    rw [List.map_cons, List.nodup_cons] at h
    rw [countCall]
    by_cases hkey : key = name
    · rw [if_pos hkey]
      refine ⟨List.nodup_cons.2 h, ?_⟩
      simp only [List.map_cons, List.sum_cons]
      omega
    · obtain ⟨hdistinct, hsum⟩ := ih h.2
      rw [if_neg hkey]
      refine ⟨List.nodup_cons.2 ⟨?_, hdistinct⟩, ?_⟩
      · rw [mem_names_countCall]
        exact fun hmem => hmem.elim hkey h.1
      · simp only [List.map_cons, List.sum_cons, hsum]
        omega

/-- Whatever is read keeps the sum. -/
theorem Sums.add {s : Summary} (h : s.Sums) (r : Record) : (s.add r).Sums := by
  have hcall := countCall_sums (r.datum "fn") h.distinct
  have hcounted : ((countCall (r.datum "fn") s.callsByName).map Prod.snd).sum = s.calls + s.builtinCalls + 1 := by
    rw [hcall.2, h.sum]
  unfold Summary.add count
  dsimp only
  split
  · exact ⟨h.distinct, h.sum⟩
  split
  · exact ⟨h.distinct, h.sum⟩
  split
  · exact ⟨hcall.1, by rw [hcounted, Nat.add_right_comm]⟩
  split
  · exact ⟨h.distinct, h.sum⟩
  split
  · exact ⟨hcall.1, hcounted⟩
  split <;> exact ⟨h.distinct, h.sum⟩

/-- In every summary the counts of the names add up to the calls of functions and builtins. -/
theorem sums_of_summarize {t : Text} {s : Summary} (h : summarize t = some s) : s.Sums := by
  have hfold : ∀ (records : List Record) (s : Summary), s.Sums → (records.foldl add s).Sums := by
    intro records
    induction records with
    | nil => exact fun s hs => hs
    | cons r records ih => exact fun s hs => ih _ (hs.add r)
  unfold summarize at h
  split at h
  · cases h
  · cases h
    exact hfold _ _ ⟨List.nodup_nil, rfl⟩

end Summary

end Trace

end ScriptKit
