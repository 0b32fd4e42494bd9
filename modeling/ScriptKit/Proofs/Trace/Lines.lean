import Mathlib.Data.List.Forall2
import ScriptKit.Proofs.Format.Print
import ScriptKit.Proofs.Json.RoundTrip
import ScriptKit.Trace.Event
import ScriptKit.Trace.Summary

/-!
# The lines of a trace are read back

An event is written as one JSON object on a line of its own. What is read from the line is a record with the kind and
the data of the event, each text as it is shown.

A trace file may have other lines among those of the events, from which nothing is read: `IsFile` says so without
saying where.

**Theorem (`IsFile.records`).** What is read from a trace file are its events, one after the other.

The positions and depths of an event are assumed to fit in 64 bits, as they are read into such numbers.
-/

namespace ScriptKit

namespace Trace

/-! ## Records -/

/-- An event as it is written on its line. -/
def Event.json (time run : Text) (e : Event) : Json :=
  .object ([Json.field "ts" (.string time), Json.field "runId" (.string run)] ++ e.fields)

theorem Event.line_eq (time run : Text) (e : Event) :
    e.line time run = (e.json time run).write ++ [.char '\n'] := rfl

/-- The depth at which an event says a variable is declared. -/
def Event.depth? (e : Event) : Option Nat :=
  match e.what with
  | .declared _ _ depth => some depth
  | _ => none

/-- The numbers of an event fit in 64 bits. -/
structure Event.Fits (e : Event) : Prop where
  startLine : e.span.start.line < Text.bound64
  startCol : e.span.start.col < Text.bound64
  stopLine : e.span.stop.line < Text.bound64
  stopCol : e.span.stop.col < Text.bound64
  depth : ∀ depth, e.depth? = some depth → depth < Text.bound64

instance : DecidablePred Event.Fits := fun e =>
  decidable_of_iff ((e.span.start.line < Text.bound64 ∧ e.span.start.col < Text.bound64) ∧
      (e.span.stop.line < Text.bound64 ∧ e.span.stop.col < Text.bound64) ∧
      ∀ depth ∈ e.depth?, depth < Text.bound64)
    ⟨fun h => ⟨h.1.1, h.1.2, h.2.1.1, h.2.1.2, h.2.2⟩,
      fun h => ⟨⟨h.startLine, h.startCol⟩, ⟨h.stopLine, h.stopCol⟩, h.depth⟩⟩

/-- A record that says what an event says, with every text as it is shown. -/
structure Event.IsReadAs (e : Event) (r : Record) : Prop where
  event : r.event = e.what.name
  data : r.data = (e.what.data.map fun (key, value) => (key, value.asShown)).reverse

theorem readSigned_ofNat {n : Nat} (h : n < Text.bound64) :
    Text.readSigned Text.bound64 (Text.ofNat n) = some (n : Int) := by
  have hread : Text.readInt (Text.ofNat n) = some (n : Int) := Text.readInt_ofInt (.ofNat n)
  have hfits : -(Text.bound64 : Int) ≤ n ∧ (n : Int) < (Text.bound64 : Int) := by
    constructor <;> omega
  rw [Text.readSigned, hread]
  exact if_pos hfits

namespace Record

theorem addField_span (r : Record) {span : Json} (h : isSpan span = true) :
    r.addField ("span", span) = some r := if_pos h

theorem addField_data (r : Record) (data : Json) :
    r.addField ("data", data) = (readData r.data data).map fun d => { r with data := d } := rfl

theorem readData_strings (old data : List (Text × Text)) :
    readData old (.object (data.map fun (key, value) => (key, .string value))) = some (data.reverse ++ old) := by
  show (data.map fun (key, value) => (key, Json.string value)).foldlM _ old = _
  induction data generalizing old with
  | nil => rfl
  | cons entry data ih =>
    obtain ⟨key, value⟩ := entry
    rw [List.map_cons, List.foldlM_cons]
    exact (ih _).trans (by simp)

theorem isSpan_spanJson {e : Event} (h : e.Fits) : isSpan (Diagnostic.spanJson e.span).asShown = true := by
  have hnumber : ∀ (name : Text) (n : Nat), n < Text.bound64 → name ∈ spanNumbers →
      fitsSpanField name (.nat n) = true := by
    intro name n hn hname
    simp only [spanNumbers, List.mem_cons, List.not_mem_nil, or_false] at hname
    have hread := congrArg Option.isSome (readSigned_ofNat hn)
    rcases hname with rfl | rfl | rfl | rfl <;> exact hread
  show (true && (fitsSpanField "startLine" (.nat _) && (fitsSpanField "startCol" (.nat _) &&
    (fitsSpanField "endLine" (.nat _) && (fitsSpanField "endCol" (.nat _) && true))))) = true
  rw [hnumber _ _ h.startLine (by decide), hnumber _ _ h.startCol (by decide), hnumber _ _ h.stopLine (by decide),
    hnumber _ _ h.stopCol (by decide)]
  rfl

end Record

theorem Happening.asShown_keys (what : Happening) : ∀ entry ∈ what.data, entry.1.asShown = entry.1 := by
  cases what <;> simp only [data, List.forall_mem_cons] <;> decide

theorem Happening.asShown_name (what : Happening) : what.name.asShown = what.name := by
  cases what <;> rfl

namespace Event

variable {e : Event}

theorem readable_json (time run : Text) (e : Event) : (e.json time run).Readable 2 := by
  have hspan : (Diagnostic.spanJson e.span).Readable 1 := by
    refine .object ?_
    simp only [List.forall_mem_cons, Json.field]
    exact ⟨.string _, .nat _, .nat _, .nat _, .nat _, List.forall_mem_nil _⟩
  refine .object ?_
  simp only [fields, List.forall_mem_append, List.forall_mem_cons, Json.field]
  refine ⟨⟨.string _, .string _, List.forall_mem_nil _⟩, ⟨.string _, hspan, List.forall_mem_nil _⟩, ?_⟩
  unfold dataField
  split
  · exact List.forall_mem_nil _
  · rw [List.forall_mem_singleton]
    refine .object fun field hfield => ?_
    obtain ⟨entry, -, rfl⟩ := List.mem_map.1 hfield
    exact .string _

/-- The data of an event as they are read back. -/
def shownData (e : Event) : List (Text × Text) := e.what.data.map fun (key, value) => (key, value.asShown)

theorem asShown_data (e : Event) :
    (Json.object (e.what.data.map fun (key, value) => (key, .string value))).asShown =
      .object (e.shownData.map fun (key, value) => (key, .string value)) := by
  rw [Json.asShown, Json.asShownFields_eq_map, shownData, List.map_map, List.map_map]
  refine congrArg Json.object (List.map_congr_left fun entry hentry => ?_)
  exact congrArg (Prod.mk · _) (e.what.asShown_keys entry hentry)

/-- What is written of an event is read as a record of it. -/
theorem ofJson?_json (h : e.Fits) (time run : Text) :
    ∃ r, Record.ofJson? (e.json time run).asShown = some r ∧ e.IsReadAs r := by
  have hname : (Json.string e.what.name).asShown = .string e.what.name := by
    rw [Json.asShown, e.what.asShown_name]
  have hhead : ∀ rest, Record.ofJson? (.object (("ts", .string time.asShown) :: ("runId", .string run.asShown) ::
      ("event", (Json.string e.what.name).asShown) :: ("span", (Diagnostic.spanJson e.span).asShown) :: rest)) =
      rest.foldlM Record.addField { time := time.asShown, run := run.asShown, event := e.what.name } := by
    intro rest
    rw [hname]
    show (Record.addField _ ("span", (Diagnostic.spanJson e.span).asShown)).bind _ = _
    rw [Record.addField_span _ (Record.isSpan_spanJson h)]
    rfl
  -- a line without data has no field for it
  by_cases hdata : e.what.data.isEmpty = true
  · refine ⟨{ time := time.asShown, run := run.asShown, event := e.what.name }, ?_, rfl, ?_⟩
    · rw [json, fields, dataField, if_pos hdata]
      exact hhead []
    · rw [List.isEmpty_iff.1 hdata]
      rfl
  · refine ⟨{ time := time.asShown, run := run.asShown, event := e.what.name, data := e.shownData.reverse }, ?_, rfl,
      rfl⟩
    rw [json, fields, dataField, if_neg hdata]
    refine (hhead [("data", (Json.object _).asShown)]).trans ?_
    rw [asShown_data, List.foldlM_cons, Record.addField_data, Record.readData_strings]
    simp

end Event

/-! ## Lines -/

section Pieces

variable {p : Glyph → Bool} {piece : Text}

theorem splitOn_of_none (h : ∀ g ∈ piece, p g = false) : Text.splitOn p piece = [piece] := by
  induction piece with
  | nil => rfl
  | cons g piece ih =>
    obtain ⟨hg, hpiece⟩ := List.forall_mem_cons.1 h
    show Text.splitStep p g (Text.splitOn p piece) = _
    rw [ih hpiece, Text.splitStep, if_neg (by simp [hg])]

/-- A separator ends the piece in front of it. -/
theorem splitOn_append (h : ∀ g ∈ piece, p g = false) {sep : Glyph} (hsep : p sep = true) (t : Text) :
    Text.splitOn p (piece ++ sep :: t) = piece :: Text.splitOn p t := by
  induction piece with
  | nil =>
    show Text.splitStep p sep (Text.splitOn p t) = _
    have hne : ∃ first more, Text.splitOn p t = first :: more := by
      cases t with
      | nil => exact ⟨_, _, rfl⟩
      | cons g t =>
        show ∃ first more, Text.splitStep p g (Text.splitOn p t) = first :: more
        unfold Text.splitStep
        split
        · exact ⟨_, _, rfl⟩
        · split <;> exact ⟨_, _, rfl⟩
    obtain ⟨first, more, hsplit⟩ := hne
    rw [hsplit, Text.splitStep, if_pos hsep]
  | cons g piece ih =>
    obtain ⟨hg, hpiece⟩ := List.forall_mem_cons.1 h
    show Text.splitStep p g (Text.splitOn p (piece ++ sep :: t)) = _
    rw [ih hpiece, Text.splitStep, if_neg (by simp [hg])]

end Pieces

/-- A line from which nothing is read, because it is blank or no JSON. -/
structure IsJunk (line : Text) : Prop where
  single : ∀ g ∈ line, g ≠ .char '\n'
  unread : Json.read line.trim = none

theorem isJunk_of_blank {line : Text} (hsingle : ∀ g ∈ line, g ≠ .char '\n') (hblank : line.trim = []) :
    IsJunk line := ⟨hsingle, by rw [hblank]; rfl⟩

/-- A trace file: the lines of the events, in order, and among them lines from which nothing is read. -/
inductive IsFile (run : Text) : List Event → Text → Prop
  | done {line : Text} : IsJunk line → IsFile run [] line
  | event {events : List Event} {t : Text} (time : Text) (e : Event) : IsFile run events t →
    IsFile run (e :: events) (e.line time run ++ t)
  | junk {events : List Event} {line t : Text} : IsJunk line → IsFile run events t →
    IsFile run events (line ++ .char '\n' :: t)

/-- What a run writes is a trace file. -/
theorem isFile_flatMap (time run : Text) (events : List Event) :
    IsFile run events (events.flatMap (Event.line time run)) := by
  induction events with
  | nil => exact .done (isJunk_of_blank (List.forall_mem_nil _) rfl)
  | cons e events ih => exact .event time e ih

theorem lines_append {line : Text} (h : ∀ g ∈ line, g ≠ .char '\n') (t : Text) :
    lines (line ++ .char '\n' :: t) = line :: lines t :=
  splitOn_append (fun g hg => beq_eq_false_iff_ne.2 (h g hg)) rfl t

theorem Event.trim_json (time run : Text) (e : Event) : (e.json time run).write.trim = (e.json time run).write := by
  have hjson : e.json time run = .object (("ts", .string time) :: ("runId", .string run) :: e.fields) := rfl
  have htight : Tight (e.json time run).write := by
    rw [hjson, Json.write]
    exact ⟨_, .char '\x7d', rfl, rfl⟩
  have hopen : ∃ t, (e.json time run).write = .char '\x7b' :: t := by
    rw [hjson, Json.write]
    exact ⟨_, rfl⟩
  obtain ⟨t, ht⟩ := hopen
  rw [ht] at htight ⊢
  exact trim_eq rfl htight

theorem Event.single_json (time run : Text) (e : Event) : ∀ g ∈ (e.json time run).write, g ≠ .char '\n' := by
  intro g hg heq
  have hplain := Json.isPlain_write (e.readable_json time run) g hg
  rw [heq] at hplain
  cases hplain

/-- The line of an event is read as a record of it. -/
theorem Event.ofLine?_json {e : Event} (h : e.Fits) (time run : Text) :
    ∃ r, Record.ofLine? (e.json time run).write = some r ∧ e.IsReadAs r := by
  obtain ⟨r, hr, hread⟩ := ofJson?_json h time run
  refine ⟨r, ?_, hread⟩
  rw [Record.ofLine?, trim_json, Json.read_write ((e.readable_json time run).mono (by decide))]
  exact hr

theorem IsJunk.ofLine? {line : Text} (h : IsJunk line) : Record.ofLine? line = none := by
  rw [Record.ofLine?, h.unread]
  rfl

/-- What is read from a trace file are its events, one after the other. -/
theorem IsFile.records {run t : Text} {events : List Event} (h : IsFile run events t)
    (hfits : ∀ e ∈ events, e.Fits) :
    List.Forall₂ Event.IsReadAs events ((lines t).filterMap Record.ofLine?) := by
  induction h with
  | @done line hjunk =>
    have hlines : lines line = [line] := splitOn_of_none fun g hg => beq_eq_false_iff_ne.2 (hjunk.single g hg)
    rw [hlines, List.filterMap_cons, hjunk.ofLine?]
    exact .nil
  | @junk events line t hjunk _ ih =>
    rw [lines_append hjunk.single, List.filterMap_cons, hjunk.ofLine?]
    exact ih hfits
  | @event events t time e _ ih =>
    obtain ⟨he, hevents⟩ := List.forall_mem_cons.1 hfits
    obtain ⟨r, hr, hread⟩ := Event.ofLine?_json he time run
    rw [Event.line_eq, List.append_assoc, List.singleton_append, lines_append (e.single_json time run),
      List.filterMap_cons, hr]
    exact .cons hread (ih hevents)

end Trace

end ScriptKit
