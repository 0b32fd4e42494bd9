import Mathlib.Data.List.Nodup
import ScriptKit.Proofs.Format.Settled
import ScriptKit.Proofs.Json.RoundTrip
import ScriptKit.Proofs.Run.Growth

/-!
# The dump of a frame

A frame is dumped as a JSON object with its names in increasing order. `Frame.ofDump?` reads such an object back, and
what it reads is the map of the frame, `Frame.value?`: a number for an integer, a string, a truth value, or null where
there is no value.

The fields of the object are the pairs of this map, sorted by a key that no two of them share, so the map alone fixes
their order.

**Theorem (`dump_reads_back`).** The dump of a frame is read back as its map, each name once and in increasing order,
and it depends on nothing but this map.

A frame is assumed to have each name once. This holds of every frame that declarations and assignments lead to,
**Theorem (`distinct_globals`)** says so of the globals of a run.
-/

namespace ScriptKit

/-! ## The order of texts -/

namespace Text

theorem bytesLe_iff (a b : List UInt8) : bytesLe a b = true ↔ a ≤ b := by
  induction a generalizing b with
  | nil => simp [bytesLe]
  | cons x a ih =>
    cases b with
    | nil => simp [bytesLe]
    | cons y b =>
      rw [bytesLe, List.cons_le_cons_iff]
      simp [ih]

theorem le_iff (s t : Text) : s.le t = true ↔ s.toBytes ≤ t.toBytes := bytesLe_iff _ _

/-- Texts of characters differ if their bytes do. -/
theorem eq_of_toBytes {s t : Text} (hs : ∀ g ∈ s, g.isChar = true) (ht : ∀ g ∈ t, g.isChar = true)
    (h : s.toBytes = t.toBytes) : s = t := by
  have hs : s.Settled := (sealed_of_isChar hs).settled
  have ht : t.Settled := (sealed_of_isChar ht).settled
  rw [← hs, ← ht, h]

end Text

/-! ## The map of a frame -/

theorem lookup_eq_some_iff_mem {α β : Type} [BEq α] [LawfulBEq α] {l : List (α × β)} (h : (l.map Prod.fst).Nodup)
    {k : α} {v : β} : l.lookup k = some v ↔ (k, v) ∈ l := by
  induction l with
  | nil => simp
  | cons entry l ih =>
    obtain ⟨key, w⟩ := entry
    rw [List.map_cons, List.nodup_cons] at h
    rw [List.lookup_cons, List.mem_cons, Prod.mk.injEq]
    by_cases hk : k = key
    · subst hk
      have hnot : (k, v) ∉ l := fun hmem => h.1 (List.mem_map.2 ⟨(k, v), hmem, rfl⟩)
      simp [hnot, eq_comm]
    · rw [beq_eq_false_iff_ne.2 hk]
      simp [hk, ih h.2]

namespace Frame

/-- Each name of a frame is declared once. -/
def Distinct (f : Frame) : Prop := (f.vars.map Prod.fst).Nodup

/-- The names and the texts that are values consist of characters. -/
structure Legible (f : Frame) : Prop where
  names : ∀ entry ∈ f.vars, ∀ g ∈ entry.1, g.isChar = true
  values : ∀ entry ∈ f.vars, ∀ t, entry.2.value = some (.str t) → ∀ g ∈ t, g.isChar = true

/-- The value of a variable of a frame, if there is such a variable. -/
def value? (f : Frame) (name : Text) : Option (Option Value) := (f.lookup name).map Variable.value

/-- The names and values of a frame in increasing order of the names. -/
def entries (f : Frame) : List (Text × Option Value) := f.sorted.map fun (name, v) => (name, v.value)

variable {f g : Frame}

theorem entries_perm (f : Frame) : f.entries.Perm (f.vars.map fun (name, v) => (name, v.value)) :=
  (List.mergeSort_perm _ _).map _

theorem names_entries (f : Frame) : (f.entries.map Prod.fst).Perm (f.vars.map Prod.fst) := by
  refine (f.entries_perm.map Prod.fst).trans (List.Perm.of_eq ?_)
  rw [List.map_map]
  rfl

theorem mem_entries_iff (h : f.Distinct) {name : Text} {v : Option Value} :
    (name, v) ∈ f.entries ↔ f.value? name = some v := by
  rw [f.entries_perm.mem_iff, List.mem_map, value?, Option.map_eq_some_iff]
  constructor
  · rintro ⟨⟨key, w⟩, hmem, heq⟩
    obtain ⟨rfl, rfl⟩ := Prod.mk.inj heq
    exact ⟨w, (lookup_eq_some_iff_mem h).2 hmem, rfl⟩
  · rintro ⟨w, hw, rfl⟩
    exact ⟨(name, w), (lookup_eq_some_iff_mem h).1 hw, rfl⟩

theorem lookup_entries (h : f.Distinct) (name : Text) : f.entries.lookup name = f.value? name := by
  have hnodup : (f.entries.map Prod.fst).Nodup := f.names_entries.nodup_iff.2 h
  ext v
  exact (lookup_eq_some_iff_mem hnodup).trans (mem_entries_iff h)

theorem legible_entries (h : f.Legible) : ∀ entry ∈ f.entries, (∀ g ∈ entry.1, g.isChar = true) ∧
    ∀ t, entry.2 = some (.str t) → ∀ g ∈ t, g.isChar = true := by
  intro entry hentry
  rw [f.entries_perm.mem_iff, List.mem_map] at hentry
  obtain ⟨v, hv, rfl⟩ := hentry
  exact ⟨h.names v hv, h.values v hv⟩

theorem entries_sorted (f : Frame) : f.entries.Pairwise fun a b => a.1.toBytes ≤ b.1.toBytes := by
  have hsorted : f.sorted.Pairwise fun a b => a.1.le b.1 = true := by
    apply List.pairwise_mergeSort
    · intro a b c hab hbc
      rw [Text.le_iff] at *
      exact List.le_trans hab hbc
    · intro a b
      rw [Bool.or_eq_true, Text.le_iff, Text.le_iff]
      exact List.le_total _ _
  rw [entries, List.pairwise_map]
  exact hsorted.imp fun h => (Text.le_iff _ _).1 h

/-- No two names of a frame have the same bytes. -/
theorem name_eq_of_toBytes (hl : f.Legible) {a b : Text × Option Value} (ha : a ∈ f.entries) (hb : b ∈ f.entries)
    (h : a.1.toBytes = b.1.toBytes) : a.1 = b.1 :=
  Text.eq_of_toBytes (legible_entries hl a ha).1 (legible_entries hl b hb).1 h

/-- The names come in strictly increasing order of their bytes. -/
theorem entries_increasing (hd : f.Distinct) (hl : f.Legible) :
    (f.entries.map Prod.fst).Pairwise fun s t => s.toBytes < t.toBytes := by
  have hnodup : (f.entries.map Prod.fst).Nodup := f.names_entries.nodup_iff.2 hd
  rw [List.Nodup, List.pairwise_map] at hnodup
  rw [List.pairwise_map]
  refine (f.entries_sorted.and hnodup).imp_of_mem ?_
  intro a b ha hb hab
  by_cases hlt : a.1.toBytes < b.1.toBytes
  · exact hlt
  · exact absurd (name_eq_of_toBytes hl ha hb (List.le_antisymm hab.1 (List.not_lt.1 hlt))) hab.2

/-- Frames with the same map have the same entries. -/
theorem entries_congr (hf : f.Distinct) (hl : f.Legible) (hg : g.Distinct)
    (h : ∀ name, g.value? name = f.value? name) : g.entries = f.entries := by
  have hmem : ∀ entry, entry ∈ g.entries ↔ entry ∈ f.entries := by
    intro entry
    rw [mem_entries_iff hf, mem_entries_iff hg, h]
  have hperm : g.entries.Perm f.entries := by
    refine (List.perm_ext_iff_of_nodup ?_ ?_).2 hmem
    · exact List.Nodup.of_map _ (g.names_entries.nodup_iff.2 hg)
    · exact List.Nodup.of_map _ (f.names_entries.nodup_iff.2 hf)
  refine hperm.eq_of_pairwise ?_ g.entries_sorted f.entries_sorted
  intro a b ha hb hab hba
  have hname := name_eq_of_toBytes hl ((hmem a).1 ha) hb (List.le_antisymm hab hba)
  have hvalue : some a.2 = some b.2 := by
    rw [← (mem_entries_iff hf).1 ((hmem a).1 ha), ← (mem_entries_iff hf).1 hb, hname]
  exact Prod.ext hname (Option.some.inj hvalue)

end Frame

/-! ## Reading a dump back -/

/-- The value that a JSON value describes; null describes having none. -/
def Value.ofJson? : Json → Option (Option Value)
  | .null => some none
  | .bool b => some (some (.bool b))
  | .number numeral => numeral.readInt32.map fun n => some (.int n)
  | .string t => some (some (.str t))
  | .array _ | .object _ => none

theorem Value.ofJson?_optionToJson (v : Option Value) : Value.ofJson? (Value.optionToJson v) = some v := by
  match v with
  | none => rfl
  | some (.bool b) => rfl
  | some (.str t) => rfl
  | some (.int n) => simp [optionToJson, toJson, Json.int, ofJson?, Text.readInt32_ofInt]

theorem Value.readable_optionToJson {n : Nat} (v : Option Value) : (Value.optionToJson v).Readable n := by
  match v with
  | none => exact .null
  | some (.bool b) => exact .bool b
  | some (.str t) => exact .string t
  | some (.int n) => exact .int n.toInt

theorem Value.asShown_optionToJson {v : Option Value} (h : ∀ t, v = some (.str t) → ∀ g ∈ t, g.isChar = true) :
    (Value.optionToJson v).asShown = Value.optionToJson v := by
  match v with
  | none => rfl
  | some (.bool b) => rfl
  | some (.int n) => rfl
  | some (.str t) => rw [optionToJson, toJson, Json.asShown, Text.asShown_of_isChar (h t rfl)]

namespace Frame

/-- The names and values that an object describes, in the order of its fields. -/
def readEntries : List (Text × Json) → Option (List (Text × Option Value))
  | [] => some []
  | (name, value) :: fields => do
    let v ← Value.ofJson? value
    let entries ← readEntries fields
    return (name, v) :: entries

/-- The names and values in the bytes of a JSON object. -/
def ofDump? (bytes : List UInt8) : Option (List (Text × Option Value)) :=
  match Json.read (Text.ofBytes bytes) with
  | some (.object fields) => readEntries fields
  | _ => none

variable {f : Frame}

theorem toJson_eq (f : Frame) :
    f.toJson = .object (f.entries.map fun (name, v) => (name, Value.optionToJson v)) := by
  rw [toJson, entries, List.map_map]
  rfl

theorem readable_toJson (f : Frame) : f.toJson.Readable 1 := by
  rw [toJson_eq]
  refine .object fun field hfield => ?_
  obtain ⟨entry, -, rfl⟩ := List.mem_map.1 hfield
  exact Value.readable_optionToJson entry.2

theorem asShown_toJson (h : f.Legible) : f.toJson.asShown = f.toJson := by
  rw [toJson_eq, Json.asShown, Json.asShownFields_eq_map, List.map_map]
  refine congrArg Json.object (List.map_congr_left fun entry hentry => ?_)
  obtain ⟨hname, hvalue⟩ := legible_entries h entry hentry
  exact Prod.ext (Text.asShown_of_isChar hname) (Value.asShown_optionToJson hvalue)

theorem readEntries_map (entries : List (Text × Option Value)) :
    readEntries (entries.map fun (name, v) => (name, Value.optionToJson v)) = some entries := by
  induction entries with
  | nil => rfl
  | cons entry entries ih => simp [readEntries, Value.ofJson?_optionToJson, ih]

/-- The dump of a frame is read back entry by entry. -/
theorem ofDump?_entries (h : f.Legible) : ofDump? f.toJson.write.toBytes = some f.entries := by
  have hsettled : f.toJson.write.Settled := (sealed_of_isChar (Json.isChar_write f.readable_toJson)).settled
  rw [ofDump?, hsettled, Json.read_write (f.readable_toJson.mono (by decide)), asShown_toJson h, toJson_eq]
  exact readEntries_map f.entries

/-- The dump of a frame is read back as the map of the frame, each name once and in increasing order, and it is the
same for every frame with this map. -/
theorem dump_reads_back (hd : f.Distinct) (hl : f.Legible) :
    (∃ entries, ofDump? f.toJson.write.toBytes = some entries ∧
      (entries.map Prod.fst).Pairwise (fun s t => s.toBytes < t.toBytes) ∧
      ∀ name, entries.lookup name = f.value? name) ∧
    ∀ g : Frame, g.Distinct → (∀ name, g.value? name = f.value? name) → g.toJson.write = f.toJson.write := by
  refine ⟨⟨f.entries, ofDump?_entries hl, entries_increasing hd hl, lookup_entries hd⟩, ?_⟩
  intro g hg hsame
  rw [toJson_eq, toJson_eq, entries_congr hd hl hg hsame]

/-- A frame declared out of order, with glyphs in it that are escaped in different ways. -/
def mixed : Frame where
  vars := [("z", ⟨.string, some (.str "\"<\\&\u2028\t")⟩), ("a", ⟨.int, some (.int (-2147483648))⟩),
    ("m", ⟨.bool, some (.bool true)⟩), ("k", ⟨.int, none⟩)]

theorem dump_reads_back_mixed : mixed.Distinct ∧ mixed.Legible ∧
    (∃ entries, ofDump? mixed.toJson.write.toBytes = some entries ∧
      (entries.map Prod.fst).Pairwise (fun s t => s.toBytes < t.toBytes) ∧
      ∀ name, entries.lookup name = mixed.value? name) ∧
    ∀ g : Frame, g.Distinct → (∀ name, g.value? name = mixed.value? name) →
      g.toJson.write = mixed.toJson.write := by
  have hd : mixed.Distinct := by
    unfold Distinct
    decide
  have hl : mixed.Legible := by
    refine ⟨by decide, ?_⟩
    simp only [mixed, List.forall_mem_cons]
    refine ⟨fun t ht => ?_, nofun, nofun, nofun, nofun⟩
    cases ht
    decide
  exact ⟨hd, hl, dump_reads_back hd hl⟩

end Frame

/-! ## Frames with distinct names -/

theorem Frame.distinct_iff (f : Frame) : f.Distinct ↔ (f.header.signature.map Prod.fst).Nodup := by
  rw [Frame.Distinct, ← f.signature_names]
  rfl

/-- Frames keep their names apart when they gain variables. -/
theorem Chain.Gains.distinct_names {new : List (Text × VarType)} {c c' : Chain} (h : Gains new c c')
    (hc : ∀ f ∈ c, f.Distinct) : ∀ f ∈ c', f.Distinct := by
  intro f' hf'
  rw [Frame.distinct_iff]
  have hheader : f'.header ∈ grow new c.headers := h.headers ▸ List.mem_map_of_mem hf'
  cases c with
  | nil => cases hheader
  | cons f outer =>
    obtain ⟨hf, houter⟩ := List.forall_mem_cons.1 hc
    rcases List.mem_cons.1 hheader with heq | hmem
    · rw [heq, List.map_append, List.nodup_append]
      refine ⟨h.distinct, (Frame.distinct_iff f).1 hf, ?_⟩
      intro name hnew _ hold rfl
      obtain ⟨d, hd, rfl⟩ := List.mem_map.1 hnew
      have hfree := h.free d hd
      rw [Chain.names_eq_headers] at hfree
      have hhas : (f.header.signature.map Prod.fst).contains d.1 = false := (Bool.or_eq_false_iff.1 hfree).1
      rw [List.contains_iff_mem.2 hold] at hhas
      cases hhas
    · obtain ⟨f'', hf'', heq⟩ := List.mem_map.1 hmem
      rw [← heq]
      exact (Frame.distinct_iff f'').1 (houter f'' hf'')

/-- The globals of a run have distinct names, however the run ends. -/
theorem Program.distinct_globals (p : Program) (registry : Registry) (world : World) (budget : Nat) :
    (p.run registry world budget).globals.Distinct := by
  have hdeclares := (Run.declares_rules ⟨registry, p.allFunctions⟩).start rfl budget
  obtain ⟨new, -, hgains⟩ := hdeclares (.start world budget)
  have hheader : (p.run registry world budget).globals.header = ⟨true, new⟩ := hgains.single rfl
  rw [Frame.distinct_iff, hheader]
  exact hgains.distinct

end ScriptKit
